/-
# Linked lists with a pointer to their end

A queue of nodes can be kept as a pointer to its first node, a link in each node, and a
pointer to the place where the next node is to be written: the pointer to the first node
while the queue is empty, and the link of the last node behind that.  Nodes are named by
what owns them, so the links are a function.

A list of nodes represents such a queue.  Pushing a node that is not in the queue and
popping the first one are then the operations of a first-in first-out queue, and a node
that is not in the queue may be used for anything else.
-/

import Mathlib.Data.List.Nodup
import Mathlib.Logic.Function.Basic

namespace MmtProbe.Math

universe u

/-- Where the pointer to the end points. -/
inductive ListEnd (ν : Type u)
  | /-- At the pointer to the first node. -/
    first
  | /-- At the link of a node. -/
    link (node : ν)
deriving DecidableEq, Repr

structure TailList (ν : Type u) where
  head : Option ν
  tail : ListEnd ν
  next : ν → Option ν

namespace TailList

variable {ν : Type u}

/-- A queue without nodes, whatever the links are. -/
def empty (next : ν → Option ν) : TailList ν := ⟨none, .first, next⟩

/-- The link of a node is set to `NULL`. -/
def clear [DecidableEq ν] (list : TailList ν) (node : ν) : TailList ν :=
  { list with next := Function.update list.next node none }

/-- A node is written where the end points, and the end points at its link. -/
def push [DecidableEq ν] (list : TailList ν) (node : ν) : TailList ν :=
  match list.tail with
  | .first => { list with head := some node, tail := .link node }
  | .link last =>
      { list with next := Function.update list.next last (some node), tail := .link node }

/-- The first node is taken; there may be none. -/
def pop (list : TailList ν) : Option (ν × TailList ν) :=
  match list.head with
  | none => none
  | some node =>
      match list.next node with
      | none => some (node, { list with head := none, tail := .first })
      | some second => some (node, { list with head := some second })

/-! ## What a queue stands for -/

/-- From a pointer the links lead through some nodes to `NULL`. -/
inductive Chain (next : ν → Option ν) : Option ν → List ν → Prop
  | nil : Chain next none []
  | cons {node : ν} {nodes : List ν} (rest : Chain next (next node) nodes) :
      Chain next (some node) (node :: nodes)

/-- Where the end of a queue of some nodes points. -/
def endOf : List ν → ListEnd ν
  | [] => .first
  | node :: nodes => .link ((node :: nodes).getLast (List.cons_ne_nil node nodes))

structure Represents (list : TailList ν) (nodes : List ν) : Prop where
  chain : Chain list.next list.head nodes
  tail : list.tail = endOf nodes
  nodup : nodes.Nodup

variable {list : TailList ν} {node : ν} {nodes : List ν} {first : Option ν}

theorem empty_represents (next : ν → Option ν) : (empty next).Represents [] :=
  ⟨.nil, rfl, List.nodup_nil⟩

theorem Chain.eq_nil {next : ν → Option ν} (chain : Chain next none nodes) : nodes = [] := by
  cases chain
  rfl

theorem Chain.head_eq {next : ν → Option ν} (chain : Chain next first nodes) :
    first = nodes.head? := by
  cases chain <;> rfl

theorem Represents.head_eq (represents : list.Represents nodes) : list.head = nodes.head? :=
  represents.chain.head_eq

theorem mem_of_endOf {last : ν} (ends : endOf nodes = .link last) : last ∈ nodes := by
  cases nodes with
  | nil => cases ends
  | cons node nodes =>
      rw [endOf, ListEnd.link.injEq] at ends
      rw [← ends]
      exact List.getLast_mem _

/-- The end points at the link of a node of the queue. -/
theorem Represents.mem_of_tail {last : ν} (represents : list.Represents nodes)
    (ends : list.tail = .link last) : last ∈ nodes :=
  mem_of_endOf (represents.tail ▸ ends)

theorem endOf_append (nodes : List ν) (node : ν) : endOf (nodes ++ [node]) = .link node := by
  cases nodes with
  | nil => rfl
  | cons first nodes =>
      rw [List.cons_append, endOf]
      congr 1
      exact List.getLast_append_singleton (first :: nodes)

section Links

variable [DecidableEq ν]

/-- Links of nodes that are not in the chain do not matter. -/
theorem Chain.update {next : ν → Option ν} (chain : Chain next first nodes)
    (apart : node ∉ nodes) (value : Option ν) :
    Chain (Function.update next node value) first nodes := by
  induction chain with
  | nil => exact .nil
  | @cons other nodes rest ih =>
      rw [List.mem_cons, not_or] at apart
      refine .cons ?_
      rw [Function.update_of_ne (Ne.symm apart.1)]
      exact ih apart.2

/-- A chain is made longer at the link of its last node. -/
theorem Chain.append {next : ν → Option ν} (chain : Chain next first nodes) (last : ν)
    (isLast : endOf nodes = .link last) (nodup : nodes.Nodup) (fresh : node ∉ nodes)
    (ends : next node = none) :
    Chain (Function.update next last (some node)) first (nodes ++ [node]) := by
  induction chain with
  | nil => cases isLast
  | @cons other nodes rest ih =>
      rw [List.nodup_cons] at nodup
      rw [List.mem_cons, not_or] at fresh
      refine .cons ?_
      cases nodes with
      | nil =>
          cases isLast
          rw [List.getLast_singleton, Function.update_self]
          refine .cons ?_
          rw [Function.update_of_ne fresh.1, ends]
          exact .nil
      | cons second nodes =>
          have hlast : endOf (second :: nodes) = .link last := by
            rw [← isLast, endOf, endOf, List.getLast_cons (List.cons_ne_nil second nodes)]
          have hmem : last ∈ second :: nodes := mem_of_endOf hlast
          rw [Function.update_of_ne (ne_of_mem_of_not_mem hmem nodup.1).symm]
          exact ih hlast nodup.2 fresh.2

@[simp]
theorem clear_next_self (list : TailList ν) (node : ν) : (list.clear node).next node = none := by
  simp only [clear, Function.update_self]

/-- A node that is not in the queue can be set up. -/
theorem Represents.clear (represents : list.Represents nodes) (apart : node ∉ nodes) :
    (list.clear node).Represents nodes :=
  ⟨represents.chain.update apart none, represents.tail, represents.nodup⟩

/-- A node is pushed behind the others. -/
theorem Represents.push (represents : list.Represents nodes) (fresh : node ∉ nodes)
    (ends : list.next node = none) : (list.push node).Represents (nodes ++ [node]) := by
  have hnodup : (nodes ++ [node]).Nodup :=
    List.nodup_append.mpr ⟨represents.nodup, List.nodup_singleton node, by
      rintro other hother _ hnode rfl
      rw [List.mem_singleton] at hnode
      exact fresh (hnode ▸ hother)⟩
  cases nodes with
  | nil =>
      rw [TailList.push, represents.tail]
      refine ⟨.cons ?_, rfl, hnodup⟩
      have hends : Chain list.next (list.next node) [] := ends ▸ .nil
      exact hends
  | cons first nodes =>
      rw [TailList.push, represents.tail]
      refine ⟨?_, (endOf_append (first :: nodes) node).symm, hnodup⟩
      exact represents.chain.append _ rfl represents.nodup fresh ends

end Links

theorem Represents.pop_nil (represents : list.Represents []) : list.pop = none := by
  rw [pop, represents.head_eq]
  rfl

/-- The first node is popped. -/
theorem Represents.pop_cons (represents : list.Represents (node :: nodes)) :
    ∃ rest, list.pop = some (node, rest) ∧ rest.Represents nodes ∧ rest.next = list.next := by
  have hhead : list.head = some node := represents.head_eq
  have hchain : Chain list.next (list.next node) nodes := by
    have hwhole := represents.chain
    rw [hhead] at hwhole
    cases hwhole with
    | cons rest => exact rest
  have hnodup : nodes.Nodup := (List.nodup_cons.mp represents.nodup).2
  cases hnext : list.next node with
  | none =>
      rw [hnext] at hchain
      have hnil := hchain.eq_nil
      subst hnil
      refine ⟨⟨none, .first, list.next⟩, ?_, ⟨.nil, rfl, List.nodup_nil⟩, rfl⟩
      simp only [pop, hhead, hnext]
  | some second =>
      rw [hnext] at hchain
      refine ⟨{ list with head := some second }, ?_, ⟨hchain, ?_, hnodup⟩, rfl⟩
      · simp only [pop, hhead, hnext]
      · rw [represents.tail]
        cases hchain
        rw [endOf, endOf, List.getLast_cons (List.cons_ne_nil _ _)]

end TailList

end MmtProbe.Math

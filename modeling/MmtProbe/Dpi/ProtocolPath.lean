/-
# The text of a protocol path

`dpi_proto_hierarchy_ids_to_str` prints the identifiers of a hierarchy behind the first
one, with dots between them.  The identifier with the index 1 is printed as soon as there
is any protocol at all, so with one protocol it is read from behind the path.  And the
NUL is written behind what was printed, where nothing asks whether there is room for it:
an identifier that does not fit is left out, but one that fits exactly fills the buffer.

The reads of the path are checked here, and the buffer has the size that the function is
given.
-/

import MmtProbe.Dpi.SessionMessage

namespace MmtProbe.Dpi

open MmtProbe.Math MmtProbe.Lib

/-! ## The code -/

/-- `proto_path[index]` -/
def idAt (path : List UInt32) (index : Nat) : Except Fault UInt32 :=
  match path[index]? with
  | some id => .ok id
  | none => .error (.load index)

/-- The loop of `dpi_proto_hierarchy_ids_to_str`. -/
def idsLoop (path : List UInt32) (maxLength : Nat) :
    Nat → Nat → Nat × List UInt8 → Except Fault (Nat × List UInt8)
  | 0, _, sofar => .ok sofar
  | rounds + 1, index, (offset, dest) => do
      let (written, dest) ← appendChar dest offset (maxLength - offset) 46
      let offset := offset + written
      let id ← idAt path index
      let (written, dest) ← appendNumber dest offset (maxLength - offset) id.toUInt64
      idsLoop path maxLength rounds (index + 1) (offset + written, dest)

/-- The identifiers, from the one with index 1 on. -/
def ids (path : List UInt32) (dest : List UInt8) (maxLength : Nat) :
    Except Fault (Nat × List UInt8) :=
  if 1 ≤ path.length then do
    let id ← idAt path 1
    let sofar ← appendNumber dest 0 maxLength id.toUInt64
    idsLoop path maxLength (path.length - 2) 2 sofar
  else .ok (0, dest)

/-- `dpi_proto_hierarchy_ids_to_str`, with checked reads of the path. -/
def idsToStr (path : List UInt32) (dest : List UInt8) (maxLength : Nat) :
    Except Fault (Nat × List UInt8) := do
  let (offset, dest) ← ids path dest maxLength
  let dest ← store dest offset 0
  return (offset, dest)

/-- A path as the beginning of `proto_path`, with what the array holds behind it. -/
def ProtoHierarchy.ofPath (path : List UInt32) (behind : Nat → Int) : ProtoHierarchy where
  len := path.length
  protoPath index := (path[index]?.map fun id => (id.toNat : Int)).getD (behind index)

theorem ofPath_eq {path : List UInt32} {behind : Nat → Int} {index : Nat} {id : UInt32}
    (read : idAt path index = .ok id) :
    UInt64.ofInt ((ProtoHierarchy.ofPath path behind).protoPath index) = id.toUInt64 := by
  rw [idAt] at read
  cases hget : path[index]? with
  | none =>
      rw [hget] at read
      cases read
  | some other =>
      rw [hget] at read
      cases read
      simp only [ProtoHierarchy.ofPath, hget, Option.map_some, Option.getD_some]
      apply UInt64.toNat_inj.mp
      have hlt := id.toNat_lt
      rw [toNat_ofInt (Int.natCast_nonneg _) (by omega), UInt32.toNat_toUInt64]
      rfl

/-! ## What is wanted -/

/-- The identifiers behind the first one, joined by dots. -/
def pathText (path : List UInt32) : List UInt8 :=
  decimals 46 (path.tail.map UInt32.toNat)

/-- The reads are inside the path and the writes inside the buffer, and a text for which the
buffer is large enough is complete. -/
structure PathOk (path : List UInt32) (dest : List UInt8) : Prop where
  inside : ∃ result, idsToStr path dest dest.length = .ok result
  complete : (pathText path).length < dest.length →
    ∃ result, idsToStr path dest dest.length = .ok result ∧
      loadString result.2 0 = .ok (pathText path)

/-- What is left of some room behind an identifier: one that does not fit is left out. -/
def roomBehind (room : Nat) (id : UInt32) : Nat :=
  if digitCount id.toNat ≤ room then room - digitCount id.toNat else room

/-- Some room is left behind identifiers each of which has a dot before it. -/
def RoomLeft : Nat → List UInt32 → Prop
  | room, [] => 0 < room
  | room, id :: path => 0 < room ∧ RoomLeft (roomBehind (room - 1) id) path

/-- Some room is left behind identifiers with dots between them. -/
def LeavesRoom (room : Nat) : List UInt32 → Prop
  | [] => 0 < room
  | id :: path => RoomLeft (roomBehind room id) path

/-! ## The texts that are written -/

/-- What is written for identifiers each of which has a dot before it. -/
def pathBehind (size : Nat) : List UInt8 → List UInt32 → List UInt8
  | text, [] => text
  | text, id :: path =>
      let dotted := text ++ (if size - text.length = 0 then [] else [46])
      pathBehind size (dotted ++ numberText (size - dotted.length) id.toNat) path

variable {size : Nat} {text : List UInt8}

theorem length_dotted_le (inside : text.length ≤ size) :
    (text ++ (if size - text.length = 0 then [] else [46])).length ≤ size := by
  rw [List.length_append]
  split_ifs
  · exact inside
  · rw [List.length_singleton]
    omega

theorem length_number_le (inside : text.length ≤ size) (val : Nat) :
    (text ++ numberText (size - text.length) val).length ≤ size := by
  have hroom := length_numberText_le (size - text.length) val
  rw [List.length_append]
  omega

theorem length_pathBehind_le (path : List UInt32) (inside : text.length ≤ size) :
    (pathBehind size text path).length ≤ size := by
  induction path generalizing text with
  | nil => exact inside
  | cons id path ih => exact ih (length_number_le (length_dotted_le inside) id.toNat)

/-- What is left behind a number. -/
theorem room_number (inside : text.length ≤ size) (id : UInt32) :
    size - (text ++ numberText (size - text.length) id.toNat).length =
      roomBehind (size - text.length) id := by
  rw [List.length_append, length_numberText, numberLength, roomBehind]
  split_ifs <;> omega

/-- The buffer is not filled exactly when some room is left by each part of the text. -/
theorem length_pathBehind_lt_iff (path : List UInt32) (inside : text.length ≤ size) :
    (pathBehind size text path).length < size ↔ RoomLeft (size - text.length) path := by
  induction path generalizing text with
  | nil =>
      rw [pathBehind, RoomLeft]
      omega
  | cons id path ih =>
      have hdotted := length_dotted_le inside
      rw [pathBehind, ih (length_number_le hdotted id.toNat), room_number hdotted, RoomLeft]
      split_ifs with hfull
      · -- no room is left for a dot, and none for what follows
        rw [List.append_nil, hfull]
        have hnone : ∀ path : List UInt32, ¬RoomLeft (roomBehind 0 id) path := by
          intro path
          have hzero : roomBehind 0 id = 0 := by
            rw [roomBehind]
            split_ifs <;> omega
          rw [hzero]
          cases path with
          | nil => exact Nat.lt_irrefl 0
          | cons next path => exact fun left => Nat.lt_irrefl 0 left.1
        exact iff_of_false (hnone path) (fun left => Nat.lt_irrefl 0 left.1)
      · rw [List.length_append, List.length_singleton, Nat.sub_add_eq,
          and_iff_right (Nat.pos_of_ne_zero hfull)]

/-- A text that fits is written completely. -/
theorem pathBehind_eq (path : List UInt32)
    (fits : (text ++ path.flatMap fun id => 46 :: decimal id.toNat).length ≤ size) :
    pathBehind size text path = text ++ path.flatMap fun id => 46 :: decimal id.toNat := by
  induction path generalizing text with
  | nil => rw [pathBehind, List.flatMap_nil, List.append_nil]
  | cons id path ih =>
      have hlength : (text ++ [46] ++ decimal id.toNat).length + (path.flatMap fun id =>
          46 :: decimal id.toNat).length ≤ size := by
        simp only [List.flatMap_cons, List.length_append, List.length_cons, List.length_nil]
          at fits ⊢
        omega
      have hdotted : text ++ (if size - text.length = 0 then [] else [46]) = text ++ [46] := by
        rw [if_neg]
        simp only [List.length_append, List.length_cons, List.length_nil] at hlength
        omega
      have hnumber : numberText (size - (text ++ [46]).length) id.toNat = decimal id.toNat := by
        rw [numberText, if_pos]
        simp only [List.length_append, List.length_cons, List.length_nil, length_decimal]
          at hlength ⊢
        omega
      rw [pathBehind, hdotted, hnumber, ih (by rw [List.length_append]; exact hlength),
        List.flatMap_cons]
      simp only [List.append_assoc, List.cons_append, List.nil_append]

/-! ## The loop -/

variable {dest : List UInt8} {path : List UInt32}

theorem idsLoop_eq {index : Nat} {rest : List UInt32} (left : path.drop index = rest)
    (inside : text.length ≤ dest.length) (small : dest.length < 2 ^ 64) :
    idsLoop path dest.length rest.length index (text.length, splice dest 0 text) =
      .ok ((pathBehind dest.length text rest).length,
        splice dest 0 (pathBehind dest.length text rest)) := by
  induction rest generalizing index text with
  | nil => rfl
  | cons id rest ih =>
      have hlength : (splice dest 0 text).length = dest.length := length_splice (by omega)
      have hid : idAt path index = .ok id := by
        have hget : path[index]? = some id := by
          rw [← Nat.add_zero index, ← List.getElem?_drop, left]
          rfl
        rw [idAt, hget]
      have hrest : path.drop (index + 1) = rest := by
        rw [← List.drop_drop, left]
        rfl
      have hdotted := length_dotted_le inside
      have hnumber := length_number_le hdotted id.toNat
      have hdot := @appendChar_eq (splice dest 0 text) text.length (dest.length - text.length)
        (by omega) 46
      dsimp only at hdot
      rw [splice_splice_zero (by rw [← List.length_append]; exact hdotted)] at hdot
      rw [pathBehind, List.length_cons, idsLoop, hdot, bind_ok]
      simp only [← List.length_append, hid, bind_ok]
      generalize text ++ (if dest.length - text.length = 0 then [] else [46]) = dotted
        at hdotted hnumber ⊢
      have hlength' : (splice dest 0 dotted).length = dest.length := length_splice (by omega)
      rw [appendNumber_eq (by omega) (by omega), UInt32.toNat_toUInt64,
        splice_splice_zero (by rw [← List.length_append]; exact hnumber), bind_ok]
      simp only [← List.length_append]
      exact ih hrest hnumber

/-- Behind a first identifier that is read. -/
theorem idsToStr_cons_cons (first id : UInt32) (path : List UInt32)
    (small : dest.length < 2 ^ 64) :
    idsToStr (first :: id :: path) dest dest.length =
      (store (splice dest 0 (pathBehind dest.length (numberText dest.length id.toNat) path))
        (pathBehind dest.length (numberText dest.length id.toNat) path).length 0).map
          fun dest' =>
            ((pathBehind dest.length (numberText dest.length id.toNat) path).length, dest') := by
  have hid : idAt (first :: id :: path) 1 = .ok id := rfl
  have hrounds : (first :: id :: path).length - 2 = path.length := by
    rw [List.length_cons, List.length_cons]
    omega
  have hnumber := length_numberText_le dest.length id.toNat
  have hloop := @idsLoop_eq (numberText dest.length id.toNat) dest (first :: id :: path) 2 path
    rfl hnumber small
  rw [idsToStr, ids, if_pos (by rw [List.length_cons]; omega), hid, bind_ok,
    appendNumber_eq (by omega) small, UInt32.toNat_toUInt64, bind_ok, hrounds, hloop, bind_ok]
  dsimp only
  generalize store _ _ 0 = stored
  cases stored with
  | error reason => rfl
  | ok dest' => rfl

/-- The path has room in the buffer exactly when the NUL is written inside. -/
theorem exists_idsToStr_iff (small : dest.length < 2 ^ 64) :
    (∃ result, idsToStr path dest dest.length = .ok result) ↔
      path.length ≠ 1 ∧ LeavesRoom dest.length path.tail := by
  rcases path with _ | ⟨first, _ | ⟨id, path⟩⟩
  · have hrun : idsToStr [] dest dest.length = (store dest 0 0).map fun dest' => (0, dest') := by
      cases dest <;> rfl
    rw [hrun, List.tail_nil, LeavesRoom, store]
    split_ifs with hroom
    · exact iff_of_true ⟨_, rfl⟩ ⟨by decide, hroom⟩
    · refine iff_of_false ?_ fun fits => hroom fits.2
      rintro ⟨result, hrun⟩
      cases hrun
  · refine iff_of_false ?_ fun fits => fits.1 rfl
    rintro ⟨result, hrun⟩
    cases hrun
  · have hnumber := length_numberText_le dest.length id.toNat
    have hwritten := length_pathBehind_le path hnumber
    have hlength : (splice dest 0
        (pathBehind dest.length (numberText dest.length id.toNat) path)).length = dest.length :=
      length_splice (by omega)
    have hroom := @room_number dest.length [] (Nat.zero_le _) id
    rw [List.nil_append, List.length_nil, Nat.sub_zero] at hroom
    rw [idsToStr_cons_cons first id path small, List.tail_cons, LeavesRoom, ← hroom,
      ← length_pathBehind_lt_iff path hnumber, store, hlength]
    split_ifs with hlt
    · exact iff_of_true ⟨_, rfl⟩ ⟨by simp, hlt⟩
    · refine iff_of_false ?_ fun fits => hlt fits.2
      rintro ⟨result, hrun⟩
      cases hrun

/-- A text for which the buffer is large enough is written completely. -/
theorem idsToStr_complete (two : path.length ≠ 1) (small : dest.length < 2 ^ 64)
    (enough : (pathText path).length < dest.length) :
    ∃ result, idsToStr path dest dest.length = .ok result ∧
      loadString result.2 0 = .ok (pathText path) := by
  match path, two with
  | [], _ =>
      have hempty : (pathText []).length = 0 := rfl
      have hstore : store dest 0 0 = .ok (splice dest 0 ([] ++ [0])) :=
        store_eq_splice (by omega) 0
      have hread := @loadString_splice dest [] 0
        (by rw [List.length_nil]; omega) List.not_mem_nil
      refine ⟨(0, splice dest 0 ([] ++ [0])), ?_, hread⟩
      rw [idsToStr, ids, if_neg (by decide), bind_ok]
      simp only [hstore, bind_ok]
      rfl
  | first :: id :: path, _ =>
      have htext : pathText (first :: id :: path) =
          decimal id.toNat ++ path.flatMap fun id => 46 :: decimal id.toNat := by
        rw [pathText, List.tail_cons, List.map_cons, decimals_cons, List.flatMap_map]
      have hfirst : numberText dest.length id.toNat = decimal id.toNat := by
        rw [htext, List.length_append, length_decimal] at enough
        exact if_pos (by omega)
      have hwritten : pathBehind dest.length (numberText dest.length id.toNat) path =
          pathText (first :: id :: path) := by
        rw [hfirst, htext]
        exact pathBehind_eq path (by rw [← htext]; omega)
      have hplain : (0 : UInt8) ∉ pathText (first :: id :: path) := by
        have hnumber : ∀ n, (0 : UInt8) ∉ decimal n := fun n => notMem_fixed rfl _ _
        rw [htext]
        simp [hnumber]
      have hstore := @store_splice_zero dest (pathText (first :: id :: path)) (by omega) 0
      refine ⟨((pathText (first :: id :: path)).length,
        splice dest 0 (pathText (first :: id :: path) ++ [0])), ?_,
        @loadString_splice dest (pathText (first :: id :: path)) 0 (by omega) hplain⟩
      rw [idsToStr_cons_cons first id path small, hwritten, hstore]
      rfl

/-- The reads are inside the path, the writes inside the buffer and a text that fits is
complete, exactly when the path has no single protocol and the buffer is not filled. -/
theorem pathOk_iff (path : List UInt32) (dest : List UInt8) (small : dest.length < 2 ^ 31) :
    PathOk path dest ↔ path.length ≠ 1 ∧ LeavesRoom dest.length path.tail := by
  rw [← exists_idsToStr_iff (by omega)]
  constructor
  · exact PathOk.inside
  · intro inside
    refine ⟨inside, ?_⟩
    exact idsToStr_complete ((exists_idsToStr_iff (by omega)).mp inside).1 (by omega)

/-- A path of three protocols in a buffer of eight bytes. -/
theorem pathOk_iff_three :
    PathOk [99, 178, 354] (List.replicate 8 255) ↔
      [99, 178, 354].length ≠ 1 ∧ LeavesRoom (List.replicate 8 (255 : UInt8)).length [178, 354] :=
  pathOk_iff [99, 178, 354] (List.replicate 8 255) (by rw [List.length_replicate]; decide)

/-- The one identifier of a path is not printed, but another one is read; and of two
identifiers the second one fills its buffer. -/
theorem not_pathOk :
    idsToStr [99] (List.replicate 128 255) 128 = .error (.load 1) ∧
      ¬PathOk [99] (List.replicate 128 255) ∧
      idsToStr [99, 178] (List.replicate 3 255) 3 = .error (.store 3) ∧
      ¬PathOk [99, 178] (List.replicate 3 255) := by
  have hsingle : idsToStr [99] (List.replicate 128 255) 128 = .error (.load 1) := rfl
  have hfull : idsToStr [99, 178] (List.replicate 3 255) 3 = .error (.store 3) := by
    decide +kernel
  refine ⟨hsingle, ?_, hfull, ?_⟩
  · rintro ⟨⟨result, hrun⟩, -⟩
    rw [List.length_replicate, hsingle] at hrun
    cases hrun
  · rintro ⟨⟨result, hrun⟩, -⟩
    rw [List.length_replicate, hfull] at hrun
    cases hrun

/-! ## Without the check of the reads -/

theorem idsLoop_unchecked {behind : Nat → Int} {maxLength rounds index : Nat}
    {sofar result : Nat × List UInt8}
    (run : idsLoop path maxLength rounds index sofar = .ok result) :
    protoIdsLoop (.ofPath path behind) maxLength rounds index sofar = .ok result := by
  induction rounds generalizing index sofar with
  | zero => exact run
  | succ rounds ih =>
      rw [idsLoop] at run
      rw [protoIdsLoop]
      rcases bind_eq_ok_iff.mp run with ⟨⟨dot, dotted⟩, hdot, run⟩
      rcases bind_eq_ok_iff.mp run with ⟨id, hid, run⟩
      rcases bind_eq_ok_iff.mp run with ⟨⟨written, numbered⟩, hnumber, run⟩
      rw [hdot, bind_ok]
      dsimp only
      rw [ofPath_eq hid, hnumber, bind_ok]
      exact ih run

/-- What the function writes when it reads inside the path is what it writes in memory. -/
theorem idsToStr_unchecked (behind : Nat → Int) {maxLength : Nat} {result : Nat × List UInt8}
    (run : idsToStr path dest maxLength = .ok result) :
    dpiProtoHierarchyIdsToStr (.ofPath path behind) dest maxLength = .ok result := by
  rcases bind_eq_ok_iff.mp run with ⟨sofar, hids, hclose⟩
  have hunchecked : protoIds (.ofPath path behind) dest maxLength = .ok sofar := by
    rw [ids] at hids
    rw [protoIds]
    split_ifs at hids with hsome
    · rcases bind_eq_ok_iff.mp hids with ⟨id, hid, hids⟩
      rcases bind_eq_ok_iff.mp hids with ⟨first, hfirst, hloop⟩
      rw [if_pos (by exact hsome), ofPath_eq hid, hfirst, bind_ok]
      exact idsLoop_unchecked hloop
    · rw [if_neg (by exact hsome)]
      exact hids
  rw [dpiProtoHierarchyIdsToStr, hunchecked]
  exact hclose

end MmtProbe.Dpi

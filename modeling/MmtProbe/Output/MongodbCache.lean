/-
# The cache in front of MongoDB

The messages for MongoDB are collected in an array of documents, and are inserted together
when the array is full, at a flush from outside and when the output is released.  The size of
the array is a configured number of 32 bits, and is compared with the number of messages only
after a message was stored.  A message that is not well formed is not counted, and its place
is used again.

The array is gone through with an `int`.  So every message that is well formed is inserted
once, in order and inside of the array, unless the size is 0 and a message is written, or is
2147483648 or more.  The text of a message is read by the library, which is a parameter here.
-/

import MmtProbe.Math.Bytes
import MmtProbe.Math.Batches

namespace MmtProbe.Output

open MmtProbe.Math

/-! ## The code -/

/-- What an element of `messages_cache` points to. -/
inductive CacheSlot (Doc : Type) where
  /-- The array was allocated, and nothing was stored yet. -/
  | unset
  /-- A document of `bson_new`, or one whose content was destroyed. -/
  | blank
  | holds (doc : Doc)
  | freed
deriving DecidableEq, Repr

/-- Why a function does not return. -/
inductive CacheFault where
  /-- An element behind an array of this length. -/
  | index (length : Nat)
  /-- An element that points to no document. -/
  | slot
  /-- `INT_MAX` is incremented. -/
  | overflow
deriving DecidableEq, Repr

/-- `mongodb_output_t` -/
structure MongodbOutput (Doc : Type) where
  messagesMaxLimit : UInt32
  messagesCount : UInt32
  messagesCache : List (CacheSlot Doc)
deriving DecidableEq, Repr

/-- What was passed to `mongoc_collection_insert_many`, call by call. -/
abbrev Inserted (Doc : Type) := List (List (CacheSlot Doc))

variable {Doc : Type}

/-- A loop over the cache with an `int`: so many rounds, from an index on. -/
def eachSlot (act : CacheSlot Doc → CacheSlot Doc) :
    Nat → Nat → List (CacheSlot Doc) → Except CacheFault (List (CacheSlot Doc))
  | 0, _, cache => .ok cache
  | rounds + 1, i, cache =>
      if i < cache.length then
        if i + 1 < 2 ^ 31 then eachSlot act rounds (i + 1) (cache.modify i act)
        else .error .overflow
      else .error (.index cache.length)

/-- `mongodb_output_alloc_init`, behind the connection to the database. -/
def mongodbOutputAllocInit (Doc : Type) (cacheMax : UInt32) :
    Except CacheFault (MongodbOutput Doc) := do
  let cache ← eachSlot (fun _ => .blank) cacheMax.toNat 0 (List.replicate cacheMax.toNat .unset)
  return ⟨cacheMax, 0, cache⟩

namespace MongodbOutput

/-- `mongodb_output_flush_to_database`.  An error of the database is logged. -/
def flushToDatabase (mongo : MongodbOutput Doc) :
    Except CacheFault (MongodbOutput Doc × Inserted Doc) :=
  if mongo.messagesCount = 0 then .ok (mongo, [])
  else if mongo.messagesCount.toNat ≤ mongo.messagesCache.length then do
    let cache ← eachSlot (fun _ => .blank) mongo.messagesCount.toNat 0 mongo.messagesCache
    return ({ mongo with messagesCount := 0, messagesCache := cache },
      [mongo.messagesCache.take mongo.messagesCount.toNat])
  else .error (.index mongo.messagesCache.length)

/-- `mongodb_output_write`.  When the text cannot be read, the content of the document is
destroyed. -/
def write (bsonInitFromJson : List UInt8 → Option Doc) (mongo : MongodbOutput Doc)
    (message : List UInt8) : Except CacheFault (MongodbOutput Doc × Inserted Doc × Int) :=
  match mongo.messagesCache[mongo.messagesCount.toNat]? with
  | none => .error (.index mongo.messagesCache.length)
  | some .unset | some .freed => .error .slot
  | some _ =>
      match bsonInitFromJson message with
      | none =>
          let cache := mongo.messagesCache.set mongo.messagesCount.toNat .blank
          .ok ({ mongo with messagesCache := cache }, [], 0)
      | some doc => do
          let cache := mongo.messagesCache.set mongo.messagesCount.toNat (.holds doc)
          let mongo := { mongo with
            messagesCount := mongo.messagesCount + 1
            messagesCache := cache }
          if mongo.messagesMaxLimit ≤ mongo.messagesCount then do
            let (mongo, inserted) ← mongo.flushToDatabase
            return (mongo, inserted, 1)
          else return (mongo, [], 1)

/-- `mongodb_output_release` -/
def release (mongo : MongodbOutput Doc) :
    Except CacheFault (List (CacheSlot Doc) × Inserted Doc) := do
  let (mongo, inserted) ← mongo.flushToDatabase
  let cache ← eachSlot (fun _ => .freed) mongo.messagesMaxLimit.toNat 0 mongo.messagesCache
  return (cache, inserted)

end MongodbOutput

/-- A call from outside, before the output is released. -/
inductive MongodbCall where
  | write (message : List UInt8)
  | flush
deriving DecidableEq, Repr

variable (bsonInitFromJson : List UInt8 → Option Doc)

/-- One call, and what it inserts. -/
def mongodbCall (mongo : MongodbOutput Doc) :
    MongodbCall → Except CacheFault (MongodbOutput Doc × Inserted Doc)
  | .write message => do
      let (mongo, inserted, _) ← mongo.write bsonInitFromJson message
      return (mongo, inserted)
  | .flush => mongo.flushToDatabase

/-- Some calls, one after the other, and what they insert. -/
def mongodbCalls : List MongodbCall → MongodbOutput Doc →
    Except CacheFault (MongodbOutput Doc × Inserted Doc)
  | [], mongo => .ok (mongo, [])
  | call :: calls, mongo => do
      let (mongo, inserted) ← mongodbCall bsonInitFromJson mongo call
      let (mongo, more) ← mongodbCalls calls mongo
      return (mongo, inserted ++ more)

/-- The output behind its first calls. -/
def mongodbBehind (cacheMax : UInt32) (calls : List MongodbCall) :
    Except CacheFault (MongodbOutput Doc × Inserted Doc) := do
  let mongo ← mongodbOutputAllocInit Doc cacheMax
  mongodbCalls bsonInitFromJson calls mongo

/-- All that a run inserts, from the allocation to the release. -/
def mongodbRun (cacheMax : UInt32) (calls : List MongodbCall) :
    Except CacheFault (Inserted Doc) := do
  let (mongo, inserted) ← mongodbBehind bsonInitFromJson cacheMax calls
  let (_, last) ← mongo.release
  return inserted ++ last

/-! ## What is wanted -/

/-- The documents of the messages that are well formed, in the order of their calls. -/
def wellFormed (calls : List MongodbCall) : List Doc :=
  calls.filterMap fun call =>
    match call with
    | .write message => bsonInitFromJson message
    | .flush => none

/-- Whenever a write starts there is a place for its message, and the well-formed messages are
inserted, each once and in order. -/
structure InsertsAll (cacheMax : UInt32) (calls : List MongodbCall) : Prop where
  place : ∀ earlier message later, calls = earlier ++ .write message :: later →
    ∃ mongo inserted, mongodbBehind bsonInitFromJson cacheMax earlier = .ok (mongo, inserted) ∧
      mongo.messagesCount < mongo.messagesMaxLimit
  inserted : ∃ inserted, mongodbRun bsonInitFromJson cacheMax calls = .ok inserted ∧
    inserted.flatten = (wellFormed bsonInitFromJson calls).map .holds

/-- No call writes a message. -/
def NoWrite (calls : List MongodbCall) : Prop := ∀ message, .write message ∉ calls

/-! ## The loops -/

section Loops

variable {act : CacheSlot Doc → CacheSlot Doc}

theorem modify_append_cons (front back : List (CacheSlot Doc)) (slot : CacheSlot Doc) :
    (front ++ slot :: back).modify front.length act = front ++ act slot :: back := by
  induction front with
  | nil => rfl
  | cons first front ih => simp [ih]

/-- The elements from an index on are all changed. -/
theorem eachSlot_eq (front body back : List (CacheSlot Doc))
    (small : front.length + body.length < 2 ^ 31) :
    eachSlot act body.length front.length (front ++ body ++ back) =
      .ok (front ++ body.map act ++ back) := by
  induction body generalizing front with
  | nil => simp [eachSlot]
  | cons slot body ih =>
      rw [List.length_cons] at small
      have hnext := ih (front ++ [act slot]) (by
        rw [List.length_append, List.length_singleton]
        omega)
      have hmodify : (front ++ slot :: body ++ back).modify front.length act =
          front ++ [act slot] ++ body ++ back := by
        simp [modify_append_cons]
      rw [List.length_cons, eachSlot, if_pos (by simp), if_pos (by omega), hmodify]
      rw [List.length_append, List.length_singleton] at hnext
      rw [hnext]
      simp

/-- A loop over too many elements does not end well. -/
theorem eachSlot_overflow (front body : List (CacheSlot Doc)) (inside : front.length < 2 ^ 31)
    (large : 2 ^ 31 ≤ front.length + body.length) :
    eachSlot act body.length front.length (front ++ body) = .error .overflow := by
  induction body generalizing front with
  | nil =>
      rw [List.length_nil] at large
      omega
  | cons slot body ih =>
      rw [List.length_cons] at large
      have hmodify : (front ++ slot :: body).modify front.length act =
          front ++ [act slot] ++ body := by
        simp [modify_append_cons]
      rw [List.length_cons, eachSlot, if_pos (by simp)]
      by_cases hlast : front.length + 1 < 2 ^ 31
      · have hnext := ih (front ++ [act slot])
          (by rw [List.length_append, List.length_singleton]; exact hlast)
          (by rw [List.length_append, List.length_singleton]; omega)
        rw [List.length_append, List.length_singleton] at hnext
        rw [if_pos hlast, hmodify, hnext]
      · rw [if_neg hlast]

end Loops

/-! ## The output holds what is pending -/

/-- The cache begins with the documents that are pending, and blank ones follow. -/
structure HoldsPending (limit : UInt32) (mongo : MongodbOutput Doc) (pending : List Doc) :
    Prop where
  bound : mongo.messagesMaxLimit = limit
  count : mongo.messagesCount.toNat = pending.length
  cache : mongo.messagesCache =
    pending.map .holds ++ List.replicate (limit.toNat - pending.length) .blank
  fits : pending.length ≤ limit.toNat

variable {limit : UInt32} {mongo : MongodbOutput Doc} {pending : List Doc}

theorem HoldsPending.length_cache (holds : HoldsPending limit mongo pending) :
    mongo.messagesCache.length = limit.toNat := by
  have hfits := holds.fits
  rw [holds.cache, List.length_append, List.length_map, List.length_replicate]
  omega

theorem allocInit_eq (small : limit.toNat < 2 ^ 31) :
    ∃ mongo, mongodbOutputAllocInit Doc limit = .ok mongo ∧ HoldsPending limit mongo [] := by
  have hloop := @eachSlot_eq Doc (fun _ => .blank) [] (List.replicate limit.toNat .unset) []
    (by rw [List.length_nil, List.length_replicate]; omega)
  rw [List.length_replicate, List.map_replicate, List.nil_append, List.append_nil, List.nil_append,
    List.append_nil, List.length_nil] at hloop
  refine ⟨⟨limit, 0, List.replicate limit.toNat .blank⟩, ?_, rfl, rfl, rfl, Nat.zero_le _⟩
  rw [mongodbOutputAllocInit, hloop]
  rfl

theorem allocInit_overflow (large : 2 ^ 31 ≤ limit.toNat) :
    mongodbOutputAllocInit Doc limit = .error .overflow := by
  have hloop := @eachSlot_overflow Doc (fun _ => .blank) [] (List.replicate limit.toNat .unset)
    (Nat.two_pow_pos 31) (by rw [List.length_nil, List.length_replicate]; omega)
  rw [List.length_replicate, List.nil_append, List.length_nil] at hloop
  rw [mongodbOutputAllocInit, hloop]
  rfl

/-- A flush hands on what is pending, in one call. -/
theorem flush_eq (holds : HoldsPending limit mongo pending) (small : limit.toNat < 2 ^ 31) :
    ∃ flushed, mongo.flushToDatabase =
        .ok (flushed, if pending = [] then [] else [pending.map .holds]) ∧
      HoldsPending limit flushed [] := by
  have hfits := holds.fits
  have hcount := holds.count
  rw [MongodbOutput.flushToDatabase]
  by_cases hnone : pending = []
  · have hzero : mongo.messagesCount = 0 := by
      rw [hnone] at hcount
      exact UInt32.toNat_inj.mp hcount
    rw [if_pos hzero, if_pos hnone]
    rw [hnone] at holds
    exact ⟨mongo, rfl, holds⟩
  · have hnonzero : mongo.messagesCount ≠ 0 := by
      intro hzero
      rw [hzero] at hcount
      exact hnone (List.eq_nil_of_length_eq_zero hcount.symm)
    have hloop := @eachSlot_eq Doc (fun _ => .blank) [] (pending.map .holds)
      (List.replicate (limit.toNat - pending.length) .blank)
      (by rw [List.length_nil, List.length_map]; omega)
    have hblank : (pending.map CacheSlot.holds).map (fun _ => CacheSlot.blank) =
        (List.replicate pending.length .blank : List (CacheSlot Doc)) := by
      rw [List.map_map]
      exact List.map_const'
    rw [hblank, List.length_map, List.nil_append, List.nil_append, List.length_nil,
      List.replicate_append_replicate, Nat.add_sub_of_le hfits] at hloop
    have htake : mongo.messagesCache.take pending.length = pending.map .holds := by
      rw [holds.cache, List.take_append_of_le_length (by rw [List.length_map])]
      exact List.take_of_length_le (by rw [List.length_map])
    rw [if_neg hnonzero, if_neg hnone, hcount, holds.length_cache, if_pos hfits, holds.cache, hloop,
      ← holds.cache, htake]
    exact ⟨_, rfl, holds.bound, rfl, rfl, Nat.zero_le _⟩

/-! ## Calls collect and emit -/

/-- What a call does with the documents. -/
def collect (limit : UInt32) (batches : Batches Doc) : MongodbCall → Batches Doc
  | .write message =>
      match bsonInitFromJson message with
      | none => batches
      | some doc => batches.add limit.toNat doc
  | .flush => batches.emit

/-- The output and what was inserted so far stand for batches of documents. -/
structure Represents (limit : UInt32) (mongo : MongodbOutput Doc) (inserted : Inserted Doc)
    (batches : Batches Doc) : Prop where
  holds : HoldsPending limit mongo batches.pending
  inserted_eq : inserted = batches.emitted.map (List.map .holds)
  room : batches.pending = [] ∨ batches.pending.length < limit.toNat

variable {inserted : Inserted Doc} {batches : Batches Doc}

theorem flush_represents (holds : HoldsPending limit mongo batches.pending)
    (before : inserted = batches.emitted.map (List.map .holds)) (small : limit.toNat < 2 ^ 31) :
    ∃ flushed more, mongo.flushToDatabase = .ok (flushed, more) ∧
      Represents limit flushed (inserted ++ more) batches.emit := by
  rcases flush_eq holds small with ⟨flushed, hflushed, hholds⟩
  refine ⟨flushed, _, hflushed, ?_, ?_, .inl (Batches.pending_emit _)⟩
  · rwa [Batches.pending_emit]
  · rw [before]
    by_cases hnone : batches.pending = []
    · rw [if_pos hnone, Batches.emit_of_eq hnone, List.append_nil]
    · rw [if_neg hnone, Batches.emit_of_ne hnone, List.map_append]
      rfl

/-- A document in the next place of the cache. -/
theorem HoldsPending.set (holds : HoldsPending limit mongo pending)
    (room : pending.length < limit.toNat) (slot : CacheSlot Doc) :
    mongo.messagesCache.set mongo.messagesCount.toNat slot =
      pending.map .holds ++ slot :: List.replicate (limit.toNat - (pending.length + 1)) .blank := by
  have hrest : limit.toNat - pending.length = limit.toNat - (pending.length + 1) + 1 := by omega
  rw [holds.cache, holds.count, hrest, List.replicate_succ,
    List.set_append_right _ _ (by rw [List.length_map]), List.length_map, Nat.sub_self]
  rfl

theorem HoldsPending.next (holds : HoldsPending limit mongo pending)
    (room : pending.length < limit.toNat) :
    mongo.messagesCache[mongo.messagesCount.toNat]? = some .blank := by
  rw [holds.cache, holds.count, List.getElem?_append_right (by rw [List.length_map]),
    List.length_map, Nat.sub_self, List.getElem?_replicate, if_pos (by omega)]

/-- A message that is well formed is collected, and the others leave nothing. -/
theorem write_represents (represents : Represents limit mongo inserted batches)
    (positive : 0 < limit.toNat) (small : limit.toNat < 2 ^ 31) (message : List UInt8) :
    ∃ written more returned, mongo.write bsonInitFromJson message = .ok (written, more, returned) ∧
      Represents limit written (inserted ++ more)
        (collect bsonInitFromJson limit batches (.write message)) := by
  have hholds := represents.holds
  have hroom : batches.pending.length < limit.toNat := by
    rcases represents.room with hnone | hroom
    · rw [hnone]
      exact positive
    · exact hroom
  have hcount := hholds.count
  rw [MongodbOutput.write, hholds.next hroom]
  simp only [collect]
  cases hparsed : bsonInitFromJson message with
  | none =>
      refine ⟨_, [], 0, rfl, ⟨hholds.bound, hcount, ?_, hholds.fits⟩, ?_, represents.room⟩
      · show mongo.messagesCache.set _ _ = _
        rw [hholds.set hroom, ← List.replicate_succ,
          show limit.toNat - (batches.pending.length + 1) + 1 =
            limit.toNat - batches.pending.length by omega]
      · rw [List.append_nil]
        exact represents.inserted_eq
  | some doc =>
      have hnext : (mongo.messagesCount + 1).toNat = batches.pending.length + 1 := by
        rw [UInt32.toNat_add, hcount]
        exact Nat.mod_eq_of_lt (by
          show batches.pending.length + 1 < 2 ^ 32
          omega)
      let stored : MongodbOutput Doc := { mongo with
        messagesCount := mongo.messagesCount + 1
        messagesCache := mongo.messagesCache.set mongo.messagesCount.toNat (.holds doc) }
      have hstored : HoldsPending limit stored (batches.pending ++ [doc]) := by
        refine ⟨hholds.bound, ?_, ?_, ?_⟩
        · rw [List.length_append, List.length_singleton]
          exact hnext
        · show mongo.messagesCache.set _ _ = _
          rw [hholds.set hroom, List.map_append, List.append_assoc, List.length_append]
          rfl
        · rw [List.length_append, List.length_singleton]
          exact hroom
      have hfull : mongo.messagesMaxLimit ≤ mongo.messagesCount + 1 ↔
          limit.toNat ≤ (batches.pending ++ [doc]).length := by
        rw [UInt32.le_iff_toNat_le, hholds.bound, hnext, List.length_append, List.length_singleton]
      dsimp only
      rw [Batches.add]
      dsimp only
      by_cases hlimit : limit.toNat ≤ (batches.pending ++ [doc]).length
      · rw [if_pos (hfull.mpr hlimit), if_pos hlimit]
        rcases @flush_represents _ limit stored inserted
          { batches with pending := batches.pending ++ [doc] } hstored represents.inserted_eq small
          with ⟨flushed, more, hflushed, hrepresents⟩
        refine ⟨flushed, more, 1, ?_, hrepresents⟩
        rw [hflushed]
        rfl
      · rw [if_neg (mt hfull.mp hlimit), if_neg hlimit]
        refine ⟨stored, [], 1, rfl, hstored, ?_, .inr (Nat.lt_of_not_le hlimit)⟩
        rw [List.append_nil]
        exact represents.inserted_eq

/-- Each call does with the output what it does with the batches. -/
theorem mongodbCalls_represents (represents : Represents limit mongo inserted batches)
    (small : limit.toNat < 2 ^ 31) {calls : List MongodbCall}
    (positive : 0 < limit.toNat ∨ NoWrite calls) :
    ∃ reached more, mongodbCalls bsonInitFromJson calls mongo = .ok (reached, more) ∧
      Represents limit reached (inserted ++ more)
        (calls.foldl (collect bsonInitFromJson limit) batches) := by
  induction calls generalizing mongo inserted batches with
  | nil =>
      refine ⟨mongo, [], rfl, ?_⟩
      rw [List.append_nil]
      exact represents
  | cons call calls ih =>
      have hcall : ∃ next more, mongodbCall bsonInitFromJson mongo call = .ok (next, more) ∧
          Represents limit next (inserted ++ more)
            (collect bsonInitFromJson limit batches call) := by
        cases call with
        | write message =>
            have hpositive : 0 < limit.toNat :=
              positive.resolve_right fun none => none message List.mem_cons_self
            rcases write_represents bsonInitFromJson represents hpositive small message with
              ⟨written, more, returned, hwritten, hrepresents⟩
            refine ⟨written, more, ?_, hrepresents⟩
            rw [mongodbCall, hwritten]
            rfl
        | flush => exact flush_represents represents.holds represents.inserted_eq small
      rcases hcall with ⟨next, more, hnext, hrepresents⟩
      have hrest : 0 < limit.toNat ∨ NoWrite calls :=
        positive.imp_right fun none message listed => none message (List.mem_cons_of_mem _ listed)
      rcases ih hrepresents hrest with ⟨reached, others, hreached, hlast⟩
      refine ⟨reached, more ++ others, ?_, ?_⟩
      · simp only [mongodbCalls, hnext, bind_ok, hreached]
        rfl
      · rw [← List.append_assoc]
        exact hlast

/-- Together the batches hold the documents of all well-formed messages. -/
theorem all_collect (limit : UInt32) (calls : List MongodbCall) (batches : Batches Doc) :
    (calls.foldl (collect bsonInitFromJson limit) batches).all =
      batches.all ++ wellFormed bsonInitFromJson calls := by
  induction calls generalizing batches with
  | nil => exact (List.append_nil _).symm
  | cons call calls ih =>
      rw [List.foldl_cons, ih, wellFormed, wellFormed, List.filterMap_cons]
      cases call with
      | write message =>
          cases hparsed : bsonInitFromJson message with
          | none => simp only [collect, hparsed]
          | some doc =>
              simp only [collect, hparsed, Batches.all_add, List.append_assoc]
              rfl
      | flush => simp only [collect, Batches.all_emit]

/-- At the release nothing stays pending. -/
theorem release_eq (represents : Represents limit mongo inserted batches)
    (small : limit.toNat < 2 ^ 31) :
    ∃ cache more, mongo.release = .ok (cache, more) ∧
      (inserted ++ more).flatten = batches.all.map .holds := by
  rcases flush_represents represents.holds represents.inserted_eq small with
    ⟨flushed, more, hflushed, hrepresents⟩
  have hlength := hrepresents.holds.length_cache
  have hloop := @eachSlot_eq Doc (fun _ => .freed) [] flushed.messagesCache []
    (by rw [List.length_nil, hlength]; omega)
  rw [List.nil_append, List.append_nil, hlength, List.length_nil] at hloop
  refine ⟨[] ++ flushed.messagesCache.map (fun _ => .freed) ++ [], more, ?_, ?_⟩
  · rw [MongodbOutput.release, hflushed, bind_ok]
    simp only [hrepresents.holds.bound, hloop, bind_ok]
    rfl
  · rw [hrepresents.inserted_eq, ← Batches.all_emit, Batches.all, Batches.pending_emit,
      List.append_nil, List.map_flatten]

/-! ## The property and its condition -/

variable {calls : List MongodbCall}

/-- The first write of a run. -/
theorem exists_first_write (writes : ¬ NoWrite calls) :
    ∃ earlier message later, calls = earlier ++ .write message :: later ∧ NoWrite earlier := by
  induction calls with
  | nil => exact absurd (fun _ listed => absurd listed List.not_mem_nil) writes
  | cons call calls ih =>
      cases call with
      | write message => exact ⟨[], message, calls, rfl, fun _ => List.not_mem_nil⟩
      | flush =>
          have hrest : ¬ NoWrite calls := by
            intro none
            apply writes
            intro message listed
            rcases List.mem_cons.mp listed with hflush | hrest
            · cases hflush
            · exact none message hrest
          rcases ih hrest with ⟨earlier, message, later, rfl, hearlier⟩
          refine ⟨.flush :: earlier, message, later, rfl, ?_⟩
          intro other listed
          rcases List.mem_cons.mp listed with hflush | hrest
          · cases hflush
          · exact hearlier other hrest

/-- The output behind some calls stands for batches. -/
theorem mongodbBehind_represents (small : limit.toNat < 2 ^ 31)
    (positive : 0 < limit.toNat ∨ NoWrite calls) :
    ∃ mongo inserted, mongodbBehind bsonInitFromJson limit calls = .ok (mongo, inserted) ∧
      Represents limit mongo inserted
        (calls.foldl (collect bsonInitFromJson limit) .empty) := by
  rcases @allocInit_eq Doc limit small with ⟨allocated, hallocated, hholds⟩
  have hempty : Represents limit allocated [] (.empty : Batches Doc) := ⟨hholds, rfl, .inl rfl⟩
  rcases mongodbCalls_represents bsonInitFromJson hempty small positive with
    ⟨mongo, inserted, hcalls, hrepresents⟩
  refine ⟨mongo, inserted, ?_, hrepresents⟩
  rw [mongodbBehind, hallocated, bind_ok, hcalls]

/-- Every well-formed message is inserted once, in order and inside of the cache, exactly when
the size of the cache is an `int`, and is not 0 if a message is written. -/
theorem insertsAll_iff (cacheMax : UInt32) (calls : List MongodbCall) :
    InsertsAll bsonInitFromJson cacheMax calls ↔
      cacheMax.toNat < 2 ^ 31 ∧ (0 < cacheMax.toNat ∨ NoWrite calls) := by
  constructor
  · intro inserts
    have hsmall : cacheMax.toNat < 2 ^ 31 := by
      by_contra hlarge
      rcases inserts.inserted with ⟨inserted, hrun, -⟩
      rw [mongodbRun, mongodbBehind, allocInit_overflow (Nat.le_of_not_lt hlarge)] at hrun
      cases hrun
    refine ⟨hsmall, ?_⟩
    by_contra hneither
    rw [not_or] at hneither
    rcases exists_first_write hneither.2 with ⟨earlier, message, later, hsplit, hearlier⟩
    rcases inserts.place earlier message later hsplit with ⟨mongo, inserted, hbehind, hplace⟩
    rcases mongodbBehind_represents bsonInitFromJson hsmall (.inr hearlier) with
      ⟨reached, more, hreached, hrepresents⟩
    have hpair := Except.ok.inj (hreached.symm.trans hbehind)
    have hreachedMongo : reached = mongo := congrArg Prod.fst hpair
    rw [← hreachedMongo, hrepresents.holds.bound, UInt32.lt_iff_toNat_lt] at hplace
    omega
  · rintro ⟨hsmall, hpositive⟩
    constructor
    · intro earlier message later hsplit
      have hwrite : ¬ NoWrite calls := by
        intro none
        apply none message
        rw [hsplit]
        exact List.mem_append_right _ List.mem_cons_self
      have hlimit : 0 < cacheMax.toNat := hpositive.resolve_right hwrite
      rcases @mongodbBehind_represents _ bsonInitFromJson _ earlier hsmall (.inl hlimit) with
        ⟨mongo, inserted, hbehind, hrepresents⟩
      refine ⟨mongo, inserted, hbehind, ?_⟩
      rw [hrepresents.holds.bound, UInt32.lt_iff_toNat_lt, hrepresents.holds.count]
      rcases hrepresents.room with hnone | hroom
      · rw [hnone]
        exact hlimit
      · exact hroom
    · rcases mongodbBehind_represents bsonInitFromJson hsmall hpositive with
        ⟨mongo, inserted, hbehind, hrepresents⟩
      rcases release_eq hrepresents hsmall with ⟨cache, more, hrelease, hall⟩
      refine ⟨inserted ++ more, ?_, ?_⟩
      · rw [mongodbRun, hbehind, bind_ok]
        simp only [hrelease, bind_ok]
        rfl
      · rw [hall, all_collect]
        rfl

/-- A cache without a place. -/
theorem not_insertsAll :
    ¬ InsertsAll (fun message => if message = [123, 125] then some () else none) 0
      [.write [123, 125]] := by
  intro inserts
  rcases inserts.inserted with ⟨inserted, hrun, -⟩
  have hfault : mongodbRun (fun message => if message = [123, 125] then some () else none) 0
      [.write [123, 125]] = .error (.index 0) := rfl
  rw [hfault] at hrun
  cases hrun

end MmtProbe.Output

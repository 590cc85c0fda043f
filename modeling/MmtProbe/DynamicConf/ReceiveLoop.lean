/-
# The receive loop of the control server

`_processing` reads from its socket until the buffer is full, a NUL has arrived, or
there is nothing more to read.  It serves one client at a time, so that a loop that
is never left blocks all others.

Zero bytes mean that the client has closed its side: `read` answers so from then on.
The loop takes this for "no data is available" as long as it has not received
anything, and reads again.
-/

import MmtProbe.DynamicConf.Server
import Mathlib.Logic.Function.Iterate

namespace MmtProbe.DynamicConf

open MmtProbe.Math

/-! ## The socket -/

/-- How a connection ends: the client closes it, or `read` fails. -/
inductive Ending where
  | closed
  | failed
deriving DecidableEq, Repr

/-- What a client sends, in the pieces in which it arrives, and how it ends. -/
structure Connection where
  chunks : List (List UInt8)
  /-- `read` waits for at least one byte. -/
  filled : ∀ chunk ∈ chunks, chunk ≠ []
  ending : Ending

/-- What `read` returns: some bytes, 0 or -1. -/
inductive ReadResult where
  | data (bytes : List UInt8)
  | zero
  | error
deriving DecidableEq, Repr

/-- The rest of a piece, when there is any. -/
def restOf (chunk : List UInt8) (requested : Nat) : List (List UInt8) :=
  if requested < chunk.length then [chunk.drop requested] else []

/-- `read`: at most as many bytes of the next piece as requested. -/
def readSocket (requested : Nat) : List (List UInt8) → Ending → ReadResult × List (List UInt8)
  | [], .closed => (.zero, [])
  | [], .failed => (.error, [])
  | chunk :: chunks, _ => (.data (chunk.take requested), restOf chunk requested ++ chunks)

/-! ## The loop -/

/-- Where the loop is: still reading, at `_process_command`, or at `_finish`. -/
inductive Receiving where
  | reading (chunks : List (List UInt8)) (buffer : List UInt8)
  | processCommand (buffer : List UInt8)
  | finish (buffer : List UInt8)
deriving DecidableEq, Repr

/-- The bytes in the buffer; `buffer_len` is their number. -/
def Receiving.buffer : Receiving → List UInt8
  | reading _ buffer => buffer
  | processCommand buffer => buffer
  | finish buffer => buffer

/-- The loop has been left. -/
def Receiving.Left : Receiving → Prop
  | reading _ _ => False
  | processCommand _ => True
  | finish _ => True

/-- What the body of the loop does after a read. -/
def afterRead (chunks : List (List UInt8)) (buffer : List UInt8) : ReadResult → Receiving
  | .error => .finish buffer
  | .zero => if buffer.length = 0 then .reading chunks buffer else .processCommand buffer
  | .data bytes =>
      if (buffer ++ bytes).length ≥ bufferSize then .processCommand (buffer ++ bytes)
      else
        -- the search for a NUL goes over the new bytes only
        match bytes.findIdx? (· == 0) with
        | some i => .processCommand ((buffer ++ bytes).take (buffer.length + i + 1))
        | none => .reading chunks (buffer ++ bytes)

/-- One round of the loop. -/
def receiveRound (ending : Ending) : Receiving → Receiving
  | .reading chunks buffer =>
      let (ret, rest) := readSocket (bufferSize - buffer.length) chunks ending
      afterRead rest buffer ret
  | left => left

/-- The state of the loop after some rounds. -/
def Connection.after (connection : Connection) (rounds : Nat) : Receiving :=
  (receiveRound connection.ending)^[rounds] (.reading connection.chunks [])

/-- The loop is left after finitely many reads, and the buffer never overflows. -/
def Connection.Served (connection : Connection) : Prop :=
  (∃ rounds, (connection.after rounds).Left) ∧
    ∀ rounds, (connection.after rounds).buffer.length ≤ bufferSize

variable {ending : Ending} {chunks : List (List UInt8)} {buffer : List UInt8}

theorem Connection.after_succ (connection : Connection) (rounds : Nat) :
    connection.after (rounds + 1) = receiveRound connection.ending (connection.after rounds) :=
  Function.iterate_succ_apply' _ _ _

/-! ## The buffer -/

/-- A read that keeps to its request keeps the buffer in its bounds. -/
theorem length_afterRead_le {ret : ReadResult} (inside : buffer.length ≤ bufferSize)
    (kept : ∀ bytes, ret = .data bytes → bytes.length ≤ bufferSize - buffer.length) :
    (afterRead chunks buffer ret).buffer.length ≤ bufferSize := by
  cases ret with
  | error => exact inside
  | zero =>
      rw [afterRead]
      split_ifs <;> exact inside
  | data bytes =>
      have hbytes := kept bytes rfl
      have hsum : (buffer ++ bytes).length ≤ bufferSize := by
        rw [List.length_append]
        omega
      rw [afterRead]
      split_ifs
      · exact hsum
      · cases bytes.findIdx? (· == 0) with
        | none => exact hsum
        | some i => exact Nat.le_trans (List.length_take_le' _ _) hsum

theorem readSocket_kept {requested : Nat} {bytes : List UInt8}
    (returned : (readSocket requested chunks ending).1 = .data bytes) :
    bytes.length ≤ requested := by
  cases chunks with
  | nil => cases ending <;> cases returned
  | cons chunk chunks =>
      cases returned
      exact List.length_take_le _ _

theorem length_receiveRound_le {state : Receiving} (inside : state.buffer.length ≤ bufferSize) :
    (receiveRound ending state).buffer.length ≤ bufferSize := by
  cases state with
  | reading chunks buffer => exact length_afterRead_le inside fun bytes => readSocket_kept
  | processCommand buffer => exact inside
  | finish buffer => exact inside

/-- In no round the buffer is longer than it may be. -/
theorem Connection.length_buffer_le (connection : Connection) (rounds : Nat) :
    (connection.after rounds).buffer.length ≤ bufferSize := by
  induction rounds with
  | zero => exact Nat.zero_le _
  | succ rounds ih =>
      rw [after_succ]
      exact length_receiveRound_le ih

/-! ## The end of the loop -/

theorem receiveRound_left {state : Receiving} (left : state.Left) :
    receiveRound ending state = state := by
  cases state with
  | reading chunks buffer => cases left
  | processCommand buffer => rfl
  | finish buffer => rfl

theorem left_iterate {state : Receiving} (left : state.Left) (rounds : Nat) :
    ((receiveRound ending)^[rounds] state).Left := by
  rwa [Function.iterate_fixed (receiveRound_left left)]

/-- A round on a piece leaves the loop, or uses the piece up and keeps it in the buffer. -/
theorem receiveRound_cons {chunk : List UInt8} (room : buffer.length < bufferSize) :
    (receiveRound ending (.reading (chunk :: chunks) buffer)).Left ∨
      (buffer ++ chunk).length < bufferSize ∧
        receiveRound ending (.reading (chunk :: chunks) buffer) =
          .reading chunks (buffer ++ chunk) := by
  have hround : receiveRound ending (.reading (chunk :: chunks) buffer) =
      afterRead (restOf chunk (bufferSize - buffer.length) ++ chunks) buffer
        (.data (chunk.take (bufferSize - buffer.length))) := rfl
  rw [hround, afterRead]
  split_ifs with hfull
  · exact .inl trivial
  · rw [List.length_append, List.length_take] at hfull
    have hshort : chunk.length ≤ bufferSize - buffer.length := by omega
    have hrest : restOf chunk (bufferSize - buffer.length) = [] := if_neg (by omega)
    have hlength : (buffer ++ chunk).length < bufferSize := by
      rw [List.length_append]
      omega
    rw [hrest, List.take_of_length_le hshort, List.nil_append]
    cases chunk.findIdx? (· == 0) with
    | none => exact .inr ⟨hlength, rfl⟩
    | some i => exact .inl trivial

/-- With something in the buffer, or with an error at the end, the loop is left after one
round for each piece and one more. -/
theorem exists_left (ends : buffer ≠ [] ∨ ending = .failed) (room : buffer.length < bufferSize) :
    ((receiveRound ending)^[chunks.length + 1] (.reading chunks buffer)).Left := by
  induction chunks generalizing buffer with
  | nil =>
      cases ending with
      | failed => trivial
      | closed =>
          have hfilled : buffer.length ≠ 0 := by simpa using ends
          have hround : receiveRound .closed (.reading [] buffer) = .processCommand buffer :=
            if_neg hfilled
          rw [List.length_nil, Function.iterate_one, hround]
          trivial
  | cons chunk chunks ih =>
      rw [List.length_cons, Function.iterate_succ_apply]
      rcases receiveRound_cons room with hleft | ⟨hlength, hround⟩
      · exact left_iterate hleft _
      · rw [hround]
        refine ih ?_ hlength
        rcases ends with hfilled | hfailed
        · exact .inl fun hempty => hfilled (List.append_eq_nil_iff.mp hempty).1
        · exact .inr hfailed

/-- A client that closes without having sent anything is waited for in every round. -/
theorem after_silent {connection : Connection} (silent : connection.chunks = [])
    (closed : connection.ending = .closed) (rounds : Nat) :
    connection.after rounds = .reading [] [] := by
  rw [Connection.after, silent, closed]
  exact Function.iterate_fixed rfl rounds

/-- The loop ends for a client exactly when the client has sent something or the connection
fails. -/
theorem served_iff (connection : Connection) :
    connection.Served ↔ connection.chunks ≠ [] ∨ connection.ending = .failed := by
  constructor
  · rintro ⟨⟨rounds, hleft⟩, -⟩
    by_contra hsilent
    rw [not_or, not_not] at hsilent
    have hclosed : connection.ending = .closed := by
      cases hending : connection.ending with
      | closed => rfl
      | failed => exact absurd hending hsilent.2
    rw [after_silent hsilent.1 hclosed] at hleft
    exact hleft
  · intro hends
    refine ⟨?_, connection.length_buffer_le⟩
    cases hchunks : connection.chunks with
    | nil =>
        have hfailed := hends.resolve_left fun hsent => hsent hchunks
        refine ⟨1, ?_⟩
        rw [Connection.after, hchunks, hfailed]
        trivial
    | cons chunk chunks =>
        have hchunk : chunk ≠ [] :=
          connection.filled chunk (by rw [hchunks]; exact List.mem_cons_self)
        refine ⟨chunks.length + 1 + 1, ?_⟩
        rw [Connection.after, hchunks, Function.iterate_succ_apply]
        -- the first piece is not empty, so that the buffer is not either
        rcases receiveRound_cons (show ([] : List UInt8).length < bufferSize by decide) with
          hleft | ⟨hlength, hround⟩
        · exact left_iterate hleft _
        · rw [hround]
          exact exists_left (.inl hchunk) hlength

/-- A client that connects and closes at once. -/
theorem not_served_silent : ¬Connection.Served ⟨[], nofun, .closed⟩ := by
  rintro ⟨⟨rounds, hleft⟩, -⟩
  rw [after_silent rfl rfl] at hleft
  exact hleft

end MmtProbe.DynamicConf

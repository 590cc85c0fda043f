/-
# Capturing the lines of a file

`packet_capture_start` of the stream module reads a file line by line and hands each line
to the worker as if it were a packet.  `getdelim` keeps one buffer for all lines and
answers with two numbers: how long the line is and how large the buffer is.  The loop
passes on the second one, so that every packet ends with a NUL and with whatever the
buffer holds behind it.

`getdelim` is outside.  It puts the line, with its newline, and a NUL at the beginning of
the buffer; how large the buffer is and what it holds behind the NUL is arbitrary.  The
captured length has 32 bits and the counters have 64, so a run in which both go round is
left aside: it takes a buffer of 4 GiB, and buffers of 2^64 bytes together.
-/

import MmtProbe.Math.Word
import MmtProbe.Math.Bytes
import Mathlib.Data.List.Basic

namespace MmtProbe.Capture

open MmtProbe.Math

/-! ## Reading lines -/

/-- The lines of a file, each with its newline; the last one may have none. -/
def fileLines : List UInt8 → List (List UInt8)
  | [] => []
  | byte :: rest =>
      if byte = 10 then [byte] :: fileLines rest
      else
        match fileLines rest with
        | [] => [[byte]]
        | line :: lines => (byte :: line) :: lines

/-- What `getdelim` leaves in its buffer, given the number of the call, the buffer before
it and the line it reads. -/
structure Getdelim where
  buffer : Nat → List UInt8 → List UInt8 → List UInt8
  terminated : ∀ call old line, line ++ [0] <+: buffer call old line

/-! ## The loop -/

/-- The variables of the loop. -/
structure StreamCapture where
  /-- `line`; `len` is its length. -/
  line : List UInt8
  /-- The `data[0..caplen)` given to `worker_process_a_packet`. -/
  packets : List (List UInt8)
  /-- `traffic_stat.mmt.bytes.receive` -/
  bytesReceive : UInt64
  /-- `traffic_stat.mmt.packets.receive` -/
  packetsReceive : UInt64
deriving DecidableEq, Repr

namespace StreamCapture

def empty : StreamCapture := ⟨[], [], 0, 0⟩

/-- The first part of `_got_a_line`. The captured length has 32 bits. -/
def processLine (s : StreamCapture) (len : Nat) (data : List UInt8) : StreamCapture :=
  { s with
    packets := s.packets ++ [data.take (u32 len)]
    bytesReceive := s.bytesReceive + UInt64.ofNat len
    packetsReceive := s.packetsReceive + 1 }

/-- One round of the loop. -/
def readLine (getdelim : Getdelim) (s : StreamCapture) (line : List UInt8) : StreamCapture :=
  let buffer := getdelim.buffer s.packets.length s.line line
  { s with line := buffer }.processLine buffer.length buffer

/-- The sizes of the buffer in the rounds for some lines. -/
def capacities (getdelim : Getdelim) (s : StreamCapture) : List (List UInt8) → List Nat
  | [] => []
  | line :: lines =>
      let next := s.readLine getdelim line
      next.line.length :: next.capacities getdelim lines

end StreamCapture

/-- `packet_capture_start` of the stream module, up to the end of the file. -/
def streamCaptureStart (getdelim : Getdelim) (file : List UInt8) : StreamCapture :=
  (fileLines file).foldl (StreamCapture.readLine getdelim) .empty

/-- The file arrives as it is, one packet for each line, and is counted as it is. -/
structure DeliversFile (getdelim : Getdelim) (file : List UInt8) : Prop where
  content : (streamCaptureStart getdelim file).packets.flatten = file
  perLine : (streamCaptureStart getdelim file).packets.length = (fileLines file).length
  bytes : (streamCaptureStart getdelim file).bytesReceive = UInt64.ofNat file.length

/-- The buffer stays below 2^32 bytes, or the counter below 2^64. -/
def Modest (getdelim : Getdelim) (file : List UInt8) : Prop :=
  (∀ capacity ∈ StreamCapture.empty.capacities getdelim (fileLines file), capacity < 2 ^ 32) ∨
    (StreamCapture.empty.capacities getdelim (fileLines file)).sum < 2 ^ 64

/-! ## What arrives -/

variable (getdelim : Getdelim)

theorem flatten_fileLines (file : List UInt8) : (fileLines file).flatten = file := by
  induction file with
  | nil => rfl
  | cons byte rest ih =>
      rw [fileLines]
      split_ifs with hend
      · rw [List.flatten_cons, ih, List.singleton_append]
      · cases hlines : fileLines rest with
        | nil =>
            rw [hlines] at ih
            rw [← ih]
            rfl
        | cons line lines =>
            rw [hlines] at ih
            rw [← ih]
            rfl

theorem fileLines_eq_nil_iff (file : List UInt8) : fileLines file = [] ↔ file = [] := by
  constructor
  · intro hnone
    rw [← flatten_fileLines file, hnone]
    rfl
  · rintro rfl
    rfl

namespace StreamCapture

/-- The buffer of a round has room for more than its line. -/
theorem length_lt_readLine (s : StreamCapture) (line : List UInt8) :
    line.length < (s.readLine getdelim line).line.length := by
  have hbuffer := (getdelim.terminated s.packets.length s.line line).length_le
  rwa [List.length_append, List.length_singleton] at hbuffer

/-- The buffers are ahead of the lines by one for each of them. -/
theorem sum_capacities (lines : List (List UInt8)) (s : StreamCapture) :
    lines.flatten.length + lines.length ≤ (s.capacities getdelim lines).sum := by
  induction lines generalizing s with
  | nil => exact le_refl _
  | cons line lines ih =>
      have hround := length_lt_readLine getdelim s line
      have hrest := ih (s.readLine getdelim line)
      rw [List.flatten_cons, List.length_append, List.length_cons, capacities, List.sum_cons]
      omega

/-- The counter goes on by the sizes of the buffers. -/
theorem bytesReceive_foldl (lines : List (List UInt8)) (s : StreamCapture) :
    (lines.foldl (readLine getdelim) s).bytesReceive =
      s.bytesReceive + UInt64.ofNat (s.capacities getdelim lines).sum := by
  induction lines generalizing s with
  | nil => exact (UInt64.add_zero _).symm
  | cons line lines ih =>
      rw [List.foldl_cons, ih, capacities, List.sum_cons, UInt64.ofNat_add, ← UInt64.add_assoc]
      rfl

/-- Each line, with the NUL behind it, is the beginning of a packet of its own, as long as the
sizes of the buffers fit 32 bits. -/
theorem packets_foldl (lines : List (List UInt8)) (s : StreamCapture)
    (small : ∀ capacity ∈ s.capacities getdelim lines, capacity < 2 ^ 32) :
    ∃ packets, (lines.foldl (readLine getdelim) s).packets = s.packets ++ packets ∧
      List.Forall₂ (fun line packet => line ++ [0] <+: packet) lines packets := by
  induction lines generalizing s with
  | nil => exact ⟨[], (List.append_nil _).symm, .nil⟩
  | cons line lines ih =>
      rw [capacities, List.forall_mem_cons] at small
      rcases ih (s.readLine getdelim line) small.2 with ⟨packets, hpackets, hlines⟩
      have hwhole : (s.readLine getdelim line).packets =
          s.packets ++ [(s.readLine getdelim line).line] := by
        have hfits : (getdelim.buffer s.packets.length s.line line).length < 2 ^ 32 := small.1
        simp only [readLine, processLine, u32_of_lt hfits, List.take_length]
      refine ⟨(s.readLine getdelim line).line :: packets, ?_, .cons ?_ hlines⟩
      · rw [List.foldl_cons, hpackets, hwhole, List.append_assoc, List.singleton_append]
      · exact getdelim.terminated _ _ _

end StreamCapture

/-- The packets begin with the lines of the file, in their order, each with a NUL behind it. -/
theorem forall₂_prefix_packets (file : List UInt8)
    (small : ∀ capacity ∈ StreamCapture.empty.capacities getdelim (fileLines file),
      capacity < 2 ^ 32) :
    List.Forall₂ (fun line packet => line ++ [0] <+: packet) (fileLines file)
      (streamCaptureStart getdelim file).packets := by
  rcases StreamCapture.packets_foldl getdelim (fileLines file) .empty small with
    ⟨packets, hpackets, hlines⟩
  rw [streamCaptureStart, hpackets]
  exact hlines

/-- Packets that are longer than their lines are longer than the file. -/
theorem length_flatten_of_forall₂ {lines packets : List (List UInt8)}
    (longer : List.Forall₂ (fun line packet => line ++ [0] <+: packet) lines packets) :
    lines.flatten.length + lines.length ≤ packets.flatten.length := by
  induction longer with
  | nil => exact le_refl _
  | @cons line packet lines packets hfirst _ ih =>
      have hlength := hfirst.length_le
      rw [List.length_append, List.length_singleton] at hlength
      simp only [List.flatten_cons, List.length_append, List.length_cons]
      omega

/-- **The stream module delivers the empty file, and no other one**, as long as not both the
captured length and the counter go round. -/
theorem deliversFile_iff (getdelim : Getdelim) (file : List UInt8)
    (modest : Modest getdelim file) : DeliversFile getdelim file ↔ file = [] := by
  constructor
  · intro delivers
    rw [← fileLines_eq_nil_iff, ← List.length_eq_zero_iff]
    rcases modest with small | total
    · have hlonger := length_flatten_of_forall₂ (forall₂_prefix_packets getdelim file small)
      rw [delivers.content, flatten_fileLines] at hlonger
      omega
    · have hsum := StreamCapture.sum_capacities getdelim (fileLines file) .empty
      have hcounted := StreamCapture.bytesReceive_foldl getdelim (fileLines file) .empty
      have hbytes := delivers.bytes
      rw [streamCaptureStart, hcounted] at hbytes
      have hnat := congrArg UInt64.toNat hbytes
      rw [flatten_fileLines] at hsum
      simp only [StreamCapture.empty, UInt64.zero_add, UInt64.toNat_ofNat'] at hnat hsum total
      rw [Nat.mod_eq_of_lt total, Nat.mod_eq_of_lt (by omega)] at hnat
      omega
  · rintro rfl
    exact ⟨rfl, rfl, rfl⟩

/-- The buffer of the C library: 120 bytes at first, twice as many when a line does not fit,
and the end of an earlier line behind the NUL. -/
def doublingGetdelim : Getdelim where
  buffer _ old line :=
    if line.length < old.length then line ++ [0] ++ old.drop (line.length + 1)
    else line ++ [0] ++ List.replicate (max 120 (2 * old.length) - (line.length + 1)) 0
  terminated _ old line := by
    split_ifs
    · exact List.prefix_append _ _
    · exact List.prefix_append _ _

/-- Three lines, of which the second one is behind the end of the first one. -/
theorem deliversFile_iff_threeLines :
    StreamCapture.empty.capacities doublingGetdelim (fileLines (bytesOf "long\na\nlast")) =
        [120, 120, 120] ∧
      (DeliversFile doublingGetdelim (bytesOf "long\na\nlast") ↔
        bytesOf "long\na\nlast" = []) := by
  have hsizes : StreamCapture.empty.capacities doublingGetdelim
      (fileLines (bytesOf "long\na\nlast")) = [120, 120, 120] := by decide +kernel
  have hmodest : Modest doublingGetdelim (bytesOf "long\na\nlast") := by
    rw [Modest, hsizes]
    exact .inr (by decide)
  exact ⟨hsizes, deliversFile_iff _ _ hmodest⟩

/-- A file with the line `a` arrives as 120 bytes. -/
theorem not_deliversFile_line : ¬DeliversFile doublingGetdelim [97, 10] := by
  intro delivers
  exact absurd delivers.bytes (by decide +kernel)

end MmtProbe.Capture

/-
# Capture files

The file format of libpcap, as a little-endian machine writes it: a header of 24 bytes,
and for each packet a header of 16 bytes and the bytes that were captured of it.  A record
never holds more bytes than the packet had; a file is read only when all its records keep
this rule and the length that the header announces.
-/

import MmtProbe.Math.Buffer
import Mathlib.Algebra.BigOperators.Group.List.Basic

namespace MmtProbe.Math

/-! ## Files and their bytes -/

/-- What the header of a file says beside the magic number and the version. -/
structure PcapHeader where
  thiszone : UInt32
  snaplen : UInt32
  linktype : UInt32
deriving DecidableEq, Repr

/-- A packet in a file. -/
structure PcapRecord where
  tsSec : UInt32
  tsUsec : UInt32
  origLen : UInt32
  data : List UInt8
  included : data.length ≤ origLen.toNat
deriving DecidableEq, Repr

/-- The magic number of files with microseconds. -/
def pcapMagic : Nat := 0xa1b2c3d4

def PcapHeader.bytes (header : PcapHeader) : List UInt8 :=
  littleEndian 4 pcapMagic ++ (littleEndian 2 2 ++ (littleEndian 2 4 ++
    (littleEndian 4 header.thiszone.toNat ++ (littleEndian 4 0 ++
      (littleEndian 4 header.snaplen.toNat ++ littleEndian 4 header.linktype.toNat)))))

def PcapRecord.bytes (record : PcapRecord) : List UInt8 :=
  littleEndian 4 record.tsSec.toNat ++ (littleEndian 4 record.tsUsec.toNat ++
    (littleEndian 4 record.data.length ++ (littleEndian 4 record.origLen.toNat ++ record.data)))

/-! ## Reading -/

/-- The number in some of the bytes. -/
def wordAt (bytes : List UInt8) (offset width : Nat) : Nat :=
  littleValue ((bytes.drop offset).take width)

/-- Read the header of a file of version 2.4. -/
def readPcapHeader (bytes : List UInt8) : Option (PcapHeader × List UInt8) :=
  if 24 ≤ bytes.length ∧ wordAt bytes 0 4 = pcapMagic ∧ wordAt bytes 4 2 = 2 ∧
      wordAt bytes 6 2 = 4 then
    some (⟨UInt32.ofNat (wordAt bytes 8 4), UInt32.ofNat (wordAt bytes 16 4),
      UInt32.ofNat (wordAt bytes 20 4)⟩, bytes.drop 24)
  else none

/-- Read a record with at most `snaplen` bytes of data. -/
def readPcapRecord (snaplen : Nat) (bytes : List UInt8) : Option (PcapRecord × List UInt8) :=
  let inclLen := wordAt bytes 8 4
  let origLen := UInt32.ofNat (wordAt bytes 12 4)
  if fits : 16 + inclLen ≤ bytes.length ∧ inclLen ≤ snaplen ∧ inclLen ≤ origLen.toNat then
    some (⟨UInt32.ofNat (wordAt bytes 0 4), UInt32.ofNat (wordAt bytes 4 4), origLen,
      (bytes.drop 16).take inclLen, (List.length_take_le _ _).trans fits.2.2⟩,
      bytes.drop (16 + inclLen))
  else none

/-- Read records up to the end; no more than the given number. -/
def readPcapRecords (snaplen : Nat) : Nat → List UInt8 → Option (List PcapRecord)
  | _, [] => some []
  | 0, _ :: _ => none
  | count + 1, byte :: bytes =>
      (readPcapRecord snaplen (byte :: bytes)).bind fun (record, rest) =>
        (readPcapRecords snaplen count rest).map (record :: ·)

/-- Read a whole file. Every record takes at least one byte. -/
def readPcap (bytes : List UInt8) : Option (PcapHeader × List PcapRecord) :=
  (readPcapHeader bytes).bind fun (header, rest) =>
    (readPcapRecords header.snaplen.toNat rest.length rest).map fun records => (header, records)

/-! ## Reading back -/

/-- A number stands at the beginning. -/
theorem wordAt_front {width n : Nat} (fits : n < 256 ^ width) (rest : List UInt8) :
    wordAt (littleEndian width n ++ rest) 0 width = n := by
  rw [wordAt, List.drop_zero, List.take_left' (length_littleEndian width n),
    littleValue_littleEndian fits]

/-- A number stands behind another one. -/
theorem wordAt_behind (width n : Nat) (rest : List UInt8) (offset width' : Nat) :
    wordAt (littleEndian width n ++ rest) (width + offset) width' = wordAt rest offset width' := by
  rw [wordAt, ← List.drop_drop, List.drop_left' (length_littleEndian width n), wordAt]

@[simp]
theorem PcapHeader.length_bytes (header : PcapHeader) : header.bytes.length = 24 := by
  simp [PcapHeader.bytes]

@[simp]
theorem PcapRecord.length_bytes (record : PcapRecord) :
    record.bytes.length = 16 + record.data.length := by
  simp only [PcapRecord.bytes, List.length_append, length_littleEndian]
  omega

theorem readPcapHeader_bytes (header : PcapHeader) (rest : List UInt8) :
    readPcapHeader (header.bytes ++ rest) = some (header, rest) := by
  have hwords : wordAt (header.bytes ++ rest) 0 4 = pcapMagic ∧
      wordAt (header.bytes ++ rest) 4 2 = 2 ∧ wordAt (header.bytes ++ rest) 6 2 = 4 ∧
      wordAt (header.bytes ++ rest) 8 4 = header.thiszone.toNat ∧
      wordAt (header.bytes ++ rest) 16 4 = header.snaplen.toNat ∧
      wordAt (header.bytes ++ rest) 20 4 = header.linktype.toNat := by
    simp only [PcapHeader.bytes, List.append_assoc]
    refine ⟨wordAt_front (by decide) _, ?_, ?_, ?_, ?_, ?_⟩
    · exact (wordAt_behind 4 _ _ 0 2).trans (wordAt_front (by decide) _)
    · exact (wordAt_behind 4 _ _ 2 2).trans <| (wordAt_behind 2 _ _ 0 2).trans <|
        wordAt_front (by decide) _
    · exact (wordAt_behind 4 _ _ 4 4).trans <| (wordAt_behind 2 _ _ 2 4).trans <|
        (wordAt_behind 2 _ _ 0 4).trans <| wordAt_front header.thiszone.toNat_lt _
    · exact (wordAt_behind 4 _ _ 12 4).trans <| (wordAt_behind 2 _ _ 10 4).trans <|
        (wordAt_behind 2 _ _ 8 4).trans <| (wordAt_behind 4 _ _ 4 4).trans <|
        (wordAt_behind 4 _ _ 0 4).trans <| wordAt_front header.snaplen.toNat_lt _
    · exact (wordAt_behind 4 _ _ 16 4).trans <| (wordAt_behind 2 _ _ 14 4).trans <|
        (wordAt_behind 2 _ _ 12 4).trans <| (wordAt_behind 4 _ _ 8 4).trans <|
        (wordAt_behind 4 _ _ 4 4).trans <| (wordAt_behind 4 _ _ 0 4).trans <|
        wordAt_front header.linktype.toNat_lt _
  obtain ⟨hmagic, hmajor, hminor, hzone, hsnaplen, hlinktype⟩ := hwords
  have hlength : 24 ≤ (header.bytes ++ rest).length := by
    rw [List.length_append, header.length_bytes]
    omega
  rw [readPcapHeader, if_pos ⟨hlength, hmagic, hmajor, hminor⟩, hzone, hsnaplen, hlinktype,
    List.drop_left' header.length_bytes]
  simp only [UInt32.ofNat_toNat]

theorem readPcapRecord_bytes {snaplen : Nat} {record : PcapRecord}
    (short : record.data.length ≤ snaplen) (rest : List UInt8) :
    readPcapRecord snaplen (record.bytes ++ rest) = some (record, rest) := by
  have hincluded : record.data.length < 2 ^ 32 :=
    Nat.lt_of_le_of_lt record.included record.origLen.toNat_lt
  have hwords : wordAt (record.bytes ++ rest) 0 4 = record.tsSec.toNat ∧
      wordAt (record.bytes ++ rest) 4 4 = record.tsUsec.toNat ∧
      wordAt (record.bytes ++ rest) 8 4 = record.data.length ∧
      wordAt (record.bytes ++ rest) 12 4 = record.origLen.toNat ∧
      (record.bytes ++ rest).drop 16 = record.data ++ rest := by
    simp only [PcapRecord.bytes, List.append_assoc]
    refine ⟨wordAt_front record.tsSec.toNat_lt _, ?_, ?_, ?_, ?_⟩
    · exact (wordAt_behind 4 _ _ 0 4).trans (wordAt_front record.tsUsec.toNat_lt _)
    · exact (wordAt_behind 4 _ _ 4 4).trans <| (wordAt_behind 4 _ _ 0 4).trans <|
        wordAt_front hincluded _
    · exact (wordAt_behind 4 _ _ 8 4).trans <| (wordAt_behind 4 _ _ 4 4).trans <|
        (wordAt_behind 4 _ _ 0 4).trans <| wordAt_front record.origLen.toNat_lt _
    · simp only [← List.append_assoc]
      rw [List.append_assoc]
      exact List.drop_left' (by simp)
  obtain ⟨hsec, husec, hincl, horig, hdata⟩ := hwords
  have hfits : 16 + record.data.length ≤ (record.bytes ++ rest).length ∧
      record.data.length ≤ snaplen ∧
      record.data.length ≤ record.origLen.toNat := by
    rw [List.length_append, record.length_bytes]
    exact ⟨Nat.le_add_right _ _, short, record.included⟩
  have hrest : (record.bytes ++ rest).drop (16 + record.data.length) = rest :=
    List.drop_left' record.length_bytes
  simp only [readPcapRecord, hincl, hsec, husec, horig, hdata, hrest, UInt32.ofNat_toNat,
    List.take_left', dif_pos hfits]

theorem readPcapRecords_bytes {snaplen count : Nat} {records : List PcapRecord}
    (short : ∀ record ∈ records, record.data.length ≤ snaplen) (enough : records.length ≤ count) :
    readPcapRecords snaplen count (records.flatMap PcapRecord.bytes) = some records := by
  induction records generalizing count with
  | nil => cases count <;> rfl
  | cons record records ih =>
      obtain ⟨count, rfl⟩ : ∃ less, count = less + 1 :=
        ⟨count - 1, by rw [List.length_cons] at enough; omega⟩
      obtain ⟨byte, bytes, hbytes⟩ : ∃ byte bytes,
          (record :: records).flatMap PcapRecord.bytes = byte :: bytes := by
        refine List.exists_cons_of_ne_nil fun hnil => ?_
        have hlength := congrArg List.length hnil
        rw [List.flatMap_cons, List.length_append, record.length_bytes, List.length_nil] at hlength
        omega
      have hrest := ih (fun other listed => short other (List.mem_cons_of_mem _ listed))
        (Nat.le_of_succ_le_succ enough)
      rw [hbytes, readPcapRecords, ← hbytes, List.flatMap_cons,
        readPcapRecord_bytes (short record List.mem_cons_self), Option.bind_some]
      simp only [hrest, Option.map_some]

/-- A file is read back as the header and the records it was written with. -/
theorem readPcap_bytes (header : PcapHeader) {records : List PcapRecord}
    (short : ∀ record ∈ records, record.data.length ≤ header.snaplen.toNat) :
    readPcap (header.bytes ++ records.flatMap PcapRecord.bytes) = some (header, records) := by
  have hcount : records.length ≤ (records.flatMap PcapRecord.bytes).length := by
    rw [List.length_flatMap]
    have hsum : ∀ count ∈ records.map fun record => record.bytes.length, 1 ≤ count := by
      intro count listed
      rcases List.mem_map.mp listed with ⟨record, -, rfl⟩
      rw [record.length_bytes]
      omega
    have hle := List.length_le_sum_of_one_le _ hsum
    rwa [List.length_map] at hle
  rw [readPcap, readPcapHeader_bytes, Option.bind_some]
  simp only [readPcapRecords_bytes short hcount, Option.map_some]

end MmtProbe.Math

/-
# The bytes that the dispatcher touches

`_got_a_packet_smp` reads the packet that libpcap hands over, up to its captured
length, and copies it into an element of a ring.  The hash number comes from fields at
fixed offsets behind a single check of the length, and the elements were allocated for
the configured snap length, whatever the one of a trace file is.

Here the packet is the list of its captured bytes and the element a block of memory,
and every access to them is checked.
-/

import MmtProbe.Capture.PacketHash
import MmtProbe.Configure.Override
import MmtProbe.Math.Buffer
import MmtProbe.Math.Word

namespace MmtProbe.Capture

open MmtProbe.Math
open MmtProbe.Configure (Conf confLoadFromFile emptyFile)

/-! ## Reading the fields -/

/-- Read a 16-bit field of the captured bytes. -/
def loadU16 (captured : List UInt8) (offset : Nat) : Except Fault (BitVec 16) := do
  let low ← load captured offset
  let high ← load captured (offset + 1)
  return high.toBitVec ++ low.toBitVec

/-- Read a 32-bit field of the captured bytes. -/
def loadU32 (captured : List UInt8) (offset : Nat) : Except Fault (BitVec 32) := do
  let low ← loadU16 captured offset
  let high ← loadU16 captured (offset + 2)
  return high ++ low

/-- The two ports; there are none when the protocol is neither TCP nor UDP. -/
def loadPorts (captured : List UInt8) (ipOffset : Nat) (protoId : UInt8) :
    Except Fault (BitVec 16) :=
  if protoId = 6 ∨ protoId = 17 then do
    let portSrc ← loadU16 captured (ipOffset + 8)
    let portDst ← loadU16 captured (ipOffset + 8 + 2)
    return portSrc ||| portDst
  else .ok 0

/-- The hash of the fields around the offset of the source address. -/
def loadHash (captured : List UInt8) (ipOffset : Nat) : Except Fault (BitVec 32) := do
  let ipSrc ← loadU32 captured ipOffset
  let ipDst ← loadU32 captured (ipOffset + 4)
  let protoId ← load captured (ipOffset - 3)
  let ports ← loadPorts captured ipOffset protoId
  return hash ((ipSrc ||| ipDst) ||| ports.setWidth 32)

/-- `_get_packet_hash_number` on the captured bytes. -/
def loadPacketHashNumber (captured : List UInt8) : Except Fault (BitVec 32) :=
  if captured.length < 38 then .ok 0
  else do
    let proto ← loadU16 captured 12
    if proto = 0x08 then loadHash captured 26
    else if proto = 0x81 then loadHash captured 30
    else return 0

/-- Every byte that `_get_packet_hash_number` reads was captured. -/
def ReadsCaptured (captured : List UInt8) : Prop :=
  ∃ number, loadPacketHashNumber captured = .ok number

/-- A VLAN tag in place of the EtherType, and behind it a protocol with ports. -/
def TaggedTransport (captured : List UInt8) : Prop :=
  captured[12]? = some 0x81 ∧ captured[13]? = some 0x00 ∧
    (captured[27]? = some 6 ∨ captured[27]? = some 17)

instance (captured : List UInt8) : Decidable (TaggedTransport captured) :=
  inferInstanceAs (Decidable (_ ∧ _ ∧ (_ ∨ _)))

variable {captured : List UInt8} {offset : Nat}

/-- The packet as it is read without a check. -/
def byteAt (captured : List UInt8) (offset : Nat) : UInt8 := captured.getD offset 0

theorem load_of_lt (inside : offset < captured.length) :
    load captured offset = .ok (byteAt captured offset) := by
  rw [load, byteAt, List.getD_eq_getElem?_getD, List.getElem?_eq_getElem inside]
  rfl

theorem load_of_ge (outside : captured.length ≤ offset) :
    load captured offset = .error (.load offset) := by
  rw [load, List.getElem?_eq_none outside]

theorem loadU16_of_lt (inside : offset + 1 < captured.length) :
    loadU16 captured offset = .ok (readU16 (byteAt captured) offset) := by
  rw [loadU16, load_of_lt (Nat.lt_of_succ_lt inside), bind_ok, load_of_lt inside, bind_ok]
  rfl

/-- A field of which the last byte was not captured. -/
theorem loadU16_of_ge (outside : captured.length ≤ offset + 1) :
    ∃ fault, loadU16 captured offset = .error fault := by
  rcases Nat.lt_or_ge offset captured.length with hfirst | hfirst
  · refine ⟨.load (offset + 1), ?_⟩
    rw [loadU16, load_of_lt hfirst, bind_ok, load_of_ge outside]
    rfl
  · refine ⟨.load offset, ?_⟩
    rw [loadU16, load_of_ge hfirst]
    rfl

theorem loadU32_of_lt (inside : offset + 3 < captured.length) :
    loadU32 captured offset = .ok (readU32 (byteAt captured) offset) := by
  rw [loadU32, loadU16_of_lt (by omega), bind_ok, loadU16_of_lt (by omega), bind_ok]
  rfl

/-! ## The hash number -/

variable {ipOffset : Nat}

/-- The addresses and the protocol were captured; the rest depends on the ports. -/
theorem loadHash_eq (inside : ipOffset + 7 < captured.length) :
    loadHash captured ipOffset =
      (loadPorts captured ipOffset (byteAt captured (ipOffset - 3)) >>= fun ports =>
        .ok (hash ((readU32 (byteAt captured) ipOffset ||| readU32 (byteAt captured) (ipOffset + 4))
          ||| ports.setWidth 32))) := by
  rw [loadHash, loadU32_of_lt (by omega), bind_ok, loadU32_of_lt (by omega), bind_ok,
    load_of_lt (by omega), bind_ok]
  rfl

/-- The ports are not looked at, or were captured. -/
theorem loadHash_of_captured (inside : ipOffset + 7 < captured.length)
    (ports : byteAt captured (ipOffset - 3) = 6 ∨ byteAt captured (ipOffset - 3) = 17 →
      ipOffset + 11 < captured.length) :
    loadHash captured ipOffset =
      .ok (getPacketHashNumber.hashAt (byteAt captured) ipOffset) := by
  rw [loadHash_eq inside, loadPorts, getPacketHashNumber.hashAt]
  by_cases htransport : byteAt captured (ipOffset - 3) = 6 ∨ byteAt captured (ipOffset - 3) = 17
  · have hports := ports htransport
    rw [if_pos htransport, loadU16_of_lt (by omega), bind_ok, loadU16_of_lt (by omega)]
    simp only [if_pos htransport]
    rfl
  · rw [if_neg htransport]
    simp only [if_neg htransport]
    rfl

/-- One of the ports was cut off. -/
theorem loadHash_of_cut (ipOffset : Nat) (inside : ipOffset + 7 < captured.length)
    (transport : byteAt captured (ipOffset - 3) = 6 ∨ byteAt captured (ipOffset - 3) = 17)
    (cut : captured.length ≤ ipOffset + 11) :
    ∃ fault, loadHash captured ipOffset = .error fault := by
  rw [loadHash_eq inside, loadPorts, if_pos transport]
  rcases Nat.lt_or_ge (ipOffset + 8 + 1) captured.length with hfirst | hfirst
  · obtain ⟨fault, hfault⟩ := loadU16_of_ge (show captured.length ≤ ipOffset + 8 + 2 + 1 by omega)
    refine ⟨fault, ?_⟩
    rw [loadU16_of_lt hfirst, bind_ok, hfault]
    rfl
  · obtain ⟨fault, hfault⟩ := loadU16_of_ge hfirst
    refine ⟨fault, ?_⟩
    rw [hfault]
    rfl

/-- A field has a value when its two bytes have. -/
theorem readU16_eq_iff (packet : Nat → UInt8) (low high : UInt8) :
    readU16 packet offset = high.toBitVec ++ low.toBitVec ↔
      packet offset = low ∧ packet (offset + 1) = high := by
  rw [readU16]
  constructor
  · intro same
    have hlow := congrArg (BitVec.extractLsb' 0 8) same
    have hhigh := congrArg (BitVec.extractLsb' 8 8) same
    rw [BitVec.extractLsb'_append_eq_right, BitVec.extractLsb'_append_eq_right] at hlow
    rw [BitVec.extractLsb'_append_eq_left, BitVec.extractLsb'_append_eq_left] at hhigh
    exact ⟨UInt8.toBitVec_inj.mp hlow, UInt8.toBitVec_inj.mp hhigh⟩
  · rintro ⟨hlow, hhigh⟩
    rw [hlow, hhigh]

theorem byteAt_eq_iff {byte : UInt8} (inside : offset < captured.length) :
    byteAt captured offset = byte ↔ captured[offset]? = some byte := by
  rw [byteAt, List.getD_eq_getElem?_getD, List.getElem?_eq_getElem inside, Option.getD_some,
    Option.some.injEq]

theorem taggedTransport_iff (inside : 38 ≤ captured.length) :
    TaggedTransport captured ↔ readU16 (byteAt captured) 12 = 0x81 ∧
      (byteAt captured 27 = 6 ∨ byteAt captured 27 = 17) := by
  rw [TaggedTransport, byteAt_eq_iff (by omega), byteAt_eq_iff (by omega), ← and_assoc,
    show (0x81 : BitVec 16) = (0 : UInt8).toBitVec ++ (0x81 : UInt8).toBitVec from rfl,
    readU16_eq_iff, byteAt_eq_iff (by omega), byteAt_eq_iff (by omega)]

/-- Outside one case only captured bytes are read, and the number is the one that the
dispatcher uses. -/
theorem loadPacketHashNumber_of_captured
    (whole : ¬(38 ≤ captured.length ∧ captured.length < 42 ∧ TaggedTransport captured)) :
    loadPacketHashNumber captured =
      .ok (getPacketHashNumber (byteAt captured) captured.length) := by
  rw [loadPacketHashNumber, getPacketHashNumber]
  by_cases hshort : captured.length < 38
  · rw [if_pos hshort, if_pos hshort]
  rw [if_neg hshort, if_neg hshort, loadU16_of_lt (by omega), bind_ok]
  by_cases hip : readU16 (byteAt captured) 12 = 0x08
  · simp only [if_pos hip]
    exact loadHash_of_captured (by omega) fun _ => by omega
  simp only [if_neg hip]
  by_cases hvlan : readU16 (byteAt captured) 12 = 0x81
  · simp only [if_pos hvlan]
    apply loadHash_of_captured (by omega)
    intro htransport
    rw [taggedTransport_iff (by omega)] at whole
    have hlong : ¬captured.length < 42 := fun hless =>
      whole ⟨by omega, hless, hvlan, htransport⟩
    omega
  · simp only [if_neg hvlan]
    rfl

/-- A tagged packet that was cut within its ports is read beyond its end. -/
theorem loadPacketHashNumber_of_cut (inside : 38 ≤ captured.length)
    (cut : captured.length < 42) (tagged : TaggedTransport captured) :
    ∃ fault, loadPacketHashNumber captured = .error fault := by
  obtain ⟨hvlan, htransport⟩ := (taggedTransport_iff inside).mp tagged
  obtain ⟨fault, hfault⟩ := loadHash_of_cut 30 (by omega) htransport (by omega)
  refine ⟨fault, ?_⟩
  rw [loadPacketHashNumber, if_neg (by omega), loadU16_of_lt (by omega), bind_ok, hvlan,
    if_neg (by decide), if_pos rfl, hfault]

/-- **The hash number is made of captured bytes, except for a tagged packet with ports that
was cut within them.** -/
theorem readsCaptured_iff (captured : List UInt8) :
    ReadsCaptured captured ↔
      ¬(38 ≤ captured.length ∧ captured.length < 42 ∧ TaggedTransport captured) := by
  constructor
  · rintro ⟨number, hnumber⟩ ⟨inside, cut, tagged⟩
    obtain ⟨fault, hfault⟩ := loadPacketHashNumber_of_cut inside cut tagged
    rw [hfault] at hnumber
    cases hnumber
  · intro whole
    exact ⟨_, loadPacketHashNumber_of_captured whole⟩

/-- A frame of 38 bytes with a VLAN tag and the number of UDP in its IPv4 header. -/
def shortTaggedFrame : List UInt8 :=
  List.replicate 12 0 ++ [0x81, 0x00, 0x00, 0x01, 0x08, 0x00, 0x45] ++ List.replicate 8 0 ++
    [17] ++ List.replicate 10 0

/-- The ports of this frame would be behind its end. -/
theorem not_readsCaptured_short : ¬ReadsCaptured shortTaggedFrame := by
  obtain ⟨fault, hfault⟩ := loadPacketHashNumber_of_cut
    (show 38 ≤ shortTaggedFrame.length by decide) (by decide) (by decide)
  rintro ⟨number, hnumber⟩
  rw [hfault] at hnumber
  cases hnumber

/-! ## Copying a packet into an element -/

/-- The size of an element for `data_spsc_ring_init`; `sizeof( pkthdr_t )` is a parameter. -/
def slotSize (sizeofPkthdr : Nat) (conf : Conf) : Nat :=
  u32 (sizeofPkthdr + (conf.uint16 .inputSnapLen).toNat)

/-- The captured length that libpcap keeps to: the snap length that was set on a device, or
the one that is recorded in a trace file. -/
def pcapSnapLen (conf : Conf) (fileSnapLen : Nat) : Nat :=
  if conf.enum .inputMode = 1 then fileSnapLen else (conf.uint16 .inputSnapLen).toNat

/-- The part of `_got_a_packet_smp` that fills an element: the header, and the data behind
it. -/
def fillElement (header data element : List UInt8) : Except Fault (List UInt8) := do
  let element ← storeBytes element 0 header
  storeBytes element header.length data

/-- Every packet that libpcap can deliver fits the element it is copied into. -/
def PacketsFit (sizeofPkthdr : Nat) (conf : Conf) (fileSnapLen : Nat) : Prop :=
  ∀ caplen, caplen ≤ pcapSnapLen conf fileSnapLen →
    sizeofPkthdr + caplen ≤ slotSize sizeofPkthdr conf

/-- Where a packet fits, and only there, the copy stays inside the element. -/
theorem fillElement_eq_ok_iff (header data element : List UInt8) :
    (∃ filled, fillElement header data element = .ok filled) ↔
      header.length + data.length ≤ element.length := by
  rw [fillElement]
  constructor
  · rintro ⟨filled, hfilled⟩
    obtain ⟨middle, hheader, hdata⟩ := bind_eq_ok_iff.mp hfilled
    rw [storeBytes] at hheader hdata
    split_ifs at hheader hdata with hfirst hsecond
    cases hheader
    rwa [length_splice hfirst] at hsecond
  · intro fits
    have hfirst : 0 + header.length ≤ element.length := by omega
    refine ⟨splice (splice element 0 header) header.length data, ?_⟩
    rw [storeBytes_eq_splice hfirst, bind_ok,
      storeBytes_eq_splice (by rw [length_splice hfirst]; exact fits)]

/-- **Packets from a device always fit. Those from a trace file fit exactly when the file
was recorded with a snap length that is not larger than the configured one.** -/
theorem packetsFit_iff (sizeofPkthdr : Nat) (small : sizeofPkthdr + 2 ^ 16 ≤ 2 ^ 32)
    (conf : Conf) (fileSnapLen : Nat) :
    PacketsFit sizeofPkthdr conf fileSnapLen ↔
      conf.enum .inputMode ≠ 1 ∨ fileSnapLen ≤ (conf.uint16 .inputSnapLen).toNat := by
  have hsnap : (conf.uint16 .inputSnapLen).toNat < 2 ^ 16 := UInt16.toNat_lt _
  have hslot : slotSize sizeofPkthdr conf = sizeofPkthdr + (conf.uint16 .inputSnapLen).toNat :=
    u32_of_lt (by omega)
  rw [PacketsFit, hslot, pcapSnapLen]
  by_cases hoffline : conf.enum .inputMode = 1
  · rw [if_pos hoffline]
    constructor
    · intro fits
      have hlargest := fits fileSnapLen (le_refl _)
      exact .inr (by omega)
    · rintro (honline | hsmaller) caplen hcaplen
      · exact absurd hoffline honline
      · omega
  · rw [if_neg hoffline]
    exact iff_of_true (fun caplen hcaplen => by omega) (.inl hoffline)

/-- The default configuration, for reading a trace file. -/
def offlineConf : Conf :=
  ((confLoadFromFile emptyFile 0).overrideEnum .inputMode (bytesOf "OFFLINE")).2

/-- A trace file that was recorded with the default snap length of the probe. -/
theorem packetsFit_default :
    48 + 2 ^ 16 ≤ 2 ^ 32 ∧ (PacketsFit 48 offlineConf 65535 ↔
      offlineConf.enum .inputMode ≠ 1 ∨ 65535 ≤ (offlineConf.uint16 .inputSnapLen).toNat) :=
  ⟨by decide, packetsFit_iff 48 (by decide) offlineConf 65535⟩

/-- A trace file that was recorded with a larger snap length, as by default in other tools. -/
theorem not_packetsFit_large : ¬PacketsFit 48 offlineConf 262144 := by
  intro fits
  have hlargest := fits 262144 (by decide)
  exact absurd hlargest (by decide)

end MmtProbe.Capture

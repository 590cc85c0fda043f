/-
# Dispatching packets by flow

`_get_packet_hash_number` reads addresses and ports of an Ethernet frame at
fixed offsets and hashes their bitwise union; `_got_a_packet_smp` sends the
packet to the worker with that number.  Both directions of a connection are
meant to reach the same worker.

The addresses do sit at a fixed offset.  The ports do so only behind an IPv4
header without options: otherwise the four bytes read in their place are option
bytes.  Since the final mixing is a bijection, the two directions get the same
number exactly when the bytes that were read agree, and the theorem of this
module says which ones have to.
-/

import Mathlib.Data.BitVec
import Mathlib.Logic.Function.Basic
import Mathlib.Tactic.IntervalCases

namespace MmtProbe.Capture

/-! ## The hash -/

/-- A 16-bit field read at an offset, on a little-endian machine. -/
def readU16 (packet : Nat → UInt8) (offset : Nat) : BitVec 16 :=
  (packet (offset + 1)).toBitVec ++ (packet offset).toBitVec

/-- A 32-bit field read at an offset, on a little-endian machine. -/
def readU32 (packet : Nat → UInt8) (offset : Nat) : BitVec 32 :=
  readU16 packet (offset + 2) ++ readU16 packet offset

/-- One round of the mixing function without its multiplication. -/
def xorShift16 (x : BitVec 32) : BitVec 32 := (x >>> 16) ^^^ x

/-- `hash`: the mixing function that spreads the numbers. -/
def hash (x : BitVec 32) : BitVec 32 :=
  let x := xorShift16 x * 0x45d9f3b#32
  let x := xorShift16 x * 0x45d9f3b#32
  xorShift16 x

/-- `_get_packet_hash_number`: a number that stands for the tuple of addresses
and ports of an IPv4 packet, tagged or not; 0 for anything else. -/
def getPacketHashNumber (packet : Nat → UInt8) (pktLen : Nat) : BitVec 32 :=
  if pktLen < 38 then 0
  else
    let proto := readU16 packet 12
    if proto = 0x08 then hashAt 26
    else if proto = 0x81 then hashAt 30
    else 0
where
  /-- The hash of the fields found around the offset of the source address. -/
  hashAt (ipOffset : Nat) : BitVec 32 :=
    let ipSrc := readU32 packet ipOffset
    let ipDst := readU32 packet (ipOffset + 4)
    let protoId := packet (ipOffset - 3)
    let ports : BitVec 16 :=
      if protoId = 6 ∨ protoId = 17 then
        readU16 packet (ipOffset + 8) ||| readU16 packet (ipOffset + 8 + 2)
      else 0
    hash ((ipSrc ||| ipDst) ||| ports.setWidth 32)

/-- The worker to which `_got_a_packet_smp` gives a packet. -/
def workerOf (threadCount : Nat) (packet : Nat → UInt8) (caplen : Nat) : Nat :=
  (getPacketHashNumber packet caplen).toNat % threadCount

/-- Shifting a 32-bit word by half its width and adding it in is undone by doing
it again. -/
theorem xorShift16_involutive : Function.Involutive xorShift16 := by
  intro x
  unfold xorShift16
  ext i hi
  simp only [BitVec.getElem_xor, BitVec.getElem_ushiftRight, BitVec.getLsbD_xor,
    BitVec.getLsbD_ushiftRight]
  have hover : x.getLsbD (16 + (16 + i)) = false := BitVec.getLsbD_of_ge _ _ (by omega)
  simp [hover]

/-- Multiplying by the odd constant of the mixing function loses nothing. -/
theorem mul_mix_injective : Function.Injective fun x : BitVec 32 => x * 0x45d9f3b#32 := by
  have hinverse : (0x45d9f3b#32) * 0x119de1f3#32 = 1#32 := by decide
  intro x y (same : x * 0x45d9f3b#32 = y * 0x45d9f3b#32)
  have hboth := congrArg (· * 0x119de1f3#32) same
  simpa only [BitVec.mul_assoc, hinverse, BitVec.mul_one] using hboth

/-- **Distinct numbers stay distinct under the mixing function.** -/
theorem hash_injective : Function.Injective hash := by
  intro x y same
  have hfirst := mul_mix_injective (xorShift16_involutive.injective same)
  exact xorShift16_involutive.injective
    (mul_mix_injective (xorShift16_involutive.injective hfirst))

/-! ## Frames of a connection -/

/-- Where the IPv4 header starts: behind the Ethernet header and its tag. -/
def ipStart (tagged : Bool) : Nat := if tagged then 18 else 14

/-- The two bytes of an EtherType, as they stand in the frame. -/
def etherTypeAt (bytes : Nat → UInt8) (offset : Nat) (high low : UInt8) : Prop :=
  bytes offset = high ∧ bytes (offset + 1) = low

/-- The header length field of IPv4, in words of four bytes. -/
def headerLength (bytes : Nat → UInt8) (start : Nat) : Nat := (bytes start &&& 0x0f).toNat

/-- An Ethernet frame, untagged or with one 802.1Q tag, that carries an IPv4
packet with TCP or UDP and was captured at least up to its ports. -/
structure TransportFrame where
  tagged : Bool
  bytes : Nat → UInt8
  caplen : Nat
  etherType : if tagged then etherTypeAt bytes 12 0x81 0x00 ∧ etherTypeAt bytes 16 0x08 0x00
    else etherTypeAt bytes 12 0x08 0x00
  version : bytes (ipStart tagged) >>> 4 = 4
  headerLength_ge : 5 ≤ headerLength bytes (ipStart tagged)
  transport : bytes (ipStart tagged + 9) = 6 ∨ bytes (ipStart tagged + 9) = 17
  captured : ipStart tagged + 4 * headerLength bytes (ipStart tagged) + 4 ≤ caplen

namespace TransportFrame

variable (f g : TransportFrame)

/-- The IPv4 header length of the frame, in words of four bytes. -/
def ihl : Nat := headerLength f.bytes (ipStart f.tagged)

/-- The protocol above IPv4. -/
def protocol : UInt8 := f.bytes (ipStart f.tagged + 9)

/-- The source address. -/
def ipSrc : BitVec 32 := readU32 f.bytes (ipStart f.tagged + 12)

/-- The destination address. -/
def ipDst : BitVec 32 := readU32 f.bytes (ipStart f.tagged + 16)

/-- The source port, behind the options of the IPv4 header. -/
def portSrc : BitVec 16 := readU16 f.bytes (ipStart f.tagged + 4 * f.ihl)

/-- The destination port, behind the options of the IPv4 header. -/
def portDst : BitVec 16 := readU16 f.bytes (ipStart f.tagged + 4 * f.ihl + 2)

/-- The union of the two 16-bit words that follow the first 20 bytes of the IPv4
header: the ports if the header ends there, option bytes otherwise. -/
def wordsBehindFixedHeader : BitVec 16 :=
  readU16 f.bytes (ipStart f.tagged + 20) ||| readU16 f.bytes (ipStart f.tagged + 22)

/-- Two frames of one connection, in the same or in opposite directions. -/
def SameConnection : Prop :=
  f.tagged = g.tagged ∧ f.protocol = g.protocol ∧
    ((f.ipSrc = g.ipSrc ∧ f.ipDst = g.ipDst ∧ f.portSrc = g.portSrc ∧ f.portDst = g.portDst) ∨
      (f.ipSrc = g.ipDst ∧ f.ipDst = g.ipSrc ∧ f.portSrc = g.portDst ∧ f.portDst = g.portSrc))

instance : Decidable (SameConnection f g) :=
  inferInstanceAs (Decidable (_ ∧ _ ∧ (_ ∨ _)))

/-- The frames agree on every bit of the words behind the fixed header that the
addresses do not set anyway. -/
def WordsAgree : Prop :=
  ∀ i < 16, (f.ipSrc ||| f.ipDst).getLsbD i = false →
    f.wordsBehindFixedHeader.getLsbD i = g.wordsBehindFixedHeader.getLsbD i

/-- Both frames get the same number, and with it the same worker. -/
def SameWorker : Prop :=
  getPacketHashNumber f.bytes f.caplen = getPacketHashNumber g.bytes g.caplen ∧
    ∀ threadCount, 1 ≤ threadCount →
      workerOf threadCount f.bytes f.caplen = workerOf threadCount g.bytes g.caplen

variable {f g}

/-- On a captured frame the code hashes the addresses and the words behind the
fixed header. -/
theorem getPacketHashNumber_eq (f : TransportFrame) :
    getPacketHashNumber f.bytes f.caplen =
      hash ((f.ipSrc ||| f.ipDst) ||| f.wordsBehindFixedHeader.setWidth 32) := by
  have hlen := f.headerLength_ge
  have hcap := f.captured
  have hether := f.etherType
  have htransport := f.transport
  cases htag : f.tagged <;> simp only [htag, ipStart, Bool.false_eq_true, if_true, if_false]
    at hlen hcap hether htransport
  · obtain ⟨hhigh, hlow⟩ := hether
    have hproto : readU16 f.bytes 12 = 0x08 := by
      simp only [readU16, hhigh, hlow]
      decide
    simp only [getPacketHashNumber, if_neg (by omega : ¬ f.caplen < 38), hproto, if_true,
      getPacketHashNumber.hashAt, if_pos htransport, ipSrc, ipDst, wordsBehindFixedHeader,
      ipStart, htag, Bool.false_eq_true, if_false]
  · obtain ⟨⟨hhigh, hlow⟩, -⟩ := hether
    have hproto : readU16 f.bytes 12 = 0x81 := by
      simp only [readU16, hhigh, hlow]
      decide
    have hother : ¬ (0x81 : BitVec 16) = 0x08 := by decide
    simp only [getPacketHashNumber, if_neg (by omega : ¬ f.caplen < 38), hproto, if_neg hother,
      if_true, getPacketHashNumber.hashAt, if_pos htransport, ipSrc, ipDst,
      wordsBehindFixedHeader, ipStart, htag]

/-- The union of the addresses is the same in both directions. -/
theorem SameConnection.addresses_eq (same : SameConnection f g) :
    f.ipSrc ||| f.ipDst = g.ipSrc ||| g.ipDst := by
  obtain ⟨-, -, ⟨hsrc, hdst, -⟩ | ⟨hsrc, hdst, -⟩⟩ := same
  · rw [hsrc, hdst]
  · rw [hsrc, hdst, BitVec.or_comm]

/-- Without options on either side the words behind the fixed header are the
ports, whose union is the same in both directions. -/
theorem SameConnection.wordsAgree_of_no_options (same : SameConnection f g)
    (hf : f.ihl = 5) (hg : g.ihl = 5) : WordsAgree f g := by
  have hwords : f.wordsBehindFixedHeader = g.wordsBehindFixedHeader := by
    obtain ⟨-, -, hports⟩ := same
    simp only [portSrc, portDst, hf, hg] at hports
    unfold wordsBehindFixedHeader
    rcases hports with ⟨-, -, hsrc, hdst⟩ | ⟨-, -, hsrc, hdst⟩
    · rw [hsrc, hdst]
    · rw [hsrc, hdst, BitVec.or_comm]
  intro i _ _
  rw [hwords]

/-- Adding 16-bit words to the same 32-bit word hides their bits only where that
word has them set. -/
theorem or_setWidth_eq_iff (address : BitVec 32) (u v : BitVec 16) :
    (address ||| u.setWidth 32 = address ||| v.setWidth 32) ↔
      ∀ i < 16, address.getLsbD i = false → u.getLsbD i = v.getLsbD i := by
  constructor
  · intro same i hi hclear
    have hbit := congrArg (fun word : BitVec 32 => word.getLsbD i) same
    simpa only [BitVec.getLsbD_or, BitVec.getLsbD_setWidth, hclear, Bool.false_or,
      show i < 32 by omega, decide_true, Bool.true_and] using hbit
  · intro agree
    ext i hi
    simp only [BitVec.getElem_or, BitVec.getElem_setWidth]
    by_cases hlow : i < 16
    · cases hbit : address[i] with
      | false => simpa using agree i hlow (by rwa [BitVec.getLsbD_eq_getElem hi])
      | true => rfl
    · rw [BitVec.getLsbD_of_ge u i (by omega), BitVec.getLsbD_of_ge v i (by omega)]

/-- **When the two directions of a connection reach the same worker.** Two
frames of one connection get the same number, and the same worker for every
number of threads, exactly when they agree on the words behind the fixed part of
the IPv4 header; without options they always do. -/
theorem sameWorker_iff_wordsAgree (f g : TransportFrame) (same : SameConnection f g) :
    (SameWorker f g ↔ WordsAgree f g) ∧ (f.ihl = 5 → g.ihl = 5 → WordsAgree f g) := by
  refine ⟨?_, same.wordsAgree_of_no_options⟩
  have hnumber : getPacketHashNumber f.bytes f.caplen = getPacketHashNumber g.bytes g.caplen ↔
      WordsAgree f g := by
    rw [getPacketHashNumber_eq, getPacketHashNumber_eq, hash_injective.eq_iff,
      ← same.addresses_eq]
    exact or_setWidth_eq_iff _ _ _
  constructor
  · intro worker
    exact hnumber.mp worker.1
  · intro agree
    have hequal := hnumber.mpr agree
    exact ⟨hequal, fun threadCount _ => by rw [workerOf, workerOf, hequal]⟩

/-- A TCP packet from 10.0.0.1:1234 to 10.0.0.2:80 with one word of IPv4
options. -/
def frameWithOptions (first second third fourth : UInt8) : TransportFrame where
  tagged := false
  bytes i :=
    [0, 0, 0, 0, 0, 1, 0, 0, 0, 0, 0, 2, 0x08, 0x00,
      0x46, 0, 0, 28, 0, 0, 0, 0, 64, 6, 0, 0, 10, 0, 0, 1, 10, 0, 0, 2,
      first, second, third, fourth, 0x04, 0xd2, 0x00, 0x50].getD i 0
  caplen := 42
  etherType := ⟨rfl, rfl⟩
  version := by
    show (0x46 : UInt8) >>> 4 = 4
    decide
  headerLength_ge := by
    show 5 ≤ ((0x46 : UInt8) &&& 0x0f).toNat
    decide
  transport := Or.inl rfl
  captured := by
    show 14 + 4 * ((0x46 : UInt8) &&& 0x0f).toNat + 4 ≤ 42
    decide

/-- A router-alert option and four no-operation options, on one connection. -/
theorem sameWorker_iff_wordsAgree_options :
    SameConnection (frameWithOptions 0x94 4 0 0) (frameWithOptions 1 1 1 1) ∧
      (SameWorker (frameWithOptions 0x94 4 0 0) (frameWithOptions 1 1 1 1) ↔
        WordsAgree (frameWithOptions 0x94 4 0 0) (frameWithOptions 1 1 1 1)) :=
  have same : SameConnection (frameWithOptions 0x94 4 0 0) (frameWithOptions 1 1 1 1) :=
    by decide
  ⟨same, (sameWorker_iff_wordsAgree _ _ same).1⟩

/-- The option bytes of those two packets give them different numbers. -/
theorem not_sameWorker_of_options :
    ¬ ∀ f g : TransportFrame, SameConnection f g → SameWorker f g := by
  intro holds
  have hnumber := (holds (frameWithOptions 0x94 4 0 0) (frameWithOptions 1 1 1 1)
    (by decide)).1
  revert hnumber
  decide

end TransportFrame

end MmtProbe.Capture

/-
# Reading the dumped packets back

What the capture files of a worker promise: read one after the other, in the order in
which they were opened, they hold one record for each packet that uses a selected protocol,
and no file is opened twice.

Three things break the promise: a length that 16 bits cannot hold, an end of the period
that 32 bits cannot hold, and a selected protocol that is one of the two outermost ones.
Besides, a file must be opened, and its name must tell its second.
-/

import MmtProbe.Dpi.PcapDump
import MmtProbe.Math.Machine

namespace MmtProbe.Dpi

open MmtProbe.Math MmtProbe.Lib MmtProbe.Output

/-! ## What is wanted, and when it holds -/

/-- A selected protocol is in the hierarchy of the packet. -/
def usesSelected (context : PcapDumpContext) (packet : DumpPacket) : Bool :=
  context.protoIdsLst.any fun proto => packet.protoPath.contains proto

/-- The record of a packet: its beginning, as far as the snap length goes. -/
def dumpedRecord (context : PcapDumpContext) (packet : DumpPacket) : PcapRecord where
  tsSec := packet.tvSec
  tsUsec := packet.tvUsec
  origLen := packet.len
  data := packet.data.take context.config.snapLen.toNat
  included := (List.length_take_le' _ _).trans packet.captured

/-- The records of some files, one file after the other. -/
def readFiles (disk : Disk) : List Path → Option (List PcapRecord)
  | [] => some []
  | path :: paths => do
      let bytes ← disk path
      let (_, records) ← readPcap bytes
      let rest ← readFiles disk paths
      return records ++ rest

/-- The files hold the packets with a selected protocol, and none was opened twice. -/
structure DumpReadsBack (context : PcapDumpContext) (packets : List DumpPacket)
    (state : DumpState) : Prop where
  records : readFiles state.disk state.created =
    some ((packets.filter (usesSelected context)).map (dumpedRecord context))
  opened_once : state.created.Nodup

/-- The path of a file is not cut before the end of its second. -/
def DumpNameFits (context : PcapDumpContext) (tvSec : UInt32) : Prop :=
  context.config.directory.bytes.length + digitCount tvSec.toNat < maxLengthFullPathFileName

/-- The condition on a packet, when it uses a selected protocol: one of them is behind the
two outermost levels, the length has 16 bits, and if a new file is due, it can be opened,
its name is not cut, and the end of its period has 32 bits. -/
def KeepsDump (context : PcapDumpContext) (state : DumpState) (packet : DumpPacket) : Prop :=
  usesSelected context packet = true →
    (∃ proto ∈ context.protoIdsLst, proto ∈ packet.protoPath.drop 2) ∧
    packet.len.toNat < 2 ^ 16 ∧
    (state.isDue packet.tvSec = true → packet.canOpen = true ∧
      DumpNameFits context packet.tvSec ∧
      packet.tvSec.toNat + context.config.frequency.toNat < 2 ^ 32)

instance (context : PcapDumpContext) (state : DumpState) (packet : DumpPacket) :
    Decidable (KeepsDump context state packet) :=
  inferInstanceAs (Decidable (_ = true → (∃ proto ∈ _, proto ∈ List.drop 2 _) ∧ _ < _ ∧
    (_ = true → _ = true ∧ _ < _ ∧ _ < _)))

/-- A packet is not older than another one. -/
def NotBefore (packet previous : DumpPacket) : Prop :=
  previous.tvSec.toNat < packet.tvSec.toNat ∨
    previous.tvSec = packet.tvSec ∧ previous.tvUsec.toNat ≤ packet.tvUsec.toNat

instance (packet previous : DumpPacket) : Decidable (NotBefore packet previous) :=
  inferInstanceAs (Decidable (_ ∨ _))

/-- A worker and the packets that it was given; time does not go back. -/
def dumpMachine (context : PcapDumpContext) (start : DumpState) :
    Machine (DumpState × List DumpPacket) DumpPacket where
  init state := state = (start, [])
  step state packet :=
    if ∀ previous ∈ state.2, NotBefore packet previous then
      some (pcapDumpCallback context state.1 packet, state.2 ++ [packet])
    else none

/-! ## The search -/

theorem findsLevel_iff (protoPath : List UInt32) (proto : UInt32) (j : Nat) :
    findsLevel protoPath proto j = true ↔
      ∃ level, 2 ≤ level ∧ level ≤ j ∧ protoPath[level]? = some proto := by
  induction j using findsLevel.induct with
  | case1 =>
      refine iff_of_false Bool.false_ne_true ?_
      rintro ⟨level, hlow, hhigh, -⟩
      omega
  | case2 =>
      refine iff_of_false Bool.false_ne_true ?_
      rintro ⟨level, hlow, hhigh, -⟩
      omega
  | case3 j ih =>
      rw [findsLevel, Bool.or_eq_true, beq_iff_eq, ih]
      constructor
      · rintro (hhere | ⟨level, hlow, hhigh, hlevel⟩)
        · exact ⟨j + 2, by omega, Nat.le_refl _, hhere⟩
        · exact ⟨level, hlow, by omega, hlevel⟩
      · rintro ⟨level, hlow, hhigh, hlevel⟩
        by_cases hlast : level = j + 2
        · exact .inl (hlast ▸ hlevel)
        · exact .inr ⟨level, hlow, by omega, hlevel⟩

/-- The search finds the selected protocols behind the two outermost levels. -/
theorem findsProtocol_iff (protoPath protoIds : List UInt32) :
    findsProtocol protoPath protoIds = true ↔ ∃ proto ∈ protoIds, proto ∈ protoPath.drop 2 := by
  have hlevel : ∀ proto, findsLevel protoPath proto (protoPath.length - 1) = true ↔
      proto ∈ protoPath.drop 2 := by
    intro proto
    rw [findsLevel_iff, List.mem_iff_getElem?]
    constructor
    · rintro ⟨level, hlow, -, hproto⟩
      refine ⟨level - 2, ?_⟩
      rw [List.getElem?_drop, Nat.add_sub_cancel' hlow]
      exact hproto
    · rintro ⟨offset, hproto⟩
      rw [List.getElem?_drop] at hproto
      have hlt := (List.getElem?_eq_some_iff.mp hproto).1
      exact ⟨2 + offset, by omega, by omega, hproto⟩
  induction protoIds with
  | nil => simp [findsProtocol]
  | cons proto protoIds ih =>
      rw [findsProtocol, Bool.or_eq_true, hlevel, List.exists_mem_cons_iff]
      exact or_congr_right ih

/-- Only packets with a selected protocol are dumped. -/
theorem usesSelected_of_findsProtocol {context : PcapDumpContext} {packet : DumpPacket}
    (found : findsProtocol packet.protoPath context.protoIdsLst = true) :
    usesSelected context packet = true := by
  obtain ⟨proto, hselected, hproto⟩ := (findsProtocol_iff _ _).mp found
  rw [usesSelected, List.any_eq_true]
  exact ⟨proto, hselected, List.contains_iff_mem.mpr (List.mem_of_mem_drop hproto)⟩

/-! ## The bytes of a file -/

variable {context : PcapDumpContext} {packet : DumpPacket} {disk : Disk} {path : Path}

/-- The header of the files of a worker. -/
def dumpHeader (context : PcapDumpContext) : PcapHeader where
  thiszone := 0
  snaplen := context.config.snapLen.toUInt32
  linktype := context.stackType

theorem pdPcapFileHeader_eq (context : PcapDumpContext) :
    pdPcapFileHeader 0 context.config.snapLen.toUInt32 context.stackType =
      (dumpHeader context).bytes := by
  simp only [pdPcapFileHeader, PcapHeader.bytes, dumpHeader, pcapMagic, List.append_assoc]

theorem fwrite_self {before : List UInt8} (held : disk path = some before) (bytes : List UInt8) :
    fwrite disk path bytes path = some (before ++ bytes) := by
  unfold fwrite fprintf
  rw [Function.update_self, held, Option.map_some]

theorem fwrite_of_ne {other : Path} (differs : other ≠ path) (bytes : List UInt8) :
    fwrite disk path bytes other = disk other := Function.update_of_ne differs _ _

theorem fopen_self : fopen disk path path = some [] := Function.update_self _ _ _

theorem fopen_of_ne {other : Path} (differs : other ≠ path) :
    fopen disk path other = disk other := Function.update_of_ne differs _ _

/-- Two writes to a file are one. -/
theorem fwrite_fwrite (disk : Disk) (path : Path) (x y : List UInt8) :
    fwrite (fwrite disk path x) path y = fwrite disk path (x ++ y) := by
  unfold fwrite fprintf
  rw [Function.update_idem, Function.update_self, Option.map_map]
  congr 2
  funext bytes
  exact List.append_assoc _ _ _

/-- A packet whose length has 16 bits is written as its record. -/
theorem writePacket_eq (short : packet.len.toNat < 2 ^ 16) :
    writePacket disk path packet.data (UInt16.ofNat packet.len.toNat)
      (UInt16.ofNat (min packet.data.length context.config.snapLen.toNat))
      packet.tvSec packet.tvUsec = fwrite disk path (dumpedRecord context packet).bytes := by
  have hcaplen : min packet.data.length context.config.snapLen.toNat < 2 ^ 16 :=
    Nat.lt_of_le_of_lt (Nat.min_le_right _ _) context.config.snapLen.toNat_lt
  have hdata : packet.data.take (min packet.data.length context.config.snapLen.toNat) =
      packet.data.take context.config.snapLen.toNat := by
    rw [Nat.min_comm, ← List.take_take, List.take_length]
  have hlength : (packet.data.take context.config.snapLen.toNat).length =
      min packet.data.length context.config.snapLen.toNat := by
    rw [List.length_take, Nat.min_comm]
  rw [writePacket, fwrite_fwrite, pdPcapPkthdr, PcapRecord.bytes]
  simp only [dumpedRecord, UInt16.toNat_toUInt32, UInt16.toNat_ofNat_of_lt' hcaplen,
    UInt16.toNat_ofNat_of_lt' short, hdata, hlength, List.append_assoc]

/-! ## Names -/

/-- What stands behind the second in the name of a file. -/
def dumpNameEnd (context : PcapDumpContext) (tvSec : UInt32) : List UInt8 :=
  (bytesOf "_thread_" ++ (decimal context.workerIndex.toNat ++ bytesOf ".pcap")).take
    (maxLengthFullPathFileName - 1 - context.config.directory.bytes.length -
      digitCount tvSec.toNat)

theorem dumpFileName_eq {tvSec : UInt32} (fits : DumpNameFits context tvSec) :
    dumpFileName context tvSec = context.config.directory.bytes ++
      (decimal tvSec.toNat ++ dumpNameEnd context tvSec) := by
  unfold DumpNameFits at fits
  rw [dumpFileName, dumpNameEnd, List.take_append, List.take_of_length_le (by omega),
    List.take_append, List.take_of_length_le (by rw [length_decimal]; omega), length_decimal]

/-- The digits end where the name goes on. -/
theorem takeWhile_dumpNameEnd (context : PcapDumpContext) (tvSec : UInt32) :
    (dumpNameEnd context tvSec).takeWhile isDigit = [] := by
  have hfirst : bytesOf "_thread_" = 95 :: bytesOf "thread_" := by decide +kernel
  rw [dumpNameEnd, hfirst]
  cases maxLengthFullPathFileName - 1 - context.config.directory.bytes.length -
      digitCount tvSec.toNat with
  | zero => rfl
  | succ room => rfl

/-- The name of a file tells its second. -/
theorem dumpFileName_injective {first second : UInt32} (fits : DumpNameFits context first)
    (fits' : DumpNameFits context second)
    (same : dumpFileName context first = dumpFileName context second) : first = second := by
  have hdigits : ∀ tvSec : UInt32,
      (decimal tvSec.toNat ++ dumpNameEnd context tvSec).takeWhile isDigit =
        decimal tvSec.toNat := by
    intro tvSec
    have hall : ∀ byte ∈ decimal tvSec.toNat, isDigit byte = true :=
      fun byte listed => isDigit_of_mem_fixed listed
    rw [List.takeWhile_append_of_pos hall, takeWhile_dumpNameEnd, List.append_nil]
  rw [dumpFileName_eq fits, dumpFileName_eq fits'] at same
  have hsame := congrArg (List.takeWhile isDigit) (List.append_cancel_left same)
  rw [hdigits, hdigits] at hsame
  exact UInt32.toNat_inj.mp (decimal_injective hsame)

/-! ## The invariant -/

/-- A file of some second holds some records. -/
structure HoldsFile (context : PcapDumpContext) (disk : Disk) (file : UInt32 × List PcapRecord) :
    Prop where
  stored : disk (dumpFileName context file.1) =
    some ((dumpHeader context).bytes ++ file.2.flatMap PcapRecord.bytes)
  short : ∀ record ∈ file.2, record.data.length ≤ context.config.snapLen.toNat
  named : DumpNameFits context file.1

/-- The files that were opened so far: the second and the records of each of them. The last
one is open, and its period starts with its second. -/
structure DumpFiles (context : PcapDumpContext) (files : List (UInt32 × List PcapRecord))
    (state : DumpState) : Prop where
  created : state.created = files.map fun file => dumpFileName context file.1
  held : ∀ file ∈ files, HoldsFile context state.disk file
  ordered : files.Pairwise fun earlier later => earlier.1.toNat < later.1.toNat
  current : match files.getLast? with
    | none => state.file = none
    | some file => state.file = some (dumpFileName context file.1) ∧
        state.nextTsToDumpToNewFile.toNat = file.1.toNat + context.config.frequency.toNat

theorem dumpFiles_start (context : PcapDumpContext) (disk : Disk) :
    DumpFiles context [] ⟨none, 0, disk, []⟩ where
  created := rfl
  held := List.forall_mem_nil _
  ordered := .nil
  current := rfl

variable {files : List (UInt32 × List PcapRecord)} {state : DumpState}

/-- Files of different seconds have different names. -/
theorem DumpFiles.name_ne (opened : DumpFiles context files state) {tvSec : UInt32}
    (fits : DumpNameFits context tvSec) (later : ∀ file ∈ files, file.1.toNat < tvSec.toNat) :
    ∀ file ∈ files, dumpFileName context file.1 ≠ dumpFileName context tvSec := by
  intro file listed same
  have hsame := dumpFileName_injective (opened.held file listed).named fits same
  exact absurd (later file listed) (by rw [hsame]; exact Nat.lt_irrefl _)

/-- A file that is due is of a later second than all the files before. -/
theorem DumpFiles.later_of_isDue (opened : DumpFiles context files state) {tvSec : UInt32}
    (due : state.isDue tvSec = true) : ∀ file ∈ files, file.1.toNat < tvSec.toNat := by
  rcases List.eq_nil_or_concat files with rfl | ⟨earlier, last, rfl⟩
  · exact List.forall_mem_nil _
  · have hcurrent := opened.current
    rw [List.concat_eq_append, List.getLast?_concat] at hcurrent
    rw [DumpState.isDue, hcurrent.1, hcurrent.2] at due
    have hlast : last.1.toNat < tvSec.toNat := by
      simp only [Bool.or_eq_true, beq_iff_eq, decide_eq_true_iff] at due
      rcases due with hnone | hgt
      · cases hnone
      · omega
    have hordered := opened.ordered
    rw [List.concat_eq_append, List.pairwise_append] at hordered
    rw [List.concat_eq_append]
    refine List.forall_mem_append.mpr ⟨fun file listed => ?_, List.forall_mem_singleton.mpr hlast⟩
    exact (hordered.2.2 file listed last (List.mem_singleton_self _)).trans hlast

/-- A new file holds the header. -/
theorem DumpFiles.rotate (opened : DumpFiles context files state)
    (canOpen : packet.canOpen = true) (fits : DumpNameFits context packet.tvSec)
    (narrow : packet.tvSec.toNat + context.config.frequency.toNat < 2 ^ 32)
    (later : ∀ file ∈ files, file.1.toNat < packet.tvSec.toNat) :
    DumpFiles context (files ++ [(packet.tvSec, [])]) (Dpi.rotate context state packet) := by
  have hstate : Dpi.rotate context state packet =
      { file := some (dumpFileName context packet.tvSec)
        nextTsToDumpToNewFile :=
          UInt32.ofNat (packet.tvSec.toNat + context.config.frequency.toNat)
        disk := fwrite (fopen state.disk (dumpFileName context packet.tvSec))
          (dumpFileName context packet.tvSec) (dumpHeader context).bytes
        created := state.created ++ [dumpFileName context packet.tvSec] } := by
    simp only [Dpi.rotate, createPcapFile, canOpen, if_true, pdPcapFileHeader_eq]
  have hne := opened.name_ne fits later
  rw [hstate]
  refine ⟨?_, ?_, ?_, ?_⟩
  · rw [opened.created, List.map_append]
    rfl
  · refine List.forall_mem_append.mpr ⟨fun file listed => ?_, List.forall_mem_singleton.mpr ?_⟩
    · have hheld := opened.held file listed
      refine ⟨?_, hheld.short, hheld.named⟩
      exact (fwrite_of_ne (hne file listed) _).trans <| (fopen_of_ne (hne file listed)).trans <|
        hheld.stored
    · refine ⟨?_, List.forall_mem_nil _, fits⟩
      rw [List.flatMap_nil, List.append_nil]
      exact fwrite_self fopen_self _
  · exact List.pairwise_append.mpr ⟨opened.ordered, List.pairwise_singleton _ _,
      fun file listed => List.forall_mem_singleton.mpr (later file listed)⟩
  · rw [List.getLast?_concat]
    exact ⟨rfl, UInt32.toNat_ofNat_of_lt' narrow⟩

/-- A record is added to the file that is open. -/
theorem DumpFiles.write {tvSec : UInt32} {records : List PcapRecord}
    (opened : DumpFiles context (files ++ [(tvSec, records)]) state) {record : PcapRecord}
    (short : record.data.length ≤ context.config.snapLen.toNat) :
    DumpFiles context (files ++ [(tvSec, records ++ [record])])
      { state with disk := fwrite state.disk (dumpFileName context tvSec) record.bytes } := by
  obtain ⟨hordered, -, hlater⟩ := List.pairwise_append.mp opened.ordered
  obtain ⟨hearlier, hlast⟩ := List.forall_mem_append.mp opened.held
  rw [List.forall_mem_singleton] at hlast
  have hne : ∀ file ∈ files, dumpFileName context file.1 ≠ dumpFileName context tvSec := by
    intro file listed same
    have hsame := dumpFileName_injective (hearlier file listed).named hlast.named same
    have hlt := hlater file listed _ (List.mem_singleton_self _)
    exact absurd hlt (by rw [hsame]; exact Nat.lt_irrefl _)
  refine ⟨?_, ?_, ?_, ?_⟩
  · rw [opened.created, List.map_append, List.map_append]
    rfl
  · refine List.forall_mem_append.mpr ⟨fun file listed => ?_, List.forall_mem_singleton.mpr ?_⟩
    · have hheld := hearlier file listed
      exact ⟨(fwrite_of_ne (hne file listed) _).trans hheld.stored, hheld.short, hheld.named⟩
    · refine ⟨?_, List.forall_mem_append.mpr ⟨hlast.short, List.forall_mem_singleton.mpr short⟩,
        hlast.named⟩
      rw [List.flatMap_append, List.flatMap_singleton, ← List.append_assoc]
      exact fwrite_self hlast.stored _
  · exact List.pairwise_append.mpr ⟨hordered, List.pairwise_singleton _ _,
      fun file listed => List.forall_mem_singleton.mpr
        (hlater file listed (tvSec, records) (List.mem_singleton_self _))⟩
  · have hcurrent := opened.current
    rw [List.getLast?_concat] at hcurrent ⊢
    exact hcurrent

/-- The records of the files after a packet. -/
def withPacket (context : PcapDumpContext) (records : List PcapRecord) (packet : DumpPacket) :
    List PcapRecord :=
  if usesSelected context packet then records ++ [dumpedRecord context packet] else records

/-- A packet adds its record to a file that is not of a later second. -/
theorem DumpFiles.callback (opened : DumpFiles context files state)
    (recent : ∀ file ∈ files, file.1.toNat ≤ packet.tvSec.toNat)
    (keeps : KeepsDump context state packet) :
    ∃ after, DumpFiles context after (pcapDumpCallback context state packet) ∧
      after.flatMap Prod.snd = withPacket context (files.flatMap Prod.snd) packet ∧
      ∀ file ∈ after, file.1.toNat ≤ packet.tvSec.toNat := by
  by_cases huses : usesSelected context packet = true
  · obtain ⟨hlevel, hshort, hrotation⟩ := keeps huses
    have hfound := (findsProtocol_iff packet.protoPath context.protoIdsLst).mpr hlevel
    -- The file that is written to: a new one when it is due, else the last one.
    obtain ⟨earlier, tvSec, records, middle, hmiddle, hopened, hrecords, hrecent⟩ :
        ∃ earlier tvSec records, ∃ middle : DumpState,
          middle = (if state.isDue packet.tvSec then Dpi.rotate context state packet else state) ∧
          DumpFiles context (earlier ++ [(tvSec, records)]) middle ∧
          (earlier ++ [(tvSec, records)]).flatMap Prod.snd = files.flatMap Prod.snd ∧
          ∀ file ∈ earlier ++ [(tvSec, records)], file.1.toNat ≤ packet.tvSec.toNat := by
      by_cases hdue : state.isDue packet.tvSec = true
      · obtain ⟨hcanOpen, hfits, hnarrow⟩ := hrotation hdue
        have hlater := opened.later_of_isDue hdue
        refine ⟨files, packet.tvSec, [], _, (if_pos hdue).symm,
          opened.rotate hcanOpen hfits hnarrow hlater, ?_, ?_⟩
        · rw [List.flatMap_append, List.flatMap_singleton, List.append_nil]
        · exact List.forall_mem_append.mpr
            ⟨recent, List.forall_mem_singleton.mpr (Nat.le_refl _)⟩
      · rcases List.eq_nil_or_concat files with rfl | ⟨earlier, ⟨tvSec, records⟩, rfl⟩
        · have hcurrent := opened.current
          exact absurd (show state.isDue packet.tvSec = true by
            rw [DumpState.isDue, hcurrent]; rfl) hdue
        · rw [List.concat_eq_append] at opened recent
          exact ⟨earlier, tvSec, records, state, (if_neg hdue).symm, opened,
            by rw [List.concat_eq_append], recent⟩
    have hcurrent := hopened.current
    rw [List.getLast?_concat] at hcurrent
    have hlength : (dumpedRecord context packet).data.length ≤ context.config.snapLen.toNat :=
      List.length_take_le _ _
    have hwritten := hopened.write hlength
    have hstate : pcapDumpCallback context state packet =
        { middle with
          disk := fwrite middle.disk (dumpFileName context tvSec)
            (dumpedRecord context packet).bytes } := by
      rw [pcapDumpCallback, if_pos hfound, ← hmiddle]
      simp only [hcurrent.1, writePacket_eq hshort]
    rw [hstate]
    refine ⟨_, hwritten, ?_, ?_⟩
    · rw [withPacket, if_pos huses, ← hrecords]
      simp only [List.flatMap_append, List.flatMap_singleton, List.append_assoc]
    · obtain ⟨hearlier, hlast⟩ := List.forall_mem_append.mp hrecent
      rw [List.forall_mem_singleton] at hlast
      exact List.forall_mem_append.mpr ⟨hearlier, List.forall_mem_singleton.mpr hlast⟩
  · have hnot : findsProtocol packet.protoPath context.protoIdsLst ≠ true :=
      fun hfound => huses (usesSelected_of_findsProtocol hfound)
    rw [pcapDumpCallback, if_neg hnot, withPacket, if_neg huses]
    exact ⟨files, opened, rfl, recent⟩

/-! ## Reading the files -/

/-- The files are read one after the other. -/
theorem DumpFiles.readFiles (opened : DumpFiles context files state) :
    Dpi.readFiles state.disk state.created = some (files.flatMap Prod.snd) := by
  rw [opened.created]
  have hheld := opened.held
  clear opened
  induction files with
  | nil => rfl
  | cons file files ih =>
      have hfile := hheld file List.mem_cons_self
      have hshort : ∀ record ∈ file.2,
          record.data.length ≤ (dumpHeader context).snaplen.toNat := by
        intro record listed
        rw [dumpHeader, UInt16.toNat_toUInt32]
        exact hfile.short record listed
      have hread := readPcap_bytes (dumpHeader context) hshort
      have hrest := ih fun other listed => hheld other (List.mem_cons_of_mem _ listed)
      rw [List.map_cons, Dpi.readFiles, hfile.stored]
      simp only [Option.bind_eq_bind, Option.bind_some, hread, hrest, List.flatMap_cons]
      rfl

theorem DumpFiles.nodup (opened : DumpFiles context files state) : state.created.Nodup := by
  rw [opened.created]
  refine List.pairwise_map.mpr (opened.ordered.imp_of_mem ?_)
  intro earlier later hearlier hlater hlt hsame
  have hsecond := dumpFileName_injective (opened.held earlier hearlier).named
    (opened.held later hlater).named hsame
  exact absurd hlt (by rw [hsecond]; exact Nat.lt_irrefl _)

/-! ## All runs -/

/-- What holds behind every packet: the files hold the packets so far, and are not of later
seconds than a packet that may come next. -/
def DumpInv (context : PcapDumpContext) (state : DumpState × List DumpPacket) : Prop :=
  ∃ files, DumpFiles context files state.1 ∧
    files.flatMap Prod.snd =
      (state.2.filter (usesSelected context)).map (dumpedRecord context) ∧
    ∀ packet, (∀ previous ∈ state.2, NotBefore packet previous) →
      ∀ file ∈ files, file.1.toNat ≤ packet.tvSec.toNat

theorem NotBefore.tvSec_le {packet previous : DumpPacket} (order : NotBefore packet previous) :
    previous.tvSec.toNat ≤ packet.tvSec.toNat := by
  rcases order with hlt | ⟨hsame, -⟩
  · exact Nat.le_of_lt hlt
  · exact Nat.le_of_eq (congrArg UInt32.toNat hsame)

theorem dumpInv_step {start : DumpState} {current target : DumpState × List DumpPacket}
    (inv : DumpInv context current) (keeps : KeepsDump context current.1 packet)
    (enabled : (dumpMachine context start).step current packet = some target) :
    DumpInv context target := by
  obtain ⟨files, hfiles, hrecords, hrecent⟩ := inv
  simp only [dumpMachine] at enabled
  split_ifs at enabled with horder
  rcases Option.some.inj enabled with rfl
  obtain ⟨after, hafter, hmore, hbefore⟩ := hfiles.callback (hrecent packet horder) keeps
  refine ⟨after, hafter, ?_, ?_⟩
  · rw [hmore, hrecords, withPacket, List.filter_append, List.map_append]
    split_ifs with huses
    · rw [List.filter_cons_of_pos huses, List.filter_nil, List.map_singleton]
    · rw [List.filter_cons_of_neg huses, List.filter_nil, List.map_nil, List.append_nil]
  · intro next hnext file listed
    exact (hbefore file listed).trans
      (hnext packet (List.mem_append_right _ (List.mem_singleton_self _))).tvSec_le

/-- In every run whose packets meet the condition, the files hold the packets that use a
selected protocol. -/
theorem dump_readsBack {workerIndex : UInt16} {config : PcapDumpConf} {stackType : UInt32}
    {getProtocolIdByName : CString → UInt32} {disk : Disk} {start : DumpState}
    (started : pcapDumpStart workerIndex config stackType getProtocolIdByName disk =
      some (context, start))
    {state : DumpState} {packets : List DumpPacket}
    (reached : (dumpMachine context start).ReachableWhen
      (fun current packet => KeepsDump context current.1 packet) (state, packets)) :
    DumpReadsBack context packets (pcapDumpStop state) := by
  have hstart : start = ⟨none, 0, disk, []⟩ := by
    rw [pcapDumpStart] at started
    split_ifs at started
    exact (congrArg Prod.snd (Option.some.inj started)).symm
  have hinv : DumpInv context (state, packets) := by
    refine reached.invariant (DumpInv context) ?_ ?_
    · rintro current rfl
      rw [hstart]
      exact ⟨[], dumpFiles_start context disk, rfl, fun _ _ => List.forall_mem_nil _⟩
    · exact fun current packet target inv keeps enabled => dumpInv_step inv keeps enabled
  obtain ⟨files, hfiles, hrecords, -⟩ := hinv
  exact ⟨hfiles.readFiles.trans (congrArg some hrecords), hfiles.nodup⟩

/-- A worker that dumps one protocol, with a new file every other second. -/
def dumpContext : PcapDumpContext where
  config := ⟨true, .ofText "/d/", 1, [.ofText "ip"], 3⟩
  protoIdsLst := [178]
  workerIndex := 1
  stackType := 1

/-- A worker that has dumped nothing. -/
def dumpStart : DumpState := ⟨none, 0, fun _ => none, []⟩

/-- A packet of some second, with the protocols of its outermost levels. -/
def dumpPacket (protoPath : List UInt32) (tvSec : UInt32) (len : UInt32)
    (captured : 4 ≤ len.toNat) : DumpPacket :=
  ⟨protoPath, tvSec, 0, len, [1, 2, 3, 4], captured, true⟩

/-- Two packets in one file, one of another protocol, and a packet in the next file. -/
def dumpedPackets : List DumpPacket :=
  [dumpPacket [1, 99, 178] 5 60 (by decide), dumpPacket [1, 99, 178, 354] 6 4 (by decide),
    dumpPacket [1, 99, 30] 6 60 (by decide), dumpPacket [1, 99, 178] 8 1500 (by decide)]

theorem dump_readsBack_dumpedPackets :
    ∃ state, DumpReadsBack dumpContext dumpedPackets (pcapDumpStop state) ∧
      state.created.length = 2 := by
  have hreached := @Machine.reachableWhen_after _ _
    (dumpMachine dumpContext dumpStart)
    (fun current packet => KeepsDump dumpContext current.1 packet) _ dumpedPackets
    (dumpStart, []) rfl (by decide +kernel)
  exact ⟨_, dump_readsBack (show pcapDumpStart 1 dumpContext.config 1 (fun _ => 178)
    (fun _ => none) = some (dumpContext, dumpStart) from rfl) hreached,
    by decide +kernel⟩

/-- A packet of 70000 bytes is written with another length, a packet whose selected protocol
is one of the two outermost is not written, and in the last second a file is opened twice. -/
theorem not_dump_readsBack :
    (∃ packet state, (dumpMachine dumpContext dumpStart).Reachable (state, [packet]) ∧
      readFiles state.disk state.created = some [⟨5, 0, 4464, [1, 2, 3], by decide⟩] ∧
      ¬DumpReadsBack dumpContext [packet] (pcapDumpStop state)) ∧
    (∃ packet state, (dumpMachine dumpContext dumpStart).Reachable (state, [packet]) ∧
      state.created = [] ∧ ¬DumpReadsBack dumpContext [packet] (pcapDumpStop state)) ∧
    ∃ packet state, (dumpMachine dumpContext dumpStart).Reachable (state, [packet, packet]) ∧
      (readFiles state.disk state.created.dedup).map List.length = some 1 ∧
      ¬DumpReadsBack dumpContext [packet, packet] (pcapDumpStop state) := by
  have hreach : ∀ packets,
      ((dumpMachine dumpContext dumpStart).run packets (dumpStart, [])).isSome →
      (dumpMachine dumpContext dumpStart).Reachable
        ((dumpMachine dumpContext dumpStart).after packets (dumpStart, [])) :=
    fun packets enabled => Machine.reachable_after rfl enabled
  refine ⟨⟨dumpPacket [1, 99, 178] 5 70000 (by decide), _, hreach [_] (by decide +kernel),
    by decide +kernel, ?_⟩, ⟨dumpPacket [1, 178] 5 60 (by decide), _,
    hreach [_] (by decide +kernel), by decide +kernel, ?_⟩,
    dumpPacket [1, 99, 178] 4294967295 60 (by decide), _,
    hreach [dumpPacket [1, 99, 178] 4294967295 60 (by decide),
      dumpPacket [1, 99, 178] 4294967295 60 (by decide)] (by decide +kernel),
    by decide +kernel, ?_⟩
  · exact fun reads => absurd reads.records (by decide +kernel)
  · exact fun reads => absurd reads.records (by decide +kernel)
  · exact fun reads => absurd reads.opened_once (by decide +kernel)

end MmtProbe.Dpi

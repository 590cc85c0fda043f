/-
# No message is lost in files

What sampled file output promises: the data files, in the order in which they were
opened, hold the messages that were written; a closed data file has a semaphore
beside it; and neither an empty data file nor a lonely semaphore stays behind.

The promise rests on the names.  They are cut at 254 characters without a word, so
the name of a semaphore may be the name of its data file, and opening it empties the
file.  The second weak point is the counter of messages, which has 32 bits and says
whether a file is worth keeping.  The result is about all runs in which neither of
the two goes wrong.
-/

import MmtProbe.Output.FileOutput
import Mathlib.Data.List.Dedup

namespace MmtProbe.Output

open MmtProbe.Math MmtProbe.Dpi MmtProbe.Lib

/-! ## What is wanted, and when it holds -/

/-- The path of the file that is open. -/
def FileState.openPath (state : FileState) : Option Path :=
  match state.phase with
  | .running output => output.file
  | _ => none

/-- What a file holds; a file that is not there holds nothing. -/
def content (disk : Disk) (path : Path) : List UInt8 := (disk path).getD []

/-- The name of the semaphore of a data file. -/
def semaphoreOf (path : Path) : Path := path ++ semaphoreExt.bytes

structure FilesOk (state : FileState) : Prop where
  /-- No access leaves an array. -/
  inside : ∀ reason, state.phase ≠ .stopped (.fault reason)
  /-- The data files hold the messages, line by line. -/
  kept : state.created.dedup.flatMap (content state.disk) = unlines state.messages
  /-- No empty data file is left. -/
  nonempty : ∀ path ∈ state.created, state.openPath ≠ some path → state.disk path ≠ some []
  /-- A closed data file has a semaphore, which is another file. -/
  signalled : ∀ path ∈ state.created, state.openPath ≠ some path → state.disk path ≠ none →
    semaphoreOf path ∈ state.semaphores ∧ state.disk (semaphoreOf path) ≠ none ∧
      semaphoreOf path ∉ state.created
  /-- No semaphore is left without its data file. -/
  attached : ∀ path ∈ state.semaphores, state.disk path ≠ none →
    ∃ data ∈ state.created, path = semaphoreOf data ∧ state.disk data ≠ none

/-- The length of the name of a data file that is not cut. -/
def nameLength (conf : FileOutputConf) (id : UInt16) (now : Timeval) : Nat :=
  conf.directory.bytes.length + (digitCount (seconds now) + 7) + (1 + digitCount id.toNat + 1) +
    conf.filename.bytes.length

/-- The name of a data file leaves room for the four characters of the semaphore. -/
def NameFits (conf : FileOutputConf) (id : UInt16) (now : Timeval) : Prop :=
  nameLength conf id now ≤ 250

/-- The counter of the open file tells whether it has messages. -/
def CounterTells (state : FileState) : Prop := 0 < state.inFile → ¬2 ^ 32 ∣ state.inFile

/-- The condition on one call. -/
def KeepsMessages (conf : FileOutputConf) (id : UInt16) (state : FileState) : FileAct → Prop
  | .alloc now _ => NameFits conf id now
  | .write _ => True
  | .flush now _ => NameFits conf id now ∧ CounterTells state
  | .release _ => CounterTells state

instance (conf : FileOutputConf) (id : UInt16) (state : FileState) (act : FileAct) :
    Decidable (KeepsMessages conf id state act) :=
  match act with
  | .alloc now _ => inferInstanceAs (Decidable (nameLength conf id now ≤ 250))
  | .write _ => inferInstanceAs (Decidable True)
  | .flush now _ => inferInstanceAs (Decidable (nameLength conf id now ≤ 250 ∧
      (0 < state.inFile → ¬2 ^ 32 ∣ state.inFile)))
  | .release _ => inferInstanceAs (Decidable (0 < state.inFile → ¬2 ^ 32 ∣ state.inFile))

/-! ## Names -/

/-- A time as `gettimeofday` gives it. -/
def NormalTime (t : Timeval) : Prop :=
  0 ≤ t.tvSec ∧ t.tvSec < 2 ^ 63 ∧ 0 ≤ t.tvUsec ∧ t.tvUsec < 10 ^ 6

/-- The name of a data file that is not cut. -/
def dataName (conf : FileOutputConf) (id : UInt16) (now : Timeval) : Path :=
  joined [] (dataFields conf id now)

variable {conf : FileOutputConf} {id : UInt16} {now t t' : Timeval} {array : List UInt8}

theorem dataName_eq (conf : FileOutputConf) (id : UInt16) (t : Timeval) :
    dataName conf id t = conf.directory.bytes ++ ((Field.time t).full ++
      95 :: (decimal id.toNat ++ 95 :: conf.filename.bytes)) := by
  simp [dataName, dataFields, joined, Field.full]

theorem length_dataName (conf : FileOutputConf) (id : UInt16) (t : Timeval) :
    (dataName conf id t).length = nameLength conf id t := by
  rw [dataName_eq, nameLength, seconds]
  simp [Field.full]
  omega

theorem plain_time_full (t : Timeval) : (0 : UInt8) ∉ (Field.time t).full := by
  simp [Field.full, decimal, notMem_fixed, notMem_microText, isDigit]

theorem plain_dataName (conf : FileOutputConf) (id : UInt16) (t : Timeval) :
    (0 : UInt8) ∉ dataName conf id t := by
  have hid : (0 : UInt8) ∉ decimal id.toNat := notMem_fixed (by decide) _ _
  simp [dataName_eq, plain_time_full, hid, conf.directory.plain, conf.filename.plain]

/-- The text of a time holds no underscore, so a name tells where it ends. -/
theorem underscore_notMem_time (t : Timeval) : (95 : UInt8) ∉ (Field.time t).full := by
  simp [Field.full, decimal, notMem_fixed, notMem_microText, isDigit]

theorem time_full_injective (normal : NormalTime t) (normal' : NormalTime t')
    (same : (Field.time t).full = (Field.time t').full) : t = t' := by
  rcases normal with ⟨hsec, hsecLt, husec, husecLt⟩
  rcases normal' with ⟨hsec', hsecLt', husec', husecLt'⟩
  have hpoint : ∀ n, (46 : UInt8) ∉ decimal n := fun n => notMem_fixed (by decide) _ _
  rw [Field.full, Field.full, toNat_ofInt hsec (by omega), toNat_ofInt hsec' (by omega)] at same
  rcases split_injective (hpoint _) (hpoint _) same with ⟨hseconds, hmicro⟩
  have hfirst := decimal_injective hseconds
  rw [microText, microText, toNat_ofInt husec (by omega), toNat_ofInt husec' (by omega),
    if_pos (by omega), if_pos (by omega)] at hmicro
  have hvalue := congrArg (decimalValue 0) hmicro
  rw [decimalValue_fixed (by omega), decimalValue_fixed (by omega)] at hvalue
  rcases t with ⟨tvSec, tvUsec⟩
  rcases t' with ⟨tvSec', tvUsec'⟩
  rw [Timeval.mk.injEq]
  exact ⟨by simp only at *; omega, by simp only at *; omega⟩

/-- A name, with something behind it, tells its time and what is behind it. -/
theorem dataName_append_injective {back back' : List UInt8} (normal : NormalTime t)
    (normal' : NormalTime t')
    (same : dataName conf id t ++ back = dataName conf id t' ++ back') : t = t' ∧ back = back' := by
  simp only [dataName_eq, List.append_assoc, List.append_cancel_left_eq, List.cons_append] at same
  rcases split_injective (underscore_notMem_time t) (underscore_notMem_time t') same with
    ⟨htime, hback⟩
  have hrest := List.append_cancel_left hback
  exact ⟨time_full_injective normal normal' htime, List.append_cancel_left (List.cons.inj hrest).2⟩

theorem semaphoreOf_ne_dataName (normal : NormalTime t) (normal' : NormalTime t') :
    semaphoreOf (dataName conf id t) ≠ dataName conf id t' := by
  intro same
  have happend : dataName conf id t ++ semaphoreExt.bytes = dataName conf id t' ++ [] := by
    simpa [semaphoreOf] using same
  have hempty := (dataName_append_injective normal normal' happend).2
  exact absurd hempty (by decide +kernel)

/-- A path that fits is built and read back. -/
theorem buildPath_of_text {fields : List Field} {text : List UInt8} (whole : array.length = 255)
    (built : buildText 254 [] fields [] = some text) (plain : (0 : UInt8) ∉ text) :
    buildPath array fields = .ok (splice array 0 (text ++ [0]), text) := by
  have hle : text.length ≤ 254 := length_buildText_le (by simp) built
  have hbuild : stringBuilder 0 array 255 fields = _ :=
    build_eq none fields (by omega) (by omega) (by omega) (by omega)
  have hread : loadString (splice array 0 (text ++ [0])) 0 = .ok text :=
    loadString_splice (by omega) plain
  rw [separatorBytes, List.take_zero, built] at hbuild
  simp only [buildPath, maxLengthFullPathFileName, hbuild, bind_ok, hread, mapError_ok]
  rfl

theorem buildPath_of_abort {fields : List Field} (whole : array.length = 255)
    (stops : buildText 254 [] fields [] = none) : buildPath array fields = .error .abort := by
  have hbuild : stringBuilder 0 array 255 fields = _ :=
    build_eq none fields (by omega) (by omega) (by omega) (by omega)
  rw [separatorBytes, List.take_zero, stops] at hbuild
  simp only [buildPath, maxLengthFullPathFileName, hbuild]
  rfl

/-- A name that fits is built completely, unless the assertion on the seconds stops the
process. -/
theorem buildPath_dataFields (whole : array.length = 255) (fits : NameFits conf id now) :
    buildPath array (dataFields conf id now) = .error .abort ∨
      buildPath array (dataFields conf id now) =
        .ok (splice array 0 (dataName conf id now ++ [0]), dataName conf id now) := by
  have hlength : nameLength conf id now ≤ 250 := fits
  have hjoined : (joined [] (dataFields conf id now)).length = nameLength conf id now :=
    length_dataName conf id now
  by_cases htwelve : digitCount (seconds now) ≤ 12
  · have htimely : ∀ field ∈ dataFields conf id now, field.Timely := by
      intro field listed
      simp only [dataFields, List.mem_cons, List.not_mem_nil, or_false] at listed
      rcases listed with rfl | rfl | rfl | rfl | rfl | rfl
      case inr.inl => exact htwelve
      all_goals exact trivial
    have hmodest : ∀ field ∈ dataFields conf id now, field.need ≤ field.full.length + 4 := by
      intro field listed
      simp only [dataFields, List.mem_cons, List.not_mem_nil, or_false] at listed
      rcases listed with rfl | rfl | rfl | rfl | rfl | rfl
      case inr.inl =>
        have hpos := digitCount_pos (UInt64.ofInt now.tvSec).toNat
        simp only [Field.need, Field.full, List.length_append, length_decimal, List.length_cons,
          length_microText]
        omega
      all_goals exact Nat.le_add_right _ _
    apply Or.inr
    apply buildPath_of_text whole _ (plain_dataName conf id now)
    have hbuilt := @buildText_eq_joined 254 [] [] (dataFields conf id now) 4 htimely hmodest
      (by rw [hjoined, List.length_nil]; omega)
    rw [hbuilt, List.nil_append, dataName]
  · apply Or.inl
    apply buildPath_of_abort whole
    have hdirectory : withField 254 (.arr conf.directory) [] = some conf.directory.bytes := by
      have hneed : ([] : List UInt8).length + (Field.arr conf.directory).need ≤ 254 := by
        simp only [Field.need, Field.full, List.length_nil]
        rw [nameLength] at hlength
        omega
      have hwritten := @withField_eq 254 [] (.arr conf.directory) trivial hneed
      simpa [Field.full] using hwritten
    have hstops : TimeStops (254 - conf.directory.bytes.length) now := by
      rw [nameLength] at hlength
      exact ⟨by omega, by omega, by omega⟩
    have htime : withField 254 (.time now) conf.directory.bytes = none := by
      rw [nameLength] at hlength
      rw [withField, if_pos (by omega), Field.text, timeText_eq_none_iff.mpr hstops]
      rfl
    rw [dataFields, buildText_cons_cons, hdirectory, Option.bind_some, withSeparator, List.take_nil,
      List.append_nil, buildText_cons_cons, htime]
    rfl

/-- The name of a semaphore is built completely. -/
theorem buildPath_semaphore (whole : array.length = 255) {name : Path} (plain : (0 : UInt8) ∉ name)
    (fits : name.length ≤ 250) :
    ∃ block, buildPath array [.arr (.of name), .arr semaphoreExt] =
      .ok (block, semaphoreOf name) := by
  have hname : (CString.of name).bytes = name := cstring_eq_self plain
  have hext : semaphoreExt.bytes.length = 4 := by decide +kernel
  have hjoined : joined [] [.arr (.of name), .arr semaphoreExt] = semaphoreOf name := by
    simp [joined, Field.full, hname, semaphoreOf]
  have hbuilt : buildText 254 [] [.arr (.of name), .arr semaphoreExt] [] =
      some ([] ++ joined [] [.arr (.of name), .arr semaphoreExt]) := by
    apply @buildText_eq_joined 254 [] [] _ 0
    · simp [Field.Timely]
    · simp [Field.need]
    · rw [hjoined, semaphoreOf, List.length_append, hext, List.length_nil]
      omega
  rw [hjoined, List.nil_append] at hbuilt
  exact ⟨_, buildPath_of_text whole hbuilt (by simp [semaphoreOf, plain, semaphoreExt.plain])⟩

/-! ## The invariant -/

/-- The files that were opened up to some time, all of them but one closed. -/
structure FilesInv (conf : FileOutputConf) (id : UInt16) (clock : Timeval) (current : Option Path)
    (state : FileState) : Prop where
  named : ∀ path ∈ state.created, ∃ t, NormalTime t ∧ isAfter clock t = false ∧
    path = dataName conf id t
  nodup : state.created.Nodup
  kept : state.created.flatMap (content state.disk) = unlines state.messages
  closed : ∀ path ∈ state.created, current ≠ some path → state.disk path = none ∨
    (state.disk path ≠ some [] ∧ semaphoreOf path ∈ state.semaphores ∧
      state.disk (semaphoreOf path) ≠ none)
  attached : ∀ path ∈ state.semaphores, ∃ data ∈ state.created, path = semaphoreOf data ∧
    current ≠ some data ∧ state.disk data ≠ none

/-- The file that is open is the last one. It holds the messages since it was opened, and the
counter counts them. -/
structure OpenFile (output : FileOutput) (path : Path) (state : FileState) : Prop where
  phase : state.phase = .running output
  array : output.fileName.length = 255
  file : output.file = some path
  name : loadString output.fileName 0 = .ok path
  plain : (0 : UInt8) ∉ path
  short : path.length ≤ 250
  last : ∃ front, state.created = front ++ [path]
  lines : ∃ messages, state.disk path = some (unlines messages) ∧ messages.length = state.inFile
  counter : output.nbMessages = UInt32.ofNat state.inFile

/-- What holds in every state of a run. -/
def FileInv (conf : FileOutputConf) (id : UInt16) (state : FileState) : Prop :=
  match state.phase with
  | .idle => state.created = [] ∧ state.semaphores = [] ∧ state.messages = []
  | .running output => output.id = id ∧ ∃ path, OpenFile output path state ∧
      FilesInv conf id state.clock (some path) state
  | .released => FilesInv conf id state.clock none state
  | .stopped reason => reason = .abort ∧ FilesInv conf id state.clock none state

variable {state : FileState} {clock : Timeval} {current : Option Path} {path : Path}
  {output : FileOutput}

theorem FilesInv.semaphore_notMem (inv : FilesInv conf id clock current state)
    (listed : path ∈ state.created) : semaphoreOf path ∉ state.created := by
  intro twice
  rcases inv.named path listed with ⟨t, normal, -, rfl⟩
  rcases inv.named _ twice with ⟨t', normal', -, same⟩
  exact semaphoreOf_ne_dataName normal normal' same

theorem FilesInv.filesOk (inv : FilesInv conf id clock state.openPath state)
    (inside : ∀ reason, state.phase ≠ .stopped (.fault reason)) : FilesOk state where
  inside := inside
  kept := by
    rw [inv.nodup.dedup]
    exact inv.kept
  nonempty := by
    intro path listed other
    rcases inv.closed path listed other with gone | ⟨nonempty, -, -⟩
    · rw [gone]
      simp
    · exact nonempty
  signalled := by
    intro path listed other there
    rcases inv.closed path listed other with gone | ⟨-, signalled, exists_⟩
    · exact absurd gone there
    · exact ⟨signalled, exists_, inv.semaphore_notMem listed⟩
  attached := by
    intro path listed _
    rcases inv.attached path listed with ⟨data, hdata, same, -, there⟩
    exact ⟨data, hdata, same, there⟩

/-- The invariant is about the promise. -/
theorem FileInv.filesOk (inv : FileInv conf id state) : FilesOk state := by
  rw [FileInv] at inv
  cases hphase : state.phase with
  | idle =>
      rw [hphase] at inv
      rcases inv with ⟨created, semaphores, messages⟩
      constructor
      · simp [hphase]
      · simp [created, messages]
      · simp [created]
      · simp [created]
      · simp [semaphores]
  | running output =>
      rw [hphase] at inv
      rcases inv with ⟨-, path, opened, inv⟩
      have hopen : state.openPath = some path := by
        rw [FileState.openPath, hphase]
        exact opened.file
      rw [← hopen] at inv
      exact inv.filesOk (by simp [hphase])
  | released =>
      rw [hphase] at inv
      have hopen : state.openPath = none := by rw [FileState.openPath, hphase]
      have inv' : FilesInv conf id state.clock none state := inv
      rw [← hopen] at inv'
      exact inv'.filesOk (by simp [hphase])
  | stopped reason =>
      rw [hphase] at inv
      have hopen : state.openPath = none := by rw [FileState.openPath, hphase]
      rcases inv with ⟨rfl, inv⟩
      rw [← hopen] at inv
      exact inv.filesOk (by simp [hphase])

/-! ## One call -/

@[simp]
theorem content_update (disk : Disk) (path : Path) (value : Option (List UInt8)) (other : Path) :
    content (Function.update disk path value) other =
      if other = path then value.getD [] else content disk other := by
  rw [content, Function.update_apply]
  split_ifs <;> rfl

/-- A change of a file that is no data file does not show in the contents. -/
theorem flatMap_content_update {paths : List Path} {disk : Disk} (absent : path ∉ paths)
    (value : Option (List UInt8)) :
    paths.flatMap (content (Function.update disk path value)) = paths.flatMap (content disk) := by
  apply List.flatMap_congr
  intro other listed
  have hne : other ≠ path := fun same => absent (same ▸ listed)
  rw [content_update, if_neg hne]

/-- The state is looked at through the disk and the history only. -/
theorem FilesInv.congr {state' : FileState} (inv : FilesInv conf id clock current state)
    (disk : state'.disk = state.disk) (created : state'.created = state.created)
    (messages : state'.messages = state.messages)
    (semaphores : state'.semaphores = state.semaphores) :
    FilesInv conf id clock current state' := by
  rcases inv with ⟨named, nodup, kept, closed, attached⟩
  constructor
  · rwa [created]
  · rwa [created]
  · rwa [created, disk, messages]
  · rwa [created, disk, semaphores]
  · rwa [created, disk, semaphores]

/-- A semaphore is never the file that is open. -/
theorem FilesInv.semaphore_ne (inv : FilesInv conf id clock current state)
    (listed : path ∈ state.created) {other : Path} (data : other ∈ state.created) :
    semaphoreOf other ≠ path := by
  intro same
  exact inv.semaphore_notMem data (same ▸ listed)

theorem OpenFile.listed (opened : OpenFile output path state) : path ∈ state.created := by
  rcases opened.last with ⟨front, hlast⟩
  rw [hlast]
  exact List.mem_concat_self

theorem fprintf_lines {disk : Disk} {messages : List (List UInt8)}
    (lines : disk path = some (unlines messages)) (message : List UInt8) :
    fprintf disk path (message ++ [10]) path = some (unlines (messages ++ [message])) := by
  rw [fprintf, Function.update_self, lines]
  simp [unlines]

/-- A line more in the last file is a message more that the files have. -/
theorem flatMap_content_fprintf {front : List Path} {disk : Disk}
    {messages all : List (List UInt8)} (absent : path ∉ front)
    (lines : disk path = some (unlines messages))
    (kept : (front ++ [path]).flatMap (content disk) = unlines all) (message : List UInt8) :
    (front ++ [path]).flatMap (content (fprintf disk path (message ++ [10]))) =
      unlines (all ++ [message]) := by
  have hold : content disk path = unlines messages := by
    rw [content, lines]
    rfl
  have hnew : content (fprintf disk path (message ++ [10])) path =
      unlines (messages ++ [message]) := by
    rw [content, fprintf_lines lines]
    rfl
  rw [List.flatMap_append, List.flatMap_singleton, hold] at kept
  rw [List.flatMap_append, List.flatMap_singleton, hnew, fprintf, flatMap_content_update absent]
  simp only [unlines, List.flatMap_append] at kept ⊢
  rw [← List.append_assoc, kept]

/-- A message goes to the end of the open file. -/
theorem FilesInv.write (inv : FilesInv conf id clock (some path) state)
    (opened : OpenFile output path state) (message : CString) :
    FilesInv conf id clock (some path) ((fileOutputWrite output message state).given message) ∧
      OpenFile { output with nbMessages := output.nbMessages + 1 } path
        ((fileOutputWrite output message state).given message) := by
  rcases opened.last with ⟨front, hlast⟩
  rcases opened.lines with ⟨messages, hlines, hcount⟩
  have hlisted := opened.listed
  have habsent : path ∉ front := by
    have hnodup := inv.nodup
    rw [hlast, List.nodup_append] at hnodup
    exact fun listed => hnodup.2.2 path listed path (List.mem_singleton_self path) rfl
  have hother : ∀ other, other ≠ path →
      (fprintf state.disk path (message.bytes ++ [10])) other = state.disk other := by
    intro other hne
    rw [fprintf, Function.update_of_ne hne]
  have hrun : (fileOutputWrite output message state).given message = { state with
      disk := fprintf state.disk path (message.bytes ++ [10])
      messages := state.messages ++ [message.bytes]
      inFile := state.inFile + 1
      phase := .running { output with nbMessages := output.nbMessages + 1 } } := by
    rw [fileOutputWrite, opened.file]
    rfl
  rw [hrun]
  constructor
  · constructor
    · exact inv.named
    · exact inv.nodup
    · have hkept := inv.kept
      dsimp only
      rw [hlast] at hkept ⊢
      exact flatMap_content_fprintf habsent hlines hkept message.bytes
    · intro other listed hne
      have hdiffers : other ≠ path := fun same => hne (same ▸ rfl)
      have hsemaphore := inv.semaphore_ne hlisted listed
      simp only [hother other hdiffers, hother _ hsemaphore]
      exact inv.closed other listed hne
    · intro other listed
      rcases inv.attached other listed with ⟨data, hdata, same, hne, there⟩
      have hdiffers : data ≠ path := fun h => hne (h ▸ rfl)
      exact ⟨data, hdata, same, hne, by simpa only [hother data hdiffers] using there⟩
  · constructor
    · rfl
    · exact opened.array
    · exact opened.file
    · exact opened.name
    · exact opened.plain
    · exact opened.short
    · exact ⟨front, hlast⟩
    · exact ⟨messages ++ [message.bytes], fprintf_lines hlines message.bytes, by simp [hcount]⟩
    · simp [opened.counter]

/-- A file without messages is removed. -/
theorem FilesInv.removed (inv : FilesInv conf id clock (some path) state)
    (listed : path ∈ state.created) (empty : state.disk path = some []) :
    FilesInv conf id clock none { state with disk := unlink state.disk path } := by
  have hother : ∀ other, other ≠ path → (unlink state.disk path) other = state.disk other := by
    intro other hne
    rw [unlink, Function.update_of_ne hne]
  constructor
  · exact inv.named
  · exact inv.nodup
  · rw [← inv.kept]
    apply List.flatMap_congr
    intro other _
    rw [unlink, content_update]
    split_ifs with hsame
    · rw [hsame, content, empty]
      rfl
    · rfl
  · intro other data _
    by_cases hsame : other = path
    · apply Or.inl
      rw [hsame]
      exact Function.update_self _ _ _
    · simp only [hother other hsame, hother _ (inv.semaphore_ne listed data)]
      exact inv.closed other data fun h => hsame (Option.some.inj h).symm
  · intro other semaphore
    rcases inv.attached other semaphore with ⟨data, hdata, same, hne, there⟩
    have hdiffers : data ≠ path := fun h => hne (h ▸ rfl)
    exact ⟨data, hdata, same, by simp, by simpa only [hother data hdiffers] using there⟩

/-- A file with messages gets its semaphore. -/
theorem FilesInv.signal (inv : FilesInv conf id clock (some path) state)
    (listed : path ∈ state.created) (there : state.disk path ≠ none)
    (nonempty : state.disk path ≠ some []) :
    FilesInv conf id clock none { state with
      disk := fopen state.disk (semaphoreOf path)
      semaphores := state.semaphores ++ [semaphoreOf path] } := by
  have hdata : ∀ other ∈ state.created,
      (fopen state.disk (semaphoreOf path)) other = state.disk other := by
    intro other data
    rw [fopen, Function.update_of_ne (inv.semaphore_ne data listed).symm]
  have hthere : ∀ other, state.disk other ≠ none →
      (fopen state.disk (semaphoreOf path)) other ≠ none := by
    intro other
    rw [fopen, Function.update_apply]
    split_ifs <;> simp
  constructor
  · exact inv.named
  · exact inv.nodup
  · rw [← inv.kept]
    exact flatMap_content_update (inv.semaphore_notMem listed) _
  · intro other data _
    simp only [hdata other data]
    by_cases hsame : other = path
    · apply Or.inr
      rw [hsame]
      exact ⟨nonempty, List.mem_concat_self, by simp [fopen]⟩
    · rcases inv.closed other data fun h => hsame (Option.some.inj h).symm with
        gone | ⟨full, signalled, semaphore⟩
      · exact .inl gone
      · exact .inr ⟨full, List.mem_append_left _ signalled, hthere _ semaphore⟩
  · intro other semaphore
    simp only [List.mem_append, List.mem_singleton] at semaphore
    rcases semaphore with old | new
    · rcases inv.attached other old with ⟨data, listed', same, -, there'⟩
      exact ⟨data, listed', same, by simp, by simpa only [hdata data listed'] using there'⟩
    · exact ⟨path, listed, new, by simp, by simpa only [hdata path listed] using there⟩

/-- Closing the open file leaves closed files only. -/
theorem FilesInv.close (inv : FilesInv conf id clock (some path) state)
    (opened : OpenFile output path state) (tells : CounterTells state) (block : PathArray) :
    ∃ state', createSemaphoreFile { output with file := none } block
        { state with phase := .running { output with file := none } } = .ok state' ∧
      FilesInv conf id clock none state' ∧ state'.clock = state.clock := by
  rcases opened.lines with ⟨messages, hlines, hcount⟩
  have hcounter : (output.nbMessages > 0) = (UInt32.ofNat state.inFile > 0) := by
    rw [opened.counter]
  have hblock : block.val.length = 255 := block.property
  simp only [createSemaphoreFile, opened.name, mapError_ok, FileState.attempt, bind_ok, hcounter]
  by_cases hempty : state.inFile = 0
  · have hnil : messages = [] := List.length_eq_zero_iff.mp (by omega)
    have hzero : ¬UInt32.ofNat state.inFile > 0 := by rw [hempty]; decide
    rw [if_neg hzero]
    have hremoved := inv.removed opened.listed (by rw [hlines, hnil]; rfl)
    exact ⟨_, rfl, hremoved.congr rfl rfl rfl rfl, rfl⟩
  · have hpositive : UInt32.ofNat state.inFile > 0 := by
      have hrest : state.inFile % 2 ^ 32 ≠ 0 := by
        intro hrest
        exact tells (by omega) (Nat.dvd_of_mod_eq_zero hrest)
      rw [gt_iff_lt, UInt32.lt_iff_toNat_lt, UInt32.toNat_ofNat']
      exact Nat.pos_of_ne_zero hrest
    have hnonempty : state.disk path ≠ some [] := by
      cases messages with
      | nil => exact absurd hcount.symm hempty
      | cons message messages =>
          rw [hlines, unlines_cons]
          simp
    rcases buildPath_semaphore hblock opened.plain opened.short with ⟨filename, hbuild⟩
    rw [if_pos hpositive, hbuild, mapError_ok, bind_ok]
    have hsignal := inv.signal opened.listed (by rw [hlines]; simp) hnonempty
    exact ⟨_, rfl, hsignal.congr rfl rfl rfl rfl, rfl⟩

theorem isAfter_of_later (before : isAfter clock t = false) (later : isAfter clock now = true) :
    isAfter now t = false ∧ t ≠ now := by
  rw [isAfter_eq_false_iff] at before ⊢
  rw [isAfter_eq_true_iff] at later
  have hlt : t < now := before.trans_lt later
  exact ⟨hlt.le, hlt.ne⟩

theorem isAfter_self (t : Timeval) : isAfter t t = false :=
  (isAfter_eq_false_iff t t).mpr le_rfl

/-- A later name is a new one. -/
theorem FilesInv.dataName_notMem (inv : FilesInv conf id clock current state)
    (goesOn : ClockGoesOn clock now) : dataName conf id now ∉ state.created := by
  rcases goesOn with ⟨later, normal⟩
  intro listed
  rcases inv.named _ listed with ⟨t, ht, before, same⟩
  have happend : dataName conf id now ++ [] = dataName conf id t ++ [] := by
    rw [same]
  exact (isAfter_of_later before later).2 (dataName_append_injective normal ht happend).1.symm

/-- The semaphores of the files so far are no data files of another time. -/
theorem FilesInv.semaphoreOf_ne (inv : FilesInv conf id clock current state)
    (goesOn : ClockGoesOn clock now) :
    ∀ data ∈ state.created, semaphoreOf data ≠ dataName conf id now := by
  intro data listed
  rcases inv.named data listed with ⟨t, ht, -, rfl⟩
  exact semaphoreOf_ne_dataName ht goesOn.2

/-- The next data file is opened, unless the process stops. -/
theorem FilesInv.create (inv : FilesInv conf output.id clock none state)
    (goesOn : ClockGoesOn clock now) (fits : NameFits conf output.id now)
    (whole : output.fileName.length = 255) :
    createNewFile conf now output state = .error { state with phase := .stopped .abort } ∨
      ∃ output' state', createNewFile conf now output state = .ok state' ∧
        output'.id = output.id ∧ state'.clock = state.clock ∧
        OpenFile output' (dataName conf output.id now) state' ∧
        FilesInv conf output.id now (some (dataName conf output.id now)) state' := by
  have hfresh := inv.dataName_notMem goesOn
  have hsemaphore := inv.semaphoreOf_ne goesOn
  rcases goesOn with ⟨later, normal⟩
  rcases buildPath_dataFields whole fits with habort | hbuild
  · apply Or.inl
    rw [createNewFile, habort]
    rfl
  · apply Or.inr
    have hother : ∀ other, other ≠ dataName conf output.id now →
        (fopen state.disk (dataName conf output.id now)) other = state.disk other := by
      intro other hne
      rw [fopen, Function.update_of_ne hne]
    have hold : ∀ other ∈ state.created, other ≠ dataName conf output.id now :=
      fun other listed same => hfresh (same ▸ listed)
    have hshort : (dataName conf output.id now).length ≤ 250 := by
      rw [length_dataName]
      exact fits
    refine ⟨{ output with
        nbMessages := 0
        fileName := splice output.fileName 0 (dataName conf output.id now ++ [0])
        file := some (dataName conf output.id now) },
      { state with
        disk := fopen state.disk (dataName conf output.id now)
        created := state.created ++ [dataName conf output.id now]
        inFile := 0
        phase := _ }, by rw [createNewFile, hbuild]; rfl, rfl, rfl, ?_, ?_⟩
    · constructor
      · rfl
      · simp only []
        rw [length_splice (by rw [List.length_append, List.length_singleton]; omega), whole]
      · rfl
      · exact loadString_splice (by omega) (plain_dataName conf output.id now)
      · exact plain_dataName conf output.id now
      · exact hshort
      · exact ⟨state.created, rfl⟩
      · exact ⟨[], Function.update_self _ _ _, rfl⟩
      · rfl
    · constructor
      · intro other listed
        rw [List.mem_append, List.mem_singleton] at listed
        rcases listed with old | rfl
        · rcases inv.named other old with ⟨t, ht, before, same⟩
          exact ⟨t, ht, (isAfter_of_later before later).1, same⟩
        · exact ⟨now, normal, isAfter_self now, rfl⟩
      · exact List.nodup_append.mpr ⟨inv.nodup, List.nodup_singleton _,
          fun other listed path only => by
            rw [List.mem_singleton.mp only]
            exact hold other listed⟩
      · rw [List.flatMap_append, List.flatMap_singleton]
        simp only [fopen]
        rw [flatMap_content_update hfresh, content_update, if_pos rfl, inv.kept]
        simp
      · intro other listed hne
        rw [List.mem_append, List.mem_singleton] at listed
        rcases listed with old | rfl
        · simp only [hother other (hold other old), hother _ (hsemaphore other old)]
          exact inv.closed other old (by simp)
        · exact absurd rfl hne
      · intro other semaphore
        rcases inv.attached other semaphore with ⟨data, listed, same, -, there⟩
        refine ⟨data, List.mem_append_left _ listed, same, ?_, ?_⟩
        · exact fun h => hold data listed (Option.some.inj h).symm
        · simpa only [hother data (hold data listed)] using there

variable {target : FileState}

/-- The state behind the opening of a data file. -/
theorem FilesInv.afterCreate (inv : FilesInv conf output.id clock none state)
    (same : state.clock = now) (goesOn : ClockGoesOn clock now)
    (fits : NameFits conf output.id now) (whole : output.fileName.length = 255)
    (ran : settleFile (createNewFile conf now output state) = target) :
    FileInv conf output.id target := by
  rcases inv.create goesOn fits whole with habort |
    ⟨output', state', hok, hid, hclock, opened, inv'⟩
  · rw [habort] at ran
    have hstamped : ∀ path ∈ state.created, ∃ t, NormalTime t ∧ isAfter state.clock t = false ∧
        path = dataName conf output.id t := by
      intro path listed
      rcases inv.named path listed with ⟨t, ht, before, hname⟩
      rw [same]
      exact ⟨t, ht, (isAfter_of_later before goesOn.1).1, hname⟩
    rw [← ran]
    exact ⟨rfl, hstamped, inv.nodup, inv.kept, inv.closed, inv.attached⟩
  · rw [hok] at ran
    have hsame : state' = target := ran
    rw [← hsame, FileInv, opened.phase, hclock, same]
    exact ⟨hid, _, opened, inv'⟩

theorem FileInv.alloc (inv : FileInv conf id state) (idle : state.phase = .idle)
    (goesOn : ClockGoesOn state.clock now) (fits : NameFits conf id now) (block : PathArray)
    (ran : settleFile (fileOutputAllocInit conf id now block { state with clock := now }) =
      target) :
    FileInv conf id target := by
  rw [FileInv, idle] at inv
  rcases inv with ⟨created, semaphores, messages⟩
  have hstart : FilesInv conf id state.clock none { state with clock := now } := by
    constructor
    · simp [created]
    · simp [created]
    · simp [created, messages]
    · simp [created]
    · simp [semaphores]
  exact @FilesInv.afterCreate conf now _ state.clock ⟨id, 0, block.val, none⟩ target hstart rfl
    goesOn fits block.property ran

theorem FileInv.flush (sampled : conf.isSampled = true) (inv : FileInv conf id state)
    (running : state.phase = .running output) (goesOn : ClockGoesOn state.clock now)
    (fits : NameFits conf id now) (tells : CounterTells state) (block : PathArray)
    (ran : settleFile (fileOutputFlush conf now output block { state with clock := now }) =
      target) :
    FileInv conf id target := by
  rw [FileInv, running] at inv
  rcases inv with ⟨rfl, path, opened, inv⟩
  have hopened : OpenFile output path { state with clock := now } :=
    ⟨opened.phase, opened.array, opened.file, opened.name, opened.plain, opened.short, opened.last,
      opened.lines, opened.counter⟩
  have hinv : FilesInv conf output.id state.clock (some path) { state with clock := now } :=
    inv.congr rfl rfl rfl rfl
  rcases hinv.close hopened tells block with ⟨state', hclose, inv', hclock⟩
  rw [fileOutputFlush, opened.file] at ran
  simp only [sampled, if_true, hclose, bind_ok] at ran
  exact @FilesInv.afterCreate conf now state' state.clock { output with file := none } target inv'
    hclock goesOn fits opened.array ran

theorem FileInv.release (sampled : conf.isSampled = true) (inv : FileInv conf id state)
    (running : state.phase = .running output) (tells : CounterTells state) (block : PathArray)
    (ran : settleFile ((fileOutputRelease conf output block state).map FileState.left) =
      target) :
    FileInv conf id target := by
  rw [FileInv, running] at inv
  rcases inv with ⟨rfl, path, opened, inv⟩
  rcases inv.close opened tells block with ⟨state', hclose, inv', hclock⟩
  rw [fileOutputRelease, opened.file] at ran
  simp only [sampled, if_true, hclose] at ran
  rw [← hclock] at inv'
  rw [← ran]
  exact inv'.congr rfl rfl rfl rfl

theorem FileInv.write (inv : FileInv conf id state) (running : state.phase = .running output)
    (message : CString) :
    FileInv conf id ((fileOutputWrite output message state).given message) := by
  rw [FileInv, running] at inv
  rcases inv with ⟨hid, path, opened, inv⟩
  rcases inv.write opened message with ⟨inv', opened'⟩
  have hclock : ((fileOutputWrite output message state).given message).clock = state.clock := by
    rw [fileOutputWrite, opened.file]
    rfl
  rw [FileInv, opened'.phase]
  rw [← hclock] at inv'
  exact ⟨hid, path, opened', inv'⟩

/-- What a call can be, and what it needs. -/
theorem fileStep_eq_some {act : FileAct} (enabled : fileStep conf id state act = some target) :
    (∃ now block, act = .alloc now block ∧ state.phase = .idle ∧ ClockGoesOn state.clock now ∧
      settleFile (fileOutputAllocInit conf id now block { state with clock := now }) = target) ∨
    ∃ output, state.phase = .running output ∧
      ((∃ message, act = .write message ∧
        (fileOutputWrite output message state).given message = target) ∨
      (∃ now block, act = .flush now block ∧ ClockGoesOn state.clock now ∧
        settleFile (fileOutputFlush conf now output block { state with clock := now }) = target) ∨
      (∃ block, act = .release block ∧
        settleFile ((fileOutputRelease conf output block state).map FileState.left) =
          target)) := by
  unfold fileStep at enabled
  split at enabled
  next now block hphase =>
    split_ifs at enabled with goesOn
    exact .inl ⟨now, block, rfl, hphase, goesOn, Option.some.inj enabled⟩
  next message output hphase =>
    exact .inr ⟨output, hphase, .inl ⟨message, rfl, Option.some.inj enabled⟩⟩
  next now block output hphase =>
    split_ifs at enabled with goesOn
    exact .inr ⟨output, hphase, .inr (.inl ⟨now, block, rfl, goesOn, Option.some.inj enabled⟩)⟩
  next block output hphase =>
    exact .inr ⟨output, hphase, .inr (.inr ⟨block, rfl, Option.some.inj enabled⟩)⟩
  next => cases enabled

/-- One call that meets the condition keeps the invariant. -/
theorem FileInv.step (sampled : conf.isSampled = true) {act : FileAct}
    (inv : FileInv conf id state) (meets : KeepsMessages conf id state act)
    (enabled : fileStep conf id state act = some target) : FileInv conf id target := by
  rcases fileStep_eq_some enabled with ⟨now, block, rfl, idle, goesOn, ran⟩ |
    ⟨output, running, ⟨message, rfl, ran⟩ | ⟨now, block, rfl, goesOn, ran⟩ | ⟨block, rfl, ran⟩⟩
  · exact inv.alloc idle goesOn meets block ran
  · rw [← ran]
    exact inv.write running message
  · exact inv.flush sampled running goesOn meets.1 meets.2 block ran
  · exact inv.release sampled running meets block ran

/-! ## Whole runs -/

/-- In every run whose names leave room for the semaphores and whose counter tells whether a
file has messages, the files hold what was written, each with its semaphore. -/
theorem filesOk_of_keepsMessages (sampled : conf.isSampled = true)
    (reached : (fileMachine conf id).ReachableWhen (KeepsMessages conf id) state) :
    FilesOk state := by
  have hinv : FileInv conf id state := by
    apply reached.invariant (FileInv conf id)
    · rintro start ⟨hphase, hmessages, hcreated, hsemaphores, -⟩
      rw [FileInv, hphase]
      exact ⟨hcreated, hsemaphores, hmessages⟩
    · intro before act after inv meets enabled
      exact inv.step sampled meets enabled
  exact hinv.filesOk

/-- A configuration whose directory has some letters and the `/` that `_cfg_get_dir` puts
behind them. -/
def sampledConf (letters : Nat) : FileOutputConf where
  directory := ⟨List.replicate letters 97 ++ [47], fun h => by simp [List.mem_replicate] at h⟩
  filename := .ofText "data.csv"
  isSampled := true

def emptyPath : PathArray := ⟨List.replicate 255 0, List.length_replicate⟩

/-- An empty disk, before the output is there. -/
def freshFiles : FileState where
  disk := fun _ => none
  phase := .idle
  clock := ⟨0, 0⟩
  messages := []
  created := []
  semaphores := []
  inFile := 0

/-- Three files: one with two messages, one with one, and one that is empty. -/
def threeFiles : List FileAct :=
  [.alloc ⟨1500000000, 5⟩ emptyPath, .write (.ofText "one"), .write (.ofText "two"),
    .flush ⟨1500000005, 7⟩ emptyPath, .write (.ofText "three"),
    .flush ⟨1500000010, 3⟩ emptyPath, .release emptyPath]

/-- The empty file is removed at the end, and the others have their semaphores. -/
theorem filesOk_of_keepsMessages_threeFiles :
    let state := ((fileMachine (sampledConf 20) 1).restrict
      (KeepsMessages (sampledConf 20) 1)).after threeFiles freshFiles
    state.phase = .released ∧
      state.messages = [bytesOf "one", bytesOf "two", bytesOf "three"] ∧
      state.created.map state.disk =
        [some (bytesOf "one\ntwo\n"), some (bytesOf "three\n"), none] ∧
      state.semaphores = (state.created.take 2).map semaphoreOf ∧ FilesOk state := by
  have hrun : (((fileMachine (sampledConf 20) 1).restrict (KeepsMessages (sampledConf 20) 1)).run
      threeFiles freshFiles).isSome = true := by decide +kernel
  exact ⟨by decide +kernel, by decide +kernel, by decide +kernel, by decide +kernel,
    filesOk_of_keepsMessages rfl (Machine.reachableWhen_after ⟨rfl, rfl, rfl, rfl, rfl⟩ hrun)⟩

/-- One message, in a file whose name has 254 characters. -/
def oneMessage : List FileAct :=
  [.alloc ⟨1500000000, 5⟩ emptyPath, .write (.ofText "one"), .release emptyPath]

/-- The semaphore of a name of 254 characters is the data file itself, which it empties. -/
theorem not_filesOk_of_cutSemaphore :
    (fileMachine (sampledConf 225) 1).Reachable
        ((fileMachine (sampledConf 225) 1).after oneMessage freshFiles) ∧
      ¬FilesOk ((fileMachine (sampledConf 225) 1).after oneMessage freshFiles) := by
  have hrun : ((fileMachine (sampledConf 225) 1).run oneMessage freshFiles).isSome = true := by
    decide +kernel
  refine ⟨Machine.reachable_after ⟨rfl, rfl, rfl, rfl, rfl⟩ hrun, ?_⟩
  intro ok
  exact absurd ok.kept (by decide +kernel)

end MmtProbe.Output

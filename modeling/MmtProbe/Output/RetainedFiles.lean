/-
# The files that are retained

What the retention of sampled files promises: the files with a semaphore are listed in the
order in which they were created, and those that are too many are removed with their
semaphores, and nothing else.

The listing holds the promise, as names begin with the time and the microseconds have six
digits.  The removal holds it exactly when the names fit their arrays and the filter tells
the semaphores from the other names.
-/

import MmtProbe.Output.Retention

namespace MmtProbe.Output

open MmtProbe.Math MmtProbe.Dpi MmtProbe.Lib

/-! ## The directory -/

/-- A data file that `_create_new_file` opened in the directory, and the semaphore that
`_create_semaphore_file` put beside it, by their names in the directory. -/
structure SampledFile (conf : FileOutputConf) where
  id : UInt16
  time : Timeval
  normal : NormalTime time
  name : Path
  semaphore : Path
  created : ∃ array : PathArray, (buildPath array.val (dataFields conf id time)).map Prod.snd =
    .ok (conf.directory.bytes ++ name)
  signalled : ∃ array : PathArray, (buildPath array.val
    [.arr (.of (conf.directory.bytes ++ name)), .arr semaphoreExt]).map Prod.snd =
      .ok (conf.directory.bytes ++ semaphore)

/-- What is in the directory: sampled files with their semaphores, in the order in which they
were created, and any other files. -/
structure Folder (conf : FileOutputConf) where
  /-- `_cfg_get_dir` puts a slash at the end. -/
  slash : conf.directory.bytes.getLast? = some 47
  names : List Path
  nodup : names.Nodup
  plain : ∀ name ∈ names, (0 : UInt8) ∉ name
  /-- `scandir` counts with an `int`. -/
  few : names.length < 2 ^ 31
  sampled : List (SampledFile conf)
  stored : ∀ file ∈ sampled, file.name ∈ names ∧ file.semaphore ∈ names
  distinct : (sampled.map SampledFile.semaphore).Nodup
  increasing : sampled.Pairwise fun file later => file.time < later.time
  sameDigits : ∀ file ∈ sampled, ∀ other ∈ sampled,
    digitCount (seconds file.time) = digitCount (seconds other.time)

variable {conf : FileOutputConf}

/-- The sampled files that are too many. -/
def Folder.oldest (folder : Folder conf) (retains : UInt16) : List (SampledFile conf) :=
  folder.sampled.take (folder.sampled.length - retains.toNat)

/-- The names that the filter accepts and that are sorted behind a name. -/
def Folder.behind (folder : Folder conf) (name : Path) : List Path :=
  (folder.names.filter loadFilter).filter fun other => decide (name < other)

/-- The oldest files are removed, and nothing else. -/
structure OldestRemoved (folder : Folder conf) (retains : UInt16) (array : PathArray) : Prop where
  sorted : ∀ listed, List.Perm listed (folder.sampled.map SampledFile.semaphore) →
    alphasort listed = folder.sampled.map SampledFile.semaphore
  removed : ∃ count unlinked,
    removeOldSampledFiles conf.directory retains folder.names array = .ok (count, unlinked) ∧
      ∀ path, path ∈ unlinked ↔ ∃ file ∈ folder.oldest retains,
        path = conf.directory.bytes ++ file.semaphore ∨ path = conf.directory.bytes ++ file.name

/-- When they are: the names can be written, the filter knows the semaphores that have to go,
and no other name that it accepts is in their place. -/
structure Recognised (folder : Folder conf) (retains : UInt16) : Prop where
  /-- The array holds the path of the folder. -/
  folderFits : conf.directory.bytes.length ≤ maxLengthFullPathFileName
  /-- The path of the folder leaves room for the time, or else the names are in order without. -/
  dated : (∀ file ∈ folder.sampled,
      conf.directory.bytes.length + (Field.time file.time).need < maxLengthFullPathFileName) ∨
    (folder.sampled.map SampledFile.semaphore).Pairwise (· < ·)
  /-- The semaphores of the oldest files are not cut and hold `.sem` only at their end. -/
  marked : ∀ file ∈ folder.oldest retains,
    (conf.directory.bytes ++ file.name).length + 4 < maxLengthFullPathFileName ∧
      ¬ semaphoreExt.bytes <:+: conf.filename.bytes
  /-- Of the names that are accepted and that fit, the semaphores of the oldest files are those
  with enough others behind them. -/
  turn : ∀ name ∈ folder.names, loadFilter name = true →
    conf.directory.bytes.length + name.length < maxLengthFullPathFileName →
      (retains.toNat ≤ (folder.behind name).length ↔
        ∃ file ∈ folder.oldest retains, name = file.semaphore)

/-! ## The names of sampled files -/

theorem plain_of_buildText {fields : List Field} {text : List UInt8}
    (plain : ∀ field ∈ fields, (0 : UInt8) ∉ field.full)
    (written : buildText 254 [] fields [] = some text) : (0 : UInt8) ∉ text := by
  rcases buildText_nil_append written with ⟨added, rfl, hadded⟩
  intro listed
  rcases hadded 0 listed with ⟨field, hfield, hzero⟩
  exact plain field hfield hzero

/-- A path is the text of its parts. -/
theorem buildText_of_buildPath {array : PathArray} {fields : List Field} {path : Path}
    (plain : ∀ field ∈ fields, (0 : UInt8) ∉ field.full)
    (built : (buildPath array.val fields).map Prod.snd = .ok path) :
    buildText 254 [] fields [] = some path := by
  cases htext : buildText 254 [] fields [] with
  | none =>
      rw [buildPath_of_abort array.property htext] at built
      cases built
  | some text =>
      rw [buildPath_of_text array.property htext (plain_of_buildText plain htext)] at built
      cases built
      rfl

theorem plain_dataFields (id : UInt16) (time : Timeval) :
    ∀ field ∈ dataFields conf id time, (0 : UInt8) ∉ field.full := by
  intro field listed
  simp only [dataFields, List.mem_cons, List.not_mem_nil, or_false] at listed
  rcases listed with rfl | rfl | rfl | rfl | rfl | rfl
  · exact conf.directory.plain
  · exact plain_time_full _
  · decide
  · exact notMem_fixed (by decide) _ _
  · decide
  · exact conf.filename.plain

namespace SampledFile

variable (file : SampledFile conf)

theorem buildText_name : buildText 254 [] (dataFields conf file.id file.time) [] =
    some (conf.directory.bytes ++ file.name) := by
  rcases file.created with ⟨array, hbuilt⟩
  exact buildText_of_buildPath (plain_dataFields _ _) hbuilt

theorem length_name_le : (conf.directory.bytes ++ file.name).length ≤ 254 :=
  length_buildText_le (Nat.zero_le _) file.buildText_name

/-- The path of the folder is written first, and completely. -/
theorem buildText_behind_directory :
    buildText 254 [] (dataFields conf file.id file.time).tail conf.directory.bytes =
      some (conf.directory.bytes ++ file.name) := by
  have hbuilt := file.buildText_name
  have hle := file.length_name_le
  rw [List.length_append] at hle
  have hdirectory : withField 254 (.arr conf.directory) [] = some conf.directory.bytes :=
    @withField_eq 254 [] (.arr conf.directory) trivial (by
      simp only [Field.need, Field.full, List.length_nil]
      omega)
  rw [dataFields, buildText_nil_cons, hdirectory, Option.bind_some] at hbuilt
  exact hbuilt

/-- The extension of a semaphore is cut where the array ends. -/
theorem semaphore_eq : file.semaphore =
    file.name ++ semaphoreExt.bytes.take (254 - (conf.directory.bytes ++ file.name).length) := by
  have hle := file.length_name_le
  have hplain := plain_of_buildText (plain_dataFields _ _) file.buildText_name
  have hname : (CString.of (conf.directory.bytes ++ file.name)).bytes =
      conf.directory.bytes ++ file.name := cstring_eq_self hplain
  rcases file.signalled with ⟨array, hbuilt⟩
  have htext := buildText_of_buildPath (by
    intro field listed
    simp only [List.mem_cons, List.not_mem_nil, or_false] at listed
    rcases listed with rfl | rfl
    · exact (CString.of _).plain
    · exact semaphoreExt.plain) hbuilt
  have hfirst : withField 254 (.arr (.of (conf.directory.bytes ++ file.name))) [] =
      some (conf.directory.bytes ++ file.name) := by
    have hwritten := @withField_eq 254 [] (.arr (.of (conf.directory.bytes ++ file.name))) trivial
      (by simpa only [Field.need, Field.full, hname, List.length_nil, Nat.zero_add] using hle)
    rwa [Field.full, hname, List.nil_append] at hwritten
  rw [buildText_nil_cons, hfirst, Option.bind_some, buildText] at htext
  refine List.append_cancel_left (?_ : conf.directory.bytes ++ _ = conf.directory.bytes ++ _)
  rw [← List.append_assoc]
  rw [withField] at htext
  split_ifs at htext with hroom
  · exact (Option.some.inj htext).symm
  · rw [Nat.sub_eq_zero_of_le (by omega), List.take_zero, List.append_nil]
    exact (Option.some.inj htext).symm

theorem semaphore_of_whole
    (whole : (conf.directory.bytes ++ file.name).length + 4 < maxLengthFullPathFileName) :
    file.semaphore = file.name ++ semaphoreExt.bytes := by
  rw [maxLengthFullPathFileName] at whole
  rw [file.semaphore_eq, List.take_of_length_le]
  rw [semaphoreExt_eq, List.length_append, List.length_cons, List.length_cons]
  simp only [List.length_cons, List.length_nil]
  omega

/-- A semaphore that is cut ends where the array ends. -/
theorem length_semaphore_of_cut
    (cut : ¬ (conf.directory.bytes ++ file.name).length + 4 < maxLengthFullPathFileName) :
    (conf.directory.bytes ++ file.semaphore).length = 254 := by
  have hle := file.length_name_le
  have hfour : semaphoreExt.bytes.length = 4 := by rw [semaphoreExt_eq]; rfl
  rw [maxLengthFullPathFileName] at cut
  rw [file.semaphore_eq, ← List.append_assoc, List.length_append, List.length_take, hfour]
  omega

/-- The configured name stands at the end of a name that is not cut. -/
theorem name_eq_of_short (short : (conf.directory.bytes ++ file.name).length < 254) :
    ∃ front, file.name = front ++ 95 :: conf.filename.bytes ∧ (115 : UInt8) ∉ front := by
  have hbuilt := file.buildText_behind_directory
  have hsplit : (dataFields conf file.id file.time).tail =
      [.time file.time, .char 95, .int file.id.toUInt64] ++ [.char 95, .arr conf.filename] := rfl
  rw [hsplit, buildText_nil_of_append] at hbuilt
  rcases Option.bind_eq_some_iff.mp hbuilt with ⟨before, hbefore, hrest⟩
  rcases buildText_nil_append hbefore with ⟨front, rfl, hfront⟩
  rw [buildText_nil_cons] at hrest
  rcases Option.bind_eq_some_iff.mp hrest with ⟨after, hafter, hlast⟩
  rw [buildText] at hlast
  rcases withField_append hafter with ⟨underscore, rfl, _⟩
  rcases withField_append hlast with ⟨last, hpath, _⟩
  -- nothing is cut, as the path ends before the array does
  rw [hpath, List.length_append, List.length_append] at short
  rw [withField, if_pos (by omega), Field.text, if_neg (by omega)] at hafter
  rw [withField, if_pos (by rw [List.length_append]; omega), Field.text, hpath] at hlast
  have hunderscore : [95] = underscore := List.append_cancel_left (Option.some.inj hafter)
  have hfilename := List.append_cancel_left (Option.some.inj hlast)
  have hlength := congrArg List.length hfilename
  rw [List.length_take, List.length_append] at hlength
  rw [List.take_of_length_le (by rw [List.length_append]; omega)] at hfilename
  subst hunderscore hfilename
  refine ⟨front, ?_, ?_⟩
  · apply List.append_cancel_left
    rw [hpath, List.append_assoc, List.append_assoc]
    rfl
  · intro listed
    rcases hfront 115 listed with ⟨field, hfield, hbyte⟩
    simp only [List.mem_cons, List.not_mem_nil, or_false] at hfield
    rcases hfield with rfl | rfl | rfl
    · simp [Field.full, decimal, notMem_fixed, notMem_microText, isDigit] at hbyte
    · exact absurd hbyte (by decide)
    · exact notMem_fixed (by decide) _ _ hbyte

/-- The time stands at the beginning of a name for which it has room. -/
theorem name_eq_of_room (room : conf.directory.bytes.length + (Field.time file.time).need <
    maxLengthFullPathFileName) : ∃ back, file.name = (Field.time file.time).full ++ back := by
  have hbuilt := file.buildText_behind_directory
  rw [dataFields, List.tail_cons, buildText_nil_cons] at hbuilt
  rcases Option.bind_eq_some_iff.mp hbuilt with ⟨after, hafter, hrest⟩
  have htimely : (Field.time file.time).Timely := by
    by_contra htwelve
    have hmany : 12 < digitCount (seconds file.time) := Nat.lt_of_not_le htwelve
    have hneed : digitCount (seconds file.time) + 7 ≤ (Field.time file.time).need := by
      rw [Field.need, Field.full, List.length_append, List.length_cons, length_decimal,
        length_microText]
      exact Nat.le_max_right _ _
    rw [maxLengthFullPathFileName] at room
    have hstops : TimeStops (254 - conf.directory.bytes.length) file.time :=
      ⟨by omega, hmany, by omega⟩
    rw [withField, if_pos (by omega), Field.text, timeText_eq_none_iff.mpr hstops] at hafter
    cases hafter
  rw [withField_eq htimely (Nat.le_of_lt_succ room)] at hafter
  cases hafter
  rcases buildText_nil_append hrest with ⟨back, hname, _⟩
  rw [List.append_assoc] at hname
  exact ⟨back, List.append_cancel_left hname⟩

/-- The extension is in a name that is not cut exactly when it is in the configured one. -/
theorem infix_name_iff (short : (conf.directory.bytes ++ file.name).length < 254) :
    semaphoreExt.bytes <:+: file.name ↔ semaphoreExt.bytes <:+: conf.filename.bytes := by
  rcases file.name_eq_of_short short with ⟨front, hname, hfront⟩
  rw [hname, semaphoreExt_eq, infix_append_cons_iff (by decide) (by decide), or_iff_right]
  intro hoccurs
  exact hfront (hoccurs.subset (by decide))

end SampledFile

/-! ## Order -/

/-- Times with equally many digits are in order when their texts are. -/
theorem time_full_lt {first second : Timeval} (normal : NormalTime first)
    (normal' : NormalTime second)
    (sameDigits : digitCount (seconds first) = digitCount (seconds second))
    (before : first < second) (u v : List UInt8) :
    (Field.time first).full ++ u < (Field.time second).full ++ v := by
  rcases normal with ⟨hsec, hsecLt, husec, husecLt⟩
  rcases normal' with ⟨hsec', hsecLt', husec', husecLt'⟩
  have hsame : (decimal (seconds first)).length = (decimal (seconds second)).length := by
    rw [length_decimal, length_decimal, sameDigits]
  have hfirst : (UInt64.ofInt first.tvUsec).toNat < 10 ^ 6 := by
    rw [toNat_ofInt husec (by omega)]
    omega
  have hsecond : (UInt64.ofInt second.tvUsec).toNat < 10 ^ 6 := by
    rw [toNat_ofInt husec' (by omega)]
    omega
  rw [← isAfter_eq_true_iff] at before
  simp only [isAfter, Bool.or_eq_true, Bool.and_eq_true, decide_eq_true_iff, beq_iff_eq,
    gt_iff_lt] at before
  have hseconds : ∀ t : Timeval, (Field.time t).full =
      decimal (seconds t) ++ 46 :: microText (UInt64.ofInt t.tvUsec) := fun _ => rfl
  rw [hseconds, hseconds, List.append_assoc, List.append_assoc]
  rcases before with hlt | ⟨hsecEq, hlt⟩
  · apply append_lt_append hsame
    rw [decimal, decimal, sameDigits]
    apply fixed_lt_fixed _ (lt_pow_digitCount _)
    rw [seconds, seconds, toNat_ofInt hsec (by omega), toNat_ofInt hsec' (by omega)]
    omega
  · have hequal : seconds first = seconds second := by rw [seconds, seconds, hsecEq]
    rw [hequal]
    apply List.append_left_lt
    rw [List.cons_append, List.cons_append, List.cons_lt_cons_iff]
    apply Or.inr
    refine ⟨rfl, append_lt_append (by simp) ?_ u v⟩
    rw [microText, microText, if_pos hfirst, if_pos hsecond]
    apply fixed_lt_fixed _ hsecond
    rw [toNat_ofInt husec (by omega), toNat_ofInt husec' (by omega)]
    omega

namespace Folder

variable (folder : Folder conf) {retains : UInt16}

/-- When the names hold the time, the semaphores are in order. -/
theorem semaphores_lt (dated : ∀ file ∈ folder.sampled,
      conf.directory.bytes.length + (Field.time file.time).need < maxLengthFullPathFileName) :
    (folder.sampled.map SampledFile.semaphore).Pairwise (· < ·) := by
  rw [List.pairwise_map]
  apply folder.increasing.imp_of_mem
  intro file later listed listed' hbefore
  rcases file.name_eq_of_room (dated file listed) with ⟨back, hname⟩
  rcases later.name_eq_of_room (dated later listed') with ⟨back', hname'⟩
  rw [file.semaphore_eq, later.semaphore_eq, hname, hname', List.append_assoc, List.append_assoc]
  exact time_full_lt file.normal later.normal (folder.sameDigits file listed later listed') hbefore
    _ _

theorem sorted_iff : (∀ listed, List.Perm listed (folder.sampled.map SampledFile.semaphore) →
      alphasort listed = folder.sampled.map SampledFile.semaphore) ↔
    (folder.sampled.map SampledFile.semaphore).Pairwise (· < ·) := by
  constructor
  · intro hsorted
    have hincreasing := pairwise_alphasort folder.distinct
    rwa [hsorted _ (List.Perm.refl _)] at hincreasing
  · intro hincreasing listed hperm
    exact alphasort_eq_of_perm hincreasing hperm

end Folder

/-! ## What is removed -/

/-- What is unlinked, of a folder whose path the array holds. -/
theorem removeOldSampledFiles_eq (folder : Folder conf) (retains : UInt16) (array : PathArray)
    (folderFits : conf.directory.bytes.length ≤ maxLengthFullPathFileName) :
    removeOldSampledFiles conf.directory retains folder.names array =
      .ok ((scandir folder.names).length - retains.toNat,
        ((scandir folder.names).take ((scandir folder.names).length - retains.toNat)).flatMap
          (unlinkedFor conf.directory.bytes)) := by
  have harray : array.val.length = 255 := array.property
  rw [maxLengthFullPathFileName] at folderFits
  have hfew : (scandir folder.names).length < 2 ^ 31 := by
    have hle := List.length_filter_le loadFilter folder.names
    have := folder.few
    rw [scandir, alphasort, List.length_insertionSort]
    omega
  let tail := array.val.drop conf.directory.bytes.length
  have hwhole : conf.directory.bytes.length + tail.length = 255 := by
    rw [List.length_drop]
    omega
  have hstore : storeBytes array.val 0 conf.directory.bytes =
      .ok (conf.directory.bytes ++ tail) := by
    rw [storeBytes_eq_splice (by omega), splice, List.take_zero, List.nil_append, Nat.zero_add]
  have hlast : load (conf.directory.bytes ++ tail) (sizeSub conf.directory.bytes.length 1) =
      .ok 47 := by
    rcases List.getLast?_eq_some_iff.mp folder.slash with ⟨front, hfront⟩
    have haddress : sizeSub conf.directory.bytes.length 1 = front.length := by
      have hlength : conf.directory.bytes.length = front.length + 1 := by
        rw [hfront, List.length_append, List.length_singleton]
      rw [sizeSub_of_le (by omega) (by omega)]
      omega
    rw [haddress, hfront, List.append_assoc]
    exact load_append _ _ _
  have hlisted : ∀ count, ∀ name ∈ (scandir folder.names).take count,
      name ∈ folder.names ∧ loadFilter name = true :=
    fun count name listed => mem_scandir.mp (List.mem_of_mem_take listed)
  have hentries := fun count => removeEntries_eq conf.directory.plain
    (fun name listed => folder.plain name (hlisted count name listed).1)
    (fun name listed => (hlisted count name listed).2) hwhole
  rw [removeOldSampledFiles]
  simp only [hstore, bind_ok, hlast, if_pos, toRemove_eq hfew, hentries]
  rfl

namespace Folder

variable (folder : Folder conf) {retains : UInt16}

/-- A name for which the loop unlinks something. -/
structure Removes (retains : UInt16) (name : Path) : Prop where
  listed : name ∈ folder.names
  accepted : loadFilter name = true
  fits : conf.directory.bytes.length + name.length < maxLengthFullPathFileName
  turn : retains.toNat ≤ (folder.behind name).length

/-- The first names of the list are those with enough others behind them. -/
theorem mem_take_scandir_iff {name : Path} (listed : name ∈ folder.names)
    (accepted : loadFilter name = true) :
    name ∈ (scandir folder.names).take ((scandir folder.names).length - retains.toNat) ↔
      retains.toNat ≤ (folder.behind name).length := by
  have hsorted : (scandir folder.names).Pairwise (· < ·) :=
    pairwise_alphasort (folder.nodup.filter _)
  have hbehind : (folder.behind name).length =
      ((scandir folder.names).filter fun other => decide (name < other)).length :=
    ((List.perm_insertionSort _ _).filter _).length_eq.symm
  rw [hbehind]
  exact mem_take_length_sub_iff List.lt_irrefl (fun _ _ hlt hgt => List.lt_irrefl _
    (List.lt_trans hlt hgt)) hsorted (mem_scandir.mpr ⟨listed, accepted⟩) retains.toNat

theorem mem_unlinked_iff (path : Path) :
    path ∈ ((scandir folder.names).take ((scandir folder.names).length - retains.toNat)).flatMap
        (unlinkedFor conf.directory.bytes) ↔
      ∃ name, folder.Removes retains name ∧
        (path = conf.directory.bytes ++ name ∨ path = conf.directory.bytes ++ withoutExt name) := by
  rw [List.mem_flatMap]
  constructor
  · rintro ⟨name, hfirst, hpath⟩
    rcases mem_scandir.mp (List.mem_of_mem_take hfirst) with ⟨hlisted, haccepted⟩
    rw [unlinkedFor] at hpath
    split_ifs at hpath with hfits
    · simp only [List.mem_cons, List.not_mem_nil, or_false] at hpath
      exact ⟨name, ⟨hlisted, haccepted, hfits,
        (folder.mem_take_scandir_iff hlisted haccepted).mp hfirst⟩, hpath⟩
    · cases hpath
  · rintro ⟨name, hremoves, hpath⟩
    refine ⟨name, (folder.mem_take_scandir_iff hremoves.listed hremoves.accepted).mpr
      hremoves.turn, ?_⟩
    rw [unlinkedFor, if_pos hremoves.fits]
    simpa using hpath

/-- The names that are unlinked are those of the oldest files. -/
def Exact (retains : UInt16) : Prop :=
  ∀ text, (∃ name, folder.Removes retains name ∧ (text = name ∨ text = withoutExt name)) ↔
    ∃ file ∈ folder.oldest retains, text = file.semaphore ∨ text = file.name

theorem removed_iff (retains : UInt16) (array : PathArray) :
    (∃ count unlinked,
      removeOldSampledFiles conf.directory retains folder.names array = .ok (count, unlinked) ∧
        ∀ path, path ∈ unlinked ↔ ∃ file ∈ folder.oldest retains,
          path = conf.directory.bytes ++ file.semaphore ∨
            path = conf.directory.bytes ++ file.name) ↔
      conf.directory.bytes.length ≤ maxLengthFullPathFileName ∧ folder.Exact retains := by
  constructor
  · rintro ⟨count, unlinked, hreturns, hpaths⟩
    have hfits := folderFits_of_ok hreturns
    rw [removeOldSampledFiles_eq folder retains array hfits] at hreturns
    cases hreturns
    refine ⟨hfits, ?_⟩
    intro text
    have hpath := hpaths (conf.directory.bytes ++ text)
    rw [folder.mem_unlinked_iff] at hpath
    simpa only [List.append_right_inj] using hpath
  · rintro ⟨hfits, hexact⟩
    refine ⟨_, _, removeOldSampledFiles_eq folder retains array hfits, ?_⟩
    intro path
    rw [folder.mem_unlinked_iff]
    constructor
    · rintro ⟨name, hremoves, rfl | rfl⟩
      · simpa only [List.append_right_inj] using (hexact _).mp ⟨name, hremoves, .inl rfl⟩
      · simpa only [List.append_right_inj] using (hexact _).mp ⟨name, hremoves, .inr rfl⟩
    · rintro ⟨file, hold, rfl | rfl⟩
      · simpa only [List.append_right_inj] using (hexact _).mpr ⟨file, hold, .inl rfl⟩
      · simpa only [List.append_right_inj] using (hexact _).mpr ⟨file, hold, .inr rfl⟩

variable {folder}

/-- A name that is removed, without its extension, does not hold the extension. -/
theorem Removes.exists_front {name : Path} (removes : folder.Removes retains name) :
    ∃ front, name = front ++ semaphoreExt.bytes ∧ withoutExt name = front ∧
      ¬ semaphoreExt.bytes <:+: front := by
  rcases (loadFilter_iff name).mp removes.accepted with ⟨front, rfl, honly⟩
  exact ⟨front, rfl, withoutExt_append front, honly⟩

/-- When the right names are unlinked, the semaphores of the oldest files are among the names
that are removed, and they were not cut. -/
theorem Exact.removes (exact : folder.Exact retains) {file : SampledFile conf}
    (old : file ∈ folder.oldest retains) :
    folder.Removes retains file.semaphore ∧
      (conf.directory.bytes ++ file.name).length + 4 < maxLengthFullPathFileName := by
  rcases (exact file.semaphore).mpr ⟨file, old, .inl rfl⟩ with ⟨name, hremoves, hname⟩
  rcases hremoves.exists_front with ⟨front, hsplit, hfront, honly⟩
  have hfits := hremoves.fits
  have hfour : semaphoreExt.bytes.length = 4 := by rw [semaphoreExt_eq]; rfl
  rw [hsplit, List.length_append, hfour, maxLengthFullPathFileName] at hfits
  by_cases hwhole : (conf.directory.bytes ++ file.name).length + 4 < maxLengthFullPathFileName
  · rcases hname with rfl | hcut
    · exact ⟨hremoves, hwhole⟩
    · -- the semaphore holds the extension, what is cut does not
      rw [hfront] at hcut
      apply absurd _ honly
      rw [← hcut, file.semaphore_of_whole hwhole]
      exact (List.suffix_append _ _).isInfix
  · have hlength := file.length_semaphore_of_cut hwhole
    rcases hname with rfl | hcut
    · -- without the extension, the name would belong to another file with this semaphore
      rw [List.length_append, hsplit, List.length_append, hfour] at hlength
      rcases (exact front).mp ⟨_, hremoves, .inr hfront.symm⟩ with ⟨other, hold, hother⟩
      rcases hother with hother | hother
      · by_cases hshort : (conf.directory.bytes ++ other.name).length + 4 <
            maxLengthFullPathFileName
        · apply absurd _ honly
          rw [hother, other.semaphore_of_whole hshort]
          exact (List.suffix_append _ _).isInfix
        · have hlong := other.length_semaphore_of_cut hshort
          rw [← hother, List.length_append] at hlong
          omega
      · have hshort : (conf.directory.bytes ++ other.name).length + 4 <
            maxLengthFullPathFileName := by
          rw [← hother, List.length_append, maxLengthFullPathFileName]
          omega
        have hsame : other.semaphore = file.semaphore := by
          rw [other.semaphore_of_whole hshort, ← hother, hsplit]
        have hequal := List.inj_on_of_nodup_map folder.distinct (List.mem_of_mem_take hold)
          (List.mem_of_mem_take old) hsame
        rw [hequal] at hshort
        exact absurd hshort hwhole
    · -- the name is longer than the array
      rw [hfront] at hcut
      rw [hcut, List.length_append] at hlength
      omega

theorem Exact.recognised (exact : folder.Exact retains)
    (folderFits : conf.directory.bytes.length ≤ maxLengthFullPathFileName)
    (increasing : (folder.sampled.map SampledFile.semaphore).Pairwise (· < ·)) :
    Recognised folder retains where
  folderFits := folderFits
  dated := .inr increasing
  marked := by
    intro file old
    rcases exact.removes old with ⟨hremoves, hwhole⟩
    refine ⟨hwhole, ?_⟩
    have haccepted := hremoves.accepted
    rw [file.semaphore_of_whole hwhole, loadFilter_append_iff] at haccepted
    rwa [file.infix_name_iff] at haccepted
    rw [maxLengthFullPathFileName] at hwhole
    omega
  turn := by
    intro name listed accepted fits
    constructor
    · intro hturn
      have hremoves : folder.Removes retains name := ⟨listed, accepted, fits, hturn⟩
      rcases (exact name).mp ⟨name, hremoves, .inl rfl⟩ with ⟨file, old, rfl | rfl⟩
      · exact ⟨file, old, rfl⟩
      · -- a data file that is accepted has a semaphore that is not
        rcases exact.removes old with ⟨hsemaphore, hwhole⟩
        have haccepted := hsemaphore.accepted
        rw [file.semaphore_of_whole hwhole, loadFilter_append_iff] at haccepted
        exact absurd (infix_of_loadFilter accepted) haccepted
    · rintro ⟨file, old, rfl⟩
      exact (exact.removes old).1.turn

end Folder

theorem Recognised.removes {folder : Folder conf} {retains : UInt16}
    (recognised : Recognised folder retains) {file : SampledFile conf}
    (old : file ∈ folder.oldest retains) : folder.Removes retains file.semaphore := by
  rcases recognised.marked file old with ⟨hwhole, hfilename⟩
  have hsemaphore := file.semaphore_of_whole hwhole
  have hlisted := (folder.stored file (List.mem_of_mem_take old)).2
  have hfour : semaphoreExt.bytes.length = 4 := by rw [semaphoreExt_eq]; rfl
  rw [List.length_append, maxLengthFullPathFileName] at hwhole
  have haccepted : loadFilter file.semaphore = true := by
    rw [hsemaphore, loadFilter_append_iff, file.infix_name_iff]
    · exact hfilename
    · rw [List.length_append]
      omega
  have hfits : conf.directory.bytes.length + file.semaphore.length < maxLengthFullPathFileName := by
    rw [hsemaphore, List.length_append, hfour, maxLengthFullPathFileName]
    omega
  exact ⟨hlisted, haccepted, hfits,
    (recognised.turn _ hlisted haccepted hfits).mpr ⟨file, old, rfl⟩⟩

theorem Recognised.exact {folder : Folder conf} {retains : UInt16}
    (recognised : Recognised folder retains) : folder.Exact retains := by
  intro text
  constructor
  · rintro ⟨name, hremoves, htext⟩
    rcases (recognised.turn name hremoves.listed hremoves.accepted hremoves.fits).mp
      hremoves.turn with ⟨file, old, rfl⟩
    refine ⟨file, old, ?_⟩
    rwa [file.semaphore_of_whole (recognised.marked file old).1, withoutExt_append,
      ← file.semaphore_of_whole (recognised.marked file old).1] at htext
  · rintro ⟨file, old, htext⟩
    refine ⟨file.semaphore, recognised.removes old, ?_⟩
    rwa [file.semaphore_of_whole (recognised.marked file old).1, withoutExt_append,
      ← file.semaphore_of_whole (recognised.marked file old).1]

/-- The oldest files are removed, and nothing else, exactly when the filter recognises them. -/
theorem oldestRemoved_iff_recognised (folder : Folder conf) (retains : UInt16)
    (array : PathArray) : OldestRemoved folder retains array ↔ Recognised folder retains := by
  constructor
  · intro hold
    rcases (folder.removed_iff retains array).mp hold.removed with ⟨hfits, hexact⟩
    exact hexact.recognised hfits (folder.sorted_iff.mp hold.sorted)
  · intro hrecognised
    refine ⟨folder.sorted_iff.mpr ?_, ?_⟩
    · rcases hrecognised.dated with hdated | hincreasing
      · exact folder.semaphores_lt hdated
      · exact hincreasing
    · exact (folder.removed_iff retains array).mpr ⟨hrecognised.folderFits, hrecognised.exact⟩

/-- The usual case: the names have room, the configured one does not hold the extension, and
there are no other files with this extension. -/
theorem recognised_of_semaphores (folder : Folder conf) (retains : UInt16)
    (folderFits : conf.directory.bytes.length ≤ maxLengthFullPathFileName)
    (dated : ∀ file ∈ folder.sampled,
      conf.directory.bytes.length + (Field.time file.time).need < maxLengthFullPathFileName)
    (whole : ∀ file ∈ folder.sampled,
      (conf.directory.bytes ++ file.name).length + 4 < maxLengthFullPathFileName)
    (unmarked : ¬ semaphoreExt.bytes <:+: conf.filename.bytes)
    (only : ∀ name ∈ folder.names, loadFilter name = true →
      ∃ file ∈ folder.sampled, name = file.semaphore) : Recognised folder retains where
  folderFits := folderFits
  dated := .inl dated
  marked := fun file old => ⟨whole file (List.mem_of_mem_take old), unmarked⟩
  turn := by
    intro name listed accepted _
    have hperm : (folder.names.filter loadFilter).Perm
        (folder.sampled.map SampledFile.semaphore) := by
      rw [List.perm_ext_iff_of_nodup (folder.nodup.filter _) folder.distinct]
      intro other
      rw [List.mem_filter, List.mem_map]
      constructor
      · rintro ⟨hlisted, haccepted⟩
        rcases only other hlisted haccepted with ⟨file, hsampled, rfl⟩
        exact ⟨file, hsampled, rfl⟩
      · rintro ⟨file, hsampled, rfl⟩
        have hwhole := whole file hsampled
        refine ⟨(folder.stored file hsampled).2, ?_⟩
        rw [file.semaphore_of_whole hwhole, loadFilter_append_iff, file.infix_name_iff]
        · exact unmarked
        · rw [maxLengthFullPathFileName] at hwhole
          omega
    have hscandir : scandir folder.names = folder.sampled.map SampledFile.semaphore :=
      alphasort_eq_of_perm (folder.semaphores_lt dated) hperm
    rw [← folder.mem_take_scandir_iff listed accepted, hscandir, List.length_map, ← List.map_take,
      List.mem_map]
    exact exists_congr fun file => and_congr_right fun _ => eq_comm

/-- A configured name that holds the extension. -/
def markedConf : FileOutputConf := ⟨.ofText "/o/", .ofText "a.sem.csv", true⟩

/-- The file of the first second. -/
def markedFirst : SampledFile markedConf where
  id := 1
  time := ⟨1, 0⟩
  normal := ⟨by decide, by decide, by decide, by decide⟩
  name := bytesOf "1.000000_1_a.sem.csv"
  semaphore := bytesOf "1.000000_1_a.sem.csv.sem"
  created := ⟨emptyPath, by decide +kernel⟩
  signalled := ⟨emptyPath, by decide +kernel⟩

/-- The file of the next second. -/
def markedSecond : SampledFile markedConf where
  id := 1
  time := ⟨2, 0⟩
  normal := ⟨by decide, by decide, by decide, by decide⟩
  name := bytesOf "2.000000_1_a.sem.csv"
  semaphore := bytesOf "2.000000_1_a.sem.csv.sem"
  created := ⟨emptyPath, by decide +kernel⟩
  signalled := ⟨emptyPath, by decide +kernel⟩

def markedFolder : Folder markedConf where
  slash := by decide +kernel
  names := [markedFirst.name, markedFirst.semaphore, markedSecond.name, markedSecond.semaphore]
  nodup := by decide +kernel
  plain := by decide +kernel
  few := by decide +kernel
  sampled := [markedFirst, markedSecond]
  stored := by
    intro file listed
    simp only [List.mem_cons, List.not_mem_nil, or_false] at listed
    rcases listed with rfl | rfl
    · decide +kernel
    · decide +kernel
  distinct := by decide +kernel
  increasing := by
    rw [List.pairwise_pair]
    decide +kernel
  sameDigits := by
    intro file listed other listed'
    simp only [List.mem_cons, List.not_mem_nil, or_false] at listed listed'
    rcases listed with rfl | rfl
    · rcases listed' with rfl | rfl <;> decide +kernel
    · rcases listed' with rfl | rfl <;> decide +kernel

/-- Two files have a semaphore and one is retained, but nothing is removed. -/
theorem not_oldestRemoved_marked : ¬ OldestRemoved markedFolder 1 emptyPath := by
  intro hold
  rcases hold.removed with ⟨count, unlinked, hreturns, hpaths⟩
  have hnothing : removeOldSampledFiles markedConf.directory 1 markedFolder.names emptyPath =
      .ok (0, []) := by decide +kernel
  rw [hnothing] at hreturns
  cases hreturns
  have hlisted := (hpaths (markedConf.directory.bytes ++ markedFirst.name)).mpr
    ⟨markedFirst, List.mem_cons_self, .inr rfl⟩
  cases hlisted

end MmtProbe.Output

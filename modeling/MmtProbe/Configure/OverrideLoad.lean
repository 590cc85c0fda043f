/-
# Overriding a parameter and loading it

A value of a parameter can stand in the file, or it can be given by an override after a
file with another value was loaded.  The file is read by a function for each block, with
its own treatment of some values; overrides are written by the type in the table alone.

For every parameter the two are compared field by field, and the values are described
for which they give the same configuration.  The padding behind `outputs.cache_period`
is not a field.
-/

import MmtProbe.Configure.OutputSwitch
import MmtProbe.Math.Word
import Mathlib.Data.List.Pairwise

namespace MmtProbe.Configure

open MmtProbe.Math
open MmtProbe.DynamicConf (ConfigIdentity Identity)

/-! ## Options -/

/-- All fields. -/
def Field.all : List Field :=
  ((List.range 30).map fun index => Field.bool (.ofNat index)) ++
    ((List.range 18).map fun index => Field.uint16 (.ofNat index)) ++
    ((List.range 11).map fun index => Field.uint32 (.ofNat index)) ++
    ((List.range 4).map fun index => Field.enum (.ofNat index)) ++
    ((List.range 23).map fun index => Field.text (.ofNat index)) ++
    ((List.range 7).map fun index => Field.channels (.ofNat index)) ++ [Field.protocols]

theorem Field.mem_all (field : Field) : field ∈ all := by
  unfold all
  simp only [List.mem_append, List.mem_map, List.mem_range, List.mem_singleton, or_assoc]
  cases field with
  | bool field =>
      exact .inl ⟨field.ctorIdx, by cases field <;> decide, by rw [BoolField.ofNat_ctorIdx]⟩
  | uint16 field =>
      apply Or.inr
      exact .inl ⟨field.ctorIdx, by cases field <;> decide, by rw [Uint16Field.ofNat_ctorIdx]⟩
  | uint32 field =>
      iterate 2 apply Or.inr
      exact .inl ⟨field.ctorIdx, by cases field <;> decide, by rw [Uint32Field.ofNat_ctorIdx]⟩
  | enum field =>
      iterate 3 apply Or.inr
      exact .inl ⟨field.ctorIdx, by cases field <;> decide, by rw [EnumField.ofNat_ctorIdx]⟩
  | text field =>
      iterate 4 apply Or.inr
      exact .inl ⟨field.ctorIdx, by cases field <;> decide, by rw [TextField.ofNat_ctorIdx]⟩
  | channels field =>
      iterate 5 apply Or.inr
      exact .inl ⟨field.ctorIdx, by cases field <;> decide, by rw [ChannelField.ofNat_ctorIdx]⟩
  | protocols =>
      iterate 6 apply Or.inr
      rfl

/-- No option is read twice. -/
theorem Field.nodup_options : (all.filterMap Field.option).Nodup := by decide +kernel

/-- No two fields are filled from one option. -/
theorem Field.option_inj {field other : Field} {option : String}
    (named : field.option = some option) (same : other.option = some option) : field = other := by
  by_contra hne
  have hdistinct := List.pairwise_filterMap.mp nodup_options
  have hsymm : Std.Symm fun field other : Field => ∀ option, field.option = some option →
      ∀ option', other.option = some option' → option ≠ option' :=
    ⟨fun _ _ hne option named option' named' => (hne option' named' option named).symm⟩
  exact hdistinct.forall (mem_all field) (mem_all other) hne option named option same rfl

/-! ## Two files -/

/-- Two files that differ in one option: the first has `value` there and the other has
`old`. -/
structure DifferAt {confuse : Confuse} (file other : CfgFile confuse) (option : String)
    (value old : List UInt8) : Prop where
  titles : other.titles = file.titles
  value_eq : file.value option = some value
  old_eq : other.value option = some old
  beside : ∀ name, name ≠ option → other.value name = file.value name

/-- The list of protocols that is kept: their count has 16 bits. -/
def keptProtocols (protocols : List (List UInt8)) : List (List UInt8) :=
  protocols.take (UInt16.ofNat protocols.length).toNat

section Loaded

variable {confuse : Confuse} (file : CfgFile confuse) (padding : UInt16)

/-- A field with an option is read from it. -/
theorem load_bool {field : BoolField} {option : String} (named : field.option = some option) :
    (confLoadFromFile file padding).bool field = file.cfgGetbool field := by
  cases field <;> first | rfl | cases named

theorem load_bool_of_mem {field : BoolField} (channel : field ∈ outputChannels) :
    (confLoadFromFile file padding).bool field = file.cfgGetbool field := by
  fin_cases channel <;> rfl

theorem getBool_eq_some {field : BoolField} {option : String} {text : List UInt8}
    (named : Field.option (.bool field) = some option) (set : file.value option = some text) :
    confuse.getBool text = some ((confLoadFromFile file padding).bool field) := by
  have hnamed : field.option = some option := named
  have hlegal := file.legal (.bool field) option text named set
  rcases Option.isSome_iff_exists.mp hlegal with ⟨flag, hflag⟩
  rw [load_bool file padding hnamed, hflag]
  simp only [CfgFile.cfgGetbool, hnamed, Option.bind_some, set, hflag, Option.getD_some]

/-- The number that is written is read both ways. -/
theorem cfgGetint_eq {option : String} {n : Int} {text : List UInt8}
    (read : confuse.getInt text = some n) (set : file.value option = some text)
    (default : Int) : file.cfgGetint option default = strtol text := by
  simp only [CfgFile.cfgGetint, set, read, Option.getD_some]
  exact (confuse.literal text n read).symm

theorem load_uint16 {field : Uint16Field} {text : List UInt8}
    (set : file.value field.option = some text) :
    (confLoadFromFile file padding).uint16 field = field.normalise (intVal text).toUInt16 := by
  have hlegal := file.legal (.uint16 field) field.option text rfl set
  rcases Option.isSome_iff_exists.mp hlegal with ⟨n, hread⟩
  rw [intVal, toUInt16_ofInt, ← cfgGetint_eq file hread set field.default]
  rfl

theorem load_uint32 {field : Uint32Field} {text : List UInt8}
    (set : file.value field.option = some text) :
    (confLoadFromFile file padding).uint32 field = intVal text := by
  have hlegal := file.legal (.uint32 field) field.option text rfl set
  rcases Option.isSome_iff_exists.mp hlegal with ⟨n, hread⟩
  rw [intVal, ← cfgGetint_eq file hread set field.default]
  rfl

theorem parse_eq_some {field : EnumField} {text : List UInt8}
    (set : file.value field.option = some text) :
    field.parse text = some ((confLoadFromFile file padding).enum field) := by
  have hlegal := file.legal (.enum field) field.option text rfl set
  rcases Option.isSome_iff_exists.mp hlegal with ⟨number, hparse⟩
  rw [hparse]
  simp only [confLoadFromFile, CfgFile.cfgGetEnum, set, hparse, Option.getD_some]

theorem load_text {field : TextField} {text : List UInt8}
    (set : file.value field.option = some text) :
    (confLoadFromFile file padding).text field =
      some (if field.isDirectory then cfgGetDir text else text) := by
  simp only [confLoadFromFile, CfgFile.cfgGetStr, set]

theorem load_channels {field : ChannelField} {text : List UInt8}
    (set : file.value field.option = some text) :
    (confLoadFromFile file padding).channels field = confParseOutputChannel confuse text := by
  have hlegal := file.legal (.channels field) field.option text rfl set
  rcases Option.isSome_iff_exists.mp hlegal with ⟨names, hnames⟩
  simp only [confLoadFromFile, CfgFile.cfgGetList, confParseOutputChannel, set, hnames,
    Option.getD_some]

theorem getList_map_eq_some {text : List UInt8}
    (set : file.value "dump-pcap.protocols" = some text) :
    (confuse.getList text).map keptProtocols =
      some (confLoadFromFile file padding).protocols := by
  have hlegal := file.legal .protocols "dump-pcap.protocols" text rfl set
  rcases Option.isSome_iff_exists.mp hlegal with ⟨names, hnames⟩
  simp only [confLoadFromFile, CfgFile.cfgGetList, keptProtocols, set, hnames, Option.getD_some,
    Option.map_some]

end Loaded

/-- What is loaded into a field depends on its option only. -/
theorem cell_load_congr {confuse : Confuse} {file other : CfgFile confuse} {field : Field}
    {option : String} (named : field.option = some option)
    (same : other.value option = file.value option) (padding padding' : UInt16) :
    (confLoadFromFile other padding').cell field = (confLoadFromFile file padding).cell field := by
  cases field with
  | bool field =>
      have hnamed : field.option = some option := named
      simp only [Conf.cell, load_bool _ _ hnamed, CfgFile.cfgGetbool, hnamed, Option.bind_some,
        same]
  | uint16 field =>
      cases named
      simp only [Conf.cell, confLoadFromFile, CfgFile.cfgGetint, same]
  | uint32 field =>
      cases named
      simp only [Conf.cell, confLoadFromFile, CfgFile.cfgGetint, same]
  | enum field =>
      cases named
      simp only [Conf.cell, confLoadFromFile, CfgFile.cfgGetEnum, same]
  | text field =>
      cases named
      simp only [Conf.cell, confLoadFromFile, CfgFile.cfgGetStr, same]
  | channels field =>
      cases named
      simp only [Conf.cell, confLoadFromFile, CfgFile.cfgGetList, same]
  | protocols =>
      cases named
      simp only [Conf.cell, confLoadFromFile, CfgFile.cfgGetList, same]

/-- When an override with a value, after a file with an old one was loaded, gives what
loading the value gives. -/
def Field.AgreesWhen {confuse : Confuse} (other : CfgFile confuse) (value old : List UInt8) :
    Field → Prop
  -- the word is taken for the same truth value; the global switch is not computed again
  | .bool field =>
      confuse.getBool value = some (parseBool value) ∧
        (field ∈ outputChannels → confuse.getBool old = confuse.getBool value ∨
          ∃ channel ∈ outputChannels, channel ≠ field ∧ other.cfgGetbool channel = true)
  -- loading has a default for 0
  | .uint16 .inputSnapLen | .uint16 .cpuMemFrequency => (intVal value).toUInt16 ≠ 0
  | .uint16 _ | .uint32 _ => True
  -- the two symbolic values that overrides take for numbers
  | .enum .outputsFormat => equalIgnoringCase value "JSON" = false
  | .enum .socketType => value = bytesOf "BOTH"
  | .enum _ => True
  | .text field => field.isDirectory = true → value.getLast? = some 47
  -- listed as a text
  | .channels .cpuMem => False
  | .channels _ => True
  -- ignored by overrides
  | .protocols =>
      (confuse.getList old).map keptProtocols = (confuse.getList value).map keptProtocols

/-! ## Symbolic values taken for numbers -/

/-- A word is not a number. -/
theorem intVal_eq_zero {text : List UInt8} {word : String} {letter : UInt8} {rest : List UInt8}
    (same : equalIgnoringCase text word = true) (begins : bytesOf word = letter :: rest)
    (behind : 58 ≤ letter) : intVal text = 0 := by
  have htext := eq_of_beq same
  rw [begins, List.map_eq_cons_iff] at htext
  rcases htext with ⟨byte, tail, rfl, hbyte, -⟩
  have hbehind : 58 ≤ byte := by
    split_ifs at hbyte with hlower
    · exact UInt8.le_trans (by decide) hlower.1
    · rw [hbyte]
      exact behind
  rw [intVal, strtol, atoi_eq_zero tail hbehind]
  rfl

/-- The names of formats and of sockets are not numbers, either. -/
theorem intVal_eq_zero_of_parse {field : EnumField} {text : List UInt8} {number : UInt32}
    (parsed : field.parse text = some number)
    (asNumber : field = .outputsFormat ∨ field = .socketType) : intVal text = 0 := by
  rcases asNumber with rfl | rfl
  · simp only [EnumField.parse] at parsed
    split_ifs at parsed with hcsv hjson
    · rcases hcsv with rfl | hcsv
      · rfl
      · exact intVal_eq_zero hcsv rfl (by decide)
    · exact intVal_eq_zero hjson rfl (by decide)
  · simp only [EnumField.parse] at parsed
    split_ifs at parsed with hunix hinternet hboth
    · rw [hunix]
      decide
    · rw [hinternet]
      decide
    · rw [hboth]
      decide

/-- An enumeration has small numbers. -/
theorem low_half_of_parse {field : EnumField} {text : List UInt8} {number : UInt32}
    (parsed : field.parse text = some number) : number.toUInt16.toUInt32 = number := by
  cases field <;> simp only [EnumField.parse] at parsed <;> split_ifs at parsed <;>
    (cases parsed; rfl)

/-! ## What is written -/

theorem write_uint16_cell {confuse : Confuse} {conf : Conf} {value : List UInt8}
    (name : Uint16Field) :
    ∃ target, conf.write confuse (.uint16 name) value = some target ∧
      target.cell (.uint16 name) = .uint16 (intVal value).toUInt16 := by
  by_cases hperiod : name = .outputsCachePeriod
  · rw [hperiod]
    exact ⟨_, rfl, (Conf.padding_cell _).trans (Conf.setUint16_cell ..)⟩
  · rw [Conf.write_uint16_of_ne hperiod]
    exact ⟨_, rfl, Conf.setUint16_cell ..⟩

/-- The text of a field is not NULL. -/
theorem write_text_cell {confuse : Confuse} {conf : Conf} {value : List UInt8} {name : TextField}
    (set : (conf.text name).isSome) :
    ∃ target, conf.write confuse (.text name) value = some target ∧
      target.cell (.text name) = .text (some value) :=
  ⟨_, if_pos set, Conf.setText_cell ..⟩

/-- Two of the symbolic values are read, and for the other two 0 is written. -/
def EnumField.written (number : UInt32) : EnumField → UInt32
  | .inputMode | .sessionRttBase => number
  | .outputsFormat | .socketType => 0

theorem write_enum_cell {confuse : Confuse} {conf : Conf} {value old : List UInt8}
    {name : EnumField} {number : UInt32} (parsed : name.parse value = some number)
    (loaded : name.parse old = some (conf.enum name)) :
    ∃ target, conf.write confuse (.enum name) value = some target ∧
      target.cell (.enum name) = .enum (name.written number) := by
  have hnumber : name = .outputsFormat ∨ name = .socketType →
      conf.enum name - (conf.enum name).toUInt16.toUInt32 + (intVal value).toUInt16.toUInt32 =
        0 := by
    intro asNumber
    rw [low_half_of_parse loaded, intVal_eq_zero_of_parse parsed asNumber, UInt32.sub_self]
    rfl
  have hsymbol : (conf.overrideEnum name value).2 = conf.setEnum name number := by
    rw [Conf.overrideEnum, parsed]
  cases name with
  | inputMode | sessionRttBase =>
      refine ⟨_, rfl, ?_⟩
      rw [hsymbol]
      exact Conf.setEnum_cell ..
  | outputsFormat | socketType =>
      refine ⟨_, rfl, ?_⟩
      rw [Conf.setEnum_cell, hnumber (by simp)]
      rfl

theorem EnumField.written_eq_iff {confuse : Confuse} {other : CfgFile confuse}
    {value old : List UInt8} (name : EnumField) {number : UInt32}
    (parsed : name.parse value = some number) :
    name.written number = number ↔ Field.AgreesWhen other value old (.enum name) := by
  cases name with
  | inputMode | sessionRttBase => exact iff_of_true rfl trivial
  | outputsFormat =>
      change 0 = number ↔ equalIgnoringCase value "JSON" = false
      simp only [EnumField.parse] at parsed
      split_ifs at parsed with hcsv hjson
      · cases parsed
        apply iff_of_true rfl
        rcases hcsv with rfl | hcsv
        · decide
        · rw [equalIgnoringCase, eq_of_beq hcsv]
          decide
      · cases parsed
        exact iff_of_false (by decide) (by rw [hjson]; decide)
  | socketType =>
      change 0 = number ↔ value = bytesOf "BOTH"
      simp only [EnumField.parse] at parsed
      split_ifs at parsed with hunix hinternet hboth
      · cases parsed
        exact iff_of_false (by decide) (by rw [hunix]; decide)
      · cases parsed
        exact iff_of_false (by decide) (by rw [hinternet]; decide)
      · cases parsed
        exact iff_of_true rfl hboth

theorem cfgGetDir_eq_self_iff (name : TextField) (text : List UInt8) :
    (if name.isDirectory then cfgGetDir text else text) = text ↔
      (name.isDirectory = true → text.getLast? = some 47) := by
  split_ifs with hdirectory
  · rw [forall_prop_of_true hdirectory, cfgGetDir]
    split_ifs with hslash
    · exact iff_of_true rfl hslash
    · refine iff_of_false ?_ hslash
      simp
  · exact iff_of_true rfl fun hyes => absurd hyes hdirectory

namespace DifferAt

variable {confuse : Confuse} {file other : CfgFile confuse} {field : Field} {option : String}
  {value old : List UInt8} (differ : DifferAt file other option value old)
include differ

/-- The block of the parameter is in the file. -/
theorem reaches (named : field.option = some option) (padding : UInt16) :
    (confLoadFromFile other padding).reaches field = true := by
  unfold Conf.reaches
  cases hblock : field.block with
  | none => rfl
  | some block =>
      have hset : (other.value option).isSome := by rw [differ.old_eq]; rfl
      exact decide_eq_true (other.blocks field option block named hblock hset)

/-- The other fields with an option are loaded alike from both files. -/
theorem cell_of_ne {beside : Field} {name : String} (named : field.option = some option)
    (apart : beside ≠ field) (read : beside.option = some name) (padding padding' : UInt16) :
    (confLoadFromFile other padding').cell beside =
      (confLoadFromFile file padding).cell beside := by
  apply cell_load_congr read
  apply differ.beside
  rintro rfl
  exact apart (Field.option_inj read named)

/-- The switches of the other channels. -/
theorem bool_of_ne {flag : BoolField} (named : field.option = some option)
    (channel : flag ∈ outputChannels) (apart : .bool flag ≠ field) (padding padding' : UInt16) :
    (confLoadFromFile other padding').bool flag = (confLoadFromFile file padding).bool flag := by
  have hread : ∃ name, flag.option = some name := by fin_cases channel <;> exact ⟨_, rfl⟩
  rcases hread with ⟨name, hread⟩
  exact Cell.bool.inj (differ.cell_of_ne named apart hread padding padding')

/-- When the global switch is the same for both files. -/
theorem outputsIsEnable_eq_iff (named : field.option = some option) (padding padding' : UInt16) :
    (confLoadFromFile other padding').bool .outputsIsEnable =
        (confLoadFromFile file padding).bool .outputsIsEnable ↔
      ∀ flag, field = .bool flag → flag ∈ outputChannels →
        confuse.getBool old = confuse.getBool value ∨
          ∃ channel ∈ outputChannels, channel ≠ flag ∧ other.cfgGetbool channel = true := by
  have hother := (switchConsistent_load (fun _ => true) other padding').1
  have hfile := (switchConsistent_load (fun _ => true) file padding).1
  rw [Bool.eq_iff_iff, hother, hfile]
  by_cases hchannel : ∃ flag ∈ outputChannels, field = .bool flag
  · rcases hchannel with ⟨flag, hflag, rfl⟩
    have hrest : ∀ channel ∈ outputChannels, channel ≠ flag →
        (confLoadFromFile other padding').bool channel =
          (confLoadFromFile file padding).bool channel := by
      intro channel hmem hne
      apply differ.bool_of_ne named hmem
      rintro ⟨⟩
      exact hne rfl
    have hothers : (∃ channel ∈ outputChannels, channel ≠ flag ∧
          (confLoadFromFile other padding').bool channel = true) ↔
        ∃ channel ∈ outputChannels, channel ≠ flag ∧
          (confLoadFromFile file padding).bool channel = true := by
      refine exists_congr fun channel => and_congr_right fun hmem => and_congr_right fun hne => ?_
      rw [hrest channel hmem hne]
    have hread : (∃ channel ∈ outputChannels, channel ≠ flag ∧
          (confLoadFromFile file padding).bool channel = true) ↔
        ∃ channel ∈ outputChannels, channel ≠ flag ∧ other.cfgGetbool channel = true := by
      rw [← hothers]
      refine exists_congr fun channel => and_congr_right fun hmem => ?_
      rw [load_bool_of_mem other padding' hmem]
    rw [Conf.someChannel_iff _ hflag, Conf.someChannel_iff _ hflag, hothers, or_iff_or_iff, hread,
      ← Option.some_inj, ← getBool_eq_some other padding' named differ.old_eq,
      ← getBool_eq_some file padding named differ.value_eq]
    simp only [Field.bool.injEq, forall_eq', forall_prop_of_true hflag]
  · refine iff_of_true ?_ fun flag hfield hflag => absurd ⟨flag, hflag, hfield⟩ hchannel
    refine exists_congr fun flag => and_congr_right fun hflag => ?_
    rw [differ.bool_of_ne named hflag]
    rintro rfl
    exact hchannel ⟨flag, hflag, rfl⟩

/-- Two fields have no option, and only the global switch may then differ. -/
theorem sameFields_iff {target : Conf} {padding padding' : UInt16}
    (named : field.option = some option)
    (written : (confLoadFromFile other padding').write confuse field value = some target) :
    target.SameFields (confLoadFromFile file padding) ↔
      target.cell field = (confLoadFromFile file padding).cell field ∧
        (confLoadFromFile other padding').bool .outputsIsEnable =
          (confLoadFromFile file padding).bool .outputsIsEnable := by
  rcases Conf.write_frame written with ⟨hframe, hblock⟩
  have hswitch : Field.bool .outputsIsEnable ≠ field := by
    rintro rfl
    cases named
  rw [Conf.sameFields_iff]
  constructor
  · rintro ⟨hcell, -⟩
    refine ⟨hcell field, ?_⟩
    exact Cell.bool.inj ((hframe _ hswitch).symm.trans (hcell _))
  · rintro ⟨hcell, henable⟩
    constructor
    · intro beside
      by_cases hsame : beside = field
      · rw [hsame, hcell]
      rw [hframe beside hsame]
      cases hread : beside.option with
      | some name => exact differ.cell_of_ne named hsame hread padding padding'
      | none =>
          cases beside with
          | bool flag =>
              cases flag <;> cases hread
              · exact congrArg Cell.bool henable
              · rfl
          | _ => cases hread
    · rw [hblock]
      funext block
      simp only [confLoadFromFile, differ.titles]

/-- The two configurations are the same when the field has the same content. -/
theorem exists_write_iff (field : Field) {content : Cell} {padding padding' : UInt16}
    (named : field.option = some option) (notBool : ∀ flag, field ≠ .bool flag)
    (written : ∃ target,
      (confLoadFromFile other padding').write confuse field value = some target ∧
        target.cell field = content) :
    (∃ target, (confLoadFromFile other padding').write confuse field value = some target ∧
        target.SameFields (confLoadFromFile file padding)) ↔
      content = (confLoadFromFile file padding).cell field := by
  rcases written with ⟨target, hwritten, hcontent⟩
  rw [hwritten]
  simp only [Option.some.injEq, exists_eq_left']
  rw [differ.sameFields_iff named hwritten, hcontent, and_iff_left]
  rw [differ.outputsIsEnable_eq_iff named]
  intro flag hfield
  exact absurd hfield (notBool flag)

/-- An override gives what loading the value gives, exactly under the condition on the
field. -/
theorem exists_write_iff_agreesWhen (named : field.option = some option)
    (padding padding' : UInt16) :
    (∃ target, (confLoadFromFile other padding').write confuse field value = some target ∧
        target.SameFields (confLoadFromFile file padding)) ↔
      field.AgreesWhen other value old := by
  cases field with
  | bool flag =>
      have hread := getBool_eq_some file padding named differ.value_eq
      simp only [Conf.write, Option.some.injEq, exists_eq_left']
      rw [differ.sameFields_iff named rfl, differ.outputsIsEnable_eq_iff named, Conf.setBool_cell]
      simp only [Field.AgreesWhen, hread, Conf.cell, Cell.bool.injEq, Option.some.injEq,
        Field.bool.injEq, forall_eq', eq_comm]
  | uint16 name =>
      cases named
      refine (differ.exists_write_iff (.uint16 name) rfl (by simp)
        (write_uint16_cell name)).trans ?_
      rw [Conf.cell, load_uint16 file padding differ.value_eq, Cell.uint16.injEq]
      cases name <;> first | exact iff_of_true rfl trivial | skip
      · exact eq_comm.trans (ite_zero_eq_self_iff _ (by decide))
      · exact eq_comm.trans (ite_zero_eq_self_iff _ (by decide))
  | uint32 name =>
      cases named
      refine (differ.exists_write_iff (.uint32 name) rfl (by simp)
        ⟨_, rfl, Conf.setUint32_cell ..⟩).trans ?_
      rw [Conf.cell, load_uint32 file padding differ.value_eq]
      exact iff_of_true rfl trivial
  | enum name =>
      cases named
      have hread := parse_eq_some file padding differ.value_eq
      refine (differ.exists_write_iff (.enum name) rfl (by simp)
        (write_enum_cell hread (parse_eq_some other padding' differ.old_eq))).trans ?_
      rw [Conf.cell, Cell.enum.injEq]
      exact name.written_eq_iff hread
  | text name =>
      cases named
      have hold := load_text other padding' differ.old_eq
      refine (differ.exists_write_iff (.text name) rfl (by simp)
        (write_text_cell (by rw [hold]; rfl))).trans ?_
      rw [Conf.cell, load_text file padding differ.value_eq, Cell.text.injEq, Option.some.injEq]
      exact eq_comm.trans (cfgGetDir_eq_self_iff name value)
  | channels name =>
      cases named
      by_cases hcpuMem : name = .cpuMem
      · rw [hcpuMem]
        refine iff_of_false ?_ id
        rintro ⟨target, hwritten, -⟩
        cases hwritten
      · have hagrees : Field.AgreesWhen other value old (.channels name) = True := by
          cases name <;> first | rfl | exact absurd rfl hcpuMem
        refine (differ.exists_write_iff (.channels name) rfl (by simp)
          ⟨_, Conf.write_channels_of_ne hcpuMem, Conf.setChannels_cell ..⟩).trans ?_
        rw [Conf.cell, load_channels file padding differ.value_eq, hagrees]
        exact iff_of_true rfl trivial
  | protocols =>
      cases named
      refine (differ.exists_write_iff .protocols rfl (by simp) ⟨_, rfl, rfl⟩).trans ?_
      simp only [Field.AgreesWhen, Conf.cell, Cell.protocols.injEq]
      rw [getList_map_eq_some file padding differ.value_eq,
        getList_map_eq_some other padding' differ.old_eq, Option.some.injEq]

end DifferAt

/-! ## Files with one option -/

/-- A file that sets the option of one field. -/
def fileWith (field : Field) {option : String} (named : field.option = some option)
    (text : List UInt8) (legal : field.Legal plainConfuse text) : CfgFile plainConfuse where
  value name := if name = option then some text else none
  titles := ["ftp", "http"]
  legal beside name value read set := by
    split_ifs at set with hname
    cases set
    rw [hname] at read
    rw [Field.option_inj read named]
    exact legal
  blocks _ _ block _ _ _ := by cases block <;> decide
  titles_ne := emptyFile.titles_ne

theorem differAt_fileWith {field : Field} {option : String} (named : field.option = some option)
    {value old : List UInt8} (legal : field.Legal plainConfuse value)
    (legalOld : field.Legal plainConfuse old) :
    DifferAt (fileWith field named value legal) (fileWith field named old legalOld) option value
      old where
  titles := rfl
  value_eq := if_pos rfl
  old_eq := if_pos rfl
  beside _ hne := (if_neg hne).trans (if_neg hne).symm

/-! ## Parameters -/

/-- Every field of the table is filled from an option. -/
theorem option_of_fieldOf {number : ConfigIdentity} {field : Field}
    (target : fieldOf number = some field) : ∃ option, field.option = some option := by
  have hall : (fieldOf number).all (fun field => field.option.isSome) = true := by
    cases number <;> rfl
  rw [target] at hall
  exact Option.isSome_iff_exists.mp hall

/-- An override by name writes the field of the parameter. -/
theorem overrideElement_map_snd {build : DynamicConf.Build} {confuse : Confuse} {conf : Conf}
    {identity : Identity} {field : Field} {value : List UInt8}
    (listed : identity ∈ DynamicConf.identities build)
    (target : fieldOf identity.number = some field) (reached : conf.reaches field = true) :
    (conf.overrideElement confuse build identity.ident value).map Prod.snd =
      conf.write confuse field value := by
  change (Override.byName identity.ident value).apply build confuse conf = _
  have hfound : (Override.byName identity.ident value).identity build = some identity :=
    DynamicConf.confGetIdentityFromString_ident listed
  rw [Override.apply_eq, hfound]
  simp only [Override.value]
  rw [Conf.overrideElementByIdent_map_snd listed, target]
  exact if_pos reached

/-- For every parameter that is supported there is an option of the file, and after the
value of the option was replaced, an override with the first value gives the first
configuration exactly under the condition on the field. -/
theorem override_agrees_load_iff {build : DynamicConf.Build} {identity : Identity}
    (listed : identity ∈ DynamicConf.identities build)
    (supported : identity.dataType ≠ .noSupport) :
    ∃ field option, fieldOf identity.number = some field ∧ field.option = some option ∧
      ∀ {confuse : Confuse} {file other : CfgFile confuse} {value old : List UInt8}
        (padding padding' : UInt16), DifferAt file other option value old →
          ((∃ code conf, (confLoadFromFile other padding').overrideElement confuse build
                identity.ident value = some (code, conf) ∧
              conf.SameFields (confLoadFromFile file padding)) ↔
            field.AgreesWhen other value old) := by
  rcases isListedAs_of_mem_identities listed with ⟨-, hnone⟩ | ⟨field, hfield, -⟩
  · exact absurd hnone supported
  rcases option_of_fieldOf hfield with ⟨option, hoption⟩
  refine ⟨field, option, hfield, hoption, ?_⟩
  intro confuse file other value old padding padding' differ
  rw [← differ.exists_write_iff_agreesWhen hoption padding padding',
    ← overrideElement_map_snd listed hfield (differ.reaches hoption padding')]
  constructor
  · rintro ⟨code, conf, hoverride, hsame⟩
    exact ⟨conf, by rw [hoverride]; rfl, hsame⟩
  · rintro ⟨conf, hoverride, hsame⟩
    rcases Option.map_eq_some_iff.mp hoverride with ⟨⟨code, target⟩, htarget, rfl⟩
    exact ⟨code, target, htarget, hsame⟩

/-- Two threads are given by an override, after one thread was loaded. -/
theorem override_agrees_load_threadNb :
    ∃ code conf,
      (confLoadFromFile (fileWith (.uint16 .threadCount) rfl (bytesOf "1") rfl) 0).overrideElement
          plainConfuse (fun _ => true) (bytesOf "thread-nb") (bytesOf "2") = some (code, conf) ∧
        conf.SameFields
          (confLoadFromFile (fileWith (.uint16 .threadCount) rfl (bytesOf "2") rfl) 0) := by
  have hlisted : ⟨11, .threadNb, .uint16, bytesOf "thread-nb"⟩ ∈
      DynamicConf.identities fun _ => true := by decide
  rcases override_agrees_load_iff hlisted nofun with ⟨field, option, hfield, hoption, hiff⟩
  cases hfield
  cases hoption
  apply (hiff 0 0 (differAt_fileWith _ _ _)).mpr
  trivial

/-- The directory `/tmp` is given by an override: it has no slash at its end, and it has
one when it is loaded. -/
theorem override_disagrees_load_directory :
    ¬ ∃ code conf,
      (confLoadFromFile (fileWith (.text .fileDirectory) rfl (bytesOf "/data/")
          fun _ => by decide) 0).overrideElement plainConfuse (fun _ => true)
          (bytesOf "file-output.output-dir") (bytesOf "/tmp") = some (code, conf) ∧
        conf.SameFields (confLoadFromFile (fileWith (.text .fileDirectory) rfl (bytesOf "/tmp")
          fun _ => by decide) 0) := by
  rintro ⟨code, conf, hoverride, hsame⟩
  have hloaded := (Conf.sameFields_iff.mp hsame).1 (.text .fileDirectory)
  cases hoverride
  revert hloaded
  decide

end MmtProbe.Configure

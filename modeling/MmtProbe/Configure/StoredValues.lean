/-
# From a checked value to the field that holds it

The control server checks a value with `conf_validate_data_value` before it is sent to
the processes, which write it with `_override_element_by_ident`.  Each of the two decides
by itself how a parameter is treated.  A value that is accepted is to be held by the
field afterwards, and a value that means nothing in the field is to be refused.

Words are accepted as numbers: the reason for refusing them is formatted, and then 0 is
returned.  No number is compared with the range of its field, and names and lists are not
looked at.
-/

import Mathlib.Data.UInt
import MmtProbe.Configure.OverrideLoad

namespace MmtProbe.Configure

open MmtProbe.Math
open MmtProbe.DynamicConf (ConfigIdentity Identity DataType confValidateDataValue)

/-! ## What a value means -/

/-- The names that `_parse_output_channel` knows; it warns about all others. -/
def isChannelName (name : List UInt8) : Bool :=
  (bytesOf "file").isPrefixOf name || (bytesOf "kafka").isPrefixOf name ||
    (bytesOf "redis").isPrefixOf name || (bytesOf "mongo").isPrefixOf name ||
    (bytesOf "socke").isPrefixOf name

/-- The content of a field that a text stands for, if it stands for any. -/
def Field.denotes (confuse : Confuse) (value : List UInt8) : Field → Option Cell
  | .bool _ =>
      if value = bytesOf "true" then some (.bool true)
      else if value = bytesOf "false" then some (.bool false)
      else none
  | .uint16 _ => ((readDecimal value).filter (· < 2 ^ 16)).map fun n => .uint16 (UInt16.ofNat n)
  | .uint32 _ => ((readDecimal value).filter (· < 2 ^ 32)).map fun n => .uint32 (UInt32.ofNat n)
  | .enum field => (field.parse value).map .enum
  | .text _ => some (.text (some value))
  | .channels _ =>
      ((confuse.getList value).filter (·.all isChannelName)).map fun names =>
        .channels (parseOutputChannel names)
  | .protocols => ((confuse.getList value).filter (·.length < 2 ^ 16)).map .protocols

/-- An accepted value is held by the field of its parameter and changes no other, and a
value without a meaning is refused. -/
structure Faithful (confuse : Confuse) (conf : Conf) (identity : Identity) (field : Field)
    (value : List UInt8) : Prop where
  stored : confValidateDataValue identity value = none →
    ∃ changed target content,
      conf.overrideElementByIdent confuse identity value = some (changed, target) ∧
      field.denotes confuse value = some content ∧
      target.reaches field = true ∧ target.cell field = content ∧
      (∀ beside, beside ≠ field → target.cell beside = conf.cell beside) ∧
      target.hasBlock = conf.hasBlock
  refused : field.denotes confuse value = none → confValidateDataValue identity value ≠ none

/-- The condition on the value and on the configuration before. -/
def Field.StoredWhen (confuse : Confuse) (conf : Conf) (value : List UInt8) : Field → Prop
  -- other words are refused; without its block there is no such field
  | .bool field =>
      value = bytesOf "true" ∨ value = bytesOf "false" → conf.reaches (.bool field) = true
  | .uint16 _ => ∃ n, readDecimal value = some n ∧ n < 2 ^ 16
  | .uint32 _ => ∃ n, readDecimal value = some n ∧ n < 2 ^ 32
  | .enum .inputMode => True
  | .enum .sessionRttBase => (EnumField.parse .sessionRttBase value).isSome
  -- a name is taken for the number 0
  | .enum .outputsFormat =>
      equalIgnoringCase value "CSV" = true ∧ conf.enum .outputsFormat < 2 ^ 16
  | .enum .socketType => value = bytesOf "BOTH" ∧ conf.enum .socketType < 2 ^ 16
  -- the old text is compared, and must not be NULL
  | .text field => conf.reaches (.text field) = true ∧ (conf.text field).isSome
  -- listed as a text
  | .channels .cpuMem => False
  | .channels _ => ∃ names, confuse.getList value = some names ∧ names.all isChannelName = true
  -- never written
  | .protocols => confuse.getList value = some conf.protocols ∧ conf.protocols.length < 2 ^ 16

variable {build : DynamicConf.Build} {confuse : Confuse} {conf : Conf} {identity : Identity}
  {field : Field} {value : List UInt8}

/-! ## What is accepted -/

/-- The values that `conf_validate_data_value` lets through. -/
def Field.Accepts (value : List UInt8) : Field → Prop
  | .bool _ => value = bytesOf "true" ∨ value = bytesOf "false"
  | .enum .inputMode => (EnumField.parse .inputMode value).isSome
  | _ => True

/-- Only the mode of the input has the number that is treated first. -/
theorem fieldOf_inputMode {number : ConfigIdentity} (target : fieldOf number = some field) :
    number = .inputMode ↔ field = .enum .inputMode := by
  constructor
  · rintro rfl
    exact (Option.some.inj target).symm
  · rintro rfl
    exact Conf.eq_of_fieldOf_enum.1 target

/-- All other parameters are treated by their type, and only that of a truth value is
looked at. -/
theorem validate_eq_none_of_ne (other : identity.number ≠ .inputMode) :
    confValidateDataValue identity value = none ↔
      (identity.dataType = .bool → value = bytesOf "true" ∨ value = bytesOf "false") := by
  rw [confValidateDataValue, if_neg other]
  cases identity.dataType with
  | bool =>
      simp only [forall_const]
      split_ifs with htrue hfalse
      · simp [htrue]
      · simp [hfalse]
      · simp [htrue, hfalse]
  | uint16 | uint32 => cases value.find? DynamicConf.isNotDigit <;> simp
  | noSupport | charStar | list => simp

theorem dataType_eq_bool_iff {dataType : DataType} (listed : field.isListedAs dataType = true) :
    dataType = .bool ↔ ∃ flag, field = .bool flag := by
  cases field with
  | bool flag =>
      refine iff_of_true ?_ ⟨flag, rfl⟩
      cases dataType <;> first | rfl | cases listed
  | uint16 name =>
      refine iff_of_false ?_ nofun
      rintro rfl
      cases name <;> cases listed
  | channels name =>
      refine iff_of_false ?_ nofun
      rintro rfl
      cases name <;> cases listed
  | uint32 _ | enum _ | text _ | protocols =>
      refine iff_of_false ?_ nofun
      rintro rfl
      cases listed

theorem validate_eq_none_iff (listed : identity ∈ DynamicConf.identities build)
    (target : fieldOf identity.number = some field) :
    confValidateDataValue identity value = none ↔ field.Accepts value := by
  have hmode := fieldOf_inputMode target
  rcases isListedAs_of_mem_identities listed with ⟨hnone, -⟩ | ⟨same, hsame, htype⟩
  · rw [hnone] at target
    cases target
  rw [target] at hsame
  cases hsame
  by_cases hfirst : identity.number = .inputMode
  · rw [hmode.mp hfirst, confValidateDataValue, if_pos hfirst, Field.Accepts]
    simp only [DynamicConf.confParseInputMode, EnumField.parse]
    split_ifs <;> simp
  · have hother : field ≠ .enum .inputMode := fun same => hfirst (hmode.mpr same)
    rw [validate_eq_none_of_ne hfirst, dataType_eq_bool_iff htype]
    cases field with
    | bool flag => simp [Field.Accepts]
    | enum name => cases name <;> first | exact absurd rfl hother | simp [Field.Accepts]
    | uint16 _ | uint32 _ | text _ | channels _ | protocols => simp [Field.Accepts]

/-! ## What is written -/

/-- Only switches and directories are in a block that may be missing. -/
theorem reaches_of_fieldOf {number : ConfigIdentity} (target : fieldOf number = some field) :
    (∃ flag, field = .bool flag) ∨ (∃ name, field = .text name) ∨ conf.reaches field = true := by
  have hall : (fieldOf number).all (fun field => match field with
      | .bool _ | .text _ => true
      | field => field.block.isNone) = true := by
    cases number <;> rfl
  rw [target] at hall
  cases field with
  | bool flag => exact .inl ⟨flag, rfl⟩
  | text name => exact .inr (.inl ⟨name, rfl⟩)
  | channels name => cases name <;> first | exact .inr (.inr rfl) | cases hall
  | uint16 _ | uint32 _ | enum _ | protocols => exact .inr (.inr rfl)

/-- A value that is accepted means what is written of it, into a field that is there. -/
def Field.WritesMeant (confuse : Confuse) (conf : Conf) (value : List UInt8) (field : Field) :
    Prop :=
  field.Accepts value → conf.reaches field = true ∧ ∃ content result,
    field.denotes confuse value = some content ∧
      conf.write confuse field value = some result ∧ result.cell field = content

/-- A value is stored faithfully when it is refused, or when it means what is written into
a field that is there. -/
theorem faithful_iff_write (listed : identity ∈ DynamicConf.identities build)
    (target : fieldOf identity.number = some field) :
    Faithful confuse conf identity field value ↔
      field.WritesMeant confuse conf value := by
  have haccepts := @validate_eq_none_iff build identity field value listed target
  have heffect := @Conf.overrideElementByIdent_map_snd confuse conf value build identity listed
  rw [target] at heffect
  constructor
  · intro hfaithful hvalue
    rcases hfaithful.stored (haccepts.mpr hvalue) with
      ⟨changed, result, content, hoverride, hdenotes, hreached, hcell, -, hblock⟩
    have hreaches : conf.reaches field = true := by
      rw [Conf.reaches, ← hblock]
      exact hreached
    rw [hoverride, Option.map_some] at heffect
    simp only [hreaches, if_true] at heffect
    exact ⟨hreaches, content, result, hdenotes, heffect.symm, hcell⟩
  · intro hwrites
    constructor
    · intro hvalid
      rcases hwrites (haccepts.mp hvalid) with
        ⟨hreaches, content, result, hdenotes, hwritten, hcell⟩
      simp only [hreaches, if_true, hwritten] at heffect
      rcases Option.map_eq_some_iff.mp heffect with ⟨⟨changed, same⟩, hoverride, rfl⟩
      rcases Conf.write_frame hwritten with ⟨hframe, hblock⟩
      refine ⟨changed, same, content, hoverride, hdenotes, ?_, hcell, hframe, hblock⟩
      rw [Conf.reaches, hblock]
      exact hreaches
    · intro hdenotes hvalid
      rcases hwrites (haccepts.mp hvalid) with ⟨-, content, result, hsome, -⟩
      rw [hdenotes] at hsome
      cases hsome

/-! ## The condition for each kind of field -/

theorem strtol_of_readDecimal {n : Nat} (read : readDecimal value = some n) (fits : n < 2 ^ 32) :
    strtol value = n := by
  rw [strtol, atoi_of_readDecimal read]
  omega

theorem intVal_of_readDecimal {n : Nat} (read : readDecimal value = some n) (fits : n < 2 ^ 32) :
    intVal value = UInt32.ofNat n := by
  rw [intVal, strtol_of_readDecimal read fits, UInt32.ofInt]
  congr 1
  omega

theorem intVal_toUInt16 {n : Nat} (read : readDecimal value = some n) (fits : n < 2 ^ 16) :
    (intVal value).toUInt16 = UInt16.ofNat n := by
  rw [intVal, toUInt16_ofInt, strtol_of_readDecimal read (by omega), UInt16.ofInt]
  congr 1
  omega

theorem denotes_uint16_iff {name : Uint16Field} {content : Cell} :
    Field.denotes confuse value (.uint16 name) = some content ↔
      ∃ n, readDecimal value = some n ∧ n < 2 ^ 16 ∧ .uint16 (UInt16.ofNat n) = content := by
  simp [Field.denotes, Option.map_eq_some_iff, Option.filter_eq_some_iff, and_assoc]

theorem denotes_uint32_iff {name : Uint32Field} {content : Cell} :
    Field.denotes confuse value (.uint32 name) = some content ↔
      ∃ n, readDecimal value = some n ∧ n < 2 ^ 32 ∧ .uint32 (UInt32.ofNat n) = content := by
  simp [Field.denotes, Option.map_eq_some_iff, Option.filter_eq_some_iff, and_assoc]

/-- When only the low half of a number is replaced by 0, the number is small exactly when
the high half was 0 before. -/
theorem high_half_eq_iff {old number : UInt32} (small : number.toUInt16.toUInt32 = number) :
    old - old.toUInt16.toUInt32 + (0 : UInt32).toUInt16.toUInt32 = number ↔
      number = 0 ∧ old < 2 ^ 16 := by
  have hnumber : number.toNat < 2 ^ 16 := by
    rw [← small, UInt16.toNat_toUInt32]
    exact UInt16.toNat_lt _
  have hold := old.toNat_lt
  have hlow : old.toUInt16.toUInt32.toNat = old.toNat % 2 ^ 16 := by
    rw [UInt16.toNat_toUInt32, UInt32.toNat_toUInt16]
  have hhigh : (old - old.toUInt16.toUInt32 + (0 : UInt32).toUInt16.toUInt32).toNat =
      old.toNat - old.toNat % 2 ^ 16 := by
    rw [show (0 : UInt32).toUInt16.toUInt32 = 0 from rfl, UInt32.add_zero, UInt32.toNat_sub_of_le,
      hlow]
    rw [UInt32.le_iff_toNat_le, hlow]
    exact Nat.mod_le _ _
  rw [← UInt32.toNat_inj, hhigh, ← UInt32.toNat_inj, UInt32.lt_iff_toNat_lt]
  change _ ↔ number.toNat = 0 ∧ old.toNat < 65536
  omega

/-- The two enumerations that are written as numbers. -/
theorem write_number_iff {name : EnumField}
    (asNumber : name = .outputsFormat ∨ name = .socketType) :
    (∃ content result, Field.denotes confuse value (.enum name) = some content ∧
        conf.write confuse (.enum name) value = some result ∧
        result.cell (.enum name) = content) ↔
      name.parse value = some 0 ∧ conf.enum name < 2 ^ 16 := by
  have hwrite : conf.write confuse (.enum name) value =
      some (conf.setEnum name (conf.enum name - (conf.enum name).toUInt16.toUInt32 +
        (intVal value).toUInt16.toUInt32)) := by
    rcases asNumber with rfl | rfl <;> rfl
  rw [hwrite]
  cases hparse : name.parse value with
  | none => simp [Field.denotes, hparse]
  | some number =>
      rw [intVal_eq_zero_of_parse hparse asNumber]
      simp only [Field.denotes, hparse, Option.map_some, Option.some.injEq, exists_and_left,
        exists_eq_left', Conf.setEnum_cell, Cell.enum.injEq]
      exact high_half_eq_iff (low_half_of_parse hparse)

/-- The two enumerations that are read by their names. -/
theorem write_name_iff {name : EnumField} (asName : name = .inputMode ∨ name = .sessionRttBase) :
    (∃ content result, Field.denotes confuse value (.enum name) = some content ∧
        conf.write confuse (.enum name) value = some result ∧
        result.cell (.enum name) = content) ↔ (name.parse value).isSome := by
  have hwrite : conf.write confuse (.enum name) value = some (conf.overrideEnum name value).2 := by
    rcases asName with rfl | rfl <;> rfl
  rw [hwrite, Conf.overrideEnum]
  cases hparse : name.parse value with
  | none => simp [Field.denotes, hparse]
  | some number => simp [Field.denotes, hparse]

theorem parse_outputsFormat_eq_zero (given : value ≠ []) :
    EnumField.parse .outputsFormat value = some 0 ↔ equalIgnoringCase value "CSV" = true := by
  rw [EnumField.parse]
  split_ifs with hcsv hjson
  · exact iff_of_true rfl (hcsv.resolve_left given)
  · exact iff_of_false (by decide) fun hyes => hcsv (.inr hyes)
  · exact iff_of_false (by simp) fun hyes => hcsv (.inr hyes)

theorem parse_socketType_eq_zero :
    EnumField.parse .socketType value = some 0 ↔ value = bytesOf "BOTH" := by
  rw [EnumField.parse]
  split_ifs with hunix hinternet hboth
  · exact iff_of_false (by decide) (by rw [hunix]; decide)
  · exact iff_of_false (by decide) (by rw [hinternet]; decide)
  · exact iff_of_true rfl hboth
  · exact iff_of_false (by simp) hboth

/-- A word that is accepted for a switch means what is read of it. -/
theorem denotes_bool {flag : BoolField} (accepted : Field.Accepts value (.bool flag)) :
    Field.denotes confuse value (.bool flag) = some (.bool (parseBool value)) := by
  rcases accepted with rfl | rfl <;> rfl

theorem denotes_channels_iff {name : ChannelField} {content : Cell} :
    Field.denotes confuse value (.channels name) = some content ↔
      ∃ names, confuse.getList value = some names ∧ names.all isChannelName = true ∧
        .channels (parseOutputChannel names) = content := by
  simp [Field.denotes, Option.map_eq_some_iff, Option.filter_eq_some_iff, and_assoc]

theorem writesMeant_bool_iff (flag : BoolField) :
    Field.WritesMeant confuse conf value (.bool flag) ↔
      Field.StoredWhen confuse conf value (.bool flag) := by
  constructor
  · intro hwrites haccepted
    exact (hwrites haccepted).1
  · intro hreaches haccepted
    exact ⟨hreaches haccepted, _, _, denotes_bool haccepted, rfl, Conf.setBool_cell ..⟩

theorem writesMeant_uint16_iff (name : Uint16Field) :
    Field.WritesMeant confuse conf value (.uint16 name) ↔
      Field.StoredWhen confuse conf value (.uint16 name) := by
  rcases @write_uint16_cell confuse conf value name with ⟨result, hwritten, hcell⟩
  constructor
  · intro hwrites
    rcases (hwrites trivial).2 with ⟨content, _, hdenotes, -⟩
    rcases denotes_uint16_iff.mp hdenotes with ⟨n, hread, hfits, -⟩
    exact ⟨n, hread, hfits⟩
  · rintro ⟨n, hread, hfits⟩ -
    refine ⟨rfl, _, result, denotes_uint16_iff.mpr ⟨n, hread, hfits, rfl⟩, hwritten, ?_⟩
    rw [hcell, intVal_toUInt16 hread hfits]

theorem writesMeant_uint32_iff (name : Uint32Field) :
    Field.WritesMeant confuse conf value (.uint32 name) ↔
      Field.StoredWhen confuse conf value (.uint32 name) := by
  constructor
  · intro hwrites
    rcases (hwrites trivial).2 with ⟨content, _, hdenotes, -⟩
    rcases denotes_uint32_iff.mp hdenotes with ⟨n, hread, hfits, -⟩
    exact ⟨n, hread, hfits⟩
  · rintro ⟨n, hread, hfits⟩ -
    refine ⟨rfl, _, _, denotes_uint32_iff.mpr ⟨n, hread, hfits, rfl⟩, rfl, ?_⟩
    rw [Conf.setUint32_cell, intVal_of_readDecimal hread hfits]

theorem writesMeant_enum_iff (given : value ≠ []) (name : EnumField) :
    Field.WritesMeant confuse conf value (.enum name) ↔
      Field.StoredWhen confuse conf value (.enum name) := by
  have hreaches : conf.reaches (.enum name) = true := rfl
  cases name with
  | inputMode =>
      refine iff_of_true ?_ trivial
      intro hname
      exact ⟨hreaches, (write_name_iff (.inl rfl)).mpr hname⟩
  | sessionRttBase =>
      simp only [Field.WritesMeant, Field.Accepts, forall_const, hreaches, true_and]
      exact write_name_iff (.inr rfl)
  | outputsFormat =>
      simp only [Field.WritesMeant, Field.Accepts, forall_const, hreaches, true_and]
      rw [write_number_iff (.inl rfl), parse_outputsFormat_eq_zero given]
      rfl
  | socketType =>
      simp only [Field.WritesMeant, Field.Accepts, forall_const, hreaches, true_and]
      rw [write_number_iff (.inr rfl), parse_socketType_eq_zero]
      rfl

theorem writesMeant_text_iff (name : TextField) :
    Field.WritesMeant confuse conf value (.text name) ↔
      Field.StoredWhen confuse conf value (.text name) := by
  constructor
  · intro hwrites
    rcases hwrites trivial with ⟨hreaches, content, result, -, hwritten, -⟩
    refine ⟨hreaches, ?_⟩
    by_contra hnull
    rw [Conf.write, if_neg hnull] at hwritten
    cases hwritten
  · rintro ⟨hreaches, hset⟩ -
    rcases @write_text_cell confuse conf value name hset with ⟨result, hwritten, hcell⟩
    exact ⟨hreaches, _, result, rfl, hwritten, hcell⟩

theorem writesMeant_channels_iff (name : ChannelField) {number : ConfigIdentity}
    (target : fieldOf number = some (.channels name)) :
    Field.WritesMeant confuse conf value (.channels name) ↔
      Field.StoredWhen confuse conf value (.channels name) := by
  by_cases hcpuMem : name = .cpuMem
  · rw [hcpuMem]
    refine iff_of_false ?_ id
    intro hwrites
    rcases (hwrites trivial).2 with ⟨content, result, -, hwritten, -⟩
    cases hwritten
  · have hstored : Field.StoredWhen confuse conf value (.channels name) =
        ∃ names, confuse.getList value = some names ∧ names.all isChannelName = true := by
      cases name <;> first | rfl | exact absurd rfl hcpuMem
    rw [hstored]
    constructor
    · intro hwrites
      rcases (hwrites trivial).2 with ⟨content, _, hdenotes, -⟩
      rcases denotes_channels_iff.mp hdenotes with ⟨names, hlist, hknown, -⟩
      exact ⟨names, hlist, hknown⟩
    · rintro ⟨names, hlist, hknown⟩ -
      rcases reaches_of_fieldOf target with ⟨_, hbool⟩ | ⟨_, htext⟩ | hreaches
      · cases hbool
      · cases htext
      refine ⟨hreaches, _, _, denotes_channels_iff.mpr ⟨names, hlist, hknown, rfl⟩,
        Conf.write_channels_of_ne hcpuMem, ?_⟩
      rw [Conf.setChannels_cell, confParseOutputChannel, hlist]

theorem writesMeant_protocols_iff :
    Field.WritesMeant confuse conf value .protocols ↔
      Field.StoredWhen confuse conf value .protocols := by
  have hdenotes : ∀ content, Field.denotes confuse value .protocols = some content ↔
      ∃ names, confuse.getList value = some names ∧ names.length < 2 ^ 16 ∧
        .protocols names = content := by
    intro content
    simp [Field.denotes, Option.map_eq_some_iff, Option.filter_eq_some_iff, and_assoc]
  constructor
  · intro hwrites
    rcases (hwrites trivial).2 with ⟨content, result, hmeant, hwritten, hcell⟩
    cases hwritten
    rcases (hdenotes content).mp hmeant with ⟨names, hlist, hfits, rfl⟩
    cases hcell
    exact ⟨hlist, hfits⟩
  · rintro ⟨hlist, hfits⟩ -
    exact ⟨rfl, _, conf, (hdenotes _).mpr ⟨_, hlist, hfits, rfl⟩, rfl, rfl⟩

/-- What is written is what is meant, exactly under the condition on the field. -/
theorem writesMeant_iff_storedWhen (given : value ≠ []) {number : ConfigIdentity}
    (target : fieldOf number = some field) :
    field.WritesMeant confuse conf value ↔ field.StoredWhen confuse conf value := by
  cases field with
  | bool flag => exact writesMeant_bool_iff flag
  | uint16 name => exact writesMeant_uint16_iff name
  | uint32 name => exact writesMeant_uint32_iff name
  | enum name => exact writesMeant_enum_iff given name
  | text name => exact writesMeant_text_iff name
  | channels name => exact writesMeant_channels_iff name target
  | protocols => exact writesMeant_protocols_iff

/-- For every parameter that is supported there is a field, and for every value that is not
empty the check and the override together are faithful exactly under the condition on this
field. -/
theorem faithful_iff_storedWhen {build : DynamicConf.Build} {identity : Identity}
    (listed : identity ∈ DynamicConf.identities build)
    (supported : identity.dataType ≠ .noSupport) :
    ∃ field, fieldOf identity.number = some field ∧
      ∀ (confuse : Confuse) (conf : Conf) (value : List UInt8), value ≠ [] →
        (Faithful confuse conf identity field value ↔ field.StoredWhen confuse conf value) := by
  rcases isListedAs_of_mem_identities listed with ⟨-, hnone⟩ | ⟨field, hfield, -⟩
  · exact absurd hnone supported
  refine ⟨field, hfield, ?_⟩
  intro confuse conf value given
  rw [faithful_iff_write listed hfield, writesMeant_iff_storedWhen given hfield]

/-- The parameter `probe-id`. -/
def probeIdIdentity : Identity := ⟨1, .probeId, .uint32, bytesOf "probe-id"⟩

/-- A number is stored. -/
theorem faithful_probeId :
    Faithful plainConfuse (confLoadFromFile emptyFile 0) probeIdIdentity (.uint32 .probeId)
      (bytesOf "17") := by
  have hlisted : probeIdIdentity ∈ DynamicConf.identities fun _ => true := by decide
  rcases faithful_iff_storedWhen hlisted nofun with ⟨field, hfield, hiff⟩
  cases hfield
  exact (hiff _ _ _ (by decide)).mpr ⟨17, by decide, by decide⟩

/-- A word is accepted as the number of the probe, and 0 is stored. -/
theorem not_faithful_probeId :
    ¬Faithful plainConfuse (confLoadFromFile emptyFile 0) probeIdIdentity (.uint32 .probeId)
      (bytesOf "abc") := by
  intro hfaithful
  exact hfaithful.refused (by decide) (by decide)

end MmtProbe.Configure

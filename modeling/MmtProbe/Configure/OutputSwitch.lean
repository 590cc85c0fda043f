/-
# The global output switch

Whether the probe has an output at all is computed when the file is loaded: one of the
five output channels is enabled.  Overrides write the switch of one channel and do not
compute the global one again.  An override leaves the two in agreement exactly when it
does not change the channel, or when another channel is enabled.
-/

import MmtProbe.Configure.Override
import MmtProbe.Math.Machine
import Mathlib.Tactic.FinCases

namespace MmtProbe.Configure

open MmtProbe.Math
open MmtProbe.DynamicConf (ConfigIdentity Identity BuildModule)

/-! ## Outputs -/

/-- The switches of the output channels. -/
def outputChannels : List BoolField :=
  [.fileIsEnable, .mongodbIsEnable, .redisIsEnable, .kafkaIsEnable, .socketIsEnable]

/-- At least one output channel is enabled. -/
def Conf.SomeChannel (conf : Conf) : Prop := ∃ field ∈ outputChannels, conf.bool field = true

/-- What `output_alloc_init` makes: the description of the output, and which of its
channels are opened. -/
structure OutputHandle where
  index : UInt16
  probeId : UInt32
  inputSrc : Option (List UInt8)
  hasMutex : Bool
  file : Bool
  redis : Bool
  kafka : Bool
  mongodb : Bool
  socket : Bool
deriving DecidableEq, Repr

/-- `output_alloc_init`: a channel is opened when it is compiled in and enabled. -/
def outputAllocInit (build : DynamicConf.Build) (outputId : UInt16) (conf : Conf) (probeId : UInt32)
    (inputSrc : Option (List UInt8)) (isMultiThreads : Bool) : Option OutputHandle :=
  if conf.bool .outputsIsEnable then
    some {
      index := outputId
      probeId
      inputSrc
      hasMutex := isMultiThreads
      file := conf.bool .fileIsEnable
      redis := build .redis && conf.bool .redisIsEnable
      kafka := build .kafka && conf.bool .kafkaIsEnable
      mongodb := build .mongodb && conf.bool .mongodbIsEnable
      socket := build .socket && conf.bool .socketIsEnable }
  else none

/-- The global switch says whether a channel is enabled, so that an output is made
exactly then. -/
def Conf.SwitchConsistent (build : DynamicConf.Build) (conf : Conf) : Prop :=
  (conf.bool .outputsIsEnable = true ↔ conf.SomeChannel) ∧
    ∀ outputId probeId inputSrc isMultiThreads,
      (outputAllocInit build outputId conf probeId inputSrc isMultiThreads).isSome ↔
        conf.SomeChannel

theorem Conf.switchConsistent_iff {build : DynamicConf.Build} {conf : Conf} :
    conf.SwitchConsistent build ↔ (conf.bool .outputsIsEnable = true ↔ conf.SomeChannel) := by
  constructor
  · intro consistent
    exact consistent.1
  · intro hswitch
    refine ⟨hswitch, ?_⟩
    intro outputId probeId inputSrc isMultiThreads
    rw [← hswitch, outputAllocInit]
    split_ifs with henable <;> simp [henable]

/-- A file is loaded with a switch that agrees with the channels. -/
theorem switchConsistent_load (build : DynamicConf.Build) {confuse : Confuse}
    (file : CfgFile confuse) (padding : UInt16) :
    (confLoadFromFile file padding).SwitchConsistent build := by
  rw [Conf.switchConsistent_iff]
  simp only [Conf.SomeChannel, outputChannels, List.mem_cons, List.not_mem_nil, or_false,
    exists_eq_or_imp, exists_eq_left]
  simp only [confLoadFromFile, CfgFile.someOutput, Bool.or_eq_true, or_assoc]

/-! ## Overrides -/

/-- A call of `conf_override_element` or of `conf_override_element_by_id`. -/
inductive Override where
  | byName (ident value : List UInt8)
  | byId (identVal : Nat) (value : List UInt8)
deriving DecidableEq, Repr

namespace Override

def value : Override → List UInt8
  | byName _ value | byId _ value => value

/-- The row of the table that is found. -/
def identity (build : DynamicConf.Build) : Override → Option Identity
  | byName ident _ => DynamicConf.confGetIdentityFromString build ident
  | byId identVal _ => DynamicConf.confGetIdentityFromId build identVal

/-- The configuration after the call. -/
def apply (build : DynamicConf.Build) (confuse : Confuse) (conf : Conf) :
    Override → Option Conf
  | byName ident value => (conf.overrideElement confuse build ident value).map Prod.snd
  | byId identVal value => (conf.overrideElementById confuse build identVal value).map Prod.snd

variable {build : DynamicConf.Build} {confuse : Confuse} {conf : Conf}

theorem mem_identities {override : Override} {identity : Identity}
    (found : override.identity build = some identity) :
    identity ∈ DynamicConf.identities build := by
  cases override with
  | byName ident value => exact (DynamicConf.confGetIdentityFromString_eq_some found).1
  | byId identVal value => exact List.mem_of_getElem? found

/-- Both calls do the same with the row. -/
theorem apply_eq (override : Override) :
    override.apply build confuse conf =
      match override.identity build with
      | none => some conf
      | some identity =>
          (conf.overrideElementByIdent confuse identity override.value).map Prod.snd := by
  cases override with
  | byName ident value =>
      simp only [apply, identity, Conf.overrideElement]
      cases DynamicConf.confGetIdentityFromString build ident with
      | none => rfl
      | some identity => rw [Option.map_map]; rfl
  | byId identVal value =>
      simp only [apply, identity, Conf.overrideElementById]
      cases DynamicConf.confGetIdentityFromId build identVal <;> rfl

end Override

/-- The probe with a loaded file, under overrides. -/
def overrideMachine (build : DynamicConf.Build) (confuse : Confuse) : Machine Conf Override where
  init conf := ∃ (file : CfgFile confuse) (padding : UInt16), conf = confLoadFromFile file padding
  step conf override := override.apply build confuse conf

/-- An override of the switch of a channel leaves it as it is, or another channel is
enabled. -/
def KeepsSwitch (build : DynamicConf.Build) (conf : Conf) (override : Override) : Prop :=
  ∀ identity field, override.identity build = some identity →
    fieldOf identity.number = some (.bool field) → field ∈ outputChannels →
      conf.bool field = parseBool override.value ∨
        ∃ other ∈ outputChannels, other ≠ field ∧ conf.bool other = true

/-- No output channel stands in a block that may be missing. -/
theorem reaches_of_mem_outputChannels (conf : Conf) {field : BoolField}
    (channel : field ∈ outputChannels) : conf.reaches (.bool field) = true := by
  fin_cases channel <;> rfl

/-- No parameter of the table sets the global switch. -/
theorem fieldOf_ne_outputsIsEnable (number : ConfigIdentity) :
    fieldOf number ≠ some (.bool .outputsIsEnable) := by
  cases number <;> decide

/-- Another channel, or the same one, after the switch of one channel was written. -/
theorem someChannel_update_iff (bools : BoolField → Bool) {field : BoolField} (flag : Bool)
    (channel : field ∈ outputChannels) :
    (∃ other ∈ outputChannels, Function.update bools field flag other = true) ↔
      flag = true ∨ ∃ other ∈ outputChannels, other ≠ field ∧ bools other = true := by
  constructor
  · rintro ⟨other, hother, henabled⟩
    by_cases hsame : other = field
    · rw [hsame, Function.update_self] at henabled
      exact .inl henabled
    · rw [Function.update_of_ne hsame] at henabled
      exact .inr ⟨other, hother, hsame, henabled⟩
  · rintro (hflag | ⟨other, hother, hne, henabled⟩)
    · exact ⟨field, channel, by rw [Function.update_self, hflag]⟩
    · exact ⟨other, hother, by rw [Function.update_of_ne hne, henabled]⟩

/-- One channel is enabled, or another one. -/
theorem Conf.someChannel_iff (conf : Conf) {field : BoolField}
    (channel : field ∈ outputChannels) :
    conf.SomeChannel ↔ conf.bool field = true ∨
      ∃ other ∈ outputChannels, other ≠ field ∧ conf.bool other = true := by
  have hupdate := someChannel_update_iff conf.bool (conf.bool field) channel
  rwa [Function.update_eq_self] at hupdate

theorem or_iff_or_iff (flag other : Bool) (rest : Prop) :
    (flag = true ∨ rest ↔ other = true ∨ rest) ↔ flag = other ∨ rest := by
  by_cases hrest : rest
  · simp only [hrest, or_true]
  · simp only [hrest, or_false]
    exact Bool.eq_iff_iff.symm

/-- An override keeps a consistent switch consistent exactly under the condition. -/
theorem switchConsistent_apply_iff {build : DynamicConf.Build} {confuse : Confuse}
    (conf : Conf) (override : Override) (target : Conf) (consistent : conf.SwitchConsistent build)
    (applied : override.apply build confuse conf = some target) :
    target.SwitchConsistent build ↔ KeepsSwitch build conf override := by
  rw [Conf.switchConsistent_iff] at consistent ⊢
  rw [Override.apply_eq] at applied
  cases hidentity : override.identity build with
  | none =>
      rw [hidentity] at applied
      cases applied
      refine iff_of_true consistent ?_
      intro identity field hfound
      rw [hidentity] at hfound
      cases hfound
  | some identity =>
      simp only [hidentity] at applied
      rcases Conf.overrideElementByIdent_bool (Override.mem_identities hidentity) applied with
        ⟨hbool, hother⟩ | ⟨field, hfield, hbool⟩
      · rw [Conf.SomeChannel, hbool]
        refine iff_of_true consistent ?_
        intro identity' field hfound hfield hchannel
        rw [hidentity] at hfound
        cases hfound
        have hmissing := hother field hfield
        rw [reaches_of_mem_outputChannels conf hchannel] at hmissing
        cases hmissing
      · have hswitch : target.bool .outputsIsEnable = conf.bool .outputsIsEnable := by
          rw [hbool, Function.update_of_ne]
          rintro rfl
          exact fieldOf_ne_outputsIsEnable _ hfield
        rw [hswitch, consistent]
        by_cases hchannel : field ∈ outputChannels
        · have hkeeps : KeepsSwitch build conf override ↔
              (conf.bool field = parseBool override.value ∨
                ∃ other ∈ outputChannels, other ≠ field ∧ conf.bool other = true) := by
            constructor
            · intro keeps
              exact keeps identity field hidentity hfield hchannel
            · intro kept identity' field' hfound hfield' _
              rw [hidentity] at hfound
              cases hfound
              rw [hfield] at hfield'
              cases hfield'
              exact kept
          have hafter : target.SomeChannel ↔ parseBool override.value = true ∨
              ∃ other ∈ outputChannels, other ≠ field ∧ conf.bool other = true := by
            rw [Conf.SomeChannel, hbool]
            exact someChannel_update_iff _ _ hchannel
          rw [hkeeps, Conf.someChannel_iff conf hchannel, hafter]
          exact or_iff_or_iff _ _ _
        · have hsame : target.SomeChannel ↔ conf.SomeChannel := by
            unfold Conf.SomeChannel
            refine exists_congr fun other => and_congr_right fun hother => ?_
            rw [hbool, Function.update_of_ne]
            rintro rfl
            exact hchannel hother
          refine iff_of_true hsame.symm ?_
          intro identity' field' hfound hfield' hchannel'
          rw [hidentity] at hfound
          cases hfound
          rw [hfield] at hfield'
          cases hfield'
          exact absurd hchannel' hchannel

/-- After a file was loaded, the global switch agrees with the channels in all the
configurations of a sequence of overrides exactly when each of them keeps it. -/
theorem overrides_switchConsistent_iff (build : DynamicConf.Build) {confuse : Confuse}
    (file : CfgFile confuse) (padding : UInt16) (overrides : List Override) :
    (overrideMachine build confuse).Always (Conf.SwitchConsistent build) overrides
        (confLoadFromFile file padding) ↔
      (overrideMachine build confuse).Meets (KeepsSwitch build) overrides
        (confLoadFromFile file padding) :=
  Machine.always_iff_meets switchConsistent_apply_iff (switchConsistent_load build file padding)
    overrides

/-- A file without settings has no output.  The file output is then enabled by name, and
the probe still has no output. -/
theorem overrides_not_switchConsistent :
    ¬ (overrideMachine (fun _ => true) plainConfuse).Always
      (Conf.SwitchConsistent fun _ => true)
      [.byName (bytesOf "file-output.enable") (bytesOf "true")] (confLoadFromFile emptyFile 0) := by
  intro always
  have hconsistent := (always.2 _ rfl).1
  have henabled := hconsistent.mpr ⟨.fileIsEnable, List.mem_cons_self, rfl⟩
  exact absurd henabled (by decide)

end MmtProbe.Configure

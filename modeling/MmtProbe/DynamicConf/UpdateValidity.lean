/-
# Updates of a validated configuration

The configuration is validated before the probe starts.  Afterwards the monitor applies
the parameters of update commands one by one with `conf_override_element_by_id`, and does
not validate the result.  A run stays inside the valid configurations as long as each
parameter gets a value that the other fields allow.
-/

import MmtProbe.Configure.ValidOverride
import MmtProbe.DynamicConf.ReceiveMessage
import MmtProbe.Math.Machine

namespace MmtProbe.DynamicConf

open MmtProbe.Math
open MmtProbe.Configure (Conf Confuse validationBuild)

/-! ## The configuration under updates -/

/-- The loop of `_receive_message` over the parameters: one round is one call of
`conf_override_element_by_id`. -/
def paramMachine (build : Build) (confuse : Confuse) (parameter : List UInt8) :
    Machine Conf CommandParam where
  init _ := True
  step conf param :=
    (loadString parameter param.data).toOption.bind fun value =>
      (conf.overrideElementById confuse build param.ident value).map Prod.snd

/-- What `parse_command_parameters` makes of a published command: the packed parameters
and their list. -/
def updateParams (build : Build) (message : List UInt8) :
    Option (List UInt8 × List CommandParam) := do
  let parameterLength ← (load16 message 2).toOption
  let parameter := message.drop 4
  let params ← (parseCommandParameters parameter parameterLength
    (confGetIdentities build)).toOption
  return (parameter, params)

/-- What `_receive_message` does to the configuration. -/
def receiveMessageConf (build : Build) (confuse : Confuse) (message : List UInt8) (conf : Conf) :
    Option Conf := do
  let id ← (load16 message 0).toOption
  if id = 3 then
    let (parameter, params) ← updateParams build message
    (paramMachine build confuse parameter).run params conf
  else return conf

/-- The configuration of the monitor while the control server receives commands, from a
configuration that `conf_validate` has accepted. -/
def updateMachine (build : Build) (confuse : Confuse) (dpdkCapture qos : Bool) :
    Machine Conf (List UInt8) where
  init conf := ∃ given : Conf, given.validate (validationBuild build dpdkCapture qos) =
    some (0, conf)
  step conf received :=
    match processing build received with
    | .ok (.publish command) => receiveMessageConf build confuse command.message conf
    | .ok _ => some conf
    | .error _ => none

/-- A parameter gets a value that the other fields of the configuration allow. -/
def ParamKeepsValid (build : Build) (dpdkCapture qos : Bool) (parameter : List UInt8)
    (conf : Conf) (param : CommandParam) : Prop :=
  ∀ identity value, confGetIdentityFromId build param.ident = some identity →
    loadString parameter param.data = .ok value →
      conf.KeepsValidBy (validationBuild build dpdkCapture qos) identity value

/-- Every parameter of a command does, when its turn comes. -/
def CommandKeepsValid (build : Build) (confuse : Confuse) (dpdkCapture qos : Bool) (conf : Conf)
    (received : List UInt8) : Prop :=
  ∀ command parameter params, processing build received = .ok (.publish command) →
    updateParams build command.message = some (parameter, params) →
      (paramMachine build confuse parameter).Meets
        (ParamKeepsValid build dpdkCapture qos parameter) params conf

variable {build : Build} {confuse : Confuse} {dpdkCapture qos : Bool} {conf target : Conf}

/-! ## The switch of the dynamic configuration

The monitor loop reads `dynamic-config.enable` only, and its model follows that field
alone.  It is the field of the whole configuration. -/

theorem toOption_eq_some_iff {ε α : Type} {result : Except ε α} {value : α} :
    result.toOption = some value ↔ result = .ok value := by
  cases result with
  | error fault => exact iff_of_false nofun nofun
  | ok text => simp [Except.toOption]

/-- Only one parameter sets the switch. -/
theorem fieldOf_eq_dynamicConfIsEnable_iff (number : ConfigIdentity) :
    Configure.fieldOf number = some (.bool .dynamicConfIsEnable) ↔ number = .dynConfEnable := by
  cases number <;> decide

theorem overrideEnable_eq {parameter : List UInt8} {param : CommandParam}
    (applied : (paramMachine build confuse parameter).step conf param = some target) :
    overrideEnable build parameter (conf.bool .dynamicConfIsEnable) param =
      .ok (target.bool .dynamicConfIsEnable) := by
  rcases Option.bind_eq_some_iff.mp applied with ⟨value, hvalue, hoverride⟩
  rw [toOption_eq_some_iff] at hvalue
  unfold overrideEnable
  unfold Conf.overrideElementById at hoverride
  cases hidentity : confGetIdentityFromId build param.ident with
  | none =>
      rw [hidentity] at hoverride
      cases hoverride
      rfl
  | some identity =>
      rw [hidentity] at hoverride
      simp only [hvalue, ← fieldOf_eq_dynamicConfIsEnable_iff]
      rcases Conf.overrideElementByIdent_bool (List.mem_of_getElem? hidentity) hoverride with
        ⟨hbool, hmissing⟩ | ⟨field, hfield, hbool⟩
      · rw [if_neg, hbool]
        intro hfield
        exact absurd (hmissing _ hfield) (by simp [Conf.reaches, Configure.Field.block])
      · rw [hbool, hfield]
        by_cases hswitch : field = .dynamicConfIsEnable
        · rw [hswitch, if_pos rfl, Function.update_self]
          rfl
        · rw [if_neg (by simpa using hswitch), Function.update_of_ne (Ne.symm hswitch)]

theorem foldlM_overrideEnable_eq {parameter : List UInt8} {params : List CommandParam}
    (ran : (paramMachine build confuse parameter).run params conf = some target) :
    params.foldlM (overrideEnable build parameter) (conf.bool .dynamicConfIsEnable) =
      .ok (target.bool .dynamicConfIsEnable) := by
  induction params generalizing conf with
  | nil =>
      cases ran
      rfl
  | cons param params ih =>
      rw [Machine.run_cons, Option.bind_eq_some_iff] at ran
      rcases ran with ⟨next, happlied, hran⟩
      rw [List.foldlM_cons, overrideEnable_eq happlied, bind_ok]
      exact ih hran

/-- The monitor leaves the switch of the configuration that it leaves. -/
theorem receiveMessage_enable_eq {message : List UInt8} {pid : Int} {answer : Received}
    (handled : receiveMessage build message pid (conf.bool .dynamicConfIsEnable) = .ok answer)
    (applied : receiveMessageConf build confuse message conf = some target) :
    answer.enable = target.bool .dynamicConfIsEnable := by
  unfold receiveMessageConf at applied
  rcases Option.bind_eq_some_iff.mp applied with ⟨id, hid, hconf⟩
  rw [toOption_eq_some_iff] at hid
  simp only [receiveMessage, hid, bind_ok] at handled
  split_ifs at hconf with hupdate
  · rcases Option.bind_eq_some_iff.mp hconf with ⟨⟨parameter, params⟩, hparams, hran⟩
    rcases Option.bind_eq_some_iff.mp hparams with ⟨length, hlength, hlist⟩
    rcases Option.bind_eq_some_iff.mp hlist with ⟨list, hparse, hpair⟩
    cases hpair
    rw [toOption_eq_some_iff] at hlength hparse
    subst hupdate
    rw [if_neg (by decide), if_neg (by decide), if_pos rfl] at handled
    simp only [receiveUpdate, hlength, bind_ok, hparse, foldlM_overrideEnable_eq hran] at handled
    split_ifs at handled <;> (cases handled; rfl)
  · cases hconf
    split_ifs at handled <;> (cases handled; rfl)

/-! ## Valid configurations -/

/-- One parameter keeps a valid configuration valid exactly under the condition. -/
theorem paramMachine_valid_iff (parameter : List UInt8) (conf : Conf) (param : CommandParam)
    (target : Conf) (valid : conf.Valid (validationBuild build dpdkCapture qos))
    (applied : (paramMachine build confuse parameter).step conf param = some target) :
    target.Valid (validationBuild build dpdkCapture qos) ↔
      ParamKeepsValid build dpdkCapture qos parameter conf param := by
  simp only [paramMachine] at applied
  rcases Option.bind_eq_some_iff.mp applied with ⟨value, hvalue, hoverride⟩
  have hload := toOption_eq_some_iff.mp hvalue
  unfold ParamKeepsValid
  unfold Conf.overrideElementById at hoverride
  cases hidentity : confGetIdentityFromId build param.ident with
  | none =>
      rw [hidentity] at hoverride
      cases hoverride
      exact iff_of_true valid fun _ _ => nofun
  | some identity =>
      rw [hidentity] at hoverride
      rw [Conf.overrideElementByIdent_valid_iff valid (List.mem_of_getElem? hidentity) hoverride]
      simp [hload]

/-- A command all of whose parameters meet the condition keeps a valid configuration
valid. -/
theorem updateMachine_valid (valid : conf.Valid (validationBuild build dpdkCapture qos))
    {received : List UInt8} (keeps : CommandKeepsValid build confuse dpdkCapture qos conf received)
    (applied : (updateMachine build confuse dpdkCapture qos).step conf received = some target) :
    target.Valid (validationBuild build dpdkCapture qos) := by
  simp only [updateMachine] at applied
  split at applied
  · next command hcommand =>
      unfold receiveMessageConf at applied
      rcases Option.bind_eq_some_iff.mp applied with ⟨id, -, hreceived⟩
      split_ifs at hreceived with hupdate
      · rcases Option.bind_eq_some_iff.mp hreceived with ⟨⟨parameter, params⟩, hparams, hran⟩
        have hmeets := keeps command parameter params hcommand hparams
        have halways := (Machine.always_iff_meets (paramMachine_valid_iff parameter) valid
          params).mpr hmeets
        exact halways.last hran
      · cases hreceived
        exact valid
  · cases applied
    exact valid
  · cases applied

/-- In every run of commands whose parameters meet the condition, `conf_validate` would
return 0 for the configuration and not change it. -/
theorem updates_keep_valid
    (reached : (updateMachine build confuse dpdkCapture qos).ReachableWhen
      (CommandKeepsValid build confuse dpdkCapture qos) conf) :
    conf.validate (validationBuild build dpdkCapture qos) = some (0, conf) := by
  rw [Conf.validate_eq_some_iff]
  refine reached.invariant (fun conf => conf.Valid (validationBuild build dpdkCapture qos)) ?_ ?_
  · rintro state ⟨given, hgiven⟩
    exact Conf.valid_of_validate hgiven
  · intro state received target valid keeps applied
    exact updateMachine_valid valid keeps applied

/-- The configuration of a file without settings, after its validation. -/
def defaultConf : Conf := (Configure.confLoadFromFile Configure.emptyFile 0).withDefaults

theorem validate_defaultConf :
    (Configure.confLoadFromFile Configure.emptyFile 0).validate
      (validationBuild (fun _ => true) false false) = some (0, defaultConf) :=
  Conf.validate_eq_zero_iff.mpr ⟨rfl, by unfold Conf.HasNoError; decide, rfl⟩

/-- A command that sets one parameter. -/
def setTrue (ident : String) : List UInt8 :=
  bytesOf "update\x7b\n" ++ bytesOf ident ++ bytesOf "=true\n\x7d\x00"

/-- The reports about HTTP are switched on. -/
theorem updates_keep_valid_http :
    ∃ conf, (updateMachine (fun _ => true) Configure.plainConfuse false false).ReachableWhen
        (CommandKeepsValid (fun _ => true) Configure.plainConfuse false false) conf ∧
      conf.bool .sessionIsHttp = true ∧
      conf.validate (validationBuild (fun _ => true) false false) = some (0, conf) := by
  have hprocessing : processing (fun _ => true) (setTrue "session-report.http") =
      .ok (.publish (.update [82, 0, 5, 0, 116, 114, 117, 101, 0])) := by decide +kernel
  have hparams : updateParams (fun _ => true)
      (Command.update [82, 0, 5, 0, 116, 114, 117, 101, 0]).message =
        some ([82, 0, 5, 0, 116, 114, 117, 101, 0], [⟨82, 5, 4⟩]) := by decide +kernel
  have hstep : (updateMachine (fun _ => true) Configure.plainConfuse false false).step defaultConf
      (setTrue "session-report.http") = some (defaultConf.setBool .sessionIsHttp true) := by
    simp only [updateMachine, hprocessing, receiveMessageConf, hparams]
    rfl
  have hkeeps : CommandKeepsValid (fun _ => true) Configure.plainConfuse false false defaultConf
      (setTrue "session-report.http") := by
    intro command parameter params hcommand hlist
    rw [hprocessing] at hcommand
    cases hcommand
    rw [hparams] at hlist
    cases hlist
    intro target _
    refine ⟨?_, trivial⟩
    intro identity value hidentity _ field hfield _
    have hrow : confGetIdentityFromId (fun _ => true) 82 =
        some ⟨82, .sessionReportHttp, .bool, bytesOf "session-report.http"⟩ := by decide +kernel
    rw [hrow] at hidentity
    cases hidentity
    cases hfield
    -- the session reports are off
    intro _ henabled
    exact absurd henabled (by decide)
  have start : (updateMachine (fun _ => true) Configure.plainConfuse false false).ReachableWhen
      (CommandKeepsValid (fun _ => true) Configure.plainConfuse false false) defaultConf :=
    .start ⟨_, validate_defaultConf⟩
  have reached := start.follow _ hkeeps hstep
  exact ⟨_, reached, rfl, updates_keep_valid reached⟩

/-- The behaviour module is switched on without the session reports that it needs. -/
theorem updates_not_valid :
    ∃ conf, (updateMachine (fun _ => true) Configure.plainConfuse false false).Reachable conf ∧
      conf.validate (validationBuild (fun _ => true) false false) ≠ some (0, conf) := by
  have hprocessing : processing (fun _ => true) (setTrue "behaviour.enable") =
      .ok (.publish (.update [58, 0, 5, 0, 116, 114, 117, 101, 0])) := by decide +kernel
  have hparams : updateParams (fun _ => true)
      (Command.update [58, 0, 5, 0, 116, 114, 117, 101, 0]).message =
        some ([58, 0, 5, 0, 116, 114, 117, 101, 0], [⟨58, 5, 4⟩]) := by decide +kernel
  have hstep : (updateMachine (fun _ => true) Configure.plainConfuse false false).step defaultConf
      (setTrue "behaviour.enable") = some (defaultConf.setBool .behaviourIsEnable true) := by
    simp only [updateMachine, hprocessing, receiveMessageConf, hparams]
    rfl
  refine ⟨_, .step (.start ⟨_, validate_defaultConf⟩) hstep, ?_⟩
  rw [ne_eq, Conf.validate_eq_some_iff]
  intro valid
  exact absurd (valid.behaviour rfl) (by decide)

end MmtProbe.DynamicConf

/-
# What the monitor does with a command

`_receive_message` of `dynamic_conf.c` is the callback of the monitor process.
It reads and writes the process number of the processing child through a
pointer, where 0 means "to be created" and -1 "stopped", and applies the
parameters of an update command to the configuration.  Of the configuration only
`dynamic-config.enable` matters to the monitor loop.
-/

import MmtProbe.DynamicConf.Bus
import MmtProbe.DynamicConf.UpdateCommand

namespace MmtProbe.DynamicConf

open MmtProbe.Math

/-- The signals sent to the processing child. -/
inductive Signal where
  | sigint
  | sigres
deriving DecidableEq, Repr

/-- The effect of `_receive_message`. -/
structure Received where
  /-- The returned reply code. -/
  ret : Int
  /-- The number of the processing child afterwards. -/
  pid : Int
  /-- `dynamic-config.enable` afterwards. -/
  enable : Bool
  signal : Option Signal
deriving DecidableEq, Repr

/-- `_parse_bool` -/
def parseBool (value : List UInt8) : Bool := value == bytesOf "true"

/-- `conf_override_element_by_id`, as far as `dynamic-config.enable` is concerned. -/
def overrideEnable (build : Build) (parameter : List UInt8) (enable : Bool)
    (param : CommandParam) : Except Fault Bool :=
  match confGetIdentityFromId build param.ident with
  | none => .ok enable
  | some identity =>
      if identity.number = .dynConfEnable then
        (loadString parameter param.data).map parseBool
      else .ok enable

/-- `dynamic_conf_need_to_restart_to_update`: every parameter but `CONF_ATT__NONE`. -/
def needToRestartToUpdate (ident : Nat) : Bool := ident != 0

/-- The case of an update command in `_receive_message`. -/
def receiveUpdate (build : Build) (message : List UInt8) (pid : Int) (enable : Bool) :
    Except Fault Received := do
  let parameterLength ← load16 message 2
  let parameter := message.drop 4
  let params ← parseCommandParameters parameter parameterLength (confGetIdentities build)
  let enable ← params.foldlM (overrideEnable build parameter) enable
  let isNeedToRestart := params.any fun param => needToRestartToUpdate param.ident
  if 0 < pid ∧ isNeedToRestart then
    return ⟨0, pid, enable, some .sigres⟩
  else if pid < 0 then
    return ⟨0, pid, enable, none⟩
  else
    return ⟨replyDoNothing, pid, enable, none⟩

/-- `_receive_message` of the monitor. -/
def receiveMessage (build : Build) (message : List UInt8) (pid : Int) (enable : Bool) :
    Except Fault Received := do
  let id ← load16 message 0
  if id = 2 then
    return if 0 < pid then ⟨1, pid, enable, none⟩ else ⟨0, 0, enable, none⟩
  else if id = 1 then
    return if pid ≤ 0 then ⟨1, pid, enable, none⟩ else ⟨0, pid, enable, some .sigint⟩
  else if id = 3 then
    receiveUpdate build message pid enable
  else
    return ⟨replyDoNothing, pid, enable, none⟩

/-- The callback leaves the entry of the processing child as it is, or asks for a
child where none runs. Only a running child is told to restart. -/
theorem receiveMessage_eq_ok {build : Build} {message : List UInt8} {pid : Int} {enable : Bool}
    {answer : Received} (handled : receiveMessage build message pid enable = .ok answer) :
    (answer.pid = pid ∨ (answer.pid = 0 ∧ pid ≤ 0)) ∧
      (answer.signal = some .sigres → 0 < pid) := by
  unfold receiveMessage at handled
  obtain ⟨id, -, hid⟩ := bind_eq_ok_iff.mp handled
  split_ifs at hid with hstart hpositive hstop hstopped hupdate
  · cases hid
    exact ⟨.inl rfl, nofun⟩
  · cases hid
    exact ⟨.inr ⟨rfl, by omega⟩, nofun⟩
  · cases hid
    exact ⟨.inl rfl, nofun⟩
  · cases hid
    exact ⟨.inl rfl, nofun⟩
  · unfold receiveUpdate at hid
    obtain ⟨_, -, hparams⟩ := bind_eq_ok_iff.mp hid
    obtain ⟨_, -, henable⟩ := bind_eq_ok_iff.mp hparams
    obtain ⟨_, -, hanswer⟩ := bind_eq_ok_iff.mp henable
    dsimp only at hanswer
    split_ifs at hanswer with hrunning
    · cases hanswer
      exact ⟨.inl rfl, fun _ => hrunning.1⟩
    · cases hanswer
      exact ⟨.inl rfl, nofun⟩
    · cases hanswer
      exact ⟨.inl rfl, nofun⟩
  · cases hid
    exact ⟨.inl rfl, nofun⟩

/-! ## Commands of the control server -/

/-- A command that the control server publishes for some received bytes. -/
def IsServerCommand (build : Build) (command : Command) : Prop :=
  ∃ received : List UInt8, 1 ≤ received.length ∧ received.length ≤ bufferSize ∧
    processing build received = .ok (.publish command)

variable {build : Build} {parameter : List UInt8} {pid : Int} {enable : Bool}

/-- The packed parameters of an accepted command. -/
structure IsPacked (build : Build) (packed : List Param) (parameter : List UInt8) : Prop where
  filled : packed ≠ []
  parameter_eq : parameter = packed.flatMap Param.pack
  fits : ∀ param ∈ packed, param.Fits
  supported : ∀ param ∈ packed, param.identity ∈ identities build ∧
    param.identity.dataType ≠ .noSupport
  length_lt : parameter.length < 2 ^ 16

/-- An accepted text is packed into parameters that are supported and fit. -/
theorem exists_isPacked {text : List UInt8} (short : text.length + 7 ≤ bufferSize)
    (accepted : parseUpdate build text = .ok (.ok parameter)) :
    ∃ packed, IsPacked build packed parameter := by
  obtain hbare | rfl | ⟨skipped, body, rfl, hlast⟩ | rfl | ⟨skipped, line, lines, rfl, hsingle⟩ :=
    text_cases text
  · rw [parseUpdate_bare short hbare] at accepted
    cases accepted
  · rw [parseUpdate_braces] at accepted
    cases accepted
  · have hshort : body.length + 10 ≤ bufferSize := by
      simp only [List.length_cons, List.length_append, List.length_nil] at short
      omega
    rw [parseUpdate_surrounded hshort, if_neg hlast] at accepted
    cases accepted
  · rw [parseUpdate_empty] at accepted
    cases accepted
  · have hshort : (unlines (line :: lines)).length + 10 ≤ bufferSize := by
      simp only [List.length_cons, List.length_append, List.length_nil] at short
      omega
    rw [parseUpdate_lines hsingle hshort] at accepted
    cases hparse : parseLines build (line :: lines) with
    | error reason =>
        rw [hparse] at accepted
        cases accepted
    | ok packed =>
        rw [hparse] at accepted
        cases accepted
        have hpacked := parseLines_eq_ok_iff.mp hparse
        have hlength := length_flatMap_pack_le hpacked
        have htaken := length_unlines_taken_le line lines
        refine ⟨packed, ?_, rfl, forall_fits hpacked hshort, ?_, ?_⟩
        · rintro rfl
          cases hpacked
        · refine forall_mem_right hpacked fun l _ param haccepted => ?_
          exact ⟨(confGetIdentityFromString_eq_some haccepted.2.1).1, haccepted.2.2.1⟩
        · simp only [bufferSize, cmdParamMaxLength] at hshort
          change (packed.flatMap Param.pack).length < 2 ^ 16
          omega

/-- The parameters of a published update command are packed. -/
theorem IsServerCommand.isPacked (published : IsServerCommand build (.update parameter)) :
    ∃ packed, IsPacked build packed parameter := by
  obtain ⟨received, hfilled, hfits, hprocessing⟩ := published
  simp only [processing] at hprocessing
  split_ifs at hprocessing with hls hstart hstop hupdate
  · cases hprocessing
  · cases hprocessing
  · cases hprocessing
  · have hterminate := terminate_eq hfilled hupdate
    have hlength := congrArg List.length hterminate
    simp only [terminate, List.length_set, List.length_append, length_update, List.length_cons,
      List.length_nil] at hlength
    obtain ⟨result, hparse, hresult⟩ := bind_eq_ok_iff.mp hprocessing
    have hcall : parseUpdate build (updateText received) = .ok result := by
      rw [parseUpdate, ← hterminate, length_update]
      have hcount : (terminate received).length - 6 = (updateText received).length + 1 := by
        simp only [terminate, List.length_set]
        omega
      rw [← hcount]
      exact hparse
    cases result with
    | error reason => cases hresult
    | ok packed =>
        cases hresult
        exact exists_isPacked (by omega) hcall
  · cases hprocessing

/-- Only the first row of the table has the number 0, and it is not supported. -/
theorem val_ne_zero {identity : Identity} (listed : identity ∈ identities build)
    (supported : identity.dataType ≠ .noSupport) : identity.val ≠ 0 := by
  obtain ⟨position, hposition, rfl⟩ := List.mem_mapIdx.mp listed
  rintro rfl
  exact supported rfl

/-! ## The effect of each command -/

theorem receiveMessage_start (build : Build) (pid : Int) (enable : Bool) :
    receiveMessage build Command.start.message pid enable =
      .ok (if 0 < pid then ⟨1, pid, enable, none⟩ else ⟨0, 0, enable, none⟩) := rfl

theorem receiveMessage_stop (build : Build) (pid : Int) (enable : Bool) :
    receiveMessage build Command.stop.message pid enable =
      .ok (if pid ≤ 0 then ⟨1, pid, enable, none⟩ else ⟨0, pid, enable, some .sigint⟩) := rfl

/-- A NUL among readable bytes closes a string. -/
theorem exists_loadString {memory bytes : List UInt8} {address count : Nat}
    (loaded : loadBytes memory address count = .ok (bytes ++ [0])) :
    ∃ text, loadString memory address = .ok text := by
  unfold loadBytes at loaded
  split_ifs at loaded with hinside
  have hsplit : memory.drop address = bytes ++ 0 :: memory.drop (address + count) := by
    have := (List.take_append_drop count (memory.drop address)).symm
    rw [Except.ok.inj loaded, List.drop_drop] at this
    simpa using this
  have hmemory : memory = memory.take address ++ (bytes ++ 0 :: memory.drop (address + count)) := by
    rw [← hsplit, List.take_append_drop]
  have hlength : (memory.take address).length = address := by
    rw [List.length_take]
    omega
  have hload := loadString_append (memory.take address) bytes (memory.drop (address + count))
  rw [← hmemory, hlength] at hload
  exact ⟨_, hload⟩

/-- A parameter that was unpacked can be applied. -/
theorem exists_overrideEnable (build : Build) {entry : CommandParam} {param : Param}
    (unpacks : Unpacks parameter entry param) (enable : Bool) :
    ∃ result, overrideEnable build parameter enable entry = .ok result := by
  unfold overrideEnable
  split
  · exact ⟨enable, rfl⟩
  · split_ifs
    · obtain ⟨text, htext⟩ := exists_loadString unpacks.2.2
      exact ⟨parseBool text, by rw [htext]; rfl⟩
    · exact ⟨enable, rfl⟩

theorem exists_foldlM_overrideEnable (build : Build) {packed : List Param}
    {entries : List CommandParam}
    (unpacks : List.Forall₂ (Unpacks parameter) entries packed) (enable : Bool) :
    ∃ result, entries.foldlM (overrideEnable build parameter) enable = .ok result := by
  induction unpacks generalizing enable with
  | nil => exact ⟨enable, rfl⟩
  | cons hunpacks _ ih =>
      obtain ⟨next, hnext⟩ := exists_overrideEnable build hunpacks enable
      rw [List.foldlM_cons, hnext, bind_ok]
      exact ih next

/-- A published update command is applied. It is left to others only when the
processing child is about to be created. -/
theorem receiveMessage_update (published : IsServerCommand build (.update parameter))
    (pid : Int) (enable : Bool) :
    ∃ enable', receiveMessage build (Command.update parameter).message pid enable =
      .ok ⟨if pid = 0 then replyDoNothing else 0, pid, enable',
        if 0 < pid then some .sigres else none⟩ := by
  obtain ⟨packed, hpacked⟩ := published.isPacked
  obtain ⟨entries, hentries, hunpacks⟩ :=
    parseCommandParametersFrom_pack (confGetIdentities build) [] hpacked.fits
  rw [List.nil_append, List.length_nil, ← hpacked.parameter_eq] at hentries
  rw [List.nil_append, ← hpacked.parameter_eq] at hunpacks
  obtain ⟨enable', henable⟩ := exists_foldlM_overrideEnable build hunpacks enable
  refine ⟨enable', ?_⟩
  have hid : load16 (Command.update parameter).message 0 = .ok 3 :=
    load16_append (by decide) [] _
  have hlength : load16 (Command.update parameter).message 2 = .ok parameter.length :=
    load16_append hpacked.length_lt (bytes16 3) parameter
  have hdrop : (Command.update parameter).message.drop 4 = parameter := rfl
  -- the first parameter is a supported one, so a restart is needed
  have hrestart : (entries.any fun param => needToRestartToUpdate param.ident) = true := by
    obtain ⟨param, rest, hfilled⟩ := List.exists_cons_of_ne_nil hpacked.filled
    obtain ⟨size, hsize⟩ := Nat.exists_eq_succ_of_ne_zero (confGetIdentities_pos build).ne'
    rw [hsize, hfilled, List.take_succ_cons] at hunpacks
    obtain ⟨entry, others, hentry, -, rfl⟩ := List.forall₂_cons_right_iff.mp hunpacks
    have hsupported := hpacked.supported param (by rw [hfilled]; exact List.mem_cons_self)
    have hval := val_ne_zero hsupported.1 hsupported.2
    simp [needToRestartToUpdate, hentry.1, hval]
  simp only [receiveMessage, hid, bind_ok, receiveUpdate, hlength, hdrop, parseCommandParameters,
    hentries, henable, hrestart, and_true]
  by_cases hpos : 0 < pid
  · simp only [hpos, if_true, show pid ≠ 0 by omega, if_false]
    rfl
  by_cases hneg : pid < 0
  · simp only [hpos, hneg, if_true, show pid ≠ 0 by omega, if_false]
    rfl
  · obtain rfl : pid = 0 := by omega
    rfl

end MmtProbe.DynamicConf

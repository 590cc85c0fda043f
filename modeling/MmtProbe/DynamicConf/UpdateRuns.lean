/-
# Updates from the text to the configuration

A parameter that is sent to the control server as a text goes a long way: it is parsed,
checked and packed, published on the bus, unpacked in the monitor and written by its number.
On the command line the same parameter is given by its name.  A command of the grammar has the
effect of its parameters, given by name, one after the other.
-/

import MmtProbe.DynamicConf.UpdateValidity

namespace MmtProbe.DynamicConf

open MmtProbe.Math
open MmtProbe.Configure (Conf Confuse)

variable {build : Build} {confuse : Confuse}

/-- The bytes of an update command with these parameters: the server overwrites the last one. -/
def updateBytes (params : List (List UInt8 × List UInt8)) (last : UInt8) : List UInt8 :=
  bytesOf "update" ++ (commandText params ++ [last])

/-- `conf_override_element` for a parameter, as for one of the command line. -/
def overrideNamed (build : Build) (confuse : Confuse) (conf : Conf)
    (param : List UInt8 × List UInt8) : Option Conf :=
  (conf.overrideElement confuse build param.1 (cstring param.2)).map Prod.snd

theorem terminate_updateBytes (params : List (List UInt8 × List UInt8)) (last : UInt8) :
    terminate (updateBytes params last) = bytesOf "update" ++ (commandText params ++ [0]) := by
  rw [terminate, updateBytes, ← List.append_assoc, ← List.append_assoc]
  have hlast : (bytesOf "update" ++ commandText params ++ [last]).length - 1 =
      (bytesOf "update" ++ commandText params).length := by simp
  rw [hlast, List.set_append_right _ _ (Nat.le_refl _), Nat.sub_self]
  rfl

/-- The server parses an update command behind its name. -/
theorem processing_updateBytes (params : List (List UInt8 × List UInt8)) (last : UInt8)
    {parameter : List UInt8}
    (accepted : parseUpdate build (commandText params) = .ok (.ok parameter)) :
    processing build (updateBytes params last) = .ok (.publish (.update parameter)) := by
  have hterminate := terminate_updateBytes params last
  have hfirst : ∀ cmd : String, (bytesOf cmd).isPrefixOf (bytesOf "update") = false →
      (bytesOf cmd).length ≤ (bytesOf "update").length →
      isCmd (terminate (updateBytes params last)) cmd = false := by
    intro cmd hother hshort
    rw [Bool.eq_false_iff] at hother ⊢
    intro hcmd
    rw [isCmd, hterminate, List.isPrefixOf_iff_prefix] at hcmd
    exact hother (List.isPrefixOf_iff_prefix.mpr
      (List.prefix_of_prefix_length_le hcmd (List.prefix_append _ _) hshort))
  have hupdate : isCmd (terminate (updateBytes params last)) "update" = true := by
    rw [isCmd, hterminate, List.isPrefixOf_iff_prefix]
    exact List.prefix_append _ _
  simp only [processing, hfirst "ls" (by decide) (by decide),
    hfirst "start" (by decide) (by decide), hfirst "stop" (by decide) (by decide), hupdate,
    Bool.false_eq_true, if_false, if_true]
  have hparse : parseUpdateParameters build (terminate (updateBytes params last)) 6
      ((terminate (updateBytes params last)).length - 6) cmdParamMaxLength =
        .ok (.ok parameter) := by
    rw [← accepted, parseUpdate, hterminate]
    congr 1
    rw [List.length_append, length_update, List.length_append]
    simp
  rw [hparse]
  rfl

/-- The parameters that a command of the grammar is unpacked into. -/
theorem exists_delivered {params : List (List UInt8 × List UInt8)} {parameter : List UInt8}
    (filled : params ≠ []) (wellFormed : ∀ param ∈ params, WellFormedParam build param)
    (few : params.length ≤ confGetIdentities build)
    (fits : (commandText params).length + 7 ≤ bufferSize)
    (accepted : parseUpdate build (commandText params) = .ok (.ok parameter)) :
    parameter.length < 2 ^ 16 ∧
      ∃ entries, parseCommandParameters parameter parameter.length (confGetIdentities build) =
          .ok entries ∧ List.Forall₂ (Delivers build parameter) entries params := by
  have hplain : ∀ param ∈ params, ∀ byte ∈ param.1, byte ≠ 0 ∧ byte ≠ 61 ∧ byte ≠ 10 :=
    fun param hparam => (wellFormed param hparam).plain.2
  have hequal : ∀ param ∈ params, equalSign ∉ param.1 := fun param hparam hmem =>
    (hplain param hparam _ hmem).2.1 rfl
  have hseparable : ∀ param ∈ params,
      newLine ∉ param.1 ∧ equalSign ∉ param.1 ∧ newLine ∉ param.2 := fun param hparam =>
    ⟨(wellFormed param hparam).single.1, hequal param hparam,
      (wellFormed param hparam).single.2⟩
  rcases accepted_pack filled hseparable fits accepted with
    ⟨first, rest, packed, rfl, rfl, hpacked, hfits⟩
  -- no name begins with a NUL, so no line is left out
  have hall : taken (rest.map render) = rest.map render := by
    apply taken_eq_self
    intro line hline
    rcases List.mem_map.mp hline with ⟨param, hparam, rfl⟩
    have hbytes := hplain param (List.mem_cons_of_mem _ hparam)
    cases hident : param.1 with
    | nil => simp [render, hident, equalSign]
    | cons byte ident =>
        have hbyte := (hbytes byte (hident ▸ List.mem_cons_self)).1
        simpa [render, hident] using hbyte
  rw [hall] at hpacked
  rcases parseCommandParametersFrom_pack (confGetIdentities build) [] hfits with
    ⟨entries, hentries, hunpacks⟩
  rw [List.nil_append, List.length_nil] at hentries
  have hcount := hpacked.length_eq
  simp only [List.length_cons, List.length_map] at hcount few
  rw [List.nil_append, List.take_of_length_le (by omega)] at hunpacks
  refine ⟨?_, entries, hentries, forall₂_delivers hunpacks hpacked hequal⟩
  rcases exists_isPacked fits accepted with ⟨others, hothers⟩
  exact hothers.length_lt

theorem loadString_of_loadBytes {memory bytes : List UInt8} {address count : Nat}
    (loaded : loadBytes memory address count = .ok (bytes ++ [0])) :
    loadString memory address = .ok (cstring bytes) := by
  unfold loadBytes at loaded
  split_ifs at loaded with hinside
  have hbytes : (memory.drop address).take count = bytes ++ [0] := Except.ok.inj loaded
  have hmemory : memory = memory.take address ++
      (bytes ++ 0 :: memory.drop (address + count)) := by
    have hrest := List.take_append_drop count (memory.drop address)
    rw [hbytes, List.drop_drop, List.append_assoc] at hrest
    exact (List.take_append_drop address memory).symm.trans (congrArg _ hrest.symm)
  have hload := loadString_append (memory.take address) bytes (memory.drop (address + count))
  rw [← hmemory, List.length_take, Nat.min_eq_left (by omega)] at hload
  exact hload

/-- A parameter that was found by its name is found by its number. -/
theorem confGetIdentityFromId_val {identity : Identity} (listed : identity ∈ identities build) :
    confGetIdentityFromId build identity.val = some identity := by
  rcases List.mem_mapIdx.mp listed with ⟨position, hposition, rfl⟩
  simp [confGetIdentityFromId, identities, hposition]

/-- The monitor writes a delivered parameter as the command line does. -/
theorem paramMachine_step {parameter : List UInt8} {entry : CommandParam}
    {param : List UInt8 × List UInt8} (wellFormed : WellFormedParam build param)
    (delivers : Delivers build parameter entry param) (conf : Conf) :
    (paramMachine build confuse parameter).step conf entry =
      overrideNamed build confuse conf param := by
  have hplain : (0 : UInt8) ∉ param.1 := fun hmem => (wellFormed.plain.2 _ hmem).1 rfl
  rcases wellFormed with ⟨identity, hfound, -⟩
  rcases delivers with ⟨hident, -, hdata⟩
  rw [cstring_eq_self hplain, hfound, Option.map_some, Option.some.injEq] at hident
  have hlisted := (confGetIdentityFromString_eq_some hfound).1
  simp only [paramMachine, loadString_of_loadBytes hdata, Except.toOption, Option.bind_some,
    overrideNamed, Conf.overrideElement, Conf.overrideElementById, hfound, ← hident,
    confGetIdentityFromId_val hlisted, Option.map_map]
  rfl

/-- A command of the grammar is published, and has the effect of its parameters one after the
other, each given by its name. -/
theorem update_overridesNamed (build : Build) (confuse : Confuse)
    (params : List (List UInt8 × List UInt8)) (last : UInt8) (filled : params ≠ [])
    (wellFormed : ∀ param ∈ params, WellFormedParam build param)
    (few : params.length ≤ confGetIdentities build)
    (fits : (commandText params).length + 7 ≤ bufferSize) :
    ∃ command, processing build (updateBytes params last) = .ok (.publish command) ∧
      ∀ conf, receiveMessageConf build confuse command.message conf =
        params.foldlM (overrideNamed build confuse) conf := by
  rcases exists_accepted filled wellFormed fits with ⟨parameter, haccepted⟩
  refine ⟨.update parameter, processing_updateBytes params last haccepted, fun conf => ?_⟩
  rcases exists_delivered filled wellFormed few fits haccepted with
    ⟨hshort, entries, hentries, hdelivers⟩
  have hid : load16 (Command.update parameter).message 0 = .ok 3 := load16_append (by decide) [] _
  have hlength : load16 (Command.update parameter).message 2 = .ok parameter.length :=
    load16_append hshort (bytes16 3) parameter
  have hparams : updateParams build (Command.update parameter).message =
      some (parameter, entries) := by
    have hdrop : (Command.update parameter).message.drop 4 = parameter := rfl
    have hparse : (parseCommandParameters parameter parameter.length
        (confGetIdentities build)).toOption = some entries := by
      rw [hentries]
      rfl
    have hlen : (load16 (Command.update parameter).message 2).toOption =
        some parameter.length := by
      rw [hlength]
      rfl
    simp only [updateParams, hlen, hdrop, hparse, Option.bind_eq_bind, Option.bind_some,
      Option.pure_def]
  have hrun : ∀ conf, (paramMachine build confuse parameter).run entries conf =
      params.foldlM (overrideNamed build confuse) conf := by
    clear hparams hentries few filled fits haccepted
    induction hdelivers with
    | nil => exact fun _ => rfl
    | cons hentry _ ih =>
        rw [List.forall_mem_cons] at wellFormed
        intro conf
        rw [Machine.run_cons, List.foldlM_cons, paramMachine_step wellFormed.1 hentry]
        exact congrArg _ (funext (ih wellFormed.2))
  simp only [receiveMessageConf, hid, Except.toOption, hparams]
  exact hrun conf

theorem update_overridesNamed_numberAndText :
    ∃ command, processing (fun _ => false) (updateBytes numberAndText 10) =
        .ok (.publish command) ∧
      ∀ conf, receiveMessageConf (fun _ => false) Configure.plainConfuse command.message conf =
        numberAndText.foldlM (overrideNamed (fun _ => false) Configure.plainConfuse) conf :=
  update_overridesNamed _ _ numberAndText _ (by simp [numberAndText])
    wellFormedParam_numberAndText (by decide +kernel) (by decide +kernel)

end MmtProbe.DynamicConf

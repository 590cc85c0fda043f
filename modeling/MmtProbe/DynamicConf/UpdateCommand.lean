/-
# What an update command may look like, and what arrives of it

Two results about update commands.  The first compares the texts that
`_parse_update_parameters` accepts with the documented grammar
`{`, newline, one or more `ident=value` lines, `}`.  The second follows the
accepted parameters through their packed form to the list that a subscriber
gets from `parse_command_parameters`.
-/

import MmtProbe.DynamicConf.UpdateLines

namespace MmtProbe.DynamicConf

open MmtProbe.Math

/-! ## The documented grammar -/

/-- The line of a parameter. -/
def render (param : List UInt8 × List UInt8) : List UInt8 := param.1 ++ equalSign :: param.2

/-- The text of an update command with these parameters. -/
def commandText (params : List (List UInt8 × List UInt8)) : List UInt8 :=
  openBrace :: (newLine :: unlines (params.map render) ++ [closeBrace])

/-- A parameter of the documented grammar: the name of a supported parameter and
a value that is not empty and passes its validation. -/
def WellFormedParam (build : Build) (param : List UInt8 × List UInt8) : Prop :=
  ∃ identity, confGetIdentityFromString build param.1 = some identity ∧
    identity.dataType ≠ .noSupport ∧ param.2 ≠ [] ∧ newLine ∉ param.2 ∧
    confValidateDataValue identity (cstring param.2) = none

/-- The documented grammar of the text behind `update`. -/
def UpdateGrammar (build : Build) (text : List UInt8) : Prop :=
  ∃ params, params ≠ [] ∧ (∀ param ∈ params, WellFormedParam build param) ∧
    text = commandText params

/-- The texts on which the parser keeps to the grammar: not an empty list, and if
the lines up to the first one that begins with a NUL are parameters to the
program, then the byte behind the brace is a newline and no name has a NUL. -/
def Regular (build : Build) (text : List UInt8) : Prop :=
  text ≠ [openBrace, newLine, closeBrace] ∧
    ∀ skipped line lines, (∀ l ∈ line :: lines, newLine ∉ l) →
      text = openBrace :: (skipped :: unlines (line :: lines) ++ [closeBrace]) →
      (∀ l ∈ line :: taken lines, ∃ param, IsParameter build l param) →
      skipped = newLine ∧ ∀ l ∈ line :: lines, (0 : UInt8) ∉ identPart l

variable {build : Build} {line text : List UInt8} {lines : List (List UInt8)}

/-- The names of the grammar are plain. -/
theorem WellFormedParam.plain {param : List UInt8 × List UInt8}
    (wellFormed : WellFormedParam build param) : PlainIdent param.1 := by
  obtain ⟨identity, hfound, -⟩ := wellFormed
  obtain ⟨hlisted, hident⟩ := confGetIdentityFromString_eq_some hfound
  exact hident ▸ (plain_of_mem_identities hlisted).1

/-- A line is one of the grammar when it is a parameter to the program and its
name has no NUL. -/
theorem exists_render_iff (single : newLine ∉ line) :
    (∃ param, WellFormedParam build param ∧ line = render param) ↔
      (∃ param, IsParameter build line param) ∧ (0 : UInt8) ∉ identPart line := by
  constructor
  · rintro ⟨⟨ident, value⟩, hwell, rfl⟩
    have hplain : ∀ byte ∈ ident, byte ≠ 0 ∧ byte ≠ 61 ∧ byte ≠ 10 := hwell.plain.2
    have hequal : equalSign ∉ ident := fun hmem => (hplain _ hmem).2.1 rfl
    have hnul : (0 : UInt8) ∉ ident := fun hmem => (hplain _ hmem).1 rfl
    obtain ⟨identity, hfound, hsupport, hvalue, -, hvalid⟩ := hwell
    simp only [IsParameter, render, identPart_append hequal, cstring_eq_self hnul]
    exact ⟨⟨⟨identity, value⟩, rfl, hfound, hsupport, hvalue, hvalid⟩, hnul⟩
  · rintro ⟨⟨param, hline, hfound, hsupport, hvalue, hvalid⟩, hnul⟩
    rw [cstring_eq_self hnul] at hfound
    refine ⟨(identPart line, param.value), ⟨param.identity, hfound, hsupport, hvalue, ?_, hvalid⟩,
      hline⟩
    intro hmem
    rw [hline] at single
    exact single (List.mem_append_right _ (List.mem_cons_of_mem _ hmem))

/-- The lines of parameters without newlines have none. -/
theorem newLine_not_mem_render {params : List (List UInt8 × List UInt8)}
    (single : ∀ param ∈ params, newLine ∉ param.1 ∧ newLine ∉ param.2) :
    ∀ l ∈ params.map render, newLine ∉ l := by
  intro l hl hmem
  obtain ⟨param, hparam, rfl⟩ := List.mem_map.mp hl
  simp only [render, List.mem_append, List.mem_cons] at hmem
  rcases hmem with hident | hequal | hvalue
  · exact (single param hparam).1 hident
  · exact absurd hequal (by decide)
  · exact (single param hparam).2 hvalue

theorem WellFormedParam.single {param : List UInt8 × List UInt8}
    (wellFormed : WellFormedParam build param) : newLine ∉ param.1 ∧ newLine ∉ param.2 := by
  refine ⟨fun hmem => (wellFormed.plain.2 _ hmem).2.2 rfl, ?_⟩
  obtain ⟨identity, -, -, -, hvalue, -⟩ := wellFormed
  exact hvalue

/-- Lines that are all of the grammar come from a list of parameters. -/
theorem exists_map_render_iff :
    (∃ params : List (List UInt8 × List UInt8),
      (∀ param ∈ params, WellFormedParam build param) ∧ lines = params.map render) ↔
      ∀ l ∈ lines, ∃ param, WellFormedParam build param ∧ l = render param := by
  constructor
  · rintro ⟨params, hwell, rfl⟩ l hl
    obtain ⟨param, hparam, rfl⟩ := List.mem_map.mp hl
    exact ⟨param, hwell param hparam, rfl⟩
  · intro hlines
    induction lines with
    | nil => exact ⟨[], by simp, rfl⟩
    | cons line lines ih =>
        rw [List.forall_mem_cons] at hlines
        obtain ⟨param, hwell, rfl⟩ := hlines.1
        obtain ⟨params, hwells, rfl⟩ := ih hlines.2
        exact ⟨param :: params, List.forall_mem_cons.mpr ⟨hwell, hwells⟩, rfl⟩

/-- The grammar on a text made of lines. -/
theorem updateGrammar_lines_iff {skipped : UInt8} (single : ∀ l ∈ line :: lines, newLine ∉ l) :
    UpdateGrammar build (openBrace :: (skipped :: unlines (line :: lines) ++ [closeBrace])) ↔
      skipped = newLine ∧ ∀ l ∈ line :: lines,
        (∃ param, IsParameter build l param) ∧ (0 : UInt8) ∉ identPart l := by
  have hrender : (∀ l ∈ line :: lines,
      (∃ param, IsParameter build l param) ∧ (0 : UInt8) ∉ identPart l) ↔
      ∃ params : List (List UInt8 × List UInt8),
        (∀ param ∈ params, WellFormedParam build param) ∧ line :: lines = params.map render := by
    rw [exists_map_render_iff]
    exact forall₂_congr fun l hl => (exists_render_iff (single l hl)).symm
  rw [hrender]
  constructor
  · rintro ⟨params, -, hwell, htext⟩
    simp only [commandText, List.cons.injEq, true_and, List.cons_append,
      List.append_cancel_right_eq] at htext
    obtain ⟨rfl, hlines⟩ := htext
    have hsingle := newLine_not_mem_render fun param hparam => (hwell param hparam).single
    exact ⟨rfl, params, hwell, unlines_injective single hsingle hlines⟩
  · rintro ⟨rfl, params, hwell, hlines⟩
    refine ⟨params, ?_, hwell, by rw [commandText, hlines]⟩
    rintro rfl
    cases hlines

/-- The condition on a text made of lines. -/
theorem regular_lines_iff {skipped : UInt8} (single : ∀ l ∈ line :: lines, newLine ∉ l) :
    Regular build (openBrace :: (skipped :: unlines (line :: lines) ++ [closeBrace])) ↔
      ((∀ l ∈ line :: taken lines, ∃ param, IsParameter build l param) →
        skipped = newLine ∧ ∀ l ∈ line :: lines, (0 : UInt8) ∉ identPart l) := by
  constructor
  · rintro ⟨-, hregular⟩
    exact hregular skipped line lines single rfl
  · intro hregular
    refine ⟨?_, ?_⟩
    · intro htext
      have := congrArg List.length htext
      simp at this
      omega
    · intro skipped' line' lines' single' htext haccepted
      simp only [List.cons.injEq, true_and, List.cons_append, List.append_cancel_right_eq] at htext
      obtain ⟨rfl, hlines⟩ := htext
      obtain ⟨rfl, rfl⟩ := List.cons.injEq _ _ _ _ ▸ unlines_injective single single' hlines
      exact hregular haccepted

/-- No line is left out when none begins with a NUL. -/
theorem taken_eq_self (plain : ∀ l ∈ lines, l.head? ≠ some 0) : taken lines = lines := by
  rw [taken, List.takeWhile_eq_self_iff]
  intro l hl
  simpa using plain l hl

/-- A line whose name has no NUL does not begin with one. -/
theorem head?_ne_of_not_mem_identPart (plain : (0 : UInt8) ∉ identPart line) :
    line.head? ≠ some 0 := by
  intro hhead
  obtain ⟨rest, rfl⟩ := List.head?_eq_some_iff.mp hhead
  exact plain (by simp [identPart, equalSign])

/-! ## The parser against the grammar -/

/-- The text behind `update` in a received command, without the final NUL. -/
def updateText (received : List UInt8) : List UInt8 := ((terminate received).drop 6).dropLast

/-- The parser stays inside the received bytes, and accepts the text exactly when
it is one of the grammar. -/
def ParsesGrammar (build : Build) (received : List UInt8) : Prop :=
  ∃ result, parseUpdateParameters build (terminate received) 6
      ((terminate received).length - 6) cmdParamMaxLength = .ok result ∧
    (updateReturn result ≠ 0 ↔ UpdateGrammar build (updateText received))

/-- The bytes of a received update command. -/
theorem terminate_eq {received : List UInt8} (filled : 1 ≤ received.length)
    (isUpdate : isCmd (terminate received) "update" = true) :
    terminate received = bytesOf "update" ++ (updateText received ++ [0]) := by
  obtain ⟨front, last, hreceived⟩ : ∃ front last, received = front ++ [last] := by
    rcases List.eq_nil_or_concat received with rfl | ⟨front, last, h⟩
    · simp at filled
    · exact ⟨front, last, by rw [h, List.concat_eq_append]⟩
  have hterminate : terminate received = front ++ [0] := by
    simp [terminate, hreceived]
  obtain ⟨rest, hrest⟩ := List.isPrefixOf_iff_prefix.mp isUpdate
  rcases List.eq_nil_or_concat rest with rfl | ⟨text, final, h⟩
  · have hlast := congrArg List.getLast? (hrest.trans hterminate)
    rw [List.append_nil, List.getLast?_concat] at hlast
    exact absurd hlast (by decide)
  · rw [List.concat_eq_append] at h
    subst h
    have hfinal : final = 0 := by
      have hlast := congrArg List.getLast? (hrest.trans hterminate)
      rw [← List.append_assoc, List.getLast?_concat, List.getLast?_concat] at hlast
      exact Option.some.inj hlast
    subst hfinal
    have htext : updateText received = text := by
      rw [updateText, ← hrest, ← length_update, List.drop_left, List.dropLast_concat]
    rw [htext, hrest]

/-- On a received update command, the function is called as `parseUpdate`. -/
theorem parsesGrammar_iff {received : List UInt8} (filled : 1 ≤ received.length)
    (isUpdate : isCmd (terminate received) "update" = true) :
    ParsesGrammar build received ↔ ∃ result, parseUpdate build (updateText received) = .ok result ∧
      (updateReturn result ≠ 0 ↔ UpdateGrammar build (updateText received)) := by
  have hterminate := terminate_eq filled isUpdate
  have hlength : (terminate received).length - 6 = (updateText received).length + 1 := by
    rw [hterminate, List.length_append, length_update, List.length_append]
    simp
  rw [ParsesGrammar, hlength, hterminate, parseUpdate, length_update]

/-- Accepted parameters have a packed form that is not empty. -/
theorem updateReturn_ne_zero_iff :
    updateReturn ((parseLines build (line :: lines)).map fun params => params.flatMap Param.pack)
      ≠ 0 ↔ ∀ l ∈ line :: taken lines, ∃ param, IsParameter build l param := by
  have hexists : (∃ params, parseLines build (line :: lines) = .ok params) ↔
      ∀ l ∈ line :: taken lines, ∃ param, IsParameter build l param := by
    simp only [parseLines_eq_ok_iff]
    exact exists_forall₂_iff
  rw [← hexists]
  cases hparse : parseLines build (line :: lines) with
  | error reason => simp [Except.map, updateReturn]
  | ok params =>
      have hfilled : params ≠ [] := by
        rintro rfl
        exact absurd (parseLines_eq_ok_iff.mp hparse) (by simp)
      obtain ⟨param, rest, rfl⟩ := List.exists_cons_of_ne_nil hfilled
      simp [Except.map, updateReturn, Param.pack, bytes16]

/-- A refused text outside the grammar that meets the condition. -/
theorem exact_of_refused {reason : UpdateError}
    (refused : parseUpdate build text = .ok (.error reason))
    (outside : ¬ UpdateGrammar build text) (regular : Regular build text) :
    (∃ result, parseUpdate build text = .ok result ∧
      (updateReturn result ≠ 0 ↔ UpdateGrammar build text)) ↔ Regular build text := by
  simp [refused, updateReturn, outside, regular]

/-- The parser keeps to the received bytes and recognises exactly the documented
grammar on the regular texts, and on no other. -/
theorem parsesGrammar_iff_regular (build : Build) (received : List UInt8)
    (filled : 1 ≤ received.length) (fits : received.length ≤ bufferSize)
    (isUpdate : isCmd (terminate received) "update" = true) :
    ParsesGrammar build received ↔ Regular build (updateText received) := by
  rw [parsesGrammar_iff filled isUpdate]
  have hterminate := congrArg List.length (terminate_eq filled isUpdate)
  simp only [terminate, List.length_set, List.length_append, length_update, List.length_cons,
    List.length_nil] at hterminate
  generalize updateText received = text at hterminate
  have hshort : text.length + 7 ≤ bufferSize := by omega
  obtain hbare | rfl | ⟨skipped, body, rfl, hlast⟩ | rfl | ⟨skipped, line, lines, rfl, hsingle⟩ :=
    text_cases text
  · have hgrammar : ¬ UpdateGrammar build text := by
      rintro ⟨params, -, -, htext⟩
      exact hbare _ htext
    have hregular : Regular build text := by
      refine ⟨fun htext => hbare [newLine] htext, ?_⟩
      intro skipped line lines _ htext
      exact absurd htext (hbare _)
    exact exact_of_refused (parseUpdate_bare hshort hbare) hgrammar hregular
  · have hgrammar : ¬ UpdateGrammar build [openBrace, closeBrace] := by
      rintro ⟨params, -, -, htext⟩
      simp [commandText, closeBrace, newLine] at htext
    have hregular : Regular build [openBrace, closeBrace] := by
      refine ⟨by decide, ?_⟩
      intro skipped line lines _ htext
      simp at htext
    exact exact_of_refused parseUpdate_braces hgrammar hregular
  · have hlines : ∀ line lines, body ≠ unlines (line :: lines) := by
      rintro line lines rfl
      exact hlast (getLast?_unlines skipped line lines)
    have hgrammar : ¬ UpdateGrammar build (openBrace :: (skipped :: body ++ [closeBrace])) := by
      rintro ⟨params, hfilled, -, htext⟩
      obtain ⟨param, params, rfl⟩ := List.exists_cons_of_ne_nil hfilled
      simp only [commandText, List.cons.injEq, true_and, List.cons_append,
        List.append_cancel_right_eq] at htext
      exact hlines _ _ htext.2
    have hregular : Regular build (openBrace :: (skipped :: body ++ [closeBrace])) := by
      refine ⟨?_, ?_⟩
      · intro htext
        cases body with
        | nil => exact hlast (by simpa using htext)
        | cons byte body => simp at htext
      · intro skipped' line lines _ htext
        simp only [List.cons.injEq, true_and, List.cons_append,
          List.append_cancel_right_eq] at htext
        exact absurd htext.2 (hlines _ _)
    have hshort' : body.length + 10 ≤ bufferSize := by
      simp only [List.length_cons, List.length_append, List.length_nil] at hshort
      omega
    have hrefused : parseUpdate build (openBrace :: (skipped :: body ++ [closeBrace]))
        = .ok (.error .lastNotEnded) := by
      rw [parseUpdate_surrounded hshort', if_neg hlast]
    exact exact_of_refused hrefused hgrammar hregular
  · have hregular : ¬ Regular build [openBrace, newLine, closeBrace] := fun h => h.1 rfl
    simp [parseUpdate_empty, hregular]
  · have hshort' : (unlines (line :: lines)).length + 10 ≤ bufferSize := by
      simp only [List.length_cons, List.length_append, List.length_nil] at hshort
      omega
    simp only [parseUpdate_lines hsingle hshort', Except.ok.injEq, exists_eq_left',
      updateReturn_ne_zero_iff, updateGrammar_lines_iff hsingle, regular_lines_iff hsingle]
    constructor
    · intro hexact haccepted
      obtain ⟨hskipped, hall⟩ := hexact.mp haccepted
      exact ⟨hskipped, fun l hl => (hall l hl).2⟩
    · intro hregular
      constructor
      · intro haccepted
        obtain ⟨hskipped, hplain⟩ := hregular haccepted
        -- no line begins with a NUL, so none was left out
        rw [taken_eq_self fun l hl =>
          head?_ne_of_not_mem_identPart (hplain l (List.mem_cons_of_mem _ hl))] at haccepted
        exact ⟨hskipped, fun l hl => ⟨haccepted l hl, hplain l hl⟩⟩
      · rintro ⟨-, hall⟩ l hl
        have hmem : l ∈ line :: lines :=
          List.cons_subset_cons line (List.takeWhile_subset _) hl
        exact (hall l hmem).1

theorem parsesGrammar_iff_regular_one_parameter :
    isCmd (terminate (bytesOf "update\x7b\nprobe-id=1\n\x7d\x00")) "update" = true ∧
      (ParsesGrammar (fun _ => false) (bytesOf "update\x7b\nprobe-id=1\n\x7d\x00") ↔
        Regular (fun _ => false) (updateText (bytesOf "update\x7b\nprobe-id=1\n\x7d\x00"))) :=
  ⟨by decide, parsesGrammar_iff_regular _ _ (by decide) (by decide) (by decide)⟩

/-- On a list without parameters the parser reads behind the received bytes. -/
theorem not_parsesGrammar_empty_list :
    isCmd (terminate (bytesOf "update\x7b\n\x7d\x00")) "update" = true ∧
      ¬ ParsesGrammar (fun _ => false) (bytesOf "update\x7b\n\x7d\x00") := by
  have htext : updateText (bytesOf "update\x7b\n\x7d\x00") = [openBrace, newLine, closeBrace] := by
    decide
  refine ⟨by decide, ?_⟩
  rw [parsesGrammar_iff (by decide) (by decide), htext, parseUpdate_empty]
  simp

/-! ## From the text to the subscriber -/

/-- An unpacked entry carries a parameter of the text: its number, its value with
a NUL behind it, and the length of both. -/
def Delivers (build : Build) (parameter : List UInt8) (entry : CommandParam)
    (param : List UInt8 × List UInt8) : Prop :=
  (confGetIdentityFromString build (cstring param.1)).map Identity.val = some entry.ident ∧
    entry.dataLen = param.2.length + 1 ∧
    loadBytes parameter entry.data entry.dataLen = .ok (param.2 ++ [0])

/-- A subscriber unpacks all the parameters of the text, in their order. The list
it provides has room for every identity once. -/
def RoundTrip (build : Build) (params : List (List UInt8 × List UInt8))
    (parameter : List UInt8) : Prop :=
  ∃ entries, parseCommandParameters parameter parameter.length (confGetIdentities build)
      = .ok entries ∧
    List.Forall₂ (Delivers build parameter) entries params

/-- An unpacked entry carries a parameter that was packed. -/
def Unpacks (parameter : List UInt8) (entry : CommandParam) (param : Param) : Prop :=
  entry.ident = param.identity.val ∧ entry.dataLen = param.value.length + 1 ∧
    loadBytes parameter entry.data entry.dataLen = .ok (param.value ++ [0])

/-- Numbers and lengths of a parameter fit the words of its packed form. -/
def Param.Fits (param : Param) : Prop :=
  param.identity.val < 2 ^ 16 ∧ param.value.length + 1 < 2 ^ 16

/-- The unpacking loop finds the packed parameters, as far as there is room. -/
theorem parseCommandParametersFrom_pack {params : List Param} (size : Nat) (before : List UInt8)
    (fits : ∀ param ∈ params, param.Fits) :
    ∃ entries, parseCommandParametersFrom (before ++ params.flatMap Param.pack)
        (before ++ params.flatMap Param.pack).length size before.length = .ok entries ∧
      List.Forall₂ (Unpacks (before ++ params.flatMap Param.pack)) entries (params.take size) := by
  induction params generalizing size before with
  | nil =>
      refine ⟨[], ?_, by simp⟩
      cases size with
      | zero => rfl
      | succ size => simp [parseCommandParametersFrom]
  | cons param params ih =>
      cases size with
      | zero => exact ⟨[], rfl, by simp⟩
      | succ size =>
          rw [List.forall_mem_cons] at fits
          obtain ⟨entries, hentries, hforall⟩ := ih size (before ++ param.pack) fits.2
          have hbuffer : before ++ (param :: params).flatMap Param.pack
              = before ++ param.pack ++ params.flatMap Param.pack := by simp
          have hident : load16 (before ++ (param :: params).flatMap Param.pack) before.length
              = .ok param.identity.val := by
            have := load16_append fits.1.1 before (bytes16 (param.value.length + 1)
              ++ (param.value ++ [0] ++ params.flatMap Param.pack))
            simpa [Param.pack] using this
          have hdataLen : load16 (before ++ (param :: params).flatMap Param.pack)
              (before.length + 2) = .ok (param.value.length + 1) := by
            have := load16_append fits.1.2 (before ++ bytes16 param.identity.val)
              (param.value ++ [0] ++ params.flatMap Param.pack)
            simpa [Param.pack, bytes16] using this
          have hdata : loadBytes (before ++ (param :: params).flatMap Param.pack)
              (before.length + 2 + 2) (param.value.length + 1) = .ok (param.value ++ [0]) := by
            have := loadBytes_append
              (before ++ (bytes16 param.identity.val ++ bytes16 (param.value.length + 1)))
              (param.value ++ [0]) (params.flatMap Param.pack)
            simpa [Param.pack, bytes16] using this
          have hinside : before.length <
              (before ++ (param :: params).flatMap Param.pack).length := by
            simp [Param.pack, bytes16]
          have hnext : before.length + 2 + 2 + (param.value.length + 1)
              = (before ++ param.pack).length := by
            simp [Param.pack, bytes16]
            omega
          rw [← hbuffer] at hentries hforall
          refine ⟨⟨param.identity.val, param.value.length + 1, before.length + 2 + 2⟩ :: entries,
            ?_, ?_⟩
          · rw [parseCommandParametersFrom, if_pos hinside, hident, bind_ok, hdataLen, bind_ok,
              hnext, hentries]
            rfl
          · rw [List.take_succ_cons]
            exact .cons ⟨rfl, rfl, hdata⟩ hforall

/-- The decoder never returns more entries than it has room for. -/
theorem length_parseCommandParametersFrom_le {buffer : List UInt8} {bufferLen size offset : Nat}
    {entries : List CommandParam}
    (returned : parseCommandParametersFrom buffer bufferLen size offset = .ok entries) :
    entries.length ≤ size := by
  induction size generalizing offset entries with
  | zero =>
      cases returned
      exact Nat.le_refl 0
  | succ size ih =>
      rw [parseCommandParametersFrom] at returned
      split_ifs at returned with hinside
      · obtain ⟨ident, -, returned⟩ := bind_eq_ok_iff.mp returned
        obtain ⟨dataLen, -, returned⟩ := bind_eq_ok_iff.mp returned
        obtain ⟨rest, hrest, returned⟩ := bind_eq_ok_iff.mp returned
        cases returned
        exact Nat.succ_le_succ (ih hrest)
      · cases returned
        exact Nat.zero_le _

theorem RoundTrip.length_le {params : List (List UInt8 × List UInt8)} {parameter : List UInt8}
    (roundTrip : RoundTrip build params parameter) : params.length ≤ confGetIdentities build := by
  obtain ⟨entries, hentries, hdelivers⟩ := roundTrip
  have := length_parseCommandParametersFrom_le hentries
  rw [hdelivers.length_eq] at this
  exact this

variable {params : List (List UInt8 × List UInt8)} {parameter : List UInt8}

/-- An accepted parameter fits its packed form. -/
theorem IsParameter.fits {param : Param} (accepted : IsParameter build line param)
    (short : line.length < 2 ^ 16) : param.Fits := by
  obtain ⟨hline, hfound, -⟩ := accepted
  have hval := (plain_of_mem_identities (confGetIdentityFromString_eq_some hfound).1).2
  have hcount := confGetIdentities_lt build
  have hlength := congrArg List.length hline
  rw [List.length_append, List.length_cons] at hlength
  exact ⟨by omega, by omega⟩

/-- The name of an accepted parameter does not begin with a NUL. -/
theorem IsParameter.head?_ne {param : Param} (accepted : IsParameter build line param) :
    (identPart line).head? ≠ some 0 := by
  obtain ⟨-, hfound, -⟩ := accepted
  obtain ⟨hlisted, hident⟩ := confGetIdentityFromString_eq_some hfound
  have hplain := (plain_of_mem_identities hlisted).1.1
  intro hhead
  obtain ⟨rest, hrest⟩ := List.head?_eq_some_iff.mp hhead
  rw [hident, hrest] at hplain
  simp [cstring] at hplain

/-- Accepted parameters of a command fit their packed form. -/
theorem forall_fits {packed : List Param}
    (accepted : List.Forall₂ (IsParameter build) (line :: taken lines) packed)
    (short : (unlines (line :: lines)).length + 10 ≤ bufferSize) :
    ∀ param ∈ packed, param.Fits := by
  refine forall_mem_right accepted fun l hl param haccepted => ?_
  have hlisted : l ∈ line :: lines := List.cons_subset_cons _ (List.takeWhile_subset _) hl
  have hlength := length_le_of_mem_lines hlisted
  simp only [bufferSize, cmdParamMaxLength] at short
  exact haccepted.fits (by omega)

/-- What an accepted text is packed into. -/
theorem accepted_pack (filled : params ≠ [])
    (separable : ∀ param ∈ params, newLine ∉ param.1 ∧ equalSign ∉ param.1 ∧ newLine ∉ param.2)
    (fits : (commandText params).length + 7 ≤ bufferSize)
    (accepted : parseUpdate build (commandText params) = .ok (.ok parameter)) :
    ∃ first rest packed, params = first :: rest ∧ parameter = packed.flatMap Param.pack ∧
      List.Forall₂ (IsParameter build) (render first :: taken (rest.map render)) packed ∧
      ∀ param ∈ packed, param.Fits := by
  obtain ⟨first, rest, rfl⟩ := List.exists_cons_of_ne_nil filled
  have hsingle : ∀ l ∈ render first :: rest.map render, newLine ∉ l :=
    newLine_not_mem_render fun param hparam =>
      ⟨(separable param hparam).1, (separable param hparam).2.2⟩
  have hshort : (unlines (render first :: rest.map render)).length + 10 ≤ bufferSize := by
    simp only [commandText, List.map_cons, List.length_cons, List.length_append,
      List.length_nil] at fits
    omega
  rw [commandText, List.map_cons, parseUpdate_lines hsingle hshort] at accepted
  cases hparse : parseLines build (render first :: rest.map render) with
  | error reason =>
      rw [hparse] at accepted
      cases accepted
  | ok packed =>
      rw [hparse] at accepted
      cases accepted
      have hpacked := parseLines_eq_ok_iff.mp hparse
      exact ⟨first, rest, packed, rfl, rfl, hpacked, forall_fits hpacked hshort⟩

/-- An entry that carries an accepted parameter delivers it. -/
theorem Unpacks.delivers {param : List UInt8 × List UInt8} {packed : Param} {entry : CommandParam}
    (unpacks : Unpacks parameter entry packed) (plain : equalSign ∉ param.1)
    (accepted : IsParameter build (render param) packed) :
    Delivers build parameter entry param := by
  obtain ⟨hline, hfound, -⟩ := accepted
  rw [render, identPart_append plain] at hline hfound
  have hvalue : param.2 = packed.value := by simpa using hline
  obtain ⟨hident, hdataLen, hdata⟩ := unpacks
  exact ⟨by rw [hfound, hident]; rfl, by rw [hvalue, hdataLen], by rw [hvalue, hdata]⟩

/-- Entries that carry the accepted parameters deliver them, one by one. -/
theorem forall₂_delivers {packed : List Param} {entries : List CommandParam}
    (unpacks : List.Forall₂ (Unpacks parameter) entries packed)
    (accepted : List.Forall₂ (IsParameter build) (params.map render) packed)
    (plain : ∀ param ∈ params, equalSign ∉ param.1) :
    List.Forall₂ (Delivers build parameter) entries params := by
  induction params generalizing entries packed with
  | nil =>
      cases accepted
      cases unpacks
      exact .nil
  | cons param params ih =>
      rw [List.forall_mem_cons] at plain
      cases accepted with
      | cons haccepted hrest =>
          cases unpacks with
          | cons hunpacks hentries =>
              exact .cons (hunpacks.delivers plain.1 haccepted) (ih hentries hrest plain.2)

/-- Accepted parameters arrive at a subscriber exactly when there are not more of
them than identities, and no name begins with a NUL. -/
theorem roundTrip_iff (build : Build) (params : List (List UInt8 × List UInt8))
    (parameter : List UInt8) (filled : params ≠ [])
    (separable : ∀ param ∈ params, newLine ∉ param.1 ∧ equalSign ∉ param.1 ∧ newLine ∉ param.2)
    (fits : (commandText params).length + 7 ≤ bufferSize)
    (accepted : parseUpdate build (commandText params) = .ok (.ok parameter)) :
    RoundTrip build params parameter ↔
      params.length ≤ confGetIdentities build ∧ ∀ param ∈ params, param.1.head? ≠ some 0 := by
  obtain ⟨first, rest, packed, rfl, rfl, hpacked, hfits⟩ :=
    accepted_pack filled separable fits accepted
  obtain ⟨entries, hentries, hunpacks⟩ :=
    parseCommandParametersFrom_pack (confGetIdentities build) [] hfits
  simp only [List.nil_append, List.length_nil] at hentries hunpacks
  have hcount := hpacked.length_eq
  constructor
  · intro hroundTrip
    have hlength := hroundTrip.length_le
    refine ⟨hlength, ?_⟩
    obtain ⟨entries', hentries', hdelivers⟩ := hroundTrip
    obtain rfl : entries = entries' := by
      rw [parseCommandParameters, hentries] at hentries'
      exact Except.ok.inj hentries'
    -- as many entries as parameters: no line was left out
    have hall : taken (rest.map render) = rest.map render := by
      have hreceived := hunpacks.length_eq.symm.trans hdelivers.length_eq
      have hprefix : taken (rest.map render) <+: rest.map render := List.takeWhile_prefix _
      apply hprefix.eq_of_length_le
      simp only [List.length_take, List.length_cons, List.length_map] at hreceived hcount ⊢
      omega
    rw [hall] at hpacked
    intro param hparam
    have hrendered : render param ∈ render first :: rest.map render :=
      List.mem_map_of_mem hparam
    obtain ⟨understood, haccepted⟩ := exists_forall₂_iff.mp ⟨packed, hpacked⟩ _ hrendered
    have hhead := haccepted.head?_ne
    rwa [render, identPart_append (separable param hparam).2.1] at hhead
  · rintro ⟨hlength, hplain⟩
    have hall : taken (rest.map render) = rest.map render := by
      apply taken_eq_self
      intro l hl
      obtain ⟨param, hparam, rfl⟩ := List.mem_map.mp hl
      have hhead := hplain param (List.mem_cons_of_mem _ hparam)
      cases hident : param.1 with
      | nil => simp [render, hident, equalSign]
      | cons byte ident => simpa [render, hident] using hhead
    rw [hall] at hpacked hcount
    simp only [List.length_cons, List.length_map] at hcount hlength
    rw [List.take_of_length_le (by omega)] at hunpacks
    exact ⟨entries, hentries, forall₂_delivers hunpacks hpacked fun param hparam =>
      (separable param hparam).2.1⟩

/-- A text of the grammar is accepted. -/
theorem exists_accepted (filled : params ≠ [])
    (wellFormed : ∀ param ∈ params, WellFormedParam build param)
    (fits : (commandText params).length + 7 ≤ bufferSize) :
    ∃ parameter, parseUpdate build (commandText params) = .ok (.ok parameter) := by
  obtain ⟨first, rest, rfl⟩ := List.exists_cons_of_ne_nil filled
  have hsingle : ∀ l ∈ render first :: rest.map render, newLine ∉ l :=
    newLine_not_mem_render fun param hparam => (wellFormed param hparam).single
  have hshort : (unlines (render first :: rest.map render)).length + 10 ≤ bufferSize := by
    simp only [commandText, List.map_cons, List.length_cons, List.length_append,
      List.length_nil] at fits
    omega
  have haccepted : ∀ l ∈ render first :: taken (rest.map render),
      ∃ param, IsParameter build l param := by
    intro l hl
    have hlisted : l ∈ (first :: rest).map render :=
      List.cons_subset_cons _ (List.takeWhile_subset _) hl
    obtain ⟨param, hparam, rfl⟩ := List.mem_map.mp hlisted
    exact ((exists_render_iff (hsingle _ hlisted)).mp ⟨param, wellFormed param hparam, rfl⟩).1
  obtain ⟨packed, hpacked⟩ := exists_forall₂_iff.mpr haccepted
  refine ⟨packed.flatMap Param.pack, ?_⟩
  rw [commandText, List.map_cons, parseUpdate_lines hsingle hshort,
    parseLines_eq_ok_iff.mpr hpacked]
  rfl

/-- A parameter of every build. -/
theorem wellFormedParam_probeId :
    WellFormedParam (fun _ => false) (bytesOf "probe-id", bytesOf "1") :=
  ⟨⟨1, .probeId, .uint32, bytesOf "probe-id"⟩, by decide +kernel, by decide, by decide,
    by decide, by decide⟩

/-- Two parameters of every build, a number and a text. -/
def numberAndText : List (List UInt8 × List UInt8) :=
  [(bytesOf "probe-id", bytesOf "1"), (bytesOf "file-output.output-file", bytesOf "data.csv")]

theorem wellFormedParam_numberAndText :
    ∀ param ∈ numberAndText, WellFormedParam (fun _ => false) param := by
  have htext : WellFormedParam (fun _ => false)
      (bytesOf "file-output.output-file", bytesOf "data.csv") :=
    ⟨⟨18, .fileOutputOutputFile, .charStar, bytesOf "file-output.output-file"⟩,
      by decide +kernel, by decide, by decide, by decide, by decide⟩
  simpa [numberAndText] using And.intro wellFormedParam_probeId htext

theorem roundTrip_iff_numberAndText :
    ∃ parameter, parseUpdate (fun _ => false) (commandText numberAndText) = .ok (.ok parameter) ∧
      (RoundTrip (fun _ => false) numberAndText parameter ↔
        2 ≤ confGetIdentities (fun _ => false) ∧
          ∀ param ∈ numberAndText, param.1.head? ≠ some 0) := by
  obtain ⟨parameter, haccepted⟩ := exists_accepted (by simp [numberAndText])
    wellFormedParam_numberAndText (by decide)
  exact ⟨parameter, haccepted, roundTrip_iff _ numberAndText parameter (by simp [numberAndText])
    (by decide) (by decide) haccepted⟩

/-- A command that sets one parameter 48 times is accepted by a build with 47
identities, and the last setting does not arrive. -/
theorem not_roundTrip_repeated_probeId :
    ∃ parameter, parseUpdate (fun _ => false)
        (commandText (List.replicate 48 (bytesOf "probe-id", bytesOf "1"))) = .ok (.ok parameter) ∧
      ¬ RoundTrip (fun _ => false) (List.replicate 48 (bytesOf "probe-id", bytesOf "1"))
        parameter := by
  have hwell : ∀ param ∈ List.replicate 48 (bytesOf "probe-id", bytesOf "1"),
      WellFormedParam (fun _ => false) param := by
    intro param hparam
    rw [List.eq_of_mem_replicate hparam]
    exact wellFormedParam_probeId
  obtain ⟨parameter, haccepted⟩ := exists_accepted (by simp) hwell (by decide +kernel)
  refine ⟨parameter, haccepted, fun hroundTrip => ?_⟩
  have hcount : confGetIdentities (fun _ => false) = 47 := by decide +kernel
  have hlength := hroundTrip.length_le
  rw [List.length_replicate, hcount] at hlength
  omega

end MmtProbe.DynamicConf

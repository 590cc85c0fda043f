/-
# The parser of update commands, line by line

The pointer program of `_parse_update_parameters` is compared here with a parser
that works on a list of lines and has no memory.  `parseLine` says what becomes
of one line and `parseLines` where the list of parameters ends; the results at
the end of the module give the behaviour of the pointer program on every text,
including the one on which it leaves the received bytes.
-/

import Mathlib.Data.List.Forall2
import MmtProbe.DynamicConf.Server

namespace MmtProbe.DynamicConf

open MmtProbe.Math

/-! ## The abstract parser -/

/-- A parameter of an update command, as it is understood. -/
structure Param where
  identity : Identity
  value : List UInt8

/-- The packed form of a parameter. -/
def Param.pack (param : Param) : List UInt8 :=
  bytes16 param.identity.val ++ (bytes16 (param.value.length + 1) ++ (param.value ++ [0]))

/-- What stands before the first separator of a line. -/
def identPart (line : List UInt8) : List UInt8 := line.takeWhile (· != equalSign)

/-- What becomes of one line. -/
def parseLine (build : Build) (line : List UInt8) : Except UpdateError Param :=
  match line.dropWhile (· != equalSign) with
  | [] => .error (.notSeparated (cstring line))
  | _ :: value =>
      match confGetIdentityFromString build (cstring (identPart line)) with
      | none => .error (.notSupported (cstring (identPart line)))
      | some identity =>
          if identity.dataType = .noSupport then
            .error (.notSupported (cstring (identPart line)))
          else if value = [] then
            .error (.expectValue (cstring (identPart line)))
          else
            match confValidateDataValue identity (cstring value) with
            | some reason => .error (.invalidValue reason)
            | none => .ok ⟨identity, value⟩

/-- Whether the byte behind a line is taken for the end of the text. -/
def atEnd : List (List UInt8) → Bool
  | [] => true
  | line :: _ => line.head? == some 0

/-- What becomes of the lines of an update command. -/
def parseLines (build : Build) : List (List UInt8) → Except UpdateError (List Param)
  | [] => .ok []
  | line :: lines =>
      match parseLine build line with
      | .error reason => .error reason
      | .ok param =>
          if atEnd lines then .ok [param]
          else (parseLines build lines).map (param :: ·)

variable {build : Build} {line value ident : List UInt8} {param : Param}

/-! ## Lines with and without a separator -/

theorem identPart_append (plain : equalSign ∉ ident) :
    identPart (ident ++ equalSign :: value) = ident := by
  rw [identPart, List.takeWhile_append_of_pos fun byte hbyte => by
    have : byte ≠ equalSign := fun h => plain (h ▸ hbyte)
    simpa using this]
  simp

theorem dropWhile_append (plain : equalSign ∉ ident) :
    (ident ++ equalSign :: value).dropWhile (· != equalSign) = equalSign :: value := by
  rw [List.dropWhile_append_of_pos fun byte hbyte => by
    have : byte ≠ equalSign := fun h => plain (h ▸ hbyte)
    simpa using this]
  simp

theorem parseLine_of_not_mem (single : equalSign ∉ line) :
    parseLine build line = .error (.notSeparated (cstring line)) := by
  have hdrop : line.dropWhile (· != equalSign) = [] := by
    rw [List.dropWhile_eq_nil_iff]
    intro byte hbyte
    have : byte ≠ equalSign := fun h => single (h ▸ hbyte)
    simpa using this
  rw [parseLine, hdrop]

/-- A line is a parameter when its name is known and supported and its value is
there and accepted. -/
def IsParameter (build : Build) (line : List UInt8) (param : Param) : Prop :=
  line = identPart line ++ equalSign :: param.value ∧
    confGetIdentityFromString build (cstring (identPart line)) = some param.identity ∧
    param.identity.dataType ≠ .noSupport ∧ param.value ≠ [] ∧
    confValidateDataValue param.identity (cstring param.value) = none

theorem parseLine_eq_ok_iff : parseLine build line = .ok param ↔ IsParameter build line param := by
  by_cases separated : equalSign ∈ line
  · obtain ⟨ident, value, rfl, hident⟩ := List.eq_append_cons_of_mem separated
    obtain ⟨identity, paramValue⟩ := param
    simp only [parseLine, dropWhile_append hident, IsParameter, identPart_append hident,
      List.append_cancel_left_eq, List.cons.injEq, true_and]
    constructor
    · intro hok
      split at hok
      · cases hok
      · next found hfound =>
          split_ifs at hok with hsupport hempty
          split at hok
          · cases hok
          · next hvalid =>
              cases hok
              exact ⟨rfl, hfound, hsupport, hempty, hvalid⟩
    · rintro ⟨rfl, hfound, hsupport, hempty, hvalid⟩
      simp [hfound, hsupport, hempty, hvalid]
  · rw [parseLine_of_not_mem separated]
    constructor
    · intro hok
      cases hok
    · rintro ⟨hline, -⟩
      exact absurd (hline ▸ List.mem_append_right _ List.mem_cons_self) separated

/-! ## The pointer program on one line -/

variable {paramSize : Nat} {identity : Identity} {before after parameter : List UInt8}

/-- The counter stops at the end of the line, with the number of characters before it. -/
theorem countValue_eq (before front after : List UInt8) (single : newLine ∉ value)
    (narrow : front.length + value.length < 2 ^ 16) {rounds : Nat}
      (enough : value.length < rounds) :
    countValue (before ++ (front ++ (value ++ newLine :: after))) before.length rounds
        (UInt16.ofNat front.length) =
      .ok (UInt16.ofNat (front.length + value.length)) := by
  have hfront : (UInt16.ofNat front.length).toNat = front.length :=
    UInt16.toNat_ofNat_of_lt' (show front.length < 2 ^ 16 by omega)
  induction value generalizing front rounds with
  | nil =>
      rcases Nat.exists_eq_add_of_lt enough with ⟨rounds, rfl⟩
      have hload : load (before ++ (front ++ newLine :: after)) (before.length + front.length) =
          .ok newLine := load_append_append before front after newLine
      rw [countValue, hfront, List.nil_append, hload, bind_ok, if_pos rfl]
      rfl
  | cons byte value ih =>
      rw [List.length_cons] at enough narrow
      rcases Nat.exists_eq_add_of_lt enough with ⟨rounds, rfl⟩
      have hbyte : byte ≠ newLine := fun h => single (h ▸ List.mem_cons_self)
      have hload : load (before ++ (front ++ (byte :: value ++ newLine :: after)))
          (before.length + front.length) = .ok byte :=
        load_append_append before front (value ++ newLine :: after) byte
      have hlonger : (front ++ [byte]).length = front.length + 1 := by simp
      have hsucc : UInt16.ofNat front.length + 1 = UInt16.ofNat (front ++ [byte]).length := by
        rw [hlonger, UInt16.ofNat_add]
        rfl
      have hnext : countValue (before ++ (front ++ [byte] ++ (value ++ newLine :: after)))
          before.length (value.length + 1 + rounds) (UInt16.ofNat (front ++ [byte]).length) =
            .ok (UInt16.ofNat ((front ++ [byte]).length + value.length)) :=
        ih (front ++ [byte]) (fun listed => single (List.mem_cons_of_mem _ listed)) (by omega)
          (by omega) (UInt16.toNat_ofNat_of_lt' (show (front ++ [byte]).length < 2 ^ 16 by omega))
      rw [countValue, hfront, hload, bind_ok, if_neg hbyte, hsucc]
      simp only [List.append_assoc, List.nil_append, List.cons_append] at hnext ⊢
      rw [hnext, hlonger, List.length_cons]
      congr 2
      omega

/-- The second half of a round, on a value that is not empty and fits. -/
theorem parseValue_eq (single : newLine ∉ value) (filled : value ≠ [])
    (fits : parameter.length + 4 + (value.length + 1) ≤ paramSize) (narrow : paramSize < 2 ^ 16) :
    parseValue paramSize identity ident (before ++ (value ++ newLine :: after)) before.length
        parameter =
      .ok (match confValidateDataValue identity (cstring value) with
        | some reason => .error (.invalidValue reason)
        | none => .ok (before ++ (value ++ 0 :: after), before.length + (value.length + 1),
            parameter ++ Param.pack ⟨identity, value⟩)) := by
  have hcount : countValue (before ++ (value ++ newLine :: after)) before.length
      ((before ++ (value ++ newLine :: after)).length + 1) 0 = .ok (UInt16.ofNat value.length) := by
    simpa using countValue_eq before [] after single (by simp; omega)
      (show value.length < (before ++ (value ++ newLine :: after)).length + 1 by simp; omega)
  have hlen : value.length ≠ 0 := fun h => filled (List.length_eq_zero_iff.mp h)
  have hcounted : (UInt16.ofNat value.length).toNat = value.length :=
    UInt16.toNat_ofNat_of_lt' (show value.length < 2 ^ 16 by omega)
  have hne : UInt16.ofNat value.length ≠ 0 := fun h => hlen (by rw [← hcounted, h]; rfl)
  have hsucc : (UInt16.ofNat value.length + 1).toNat = value.length + 1 := by
    rw [UInt16.toNat_add, hcounted]
    exact Nat.mod_eq_of_lt (show value.length + 1 < 2 ^ 16 by omega)
  have hfits : ¬ paramSize < parameter.length + 2 + 2 + (value.length + 1) := by omega
  have hdata : loadBytes (before ++ (value ++ 0 :: after)) before.length (value.length + 1)
      = .ok (value ++ [0]) := by
    have hload := loadBytes_append before (value ++ [0]) after
    rw [List.append_assoc, List.length_append] at hload
    exact hload
  simp only [parseValue, hcount, bind_ok, hne, if_false, hcounted, hsucc, store_append_append,
    loadString_append]
  cases confValidateDataValue identity (cstring value) with
  | some reason => rfl
  | none =>
      simp only [hfits, if_false, hdata, bind_ok, Param.pack]
      rfl

theorem parseValue_empty :
    parseValue paramSize identity ident (before ++ newLine :: after) before.length parameter =
      .ok (.error (.expectValue ident)) := by
  have hcount : countValue (before ++ newLine :: after) before.length
      ((before ++ newLine :: after).length + 1) 0 = .ok 0 := by
    simpa using countValue_eq before [] after (List.not_mem_nil (a := newLine)) (by simp)
      (Nat.succ_pos (before ++ newLine :: after).length)
  simp only [parseValue, hcount, bind_ok, if_true]
  rfl

/-- A round on a line without a separator. -/
theorem parseParameter_of_not_mem (single : newLine ∉ line) (whole : equalSign ∉ line) :
    parseParameter build paramSize (before ++ (line ++ newLine :: after)) before.length parameter =
      .ok (.error (.notSeparated (cstring line))) := by
  have hscan : scan (fun byte => byte == newLine || byte == equalSign)
      (before ++ (line ++ newLine :: after)) before.length = .ok (before.length + line.length) :=
    scan_append (fun byte hbyte => by
      have hnewLine : byte ≠ newLine := fun h => single (h ▸ hbyte)
      have hequal : byte ≠ equalSign := fun h => whole (h ▸ hbyte)
      simp [hnewLine, hequal]) (by simp)
  simp only [parseParameter, hscan, bind_ok, load_append_append, store_append_append,
    loadString_append, if_true]
  rfl

/-- A round on a line with a separator stops at it, and goes on behind it when
the name is supported. -/
theorem parseParameter_append (hnewLine : newLine ∉ ident) (hequal : equalSign ∉ ident) :
    parseParameter build paramSize (before ++ (ident ++ equalSign :: after)) before.length
        parameter =
      match confGetIdentityFromString build (cstring ident) with
      | none => .ok (.error (.notSupported (cstring ident)))
      | some identity =>
          if identity.dataType = .noSupport then .ok (.error (.notSupported (cstring ident)))
          else parseValue paramSize identity (cstring ident) (before ++ (ident ++ 0 :: after))
            (before.length + ident.length + 1) parameter := by
  have hscan : scan (fun byte => byte == newLine || byte == equalSign)
      (before ++ (ident ++ equalSign :: after)) before.length
      = .ok (before.length + ident.length) :=
    scan_append (fun byte hbyte => by
      have hnewLine : byte ≠ newLine := fun h => hnewLine (h ▸ hbyte)
      have hequal : byte ≠ equalSign := fun h => hequal (h ▸ hbyte)
      simp [hnewLine, hequal]) (by simp)
  have hne : ¬ equalSign = newLine := by decide
  simp only [parseParameter, hscan, bind_ok, load_append_append, store_append_append,
    loadString_append, hne, if_false]
  cases confGetIdentityFromString build (cstring ident) with
  | none => rfl
  | some identity => rfl

/-- A round of the pointer program does to a line what `parseLine` says. When the
line is a parameter, the pointer ends behind it and the bytes behind it are left
as they were. -/
theorem parseParameter_refines (build : Build) (before after : List UInt8)
    (single : newLine ∉ line) (fits : parameter.length + (line.length + 1) ≤ paramSize)
    (narrow : paramSize < 2 ^ 16) :
    match parseLine build line with
    | .error reason =>
        parseParameter build paramSize (before ++ (line ++ newLine :: after)) before.length
          parameter = .ok (.error reason)
    | .ok param => ∃ passed, passed.length = before.length + (line.length + 1) ∧
        parseParameter build paramSize (before ++ (line ++ newLine :: after)) before.length
          parameter = .ok (.ok (passed ++ after, passed.length, parameter ++ param.pack)) := by
  by_cases separated : equalSign ∈ line
  · obtain ⟨ident, value, rfl, hident⟩ := List.eq_append_cons_of_mem separated
    have hfree : newLine ∉ ident ∧ newLine ∉ value := by
      simp only [List.mem_append, List.mem_cons, not_or] at single
      exact ⟨single.1, single.2.2⟩
    have hround : parseParameter build paramSize
        (before ++ (ident ++ equalSign :: (value ++ newLine :: after))) before.length parameter
        = _ := parseParameter_append hfree.1 hident
    simp only [List.append_assoc, List.cons_append, parseLine, dropWhile_append hident,
      identPart_append hident, hround]
    cases hfound : confGetIdentityFromString build (cstring ident) with
    | none => rfl
    | some identity =>
        by_cases hsupport : identity.dataType = .noSupport
        · simp only [hsupport, if_true]
        simp only [hsupport, if_false]
        -- behind the separator, the name and its NUL belong to what was passed
        have hpassed : ∀ rest : List UInt8,
            before ++ (ident ++ 0 :: rest) = (before ++ (ident ++ [0])) ++ rest := by simp
        have hlen : before.length + ident.length + 1 = (before ++ (ident ++ [0])).length := by
          simp [Nat.add_assoc]
        by_cases hempty : value = []
        · subst hempty
          simp only [if_true, List.nil_append]
          rw [hpassed, hlen]
          exact parseValue_empty
        have hname : 7 ≤ ident.length := by
          obtain ⟨hlisted, hident⟩ := confGetIdentityFromString_eq_some hfound
          have hplain := (plain_of_mem_identities hlisted).1.1
          have hcut := length_cstring_le ident
          rw [hident] at hplain
          omega
        have hfits : parameter.length + 4 + (value.length + 1) ≤ paramSize := by
          simp only [List.length_append, List.length_cons] at fits
          omega
        simp only [hempty, if_false]
        rw [hpassed, hlen, parseValue_eq hfree.2 hempty hfits narrow]
        cases confValidateDataValue identity (cstring value) with
        | some reason => rfl
        | none =>
            refine ⟨(before ++ (ident ++ [0])) ++ (value ++ [0]), ?_, ?_⟩
            · simp only [List.length_append, List.length_cons, List.length_nil]
              omega
            · simp only [List.append_assoc, List.cons_append, List.nil_append,
                List.length_append, List.length_cons, List.length_nil, Except.ok.injEq,
                Prod.mk.injEq, true_and, and_true]
              omega
  · rw [parseLine_of_not_mem separated]
    exact parseParameter_of_not_mem single separated

/-! ## The pointer program on a whole text -/

/-- The packed form of a parameter is not longer than its line. -/
theorem length_pack_le (accepted : parseLine build line = .ok param) :
    param.pack.length ≤ line.length + 1 := by
  obtain ⟨hline, hfound, -⟩ := parseLine_eq_ok_iff.mp accepted
  obtain ⟨hlisted, hident⟩ := confGetIdentityFromString_eq_some hfound
  have hplain := (plain_of_mem_identities hlisted).1.1
  have hcut := length_cstring_le (identPart line)
  have hlength := congrArg List.length hline
  rw [List.length_append, List.length_cons] at hlength
  rw [hident] at hplain
  simp only [Param.pack, bytes16, List.length_append, List.length_cons, List.length_nil]
  omega

/-- The byte found behind a line is NUL where `atEnd` says so. -/
theorem load_behind (before after : List UInt8) (lines : List (List UInt8)) :
    ∃ byte, load (before ++ (unlines lines ++ 0 :: after)) before.length = .ok byte ∧
      (byte = 0 ↔ atEnd lines = true) := by
  cases lines with
  | nil => exact ⟨0, load_append _ _ _, by simp [atEnd]⟩
  | cons line lines =>
      cases line with
      | nil => exact ⟨10, load_append _ _ _, by simp [atEnd]⟩
      | cons byte line => exact ⟨byte, load_append _ _ _, by simp [atEnd]⟩

/-- One round of the loop of the pointer program. -/
theorem parseParameters_round (build : Build) (before after : List UInt8)
    (lines : List (List UInt8)) (rounds : Nat) (single : newLine ∉ line)
    (fits : parameter.length + (line.length + 1) ≤ paramSize) (narrow : paramSize < 2 ^ 16) :
    match parseLine build line with
    | .error reason =>
        parseParameters build paramSize (rounds + 1)
          (before ++ (unlines (line :: lines) ++ 0 :: after)) before.length parameter =
            .ok (.error reason)
    | .ok param => ∃ passed : List UInt8,
        parseParameters build paramSize (rounds + 1)
          (before ++ (unlines (line :: lines) ++ 0 :: after)) before.length parameter =
            if atEnd lines then .ok (.ok (parameter ++ param.pack))
            else parseParameters build paramSize rounds
              (passed ++ (unlines lines ++ 0 :: after)) passed.length
              (parameter ++ param.pack) := by
  have hround := parseParameter_refines build before (unlines lines ++ 0 :: after) single fits
    narrow
  have hmemory : before ++ (unlines (line :: lines) ++ 0 :: after)
      = before ++ (line ++ newLine :: (unlines lines ++ 0 :: after)) := by
    simp [newLine]
  cases hline : parseLine build line with
  | error reason =>
      rw [hline] at hround
      simp only [parseParameters, hmemory, hround, bind_ok]
      rfl
  | ok param =>
      rw [hline] at hround
      obtain ⟨passed, -, hround⟩ := hround
      obtain ⟨byte, hload, hend⟩ := load_behind passed after lines
      refine ⟨passed, ?_⟩
      simp only [parseParameters, hmemory, hround, bind_ok, hload, hend]
      rfl

/-- The loop of the pointer program does to the lines of a text what
`parseLines` says. -/
theorem parseParameters_refines {lines : List (List UInt8)} {rounds : Nat}
    (single : ∀ l ∈ line :: lines, newLine ∉ l) (enough : lines.length < rounds)
    (fits : parameter.length + (unlines (line :: lines)).length ≤ paramSize)
    (narrow : paramSize < 2 ^ 16) :
    parseParameters build paramSize rounds (before ++ (unlines (line :: lines) ++ 0 :: after))
        before.length parameter =
      .ok ((parseLines build (line :: lines)).map
        fun params => parameter ++ params.flatMap Param.pack) := by
  induction lines generalizing line before parameter rounds with
  | nil =>
      obtain ⟨rounds, rfl⟩ : ∃ n, rounds = n + 1 := ⟨rounds - 1, by omega⟩
      have hround := parseParameters_round build before after [] rounds
        (single line List.mem_cons_self) (by simpa using fits) narrow
      rw [parseLines]
      cases hline : parseLine build line with
      | error reason =>
          rw [hline] at hround
          exact hround
      | ok param =>
          rw [hline] at hround
          obtain ⟨passed, hround⟩ := hround
          rw [hround]
          simp [atEnd, Except.map]
  | cons following lines ih =>
      obtain ⟨rounds, rfl⟩ : ∃ n, rounds = n + 1 := ⟨rounds - 1, by omega⟩
      have hlength : (unlines (line :: following :: lines)).length
          = line.length + 1 + (unlines (following :: lines)).length := by
        simp; omega
      have hfits : parameter.length + (line.length + 1) ≤ paramSize := by omega
      have hround := parseParameters_round build before after (following :: lines) rounds
        (single line List.mem_cons_self) hfits narrow
      rw [parseLines]
      cases hline : parseLine build line with
      | error reason =>
          rw [hline] at hround
          exact hround
      | ok param =>
          have hpack := length_pack_le hline
          rw [hline] at hround
          obtain ⟨passed, hround⟩ := hround
          rw [hround]
          by_cases hend : atEnd (following :: lines) = true
          · simp [hend, Except.map]
          · rw [if_neg hend, ih (fun l hl => single l (List.mem_cons_of_mem _ hl))
              (by simpa using enough) (by rw [List.length_append]; omega)]
            simp only [hend]
            cases parseLines build (following :: lines) with
            | error reason => rfl
            | ok params => simp [Except.map]

/-! ## The whole function -/

/-- The call that `_processing` makes for a text behind `update`. -/
def parseUpdate (build : Build) (text : List UInt8) :
    Except Fault (Except UpdateError (List UInt8)) :=
  parseUpdateParameters build (bytesOf "update" ++ (text ++ [0])) (bytesOf "update").length
    (text.length + 1) cmdParamMaxLength

variable {text inner body : List UInt8}

/-- The NUL behind the text is left out. -/
theorem parseUpdateParameters_eq (short : before.length + (text.length + 1) < 2 ^ 64) :
    parseUpdateParameters build (before ++ (text ++ [0])) before.length (text.length + 1)
        paramSize =
      parseBraces build (before ++ (text ++ [0])) before.length text.length paramSize := by
  have hsub : sizeSub (text.length + 1) 1 = text.length := by
    rw [sizeSub_of_le (by omega) (by omega), Nat.add_sub_cancel]
  have hindex : index before.length text.length = before.length + text.length :=
    index_of_lt (by omega)
  simp only [parseUpdateParameters, loadString_append, bind_ok, Nat.add_one_ne_zero, if_false,
    hsub, hindex, load_append_append, if_true]

/-- The check of the braces looks at the first and at the last byte. -/
theorem parseBraces_eq {first last : UInt8}
    (short : before.length + ((first :: (inner ++ [last])).length + 1) < 2 ^ 64) :
    parseBraces build (before ++ (first :: (inner ++ [last]) ++ [0])) before.length
        (first :: (inner ++ [last])).length paramSize =
      if first = openBrace ∧ last = closeBrace then
        parseBetweenBraces build (before ++ (first :: (inner ++ [last]) ++ [0])) before.length
          (first :: (inner ++ [last])).length paramSize
      else .ok (.error .notSurrounded) := by
  have hlength : (first :: (inner ++ [last])).length = inner.length + 2 := by simp
  have hfirst : load (before ++ (first :: (inner ++ [last]) ++ [0])) before.length = .ok first :=
    load_append _ _ _
  have haddress : index before.length (sizeSub (first :: (inner ++ [last])).length 1)
      = before.length + (first :: inner).length := by
    rw [sizeSub_of_le (by omega) (by omega), index_of_lt (by omega), hlength, List.length_cons]
    omega
  have hlast : load (before ++ (first :: (inner ++ [last]) ++ [0]))
      (before.length + (first :: inner).length) = .ok last := by
    simpa using load_append_append before (first :: inner) [0] last
  have hlong : ¬ (first :: (inner ++ [last])).length < 2 := by omega
  simp only [parseBraces, hlong, if_false, hfirst, bind_ok, haddress, hlast]
  by_cases hopen : first = openBrace
  · by_cases hclose : last = closeBrace
    · simp only [hopen, hclose, ne_eq, not_true_eq_false, if_false, and_self, if_true]
    · simp only [hopen, hclose, ne_eq, not_true_eq_false, not_false_eq_true, if_false, if_true,
        and_false]
      rfl
  · simp only [hopen, ne_eq, not_false_eq_true, if_true, false_and, if_false]
    rfl

/-- A text without braces around it is refused. -/
theorem parseBraces_bare (short : before.length + (text.length + 1) < 2 ^ 64)
    (bare : ∀ inner, text ≠ openBrace :: (inner ++ [closeBrace])) :
    parseBraces build (before ++ (text ++ [0])) before.length text.length paramSize =
      .ok (.error .notSurrounded) := by
  by_cases hshort : text.length < 2
  · simp only [parseBraces, hshort, if_true]
    rfl
  obtain ⟨first, rest, rfl⟩ := List.exists_cons_of_length_pos (show 0 < text.length by omega)
  rcases List.eq_nil_or_concat rest with rfl | ⟨inner, last, hrest⟩
  · simp at hshort
  rw [List.concat_eq_append] at hrest
  subst hrest
  rw [parseBraces_eq short, if_neg]
  rintro ⟨rfl, rfl⟩
  exact bare inner rfl

/-- Where the program looks for the newline in front of the closing brace: it is
the byte in front of that brace even when the length has dropped below zero. -/
theorem index_last_eq {pointer length : Nat} (short : pointer + length + 2 < 2 ^ 64) :
    index (pointer + 2) (sizeSub (sizeSub (sizeSub (length + 3) 2) 1) 1) =
      pointer + 1 + length := by
  simp only [index, sizeSub]
  omega

/-- Behind the braces, the byte in front of the closing one must be a newline. -/
theorem parseBetweenBraces_eq {skipped : UInt8}
    (short : before.length + body.length + 3 < 2 ^ 64) :
    parseBetweenBraces build
        (before ++ (openBrace :: (skipped :: body ++ [closeBrace]) ++ [0])) before.length
        (openBrace :: (skipped :: body ++ [closeBrace])).length paramSize =
      if (skipped :: body).getLast? = some newLine then
        parseParameters build paramSize (before.length + body.length + 4)
          ((before ++ [openBrace, skipped]) ++ (body ++ [0, 0]))
            (before ++ [openBrace, skipped]).length []
      else .ok (.error .lastNotEnded) := by
  have hlength : (openBrace :: (skipped :: body ++ [closeBrace])).length = body.length + 3 := by
    simp
  have hstore : store (before ++ (openBrace :: (skipped :: body ++ [closeBrace]) ++ [0]))
      (index (before.length + 1) (sizeSub (body.length + 3) 2)) 0
      = .ok ((before ++ [openBrace, skipped]) ++ (body ++ [0, 0])) := by
    have haddress : index (before.length + 1) (sizeSub (body.length + 3) 2)
        = before.length + (openBrace :: skipped :: body).length := by
      rw [sizeSub_of_le (by omega) (by omega), index_of_lt (by omega)]
      simp only [List.length_cons]
      omega
    rw [haddress]
    simpa using store_append_append before (openBrace :: skipped :: body) [0] closeBrace 0
  obtain ⟨front, last, hfront⟩ : ∃ front last, skipped :: body = front ++ [last] := by
    rcases List.eq_nil_or_concat (skipped :: body) with h | ⟨front, last, h⟩
    · cases h
    · exact ⟨front, last, by rw [h, List.concat_eq_append]⟩
  have hload : load ((before ++ [openBrace, skipped]) ++ (body ++ [0, 0]))
      (index (before.length + 1 + 1) (sizeSub (sizeSub (sizeSub (body.length + 3) 2) 1) 1))
      = .ok last := by
    have hmemory : (before ++ [openBrace, skipped]) ++ (body ++ [0, 0])
        = before ++ (openBrace :: front ++ last :: [0, 0]) := by
      have : openBrace :: skipped :: body = openBrace :: (front ++ [last]) := by rw [hfront]
      calc (before ++ [openBrace, skipped]) ++ (body ++ [0, 0])
          = before ++ (openBrace :: skipped :: body ++ [0, 0]) := by simp
        _ = before ++ (openBrace :: front ++ last :: [0, 0]) := by rw [this]; simp
    have hcount : front.length = body.length := by
      have := congrArg List.length hfront
      simpa using this.symm
    rw [index_last_eq (by omega), hmemory, ← hcount,
      show before.length + 1 + front.length = before.length + (openBrace :: front).length by
        simp only [List.length_cons]; omega]
    exact load_append_append _ _ _ _
  have hmemoryLength : ((before ++ [openBrace, skipped]) ++ (body ++ [0, 0])).length
      = before.length + body.length + 4 := by
    simp only [List.length_append, List.length_cons, List.length_nil]
    omega
  have hpointer : before.length + 1 + 1 = (before ++ [openBrace, skipped]).length := by simp
  have hgetLast : (skipped :: body).getLast? = some last := by
    rw [hfront, List.getLast?_concat]
  simp only [parseBetweenBraces, hlength, hstore, bind_ok, hload, hmemoryLength, hgetLast,
    Option.some.injEq]
  by_cases hnewLine : last = newLine
  · simp only [hnewLine, ne_eq, not_true_eq_false, if_false, if_true, hpointer]
  · simp only [hnewLine, ne_eq, not_false_eq_true, if_true, if_false]
    rfl

theorem length_update : (bytesOf "update").length = 6 := by decide

/-- A text without braces around it is refused. -/
theorem parseUpdate_bare (short : text.length + 7 ≤ bufferSize)
    (bare : ∀ inner, text ≠ openBrace :: (inner ++ [closeBrace])) :
    parseUpdate build text = .ok (.error .notSurrounded) := by
  have hshort : (bytesOf "update").length + (text.length + 1) < 2 ^ 64 := by
    rw [length_update]
    simp only [bufferSize, cmdParamMaxLength] at short
    omega
  rw [parseUpdate, parseUpdateParameters_eq hshort, parseBraces_bare hshort bare]

/-- Two braces alone are refused, after a look at the byte in front of them. -/
theorem parseUpdate_braces :
    parseUpdate build [openBrace, closeBrace] = .ok (.error .lastNotEnded) := by
  rfl

/-- What happens to a text with braces around it. -/
theorem parseUpdate_surrounded {skipped : UInt8} (short : body.length + 10 ≤ bufferSize) :
    parseUpdate build (openBrace :: (skipped :: body ++ [closeBrace])) =
      if (skipped :: body).getLast? = some newLine then
        parseParameters build cmdParamMaxLength (body.length + 10)
          ((bytesOf "update" ++ [openBrace, skipped]) ++ (body ++ [0, 0]))
          (bytesOf "update" ++ [openBrace, skipped]).length []
      else .ok (.error .lastNotEnded) := by
  have hshort : (bytesOf "update").length
      + ((openBrace :: (skipped :: body ++ [closeBrace])).length + 1) < 2 ^ 64 := by
    simp only [length_update, List.length_cons, List.length_append, List.length_nil]
    simp only [bufferSize, cmdParamMaxLength] at short
    omega
  rw [parseUpdate, parseUpdateParameters_eq hshort, parseBraces_eq hshort,
    if_pos ⟨rfl, rfl⟩, parseBetweenBraces_eq (by
      simp only [length_update]
      simp only [bufferSize, cmdParamMaxLength] at short
      omega), length_update]
  simp only [show 6 + body.length + 4 = body.length + 10 by omega]

/-- The one text on which the program leaves the received bytes: there is no
parameter in it, and no newline behind the opening brace once the closing one
has been overwritten. -/
theorem parseUpdate_empty :
    parseUpdate build [openBrace, newLine, closeBrace] = .error (.load 10) := by
  rfl

theorem getLast?_unlines (skipped : UInt8) (line : List UInt8) (lines : List (List UInt8)) :
    (skipped :: unlines (line :: lines)).getLast? = some newLine := by
  obtain ⟨front, hfront⟩ := exists_unlines_eq_concat line lines
  rw [hfront, ← List.cons_append, List.getLast?_concat]
  rfl

/-- What happens to a text made of lines. -/
theorem parseUpdate_lines {skipped : UInt8} {lines : List (List UInt8)}
    (single : ∀ l ∈ line :: lines, newLine ∉ l)
    (short : (unlines (line :: lines)).length + 10 ≤ bufferSize) :
    parseUpdate build (openBrace :: (skipped :: unlines (line :: lines) ++ [closeBrace])) =
      .ok ((parseLines build (line :: lines)).map fun params => params.flatMap Param.pack) := by
  have hlines : lines.length < (unlines (line :: lines)).length + 10 := by
    have := length_le_length_unlines (line :: lines)
    rw [List.length_cons] at this
    omega
  rw [parseUpdate_surrounded short, if_pos (getLast?_unlines skipped line lines),
    parseParameters_refines single hlines]
  · rfl
  · simp only [List.length_nil]
    simp only [bufferSize] at short
    omega
  · decide

/-- The lines in front of the first one that begins with a NUL. -/
def taken (lines : List (List UInt8)) : List (List UInt8) :=
  lines.takeWhile fun line => line.head? != some 0

/-- The lines are accepted when those in front of the first one that begins with
a NUL are parameters; the first line counts in any case. -/
theorem parseLines_eq_ok_iff {lines : List (List UInt8)} {params : List Param} :
    parseLines build (line :: lines) = .ok params ↔
      List.Forall₂ (IsParameter build) (line :: taken lines) params := by
  induction lines generalizing line params with
  | nil =>
      simp only [parseLines, taken, List.takeWhile_nil, List.forall₂_cons_left_iff,
        List.forall₂_nil_left_iff, ← parseLine_eq_ok_iff]
      cases parseLine build line with
      | error reason => simp
      | ok param => simp [atEnd, eq_comm]
  | cons following lines ih =>
      rw [parseLines, List.forall₂_cons_left_iff]
      simp only [← parseLine_eq_ok_iff]
      cases parseLine build line with
      | error reason => simp
      | ok param =>
          by_cases hend : atEnd (following :: lines) = true
          · have htaken : taken (following :: lines) = [] := by
              simp only [atEnd, beq_iff_eq] at hend
              simp [taken, hend]
            simp [hend, htaken, eq_comm]
          · have htaken : taken (following :: lines) = following :: taken lines := by
              simp only [atEnd, beq_iff_eq] at hend
              simp [taken, hend]
            simp only [hend, htaken, ← ih]
            cases parseLines build (following :: lines) with
            | error reason => simp [Except.map]
            | ok rest => simp [Except.map, eq_comm]

/-- The packed form of some lines is not longer than the lines. -/
theorem length_flatMap_pack_le {lines : List (List UInt8)} {packed : List Param}
    (accepted : List.Forall₂ (IsParameter build) lines packed) :
    (packed.flatMap Param.pack).length ≤ (unlines lines).length := by
  induction accepted with
  | nil => exact Nat.le_refl _
  | cons haccepted _ ih =>
      have hpack := length_pack_le (parseLine_eq_ok_iff.mpr haccepted)
      rw [List.flatMap_cons, List.length_append, unlines_cons, List.length_append,
        List.length_cons]
      omega

theorem length_unlines_taken_le (line : List UInt8) (lines : List (List UInt8)) :
    (unlines (line :: taken lines)).length ≤ (unlines (line :: lines)).length := by
  have hprefix : line :: taken lines <+: line :: lines :=
    List.cons_prefix_cons.mpr ⟨rfl, List.takeWhile_prefix _⟩
  obtain ⟨rest, hrest⟩ := hprefix
  rw [← hrest]
  simp [unlines]

/-- Elements that all have a partner can be paired off. -/
theorem exists_forall₂_iff {α β : Type} {related : α → β → Prop} {first : List α} :
    (∃ second, List.Forall₂ related first second) ↔ ∀ a ∈ first, ∃ b, related a b := by
  induction first with
  | nil => simp
  | cons a first ih =>
      rw [List.forall_mem_cons, ← ih]
      simp only [List.forall₂_cons_left_iff]
      constructor
      · rintro ⟨_, b, second, hb, hsecond, -⟩
        exact ⟨⟨b, hb⟩, second, hsecond⟩
      · rintro ⟨⟨b, hb⟩, second, hsecond⟩
        exact ⟨b :: second, b, second, hb, hsecond, rfl⟩

/-- What holds of every partner of an element holds of all partners. -/
theorem forall_mem_right {α β : Type} {related : α → β → Prop} {property : β → Prop}
    {first : List α} {second : List β} (pairs : List.Forall₂ related first second)
    (holds : ∀ a ∈ first, ∀ b, related a b → property b) : ∀ b ∈ second, property b := by
  induction pairs with
  | nil => simp
  | cons hpair _ ih =>
      rw [List.forall_mem_cons] at holds ⊢
      exact ⟨holds.1 _ hpair, ih holds.2⟩

/-- Every text is of one of five kinds. -/
theorem text_cases (text : List UInt8) :
    (∀ inner, text ≠ openBrace :: (inner ++ [closeBrace])) ∨ text = [openBrace, closeBrace] ∨
      (∃ skipped body, text = openBrace :: (skipped :: body ++ [closeBrace]) ∧
        (skipped :: body).getLast? ≠ some newLine) ∨
      text = [openBrace, newLine, closeBrace] ∨
      ∃ skipped line lines, text = openBrace ::
        (skipped :: unlines (line :: lines) ++ [closeBrace]) ∧
        ∀ l ∈ line :: lines, newLine ∉ l := by
  by_cases bare : ∀ inner, text ≠ openBrace :: (inner ++ [closeBrace])
  · exact .inl bare
  simp only [ne_eq, not_forall, not_not] at bare
  obtain ⟨inner, rfl⟩ := bare
  cases inner with
  | nil => exact .inr (.inl rfl)
  | cons skipped body =>
      by_cases hlast : (skipped :: body).getLast? = some newLine
      · rcases List.eq_nil_or_concat body with rfl | ⟨front, last, hbody⟩
        · simp only [List.getLast?_singleton, Option.some.injEq] at hlast
          exact .inr (.inr (.inr (.inl (by rw [hlast]; rfl))))
        · rw [List.concat_eq_append] at hbody
          subst hbody
          rw [← List.cons_append, List.getLast?_concat, Option.some.injEq] at hlast
          obtain ⟨line, lines, hlines, hsingle⟩ := exists_unlines front
          exact .inr (.inr (.inr (.inr
            ⟨skipped, line, lines, by rw [← hlines, hlast]; rfl, hsingle⟩)))
      · exact .inr (.inr (.inl ⟨skipped, body, rfl, hlast⟩))

end MmtProbe.DynamicConf

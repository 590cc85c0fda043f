/-
# Reading report lines back

A report is one line of comma-separated values.  Its fields are numbers, strings
between quotes, times and MAC addresses; a comma between quotes belongs to the
string.  The builder that writes such a line has no escapes, so the line can be
taken apart only because no field but a string holds a comma and no string holds a
quote.  The main result says that it can: with room for the whole line and sixteen
bytes more, splitting the line gives the fields that were written.
-/

import MmtProbe.Lib.StringBuilderText

namespace MmtProbe.Lib

open MmtProbe.Math MmtProbe.Dpi

/-! ## Splitting -/

/-- The fields of a line: commas separate them, except between quotes. -/
def splitLine : Bool → List UInt8 → List (List UInt8)
  | _, [] => [[]]
  | quoted, byte :: bytes =>
      if byte = 44 ∧ quoted = false then [] :: splitLine false bytes
      else (splitLine (if byte = 34 then !quoted else quoted) bytes).modifyHead (byte :: ·)

/-- The fields of a line. -/
def splitCsv (line : List UInt8) : List (List UInt8) := splitLine false line

/-- A text that a splitter takes as a whole, wherever it stands. -/
def Whole (text : List UInt8) : Prop :=
  ∀ rest, splitLine false (text ++ rest) = (splitLine false rest).modifyHead (text ++ ·)

variable {text body rest : List UInt8}

/-- Characters that are no quotes, and no commas outside quotes, stay together. -/
theorem splitLine_append (quoted : Bool) (noQuote : (34 : UInt8) ∉ text)
    (noComma : quoted = false → (44 : UInt8) ∉ text) :
    splitLine quoted (text ++ rest) = (splitLine quoted rest).modifyHead (text ++ ·) := by
  induction text with
  | nil =>
      rw [List.nil_append]
      cases splitLine quoted rest <;> rfl
  | cons byte text ih =>
      rw [List.mem_cons, not_or] at noQuote
      have hcomma : ¬(byte = 44 ∧ quoted = false) := by
        rintro ⟨rfl, hquoted⟩
        exact noComma hquoted List.mem_cons_self
      have hrest := ih noQuote.2 fun h listed => noComma h (List.mem_cons_of_mem _ listed)
      rw [List.cons_append, splitLine, if_neg hcomma, if_neg (fun h => noQuote.1 h.symm), hrest,
        List.modifyHead_modifyHead]
      rfl

theorem whole_of_plain (noQuote : (34 : UInt8) ∉ text) (noComma : (44 : UInt8) ∉ text) :
    Whole text := fun _ => splitLine_append false noQuote fun _ => noComma

theorem whole_quoted (noQuote : (34 : UInt8) ∉ body) : Whole (34 :: (body ++ [34])) := by
  intro rest
  have hclose : splitLine true (34 :: rest) = (splitLine false rest).modifyHead (34 :: ·) := rfl
  have hbody : splitLine true (body ++ 34 :: rest) = _ :=
    splitLine_append true noQuote (by simp)
  have hopen : splitLine false (34 :: (body ++ [34]) ++ rest) =
      (splitLine true (body ++ 34 :: rest)).modifyHead (34 :: ·) := by
    simp [splitLine]
  rw [hopen, hbody, hclose, List.modifyHead_modifyHead, List.modifyHead_modifyHead]
  congr 1
  funext front
  simp

/-- Whole texts with commas between them are split into these texts. -/
theorem splitCsv_joined {fields : List Field} (some_field : fields ≠ [])
    (whole : ∀ field ∈ fields, Whole field.full) :
    splitCsv (joined [44] fields) = fields.map Field.full := by
  induction fields with
  | nil => exact absurd rfl some_field
  | cons field fields ih =>
      have hfield := whole field List.mem_cons_self
      cases fields with
      | nil =>
          have hend := hfield []
          rw [List.append_nil] at hend
          rw [joined, splitCsv, hend]
          simp [splitLine]
      | cons next fields =>
          have hrest := ih (by simp) fun f listed => whole f (List.mem_cons_of_mem _ listed)
          have hcomma : splitLine false ([44] ++ joined [44] (next :: fields)) =
              [] :: splitCsv (joined [44] (next :: fields)) := rfl
          rw [joined_cons_cons, splitCsv, hfield, hcomma, hrest]
          simp

/-! ## The fields of a report -/

/-- A field of a report, with what makes it readable. -/
inductive ReportField where
  /-- `__INT` -/
  | int (val : UInt64)
  /-- `__STR` -/
  | str (src : CString) (noQuote : (34 : UInt8) ∉ src.bytes)
  /-- `__TIME` -/
  | time (t : Timeval) (seconds : 0 ≤ t.tvSec ∧ t.tvSec < 10 ^ 12)
      (microseconds : 0 ≤ t.tvUsec ∧ t.tvUsec < 10 ^ 6)
  /-- `__MAC` -/
  | mac (t : Vector UInt8 6)
deriving DecidableEq

/-- The type of a field. -/
inductive FieldKind where
  | int
  | str
  | time
  | mac
deriving DecidableEq, Repr

namespace ReportField

def kind : ReportField → FieldKind
  | int _ => .int
  | str _ _ => .str
  | time _ _ _ => .time
  | mac _ => .mac

/-- The element of the builder. -/
def toField : ReportField → Field
  | int val => .int val
  | str src _ => .str src
  | time t _ _ => .time t
  | mac t => .mac t

end ReportField

/-- Read a number of 64 bits. -/
def readInt (bytes : List UInt8) : Option ReportField :=
  (readDecimal bytes).bind fun val => if val < 2 ^ 64 then some (.int (UInt64.ofNat val)) else none

/-- Read a string: what stands between the quotes. -/
def readStr (bytes : List UInt8) : Option ReportField :=
  match bytes with
  | 34 :: rest =>
      if rest.getLast? = some 34 then
        let src := CString.of rest.dropLast
        if noQuote : (34 : UInt8) ∉ src.bytes then some (.str src noQuote) else none
      else none
  | _ => none

/-- A time, when its parts are in their ranges. -/
def timeField (t : Timeval) : Option ReportField :=
  if h : (0 ≤ t.tvSec ∧ t.tvSec < 10 ^ 12) ∧ (0 ≤ t.tvUsec ∧ t.tvUsec < 10 ^ 6) then
    some (.time t h.1 h.2)
  else none

/-- Read a time: the seconds, a point and the microseconds. -/
def readTime (bytes : List UInt8) : Option ReportField :=
  (readDecimal (bytes.takeWhile (· != 46))).bind fun seconds =>
    (readDecimal ((bytes.dropWhile (· != 46)).drop 1)).bind fun microseconds =>
      timeField ⟨seconds, microseconds⟩

/-- Read a MAC address: six bytes in hexadecimal between quotes. -/
def readMac (bytes : List UInt8) : Option ReportField :=
  match bytes with
  | [34, a, a', 58, b, b', 58, c, c', 58, d, d', 58, e, e', 58, f, f', 34] => do
      let a ← readHex [a, a']
      let b ← readHex [b, b']
      let c ← readHex [c, c']
      let d ← readHex [d, d']
      let e ← readHex [e, e']
      let f ← readHex [f, f']
      return .mac #v[a, b, c, d, e, f]
  | _ => none

/-- Read a field by its type. -/
def readField : FieldKind → List UInt8 → Option ReportField
  | .int => readInt
  | .str => readStr
  | .time => readTime
  | .mac => readMac

theorem readInt_full (val : UInt64) : readInt (decimal val.toNat) = some (.int val) := by
  rw [readInt, readDecimal_decimal, Option.bind_some, if_pos val.toNat_lt, UInt64.ofNat_toNat]

theorem readStr_full (src : CString) (noQuote : (34 : UInt8) ∉ src.bytes) :
    readStr (34 :: (src.bytes ++ [34])) = some (.str src noQuote) := by
  have hsrc : CString.of src.bytes = src := by
    rw [CString.of]
    congr
    exact cstring_eq_self src.plain
  have hlast : (src.bytes ++ [34]).getLast? = some 34 := by simp
  have hdrop : (src.bytes ++ [(34 : UInt8)]).dropLast = src.bytes := by simp
  simp only [readStr, if_pos hlast, hdrop, hsrc, dif_pos noQuote]

theorem timeField_eq (t : Timeval) (seconds : 0 ≤ t.tvSec ∧ t.tvSec < 10 ^ 12)
    (microseconds : 0 ≤ t.tvUsec ∧ t.tvUsec < 10 ^ 6) :
    timeField t = some (.time t seconds microseconds) := dif_pos ⟨seconds, microseconds⟩

theorem readTime_full (t : Timeval) (seconds : 0 ≤ t.tvSec ∧ t.tvSec < 10 ^ 12)
    (microseconds : 0 ≤ t.tvUsec ∧ t.tvUsec < 10 ^ 6) :
    readTime (Field.time t).full = some (.time t seconds microseconds) := by
  have hsec := toNat_ofInt seconds.1 (by omega)
  have husec := toNat_ofInt microseconds.1 (by omega)
  have hfull : (Field.time t).full = decimal t.tvSec.toNat ++ 46 :: fixed 6 t.tvUsec.toNat := by
    rw [Field.full, hsec, microText, husec, if_pos (by omega)]
  have hdigits : ∀ byte ∈ decimal t.tvSec.toNat, (byte != 46) = true := by
    intro byte listed
    have hne : byte ≠ 46 := fun h => notMem_fixed (by decide) _ _ (h ▸ listed)
    simpa using hne
  have htake : (decimal t.tvSec.toNat ++ 46 :: fixed 6 t.tvUsec.toNat).takeWhile (· != 46) =
      decimal t.tvSec.toNat := by
    rw [List.takeWhile_append_of_pos hdigits]
    simp
  have hdrop :
      ((decimal t.tvSec.toNat ++ 46 :: fixed 6 t.tvUsec.toNat).dropWhile (· != 46)).drop 1 =
      fixed 6 t.tvUsec.toNat := by
    rw [List.dropWhile_append_of_pos hdigits]
    simp
  have ht : (⟨(t.tvSec.toNat : Int), (t.tvUsec.toNat : Int)⟩ : Timeval) = t := by
    rw [Int.toNat_of_nonneg seconds.1, Int.toNat_of_nonneg microseconds.1]
  have hmicro : readDecimal (fixed 6 t.tvUsec.toNat) = some t.tvUsec.toNat :=
    readDecimal_fixed (by decide) (by omega)
  rw [hfull, readTime, htake, hdrop, readDecimal_decimal, Option.bind_some, hmicro,
    Option.bind_some, ht, timeField_eq]

theorem readMac_full (t : Vector UInt8 6) :
    readMac (34 :: (macDigits t ++ [34])) = some (.mac t) := by
  have hread : readMac (34 :: (macDigits t ++ [34])) = (do
      let a ← readHex (hexText t[0])
      let b ← readHex (hexText t[1])
      let c ← readHex (hexText t[2])
      let d ← readHex (hexText t[3])
      let e ← readHex (hexText t[4])
      let f ← readHex (hexText t[5])
      return .mac #v[a, b, c, d, e, f]) := rfl
  have ht : t = #v[t[0], t[1], t[2], t[3], t[4], t[5]] := by
    ext i hi
    rcases i with _ | _ | _ | _ | _ | _ | i
    all_goals first
      | rfl
      | omega
  rw [hread]
  simp only [readHex_hexText, Option.bind_eq_bind, Option.bind_some, pure]
  rw [← ht]

/-- A field is read back from its text. -/
theorem readField_full (field : ReportField) :
    readField field.kind field.toField.full = some field := by
  cases field with
  | int val => exact readInt_full val
  | str src noQuote => exact readStr_full src noQuote
  | time t seconds microseconds => exact readTime_full t seconds microseconds
  | mac t => exact readMac_full t

/-! ## The line of some fields -/

theorem hexDigit_ne : ∀ n < 16, hexDigit n ≠ 34 ∧ hexDigit n ≠ 0 := by decide

theorem notMem_hexText {byte : UInt8} (other : byte = 34 ∨ byte = 0) (val : UInt8) :
    byte ∉ hexText val := by
  have hhigh : val.toNat / 16 < 16 := by
    have := val.toNat_lt
    omega
  have hlow : val.toNat % 16 < 16 := Nat.mod_lt _ (by decide)
  have hne : ∀ n < 16, byte ≠ hexDigit n := by
    intro n small same
    rcases other with rfl | rfl
    · exact (hexDigit_ne n small).1 same.symm
    · exact (hexDigit_ne n small).2 same.symm
  simp [hexText, hne _ hhigh, hne _ hlow]

theorem notMem_macDigits {byte : UInt8} (other : byte = 34 ∨ byte = 0) (t : Vector UInt8 6) :
    byte ∉ macDigits t := by
  have hcolon : byte ≠ 58 := by
    rcases other with rfl | rfl <;> decide
  simp [macDigits, notMem_hexText other, hcolon]

/-- An element that is printed without an assertion and can be split off again. -/
structure Field.Clean (field : Field) : Prop where
  timely : field.Timely
  whole : Whole field.full
  plain : (0 : UInt8) ∉ field.full

@[simp]
theorem Field.clean_int (val : UInt64) : (Field.int val).Clean where
  timely := trivial
  whole := whole_of_plain (notMem_fixed (by decide) _ _) (notMem_fixed (by decide) _ _)
  plain := notMem_fixed (by decide) _ _

theorem Field.clean_str {src : CString} (noQuote : (34 : UInt8) ∉ src.bytes) :
    (Field.str src).Clean where
  timely := trivial
  whole := whole_quoted noQuote
  plain := by simp [full, src.plain]

/-- The microseconds of a time do not matter: they always have six digits. -/
theorem Field.clean_time {t : Timeval} (seconds : 0 ≤ t.tvSec ∧ t.tvSec < 10 ^ 12) :
    (Field.time t).Clean where
  timely := by
    have hsec := toNat_ofInt seconds.1 (by omega)
    show digitCount (UInt64.ofInt t.tvSec).toNat ≤ 12
    rw [hsec, digitCount_le_iff (by decide)]
    omega
  whole := by
    apply whole_of_plain <;>
    · simp [full, decimal, notMem_fixed, notMem_microText, isDigit]
  plain := by simp [full, decimal, notMem_fixed, notMem_microText, isDigit]

@[simp]
theorem Field.clean_mac (t : Vector UInt8 6) : (Field.mac t).Clean where
  timely := trivial
  whole := whole_quoted (notMem_macDigits (.inl rfl) t)
  plain := by simp [full, notMem_macDigits]

theorem ReportField.clean_toField (field : ReportField) : field.toField.Clean := by
  cases field with
  | int val => exact Field.clean_int val
  | str src noQuote => exact Field.clean_str noQuote
  | time t seconds microseconds => exact Field.clean_time seconds
  | mac t => exact Field.clean_mac t

theorem clean_of_mem_map {fields : List ReportField} :
    ∀ field ∈ fields.map ReportField.toField, field.Clean := by
  intro field listed
  rcases List.mem_map.mp listed with ⟨given, -, rfl⟩
  exact given.clean_toField

theorem separatorBytes_comma : separatorBytes (some (.ofText ",")) = [44] := by decide +kernel

/-- The line of some fields. -/
def line (fields : List ReportField) : List UInt8 := joined [44] (fields.map ReportField.toField)

theorem plain_joined {separator : List UInt8} (plain : (0 : UInt8) ∉ separator)
    {fields : List Field} (each : ∀ field ∈ fields, (0 : UInt8) ∉ field.full) :
    (0 : UInt8) ∉ joined separator fields := by
  induction fields with
  | nil => simp [joined]
  | cons field fields ih =>
      cases fields with
      | nil => exact each field List.mem_cons_self
      | cons next fields =>
          have hrest := ih fun f listed => each f (List.mem_cons_of_mem _ listed)
          simp [joined_cons_cons, each field List.mem_cons_self, plain, hrest]

/-- `STRING_BUILDER_WITH_SEPARATOR` with a comma, from the place `valid` of a buffer on,
returns and leaves a line behind this place. -/
def Prints (valid : Nat) (buffer : List UInt8) (fields : List ReportField) (text : List UInt8) :
    Prop :=
  ∃ after, stringBuilderWithSeparator valid buffer buffer.length (.ofText ",")
      (fields.map ReportField.toField) = .ok (valid + text.length, after) ∧
    loadString after valid = .ok text

/-- A buffer with at least sixteen bytes more than a line; its length is an `int`. -/
structure Roomy (valid : Nat) (buffer : List UInt8) (fields : List ReportField) : Prop where
  room : valid + (line fields).length + 16 ≤ buffer.length
  fits : buffer.length < 2 ^ 31

variable {valid : Nat} {buffer : List UInt8} {fields : List ReportField}

/-- In a buffer with enough room the builder prints the line. -/
theorem prints_line (roomy : Roomy valid buffer fields) :
    Prints valid buffer fields (line fields) := by
  have hroom := roomy.room
  have hplain : (0 : UInt8) ∉ line fields :=
    plain_joined (by decide) fun field listed => (clean_of_mem_map field listed).plain
  have hbuild := @build_eq_joined buffer (some (.ofText ",")) valid
    (fields.map ReportField.toField) fun field listed => (clean_of_mem_map field listed).timely
  rw [separatorBytes_comma] at hbuild
  have hread : loadString (splice buffer valid (line fields ++ [0])) valid = .ok (line fields) :=
    loadString_splice (by omega) hplain
  exact ⟨_, hbuild hroom (Nat.le_of_lt roomy.fits), hread⟩

theorem forall₂_readField (fields : List ReportField) :
    List.Forall₂ (fun field part => readField field.kind part = some field) fields
      (fields.map fun field => field.toField.full) := by
  induction fields with
  | nil => exact .nil
  | cons field fields ih => exact .cons (readField_full field) ih

/-- Fields of the same types that are read from the same parts are the same fields. -/
theorem eq_of_forall₂_readField {others : List ReportField} {parts : List (List UInt8)}
    (sameKinds : others.map ReportField.kind = fields.map ReportField.kind)
    (first : List.Forall₂ (fun field part => readField field.kind part = some field) fields parts)
    (second : List.Forall₂
      (fun field part => readField field.kind part = some field) others parts) :
    others = fields := by
  induction first generalizing others with
  | nil =>
      cases second
      rfl
  | cons read _ ih =>
      cases second with
      | cons read' rest =>
          rw [List.map_cons, List.map_cons, List.cons.injEq] at sameKinds
          rw [sameKinds.1, read, Option.some.injEq] at read'
          rw [read', ih sameKinds.2 rest]

theorem splitCsv_line (some_field : fields ≠ []) :
    splitCsv (line fields) = fields.map fun field => field.toField.full := by
  have hwhole : ∀ field ∈ fields.map ReportField.toField, Whole field.full :=
    fun field listed => (clean_of_mem_map field listed).whole
  rw [line, splitCsv_joined (by simpa using some_field) hwhole, List.map_map]
  rfl

theorem Prints.unique {text text' : List UInt8} (first : Prints valid buffer fields text)
    (second : Prints valid buffer fields text') : text = text' := by
  rcases first with ⟨after, hrun, hread⟩
  rcases second with ⟨after', hrun', hread'⟩
  rw [hrun, Except.ok.injEq, Prod.mk.injEq] at hrun'
  rw [← hrun'.2, hread] at hread'
  exact Except.ok.inj hread'

/-- Report lines are read back: the line that is printed is split into as many parts as
there are fields, each of them is read back by its type as the field it was made of, and
other fields of the same types print another line. -/
theorem reportLine_readBack (some_field : fields ≠ []) (roomy : Roomy valid buffer fields) :
    ∃ text, Prints valid buffer fields text ∧
      List.Forall₂ (fun field part => readField field.kind part = some field) fields
        (splitCsv text) ∧
      ∀ (valid' : Nat) (buffer' : List UInt8) (others : List ReportField),
        others.map ReportField.kind = fields.map ReportField.kind → others ≠ fields →
        Roomy valid' buffer' others → ¬Prints valid' buffer' others text := by
  have hread : List.Forall₂ (fun field part => readField field.kind part = some field) fields
      (splitCsv (line fields)) := by
    rw [splitCsv_line some_field]
    exact forall₂_readField fields
  refine ⟨line fields, prints_line roomy, hread, ?_⟩
  intro valid' buffer' others sameKinds different roomy' printed
  have hline : line fields = line others := printed.unique (prints_line roomy')
  have hothers : others ≠ [] := by
    rintro rfl
    rw [List.map_nil, eq_comm, List.map_eq_nil_iff] at sameKinds
    exact some_field sameKinds
  have hread' : List.Forall₂ (fun field part => readField field.kind part = some field) others
      (splitCsv (line fields)) := by
    rw [hline, splitCsv_line hothers]
    exact forall₂_readField others
  exact different (eq_of_forall₂_readField sameKinds hread hread')

/-- One field of each type; the string holds a comma. -/
def sampleFields : List ReportField :=
  [.int 18446744073709551615, .str (.ofText "a,b") (by decide +kernel),
    .time ⟨1234, 56⟩ (by decide) (by decide), .mac #v[0, 17, 34, 51, 68, 255]]

theorem roomy_sampleFields : Roomy 0 (List.replicate 80 7) sampleFields where
  room := by decide +kernel
  fits := by decide

theorem sampleFields_readBack :
    ∃ text, Prints 0 (List.replicate 80 7) sampleFields text ∧
      List.Forall₂ (fun field part => readField field.kind part = some field) sampleFields
        (splitCsv text) := by
  rcases reportLine_readBack (fun h => by cases h) roomy_sampleFields with ⟨text, prints, read, -⟩
  exact ⟨text, prints, read⟩

end MmtProbe.Lib

/-
# Report lines with a limit

A line is printed into the room that is left for it, and what does not fit is cut
silently: a string loses its end, a number is left out, and the separators of the last
columns disappear.  The line can be read back column by column exactly when nothing was
cut and no string holds a character that ends it.
-/

import MmtProbe.Lib.ReportLine
import MmtProbe.Lib.StringBuilderTight
import Mathlib.Data.List.Forall2

namespace MmtProbe.Lib

open MmtProbe.Math MmtProbe.Dpi

/-! ## Columns -/

/-- A column of a line, with any value. -/
inductive Column where
  | number (val : UInt64)
  | text (value : List UInt8)
deriving DecidableEq, Repr

/-- The element that prints a column; a string ends at its first NUL. -/
def Column.field : Column → Field
  | number val => .int val
  | text value => .str (.of value)

/-- The part is read as the value of the column. -/
def Column.IsRead : Column → List UInt8 → Prop
  | number val, part => readInt part = some (.int val)
  | text value, part => ∃ src noQuote, readStr part = some (.str src noQuote) ∧ src.bytes = value

/-- The number of characters of a column. -/
def Column.width : Column → Nat
  | number val => digitCount val.toNat
  | text value => value.length + 2

/-- A string without a quote and without a NUL. -/
def Column.Quotable : Column → Prop
  | number _ => True
  | text value => (34 : UInt8) ∉ value ∧ (0 : UInt8) ∉ value

/-- The characters of a line: those of the columns and the commas between them. -/
def lineWidth (columns : List Column) : Nat :=
  (columns.map Column.width).sum + (columns.length - 1)

/-! ## The parts of a line -/

theorem splitLine_ne_nil (quoted : Bool) (line : List UInt8) : splitLine quoted line ≠ [] := by
  induction line generalizing quoted with
  | nil => exact List.cons_ne_nil _ _
  | cons byte bytes ih =>
      rw [splitLine]
      split
      · exact List.cons_ne_nil _ _
      · exact fun hnil => ih _ (List.modifyHead_eq_nil_iff.mp hnil)

/-- All characters but the separators are in the parts. -/
theorem length_splitLine (quoted : Bool) (line : List UInt8) :
    ((splitLine quoted line).map List.length).sum + (splitLine quoted line).length =
      line.length + 1 := by
  induction line generalizing quoted with
  | nil => rfl
  | cons byte bytes ih =>
      rw [splitLine]
      split
      · have hrest := ih false
        simp only [List.map_cons, List.sum_cons, List.length_cons, List.length_nil]
        omega
      · generalize (if byte = 34 then !quoted else quoted) = inside
        have hrest := ih inside
        obtain ⟨part, parts, hparts⟩ := List.exists_cons_of_ne_nil (splitLine_ne_nil inside bytes)
        rw [hparts] at hrest ⊢
        simp only [List.modifyHead_cons, List.map_cons, List.sum_cons, List.length_cons] at hrest ⊢
        omega

/-! ## One column -/

theorem Column.isRead_field {column : Column} (quotable : column.Quotable) :
    column.IsRead column.field.full := by
  cases column with
  | number val => exact readInt_full val
  | text value =>
      have hbytes : (CString.of value).bytes = value := cstring_eq_self quotable.2
      have hquote : (34 : UInt8) ∉ (CString.of value).bytes := by
        rw [hbytes]
        exact quotable.1
      exact ⟨.of value, hquote, readStr_full _ hquote, hbytes⟩

theorem Column.whole_field {column : Column} (quotable : column.Quotable) :
    Whole column.field.full := by
  cases column with
  | number val => exact (Field.clean_int val).whole
  | text value =>
      have hbytes : (CString.of value).bytes = value := cstring_eq_self quotable.2
      exact whole_quoted (by rw [hbytes]; exact quotable.1)

theorem Column.length_field {column : Column} (quotable : column.Quotable) :
    column.field.full.length = column.width := by
  cases column with
  | number val => exact length_decimal _
  | text value =>
      have hbytes : (CString.of value).bytes = value := cstring_eq_self quotable.2
      rw [Column.field, Field.full, hbytes, List.length_cons, List.length_append]
      rfl

/-- What is read as a column is as long as the column, and its string can be quoted. -/
theorem Column.of_isRead {column : Column} {part : List UInt8} (read : column.IsRead part) :
    column.Quotable ∧ column.width ≤ part.length := by
  cases column with
  | number val =>
      refine ⟨trivial, ?_⟩
      obtain ⟨n, hn, hval⟩ := Option.bind_eq_some_iff.mp read
      split_ifs at hval with hsmall
      have hsame : UInt64.ofNat n = val := by
        rcases Option.some.inj hval with hfield
        injection hfield
      rw [Column.width, ← hsame, UInt64.toNat_ofNat_of_lt' hsmall]
      exact digitCount_le_length hn
  | text value =>
      obtain ⟨src, noQuote, hread, rfl⟩ := read
      refine ⟨⟨noQuote, src.plain⟩, ?_⟩
      unfold readStr at hread
      split at hread
      · rename_i rest
        split_ifs at hread with hclosed
        dsimp only at hread
        split at hread
        swap
        · cases hread
        have hsrc : CString.of rest.dropLast = src := by
          rcases Option.some.inj hread with hfield
          injection hfield
        have hle := length_cstring_le rest.dropLast
        have hpos : rest ≠ [] := by
          rintro rfl
          cases hclosed
        have hlength := List.length_pos_iff.mpr hpos
        rw [List.length_dropLast] at hle
        rw [Column.width, ← hsrc, List.length_cons]
        change (cstring rest.dropLast).length + 2 ≤ _
        omega
      · cases hread

/-! ## Lines -/

variable {columns : List Column}

/-- A byte of a printed text is one of the elements, of the separators or of what was there. -/
theorem mem_buildText {n : Nat} {separator sofar text : List UInt8} {fields : List Field}
    (built : buildText n separator fields sofar = some text) {byte : UInt8} (listed : byte ∈ text) :
    byte ∈ sofar ∨ byte ∈ separator ∨ ∃ field ∈ fields, byte ∈ field.full := by
  induction fields generalizing sofar with
  | nil =>
      rcases Option.some.inj built with rfl
      exact .inl listed
  | cons field fields ih =>
      have hadded : ∀ {after : List UInt8}, withField n field sofar = some after → byte ∈ after →
          byte ∈ sofar ∨ byte ∈ field.full := by
        intro after hafter hbyte
        obtain ⟨added, rfl, hsubset⟩ := withField_append hafter
        exact (List.mem_append.mp hbyte).imp id fun hmem => hsubset hmem
      cases fields with
      | nil =>
          exact (hadded built listed).imp id fun hmem => .inr ⟨field, List.mem_cons_self, hmem⟩
      | cons next fields =>
          rw [buildText_cons_cons] at built
          obtain ⟨after, hafter, hrest⟩ := Option.bind_eq_some_iff.mp built
          rcases ih hrest with hsofar | hseparator | ⟨other, hother, hmem⟩
          · rcases List.mem_append.mp hsofar with hbefore | hcut
            · exact (hadded hafter hbefore).imp id fun hmem =>
                .inr ⟨field, List.mem_cons_self, hmem⟩
            · exact .inr (.inl (List.mem_of_mem_take hcut))
          · exact .inr (.inl hseparator)
          · exact .inr (.inr ⟨other, List.mem_cons_of_mem _ hother, hmem⟩)

/-- A line of columns has no NUL. -/
theorem plain_buildText {n : Nat} {text : List UInt8}
    (built : buildText n [44] (columns.map Column.field) [] = some text) : (0 : UInt8) ∉ text := by
  intro listed
  rcases mem_buildText built listed with hnil | hcomma | ⟨field, hfield, hmem⟩
  · exact List.not_mem_nil hnil
  · exact absurd hcomma (by decide)
  · rcases List.mem_map.mp hfield with ⟨column, -, rfl⟩
    cases column with
    | number val => exact (Field.clean_int val).plain hmem
    | text value =>
        have hplain := (CString.of value).plain
        simp only [Column.field, Field.full, List.mem_cons, List.mem_append] at hmem
        rcases hmem with hquote | hbody | hquote | hnone
        · exact absurd hquote (by decide)
        · exact hplain hbody
        · exact absurd hquote (by decide)
        · exact List.not_mem_nil hnone

theorem length_joined_columns (some_column : columns ≠ [])
    (quotable : ∀ column ∈ columns, column.Quotable) :
    (joined [44] (columns.map Column.field)).length = lineWidth columns := by
  induction columns with
  | nil => exact absurd rfl some_column
  | cons column columns ih =>
      have hcolumn := Column.length_field (quotable column List.mem_cons_self)
      cases columns with
      | nil => exact hcolumn
      | cons next columns =>
          have hrest := ih (List.cons_ne_nil _ _)
            fun other listed => quotable other (List.mem_cons_of_mem _ listed)
          rw [List.map_cons, List.map_cons, joined_cons_cons, ← List.map_cons, List.length_append,
            List.length_append, hrest, hcolumn]
          simp only [lineWidth, List.map_cons, List.sum_cons, List.length_cons, List.length_nil]
          omega

theorem forall₂_isRead (quotable : ∀ column ∈ columns, column.Quotable) :
    List.Forall₂ Column.IsRead columns
      ((columns.map Column.field).map Field.full) := by
  rw [List.map_map, List.forall₂_map_right_iff, List.forall₂_same]
  exact fun column listed => Column.isRead_field (quotable column listed)

/-- Parts that are read as columns are as long as these. -/
theorem sum_width_le {parts : List (List UInt8)}
    (read : List.Forall₂ Column.IsRead columns parts) :
    (columns.map Column.width).sum ≤ (parts.map List.length).sum ∧
      ∀ column ∈ columns, column.Quotable := by
  induction read with
  | nil => exact ⟨Nat.le_refl _, List.forall_mem_nil _⟩
  | cons first _ ih =>
      obtain ⟨hquotable, hwidth⟩ := Column.of_isRead first
      refine ⟨?_, List.forall_mem_cons.mpr ⟨hquotable, ih.2⟩⟩
      rw [List.map_cons, List.sum_cons, List.map_cons, List.sum_cons]
      exact Nat.add_le_add hwidth ih.1

/-- The builder always leaves a line at the beginning of its buffer. -/
theorem exists_columns_line (columns : List Column) {message : List UInt8} {size : Nat}
    (some_room : 0 < size) (fits : size ≤ message.length) (small : message.length ≤ 2 ^ 31) :
    ∃ text after, buildText (size - 1) [44] (columns.map Column.field) [] = some text ∧
      stringBuilderWithSeparator 0 message size (.ofText ",") (columns.map Column.field) =
        .ok (text.length, after) ∧
      loadString after 0 = .ok text := by
  have htimely : ∀ field ∈ columns.map Column.field, field.Timely := by
    intro field listed
    rcases List.mem_map.mp listed with ⟨column, -, rfl⟩
    cases column <;> exact trivial
  obtain ⟨text, htext⟩ := exists_buildText (n := size - 1) [44] htimely []
  rw [List.nil_append] at htext
  have hbuild := build_eq (some (.ofText ",")) (columns.map Column.field) some_room fits
    (by omega) (by omega)
  rw [separatorBytes_comma, List.take_zero, htext] at hbuild
  have hlength := length_buildText_le (Nat.zero_le _) htext
  exact ⟨text, _, htext, hbuild, loadString_splice (by omega) (plain_buildText htext)⟩

/-- A line that is printed into the room for `n` characters is read back column by column
exactly when it has not more characters and every string can be quoted. -/
theorem columns_readBack_iff (some_column : columns ≠ []) {n : Nat} {text : List UInt8}
    (built : buildText n [44] (columns.map Column.field) [] = some text) :
    List.Forall₂ Column.IsRead columns (splitCsv text) ↔
      (∀ column ∈ columns, column.Quotable) ∧ lineWidth columns ≤ n := by
  constructor
  · intro hread
    obtain ⟨hwidth, hquotable⟩ := sum_width_le hread
    refine ⟨hquotable, ?_⟩
    have hlength := length_splitLine false text
    have hsame := hread.length_eq
    have htext := length_buildText_le (Nat.zero_le n) built
    have hsome := List.length_pos_iff.mpr some_column
    unfold splitCsv at hwidth hsame
    unfold lineWidth
    omega
  · rintro ⟨hquotable, hwidth⟩
    have hall := @buildText_eq_joined n [] [44] (columns.map Column.field) 0
    have hlength := length_joined_columns some_column hquotable
    have htext : text = joined [44] (columns.map Column.field) := by
      rw [built] at hall
      refine Option.some.inj (hall ?_ ?_ (by rw [List.length_nil]; omega))
      · intro field listed
        rcases List.mem_map.mp listed with ⟨column, -, rfl⟩
        cases column <;> exact trivial
      · intro field listed
        rcases List.mem_map.mp listed with ⟨column, -, rfl⟩
        cases column <;> exact Nat.le_refl _
    have hwhole : ∀ field ∈ columns.map Column.field, Whole field.full := by
      intro field listed
      rcases List.mem_map.mp listed with ⟨column, hlisted, rfl⟩
      exact Column.whole_field (hquotable column hlisted)
    rw [htext, splitCsv_joined (by simpa using some_column) hwhole]
    exact forall₂_isRead hquotable

end MmtProbe.Lib

/-
# The tables of gperf

Encodings and types of contents are looked up in tables that gperf has generated: a word
is hashed from its length and one or two of its characters, and compared without regard
to case with the one word in that slot.  The lookup agrees with a search of the whole table.

The words of a table end with a NUL, and the comparison stops there, unless the string has a
NUL at this very place: then it takes the strings for equal, and the code reads behind the
word.  In the tables of the encodings the hash does not let this happen, in that of the types it
does, so the result for the latter is about strings without a NUL.
-/

import MmtProbe.Dpi.FilePath
import MmtProbe.Math.PerfectHash

namespace MmtProbe.Dpi

open MmtProbe.Math MmtProbe.Lib

/-! ## The code -/

/-- `gperf_downcase` -/
def gperfDowncase (byte : UInt8) : UInt8 := if isUpper byte then byte + 32 else byte

/-- `gperf_case_strncmp`, from some place of the two strings on. -/
def gperfCaseStrncmp (s1 s2 : List UInt8) (place : Nat) : Nat → Except Fault Int
  | 0 => .ok 0
  | n + 1 => do
      let c1 := gperfDowncase (← load s1 place)
      let c2 := gperfDowncase (← load s2 place)
      if c1 ≠ 0 ∧ c1 = c2 then gperfCaseStrncmp s1 s2 (place + 1) n
      else return (c1.toNat : Int) - (c2.toNat : Int)

/-- A generated table: its words with what belongs to them, where `none` is `{""}`. -/
structure GperfTable (β : Type) where
  minWordLength : Nat
  maxWordLength : Nat
  maxHashValue : Nat
  assoValues : List Nat
  /-- `wordlist` -/
  wordlist : List (Option (String × β))
  /-- The places of the characters that are hashed. -/
  hashes : List UInt8 → List Nat

namespace GperfTable

variable {β : Type}

/-- The value of a character. -/
def assoValue (table : GperfTable β) (byte : UInt8) : Nat :=
  table.assoValues[byte.toNat]?.getD 0

/-- The length, with the values of the characters at the places that are hashed. -/
def hash (table : GperfTable β) (str : List UInt8) : Except Fault Nat :=
  (table.hashes str).foldlM (fun hval place => (load str place).map fun byte =>
    hval + table.assoValue byte) str.length

/-- The word in a slot, with its NUL. -/
def wordBytes : Option (String × β) → List UInt8
  | none => [0]
  | some entry => bytesOf entry.1 ++ [0]

/-- The word of a slot that the hash has chosen is compared with the string. -/
def compare (str : List UInt8) (slot : Option (String × β)) :
    Except Fault (Option (Option (String × β))) := do
  let s := wordBytes slot
  if ((← load str 0) ^^^ (← load s 0)) &&& ~~~32 ≠ 0 then return none
  if (← gperfCaseStrncmp str s 0 str.length) ≠ 0 then return none
  if (← load s str.length) = 0 then return some slot else return none

/-- The lookup, which returns NULL or a slot. -/
def lookup (table : GperfTable β) (str : List UInt8) :
    Except Fault (Option (Option (String × β))) :=
  if str.length ≤ table.maxWordLength ∧ table.minWordLength ≤ str.length then do
    let key ← table.hash str
    if key ≤ table.maxHashValue then
      match table.wordlist[key]? with
      | none => .error (.load key)
      | some slot => compare str slot
    else return none
  else return none

end GperfTable

/-- `get_content_encoding` -/
def contentEncodingTable : GperfTable ContentEncoding where
  minWordLength := 2
  maxWordLength := 8
  maxHashValue := 13
  assoValues :=
    [14, 14, 14, 14, 14, 14, 14, 14, 14, 14, 14, 14, 14, 14, 14, 14, 14, 14, 14, 14,
      14, 14, 14, 14, 14, 14, 14, 14, 14, 14, 14, 14, 14, 14, 14, 14, 14, 14, 14, 14,
      14, 14, 14, 14, 14, 14, 14, 14, 14, 14, 14, 14, 14, 14, 14, 14, 14, 14, 14, 14,
      14, 14, 14, 14, 14, 14, 0, 5, 0, 14, 14, 0, 14, 0, 14, 14, 14, 14, 14, 14,
      14, 14, 14, 14, 14, 14, 14, 14, 14, 14, 14, 14, 14, 14, 14, 14, 14, 14, 0, 5,
      0, 14, 14, 0, 14, 0, 14, 14, 14, 14, 14, 14, 14, 14, 14, 14, 14, 14, 14, 14,
      14, 14, 14, 14, 14, 14, 14, 14, 14, 14, 14, 14, 14, 14, 14, 14, 14, 14, 14, 14,
      14, 14, 14, 14, 14, 14, 14, 14, 14, 14, 14, 14, 14, 14, 14, 14, 14, 14, 14, 14,
      14, 14, 14, 14, 14, 14, 14, 14, 14, 14, 14, 14, 14, 14, 14, 14, 14, 14, 14, 14,
      14, 14, 14, 14, 14, 14, 14, 14, 14, 14, 14, 14, 14, 14, 14, 14, 14, 14, 14, 14,
      14, 14, 14, 14, 14, 14, 14, 14, 14, 14, 14, 14, 14, 14, 14, 14, 14, 14, 14, 14,
      14, 14, 14, 14, 14, 14, 14, 14, 14, 14, 14, 14, 14, 14, 14, 14, 14, 14, 14, 14,
      14, 14, 14, 14, 14, 14, 14, 14, 14, 14, 14, 14, 14, 14, 14, 14]
  wordlist :=
    [none, none, some ("br", .br), none, some ("gzip", .gzip), none, none,
      some ("deflate", .deflate), some ("identity", .identity), none, none, none, none,
      some ("compress", .compress)]
  hashes _ := [0]

/-- `get_transfer_encoding` -/
def transferEncodingTable : GperfTable TransferEncoding where
  minWordLength := 4
  maxWordLength := 8
  maxHashValue := 13
  assoValues :=
    [14, 14, 14, 14, 14, 14, 14, 14, 14, 14, 14, 14, 14, 14, 14, 14, 14, 14, 14, 14,
      14, 14, 14, 14, 14, 14, 14, 14, 14, 14, 14, 14, 14, 14, 14, 14, 14, 14, 14, 14,
      14, 14, 14, 14, 14, 14, 14, 14, 14, 14, 14, 14, 14, 14, 14, 14, 14, 14, 14, 14,
      14, 14, 14, 14, 14, 14, 14, 5, 0, 14, 14, 0, 14, 0, 14, 14, 14, 14, 14, 14,
      14, 14, 14, 14, 14, 14, 14, 14, 14, 14, 14, 14, 14, 14, 14, 14, 14, 14, 14, 5,
      0, 14, 14, 0, 14, 0, 14, 14, 14, 14, 14, 14, 14, 14, 14, 14, 14, 14, 14, 14,
      14, 14, 14, 14, 14, 14, 14, 14, 14, 14, 14, 14, 14, 14, 14, 14, 14, 14, 14, 14,
      14, 14, 14, 14, 14, 14, 14, 14, 14, 14, 14, 14, 14, 14, 14, 14, 14, 14, 14, 14,
      14, 14, 14, 14, 14, 14, 14, 14, 14, 14, 14, 14, 14, 14, 14, 14, 14, 14, 14, 14,
      14, 14, 14, 14, 14, 14, 14, 14, 14, 14, 14, 14, 14, 14, 14, 14, 14, 14, 14, 14,
      14, 14, 14, 14, 14, 14, 14, 14, 14, 14, 14, 14, 14, 14, 14, 14, 14, 14, 14, 14,
      14, 14, 14, 14, 14, 14, 14, 14, 14, 14, 14, 14, 14, 14, 14, 14, 14, 14, 14, 14,
      14, 14, 14, 14, 14, 14, 14, 14, 14, 14, 14, 14, 14, 14, 14, 14]
  wordlist :=
    [none, none, none, none, some ("gzip", .gzip), none, none, some ("deflate", .deflate),
      some ("identity", .identity), none, none, none, some ("chunked", .chunked),
      some ("compress", .compress)]
  hashes _ := [0]

/-- `get_file_extension_from_content_type`: the seventh character, of a string that has one, and
the last one. -/
def contentTypeTable : GperfTable String where
  minWordLength := 3
  maxWordLength := 42
  maxHashValue := 79
  assoValues :=
    [80, 80, 80, 80, 80, 80, 80, 80, 80, 80, 80, 80, 80, 80, 80, 80, 80, 80, 80, 80,
      80, 80, 80, 80, 80, 80, 80, 80, 80, 80, 80, 80, 80, 80, 80, 80, 80, 80, 80, 80,
      80, 80, 80, 80, 80, 0, 80, 35, 80, 80, 5, 0, 35, 80, 80, 80, 80, 80, 80, 80,
      80, 80, 80, 80, 80, 0, 80, 80, 20, 0, 0, 5, 45, 80, 30, 5, 0, 25, 25, 0,
      45, 80, 80, 30, 15, 80, 5, 80, 15, 0, 80, 80, 80, 80, 80, 80, 80, 0, 80, 80,
      20, 0, 0, 5, 45, 80, 30, 5, 0, 25, 25, 0, 45, 80, 80, 30, 15, 80, 5, 80,
      15, 0, 80, 80, 80, 80, 80, 80, 80, 80, 80, 80, 80, 80, 80, 80, 80, 80, 80, 80,
      80, 80, 80, 80, 80, 80, 80, 80, 80, 80, 80, 80, 80, 80, 80, 80, 80, 80, 80, 80,
      80, 80, 80, 80, 80, 80, 80, 80, 80, 80, 80, 80, 80, 80, 80, 80, 80, 80, 80, 80,
      80, 80, 80, 80, 80, 80, 80, 80, 80, 80, 80, 80, 80, 80, 80, 80, 80, 80, 80, 80,
      80, 80, 80, 80, 80, 80, 80, 80, 80, 80, 80, 80, 80, 80, 80, 80, 80, 80, 80, 80,
      80, 80, 80, 80, 80, 80, 80, 80, 80, 80, 80, 80, 80, 80, 80, 80, 80, 80, 80, 80,
      80, 80, 80, 80, 80, 80, 80, 80, 80, 80, 80, 80, 80, 80, 80, 80]
  wordlist :=
    [none, none, none, some ("mp3", "mp3"), none, none, none, none, none,
      some ("font/woff", "woff"), none, none, none, none, some ("image/gif", "gif"),
      some ("application/xml", "xml"), none, some ("application/x-amf", "amf"),
      some ("application/x-woff", "woff"), some ("application/rss+xml", "xml"),
      some ("application/atom+xml", "xml"), some ("application/xhtml+xml", "html"),
      some ("application/x-font-ttf", "tff"), some ("application/x-font-woff", "woff"),
      some ("text/html", "html"), some ("application/ocsp-response", "ocsp"),
      some ("text/x-cross-domain-policy", "txt"), some ("application/font-woff2", "woff"),
      some ("application/x-debian-package", "deb"), some ("video/x-ms-asf", "asf"),
      some ("text/javascript", "js"), some ("video/x-flv", "flv"), none, some ("text/xml", "xml"),
      some ("application/x-unknown-content-type", "dat"), some ("text/plain", "txt"), none,
      some ("application/javascript", "js"), some ("mp4", "mp4"),
      some ("application/x-javascript", "js"), none, some ("application/json", "json"),
      some ("application/vnd.google.safebrowsing-update", "dat"), some ("image/svg+xml", "svg"),
      some ("image/jpg", "jpg"), some ("image/jpeg", "jpg"),
      some ("application/vnd.google.safebrowsing-chunk", "dat"), some ("application/x-fcs", "fcs"),
      some ("zip", "zip"), some ("application/octet-stream", "dat"), some ("video/MP2T", "mp4"),
      none, some ("image/x-icon", "icon"), some ("application/x-www-form-urlencoded", "dat"),
      some ("image/vnd.microsoft.icon", "icon"), none, none, none, none, some ("image/png", "png"),
      some ("application/zip", "zip"), none, none, none, some ("text/json", "json"), none, none,
      none, some ("text/css", "css"), some ("audio/mp4", "mp4"), none, none, none, none,
      some ("application/x-shockwave-flash", "swf"), none, none, none, none,
      some ("binary/octet-stream", "dat")]
  hashes str :=
    (if 3 ≤ str.length ∧ str.length ≤ 6 then [] else [6]) ++ [str.length - 1]

/-- What a string is looked up as, without the tables of hashes. -/
def GperfTable.search {β : Type} (entries : List (String × β)) (str : List UInt8) :
    Option (String × β) :=
  entries.find? fun entry => foldCase (bytesOf entry.1) == foldCase str

/-! ## The comparison -/

section Comparison

variable {str word : List UInt8}

theorem length_foldCase (text : List UInt8) : (foldCase text).length = text.length :=
  List.length_map _

theorem load_of_lt {memory : List UInt8} {place : Nat} (inside : place < memory.length) :
    load memory place = .ok memory[place] := by
  rw [load, List.getElem?_eq_getElem inside]

theorem gperfDowncase_ne_zero {byte : UInt8} (real : byte ≠ 0) : gperfDowncase byte ≠ 0 := by
  have hall : ∀ code < 256, UInt8.ofNat code ≠ 0 → gperfDowncase (UInt8.ofNat code) ≠ 0 := by
    decide +kernel
  have hbyte := hall byte.toNat byte.toNat_lt
  rw [UInt8.ofNat_toNat] at hbyte
  exact hbyte real

theorem toNat_sub_ne_zero {c1 c2 : UInt8} (differ : c1 ≠ c2) :
    (c1.toNat : Int) - (c2.toNat : Int) ≠ 0 := by
  intro hzero
  apply differ
  apply UInt8.toNat_inj.mp
  omega

/-- The comparison stays inside of the strings, and finds zero when the first is at the start of
the second. -/
theorem gperfCaseStrncmp_spec (real : ∀ byte ∈ word, byte ≠ 0)
    (stops : (∀ byte ∈ str, byte ≠ 0) ∨ str.length ≤ word.length) {place n : Nat}
    (rest : place + n = str.length) (within : place ≤ word.length) :
    ∃ order, gperfCaseStrncmp str (word ++ [0]) place n = .ok order ∧
      (order = 0 ↔ foldCase (str.drop place) <+: foldCase (word.drop place)) := by
  induction n generalizing place with
  | zero =>
      refine ⟨0, rfl, iff_of_true rfl ?_⟩
      rw [List.drop_eq_nil_of_le (by omega)]
      exact List.nil_prefix
  | succ n ih =>
      have hplace : place < str.length := by omega
      have hs2 : place < (word ++ [0]).length := by
        rw [List.length_append]
        exact Nat.lt_succ_of_le within
      rw [List.drop_eq_getElem_cons hplace]
      by_cases hword : place < word.length
      · have hbyte : (word ++ [0])[place] = word[place] := List.getElem_append_left hword
        rw [List.drop_eq_getElem_cons hword, gperfCaseStrncmp, load_of_lt hplace, load_of_lt hs2,
          hbyte, bind_ok, bind_ok]
        have hreal : gperfDowncase word[place] ≠ 0 :=
          gperfDowncase_ne_zero (real _ (List.getElem_mem hword))
        by_cases hsame : gperfDowncase str[place] = gperfDowncase word[place]
        · rw [if_pos ⟨hsame ▸ hreal, hsame⟩]
          rcases ih (by omega) hword with ⟨order, horder, hzero⟩
          refine ⟨order, horder, hzero.trans ?_⟩
          show _ ↔ gperfDowncase str[place] :: _ <+: gperfDowncase word[place] :: _
          rw [hsame, List.prefix_cons_inj]
          exact Iff.rfl
        · rw [if_neg fun hboth => hsame hboth.2]
          refine ⟨_, rfl, iff_of_false (toNat_sub_ne_zero hsame) fun hprefix => hsame ?_⟩
          exact (List.cons_prefix_cons.mp hprefix).1
      · -- the NUL of the word is met by a character of the string
        have hend : place = word.length := by omega
        have hbyte : (word ++ [0])[place] = 0 := by
          simp [hend]
        have hreal : gperfDowncase str[place] ≠ 0 := by
          rcases stops with hstr | hshort
          · exact gperfDowncase_ne_zero (hstr _ (List.getElem_mem hplace))
          · omega
        rw [List.drop_eq_nil_of_le (Nat.le_of_eq hend.symm), gperfCaseStrncmp, load_of_lt hplace,
          load_of_lt hs2, hbyte, bind_ok, bind_ok]
        have hzero : gperfDowncase 0 = 0 := rfl
        rw [if_neg fun hboth => hreal (hboth.2.trans hzero)]
        refine ⟨_, rfl, iff_of_false (toNat_sub_ne_zero ?_) fun hprefix => ?_⟩
        · rw [hzero]
          exact hreal
        · exact absurd (List.prefix_nil.mp hprefix) (List.cons_ne_nil _ _)

end Comparison

/-! ## The lookup -/

namespace GperfTable

variable {β : Type} {table : GperfTable β} {entries : List (String × β)} {str : List UInt8}

/-- The hash of a string whose characters can be read. -/
def hashValue (table : GperfTable β) (str : List UInt8) : Nat :=
  (table.hashes str).foldl (fun hval place => hval + table.assoValue (str[place]?.getD 0))
    str.length

/-- The bounds on a word, and that it has no NUL. -/
def fitsWord (table : GperfTable β) (word : List UInt8) : Bool :=
  table.minWordLength ≤ word.length &&
    (word.length ≤ table.maxWordLength && word.all fun byte => byte != 0)

/-- What gperf sees to, when it generates the table of some words. -/
structure Generated (table : GperfTable β) (entries : List (String × β)) : Prop where
  sized : ∀ first second : List UInt8, first.length = second.length →
    table.hashes first = table.hashes second
  inside : ∀ str : List UInt8, table.minWordLength ≤ str.length →
    ∀ place ∈ table.hashes str, place < str.length
  positive : 0 < table.minWordLength
  /-- A capital letter has the value of its small one. -/
  caseless : ∀ code < 26, table.assoValue (UInt8.ofNat (97 + code)) =
    table.assoValue (UInt8.ofNat (65 + code))
  full : table.wordlist.length = table.maxHashValue + 1
  placed : ∀ entry ∈ entries,
    table.wordlist[table.hashValue (bytesOf entry.1)]? = some (some entry)
  only : ∀ entry ∈ table.wordlist.filterMap id, entry ∈ entries
  words : ∀ entry ∈ entries, table.fitsWord (bytesOf entry.1) = true

theorem bounds (generated : table.Generated entries) {entry : String × β}
    (listed : entry ∈ entries) : table.minWordLength ≤ (bytesOf entry.1).length ∧
      (bytesOf entry.1).length ≤ table.maxWordLength ∧ ∀ byte ∈ bytesOf entry.1, byte ≠ 0 := by
  simpa [fitsWord] using generated.words entry listed

theorem assoValue_gperfDowncase (generated : table.Generated entries) (byte : UInt8) :
    table.assoValue (gperfDowncase byte) = table.assoValue byte := by
  rw [gperfDowncase]
  split_ifs with hupper
  · have hrange : 65 ≤ byte.toNat ∧ byte.toNat ≤ 90 := by
      simpa [isUpper, UInt8.le_iff_toNat_le] using hupper
    have hcode : byte.toNat - 65 < 26 :=
      Nat.sub_lt_left_of_lt_add hrange.1 (Nat.lt_succ_of_le hrange.2)
    have hcapital : UInt8.ofNat (65 + (byte.toNat - 65)) = byte := by
      rw [Nat.add_sub_of_le hrange.1, UInt8.ofNat_toNat]
    have hsmall : UInt8.ofNat (97 + (byte.toNat - 65)) = byte + 32 := by
      rw [show 97 + (byte.toNat - 65) = 65 + (byte.toNat - 65) + 32 by omega, UInt8.ofNat_add,
        hcapital]
      rfl
    rw [← hsmall, generated.caseless _ hcode, hcapital]
  · rfl

theorem hash_eq (generated : table.Generated entries)
    (long : table.minWordLength ≤ str.length) : table.hash str = .ok (table.hashValue str) := by
  have hfold : ∀ (places : List Nat) (hval : Nat), (∀ place ∈ places, place < str.length) →
      places.foldlM (fun hval place => (load str place).map fun byte =>
        hval + table.assoValue byte) hval =
      (Except.ok (places.foldl
        (fun hval place => hval + table.assoValue (str[place]?.getD 0)) hval) :
          Except Fault Nat) := by
    intro places
    induction places with
    | nil => exact fun _ _ => rfl
    | cons place places ih =>
        intro hval hinside
        have hplace := hinside place List.mem_cons_self
        rw [List.foldlM_cons, load_of_lt hplace, Except.map, bind_ok,
          ih _ fun other hother => hinside other (List.mem_cons_of_mem _ hother),
          List.foldl_cons, List.getElem?_eq_getElem hplace, Option.getD_some]
  exact hfold _ _ (generated.inside str long)

/-- The hash does not look at the case. -/
theorem hashValue_congr (generated : table.Generated entries) {first second : List UInt8}
    (same : foldCase first = foldCase second) :
    table.hashValue first = table.hashValue second := by
  have hlength : first.length = second.length := by
    rw [← length_foldCase first, same, length_foldCase]
  have hvalue : ∀ place : Nat, table.assoValue (first[place]?.getD 0) =
      table.assoValue (second[place]?.getD 0) := by
    intro place
    have hfold : ∀ text : List UInt8,
        table.assoValue (text[place]?.getD 0) =
          table.assoValue ((foldCase text)[place]?.getD 0) := by
      intro text
      have hget : (foldCase text)[place]? = text[place]?.map gperfDowncase := List.getElem?_map
      rw [hget]
      cases text[place]? with
      | none => rfl
      | some byte => exact (assoValue_gperfDowncase generated byte).symm
    rw [hfold first, hfold second, same]
  unfold hashValue
  rw [generated.sized first second hlength, hlength]
  simp only [hvalue]

/-- The entry in a slot. -/
def slot (table : GperfTable β) (key : Nat) : Option (String × β) := table.wordlist[key]?.join

theorem perfectHash (generated : table.Generated entries) :
    PerfectHash foldCase table.hashValue (fun entry : String × β => bytesOf entry.1) table.slot
      entries where
  respects _ _ same := hashValue_congr generated same
  placed entry listed := by
    rw [slot, generated.placed entry listed]
    rfl
  only key entry hslot := by
    rw [slot, Option.join_eq_some_iff] at hslot
    exact generated.only entry (List.mem_filterMap.mpr ⟨_, List.mem_of_getElem? hslot, rfl⟩)

/-- No comparison reads behind its word: the string has no NUL, or is not longer than a word
in its slot that starts with the same letter. -/
def Stops (table : GperfTable β) (str : List UInt8) : Prop :=
  (∀ byte ∈ str, byte ≠ 0) ∨ ∀ (slot : Option (String × β)) (first given : UInt8),
    table.wordlist[table.hashValue str]? = some slot → str[0]? = some first →
    (wordBytes slot)[0]? = some given → (first ^^^ given) &&& ~~~32 = 0 →
      str.length + 1 ≤ (wordBytes slot).length

/-- Letters that differ in their case only differ in one bit. -/
theorem caseBit_eq_zero {first given : UInt8}
    (same : gperfDowncase first = gperfDowncase given) : (first ^^^ given) &&& ~~~32 = 0 := by
  have hall : ∀ code < 256, UInt8.ofNat code &&& ~~~32 =
      gperfDowncase (UInt8.ofNat code) &&& ~~~32 := by
    decide +kernel
  have hbyte : ∀ byte : UInt8, byte &&& ~~~32 = gperfDowncase byte &&& ~~~32 := by
    intro byte
    have := hall byte.toNat byte.toNat_lt
    rwa [UInt8.ofNat_toNat] at this
  have hmasked : first &&& ~~~32 = given &&& ~~~32 := by rw [hbyte first, same, ← hbyte given]
  apply UInt8.toNat_inj.mp
  rw [UInt8.toNat_and, UInt8.toNat_xor, Nat.and_xor_distrib_right, ← UInt8.toNat_and,
    ← UInt8.toNat_and, hmasked, Nat.xor_self]
  rfl

theorem compare_eq {slot : Option (String × β)} {word : List UInt8}
    (isWord : wordBytes slot = word ++ [0]) (real : ∀ byte ∈ word, byte ≠ 0)
    (starts : 0 < str.length)
    (stops : (∀ byte ∈ str, byte ≠ 0) ∨ ∀ first given : UInt8, str[0]? = some first →
      (word ++ [0])[0]? = some given → (first ^^^ given) &&& ~~~32 = 0 →
        str.length ≤ word.length) :
    compare str slot = .ok (if foldCase word = foldCase str then some slot else none) := by
  have hs : 0 < (word ++ [0]).length := by simp
  have hlength : foldCase word = foldCase str → word.length = str.length := fun same => by
    rw [← length_foldCase word, same, length_foldCase]
  rw [compare, isWord, load_of_lt starts, load_of_lt hs]
  simp only [bind_ok]
  by_cases hfirst : (str[0] ^^^ (word ++ [0])[0]) &&& ~~~32 = 0
  · have hshort : (∀ byte ∈ str, byte ≠ 0) ∨ str.length ≤ word.length :=
      stops.imp_right fun hstops => hstops _ _ (List.getElem?_eq_getElem starts)
        (List.getElem?_eq_getElem hs) hfirst
    rcases gperfCaseStrncmp_spec real hshort (Nat.zero_add _) (Nat.zero_le _) with
      ⟨order, horder, hzero⟩
    rw [List.drop_zero, List.drop_zero] at hzero
    rw [if_neg (not_not.mpr hfirst), horder, bind_ok]
    by_cases hprefix : foldCase str <+: foldCase word
    · rw [if_neg (not_not.mpr (hzero.mpr hprefix))]
      have hle : str.length ≤ word.length := by
        rw [← length_foldCase str, ← length_foldCase word]
        exact hprefix.length_le
      have hlast : str.length < (word ++ [0]).length := by
        rw [List.length_append]
        exact Nat.lt_succ_of_le hle
      rw [load_of_lt hlast]
      simp only [bind_ok]
      by_cases hend : str.length = word.length
      · have hNul : (word ++ [0])[str.length] = 0 := by simp [hend]
        have hsame : foldCase str = foldCase word :=
          hprefix.eq_of_length (by rw [length_foldCase, length_foldCase, hend])
        rw [if_pos hNul, if_pos hsame.symm]
        rfl
      · have hlt : str.length < word.length := by omega
        have hletter : (word ++ [0])[str.length] ≠ 0 := by
          rw [List.getElem_append_left hlt]
          exact real _ (List.getElem_mem hlt)
        rw [if_neg hletter, if_neg fun same => hend (hlength same).symm]
        rfl
    · rw [if_pos fun hnot => hprefix (hzero.mp hnot), if_neg]
      · rfl
      · intro same
        rw [same] at hprefix
        exact hprefix List.prefix_rfl
  · rw [if_pos hfirst, if_neg]
    · rfl
    · intro same
      have hword : 0 < word.length := by
        rw [hlength same]
        exact starts
      have hget : gperfDowncase word[0] = gperfDowncase str[0] := by
        have hfold : (foldCase word)[0]? = (foldCase str)[0]? := by rw [same]
        have hmap : ∀ text : List UInt8, (foldCase text)[0]? = text[0]?.map gperfDowncase :=
          fun text => List.getElem?_map
        rw [hmap, hmap, List.getElem?_eq_getElem hword, List.getElem?_eq_getElem starts] at hfold
        exact Option.some.inj hfold
      apply hfirst
      rw [List.getElem_append_left hword]
      exact caseBit_eq_zero hget.symm

/-- A lookup reads only what belongs to the string and to the word in its slot, and finds what a
search of all words finds. -/
theorem lookup_eq_search (generated : table.Generated entries) (stops : table.Stops str) :
    table.lookup str = .ok ((search entries str).map some) := by
  by_cases hrange : str.length ≤ table.maxWordLength ∧ table.minWordLength ≤ str.length
  · have hsearch := (perfectHash generated).filter_slot_eq_find? str
    rw [lookup, if_pos hrange, hash_eq generated hrange.2, bind_ok, search, ← hsearch, slot]
    by_cases hkey : table.hashValue str ≤ table.maxHashValue
    · have hlt : table.hashValue str < table.wordlist.length := by
        rw [generated.full]
        exact Nat.lt_succ_of_le hkey
      have hstarts : 0 < str.length := generated.positive.trans_le hrange.2
      have hslot := List.getElem?_eq_getElem hlt
      rw [if_pos hkey, hslot]
      generalize table.wordlist[table.hashValue str] = slot at hslot
      dsimp only
      cases slot with
      | none =>
          rw [@compare_eq β str none [] rfl (by simp) hstarts
            (stops.imp_right fun hstops first given hfirst hgiven hbit =>
              Nat.le_of_succ_le_succ (hstops none first given hslot hfirst hgiven hbit)), if_neg]
          · rfl
          · intro same
            have hlength := congrArg List.length same
            rw [length_foldCase, length_foldCase] at hlength
            exact absurd hlength (Nat.ne_of_lt hstarts)
      | some entry =>
          have hlisted := generated.only entry
            (List.mem_filterMap.mpr ⟨_, List.mem_of_getElem? hslot, rfl⟩)
          rw [compare_eq rfl (bounds generated hlisted).2.2 hstarts
            (stops.imp_right fun hstops first given hfirst hgiven hbit => by
              have hle := hstops (some entry) first given hslot hfirst hgiven hbit
              simp only [wordBytes, List.length_append] at hle
              exact Nat.le_of_succ_le_succ hle)]
          by_cases hsame : foldCase (bytesOf entry.1) = foldCase str
          · simp [hsame]
          · simp [hsame]
    · have hslot : table.wordlist[table.hashValue str]? = none :=
        List.getElem?_eq_none (by rw [generated.full]; omega)
      rw [if_neg hkey, hslot]
      rfl
  · rw [lookup, if_neg hrange]
    have hnone : search entries str = none := by
      rw [search, List.find?_eq_none]
      intro entry hlisted hsame
      apply hrange
      have hlength := congrArg List.length (beq_iff_eq.mp hsame)
      rw [length_foldCase, length_foldCase] at hlength
      have hwords := bounds generated hlisted
      exact ⟨hlength ▸ hwords.2.1, hlength ▸ hwords.1⟩
    rw [hnone]
    rfl

end GperfTable

/-! ## The three tables -/

/-- The words of `content_encoding.gperf` -/
def contentEncodings : List (String × ContentEncoding) :=
  [("gzip", .gzip), ("compress", .compress), ("deflate", .deflate), ("identity", .identity),
    ("br", .br)]

/-- The words of `transfer_encoding.gperf` -/
def transferEncodings : List (String × TransferEncoding) :=
  [("chunked", .chunked), ("compress", .compress), ("deflate", .deflate), ("gzip", .gzip),
    ("identity", .identity)]

theorem contentEncodingTable_generated : contentEncodingTable.Generated contentEncodings where
  sized _ _ _ := rfl
  inside str long place listed := by
    rw [List.mem_singleton.mp listed]
    exact Nat.lt_of_lt_of_le (by decide) long
  positive := by decide
  caseless := by decide +kernel
  full := rfl
  placed := by decide +kernel
  only := by decide +kernel
  words := by decide +kernel

theorem transferEncodingTable_generated : transferEncodingTable.Generated transferEncodings where
  sized _ _ _ := rfl
  inside str long place listed := by
    rw [List.mem_singleton.mp listed]
    exact Nat.lt_of_lt_of_le (by decide) long
  positive := by decide
  caseless := by decide +kernel
  full := rfl
  placed := by decide +kernel
  only := by decide +kernel
  words := by decide +kernel

theorem contentTypeTable_generated : contentTypeTable.Generated fileExtensions where
  sized first second same := by
    show (if 3 ≤ first.length ∧ first.length ≤ 6 then [] else [6]) ++ [first.length - 1] = _
    rw [same]
    rfl
  inside str long place listed := by
    have hlong : 3 ≤ str.length := long
    rcases List.mem_append.mp listed with hseventh | hlast
    · split_ifs at hseventh with hshort
      · cases hseventh
      · rw [List.mem_singleton.mp hseventh]
        omega
    · rw [List.mem_singleton.mp hlast]
      omega
  positive := by decide
  caseless := by decide +kernel
  full := rfl
  placed := by decide +kernel
  only := by decide +kernel
  words := by decide +kernel

/-- When the first character is hashed, the word in the slot of a string that starts with the
same letter is as long as the string. -/
theorem stops_of_first {β : Type} {table : GperfTable β} (hashes : table.hashes = fun _ => [0])
    (fits : ∀ code < 256, ∀ key < table.wordlist.length,
      (UInt8.ofNat code ^^^ (GperfTable.wordBytes table.wordlist[key]?.join)[0]?.getD 0) &&&
        ~~~32 = 0 →
      key + 1 ≤ (GperfTable.wordBytes table.wordlist[key]?.join).length +
        table.assoValue (UInt8.ofNat code)) (str : List UInt8) : table.Stops str := by
  refine .inr fun slot first given hslot hfirst hgiven hbit => ?_
  have hhash : table.hashValue str = str.length + table.assoValue first := by
    simp [GperfTable.hashValue, hashes, hfirst]
  have hlt : str.length + table.assoValue first < table.wordlist.length := by
    rw [← hhash]
    exact (List.getElem?_eq_some_iff.mp hslot).1
  have hle := fits first.toNat first.toNat_lt _ hlt
  rw [UInt8.ofNat_toNat, ← hhash, hslot, Option.join_some, hgiven, Option.getD_some, hhash] at hle
  have := hle hbit
  omega

/-- The lookups of encodings and types read only what belongs to their strings and words, and
find what a search without regard to case finds. -/
theorem gperfLookups_eq_search (str : List UInt8) :
    contentEncodingTable.lookup str =
        .ok ((GperfTable.search contentEncodings str).map some) ∧
      transferEncodingTable.lookup str =
        .ok ((GperfTable.search transferEncodings str).map some) ∧
      ((∀ byte ∈ str, byte ≠ 0) →
        contentTypeTable.lookup str = .ok ((GperfTable.search fileExtensions str).map some) ∧
        getFileExtensionFromContentType str =
          (GperfTable.search fileExtensions str).map fun entry => .ofText entry.2) := by
  refine ⟨?_, ?_, fun real => ⟨?_, rfl⟩⟩
  · exact GperfTable.lookup_eq_search contentEncodingTable_generated
      (stops_of_first rfl (by decide +kernel) str)
  · exact GperfTable.lookup_eq_search transferEncodingTable_generated
      (stops_of_first rfl (by decide +kernel) str)
  · exact GperfTable.lookup_eq_search contentTypeTable_generated (.inl real)

theorem gperfLookups_eq_search_html :
    contentTypeTable.lookup (bytesOf "Text/HTML") = .ok (some (some ("text/html", "html"))) ∧
      contentTypeTable.lookup (bytesOf "Text/HTML") =
        .ok ((GperfTable.search fileExtensions (bytesOf "Text/HTML")).map some) :=
  ⟨by decide +kernel, ((gperfLookups_eq_search (bytesOf "Text/HTML")).2.2 (by decide +kernel)).1⟩

/-- In the table of types, the place behind a word is read when the string has a NUL there. -/
example : contentTypeTable.lookup [0, 47, 97, 97, 97] = .error (.load 5) := by decide +kernel

end MmtProbe.Dpi

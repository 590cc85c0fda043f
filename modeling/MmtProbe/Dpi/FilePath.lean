/-
# Paths inside a directory

The parts of a path are the directory of the configuration, the prefix `mmt-`, the name
of a session, the extension that the table gives for the type of the content and the
encoding.  A part is flat when it has neither a slash nor a backslash, and a path is in
the directory when everything behind the prefix is flat, as far as it fits in the array.
-/

import MmtProbe.Dpi.FileName
import MmtProbe.Math.Hexadecimal

namespace MmtProbe.Dpi

open MmtProbe.Math MmtProbe.Lib

/-! ## The extension of a content type -/

/-- The table of `file_extension_from_content_type.gperf`. -/
def fileExtensions : List (String × String) :=
  [("text/html", "html"), ("application/xhtml+xml", "html"), ("text/plain", "txt"),
    ("text/x-cross-domain-policy", "txt"), ("text/xml", "xml"), ("application/xml", "xml"),
    ("application/rss+xml", "xml"), ("application/atom+xml", "xml"), ("text/css", "css"),
    ("text/json", "json"), ("application/json", "json"), ("text/javascript", "js"),
    ("application/x-javascript", "js"), ("application/javascript", "js"),
    ("image/svg+xml", "svg"), ("image/png", "png"), ("image/jpg", "jpg"), ("image/jpeg", "jpg"),
    ("image/gif", "gif"), ("image/x-icon", "icon"), ("image/vnd.microsoft.icon", "icon"),
    ("application/x-font-ttf", "tff"), ("application/x-font-woff", "woff"),
    ("application/x-woff", "woff"), ("application/font-woff2", "woff"), ("font/woff", "woff"),
    ("mp3", "mp3"), ("application/x-shockwave-flash", "swf"), ("mp4", "mp4"),
    ("audio/mp4", "mp4"), ("video/MP2T", "mp4"), ("video/x-flv", "flv"),
    ("video/x-ms-asf", "asf"), ("zip", "zip"), ("application/zip", "zip"),
    ("application/x-fcs", "fcs"), ("application/x-amf", "amf"),
    ("application/ocsp-response", "ocsp"), ("application/x-debian-package", "deb"),
    ("binary/octet-stream", "dat"), ("application/x-unknown-content-type", "dat"),
    ("application/x-www-form-urlencoded", "dat"), ("application/octet-stream", "dat"),
    ("application/vnd.google.safebrowsing-chunk", "dat"),
    ("application/vnd.google.safebrowsing-update", "dat")]

/-- The table is searched without regard to case. -/
def foldCase (text : List UInt8) : List UInt8 :=
  text.map fun byte => if isUpper byte then byte + 32 else byte

/-- `get_file_extension_from_content_type` -/
def getFileExtensionFromContentType (contentType : List UInt8) : Option CString :=
  (fileExtensions.find? fun entry => foldCase (bytesOf entry.1) == foldCase contentType).map
    fun entry => .ofText entry.2

/-- `_get_extension_from_content_type`: the type ends at a semicolon or a blank. -/
def getExtensionFromContentType (data : Option (List UInt8)) : CString :=
  match data with
  | none => .ofText "unk"
  | some [] => .ofText "unk"
  | some contentType =>
      (getFileExtensionFromContentType
        (contentType.takeWhile fun byte => byte != 59 && byte != 32)).getD (.ofText "unk")

/-! ## Names without a directory -/

/-- No byte is a slash, a backslash or a NUL. -/
def Flat (bytes : List UInt8) : Prop := ∀ byte ∈ bytes, byte ≠ 47 ∧ byte ≠ 92 ∧ byte ≠ 0

instance (bytes : List UInt8) : Decidable (Flat bytes) :=
  List.decidableBAll (fun byte => byte ≠ 47 ∧ byte ≠ 92 ∧ byte ≠ 0) bytes

/-- A path that begins with the directory and the prefix and has no other directory, cut
where the array ends. -/
def InDirectory (directory : CString) (path : List UInt8) : Prop :=
  ∃ name, Flat name ∧ path = (directory.bytes ++ (bytesOf "mmt-" ++ name)).take 254

/-- How much of a name fits behind the directory and the prefix. -/
def nameRoom (directory : CString) : Nat := 250 - directory.bytes.length

/-- The part of the directory that fits behind the directory is flat. -/
def FlatTwice (directory : CString) : Prop := Flat (directory.bytes.take (nameRoom directory))

section Flat

variable {first second : List UInt8}

theorem Flat.append (flat : Flat first) (flat' : Flat second) : Flat (first ++ second) := by
  intro byte hbyte
  rcases List.mem_append.mp hbyte with hfirst | hsecond
  · exact flat byte hfirst
  · exact flat' byte hsecond

theorem Flat.cons {byte : UInt8} (flat : Flat first)
    (allowed : byte ≠ 47 ∧ byte ≠ 92 ∧ byte ≠ 0) : Flat (byte :: first) :=
  List.forall_mem_cons.mpr ⟨allowed, flat⟩

theorem Flat.subset (flat : Flat second) (inside : first ⊆ second) : Flat first :=
  fun byte hbyte => flat byte (inside hbyte)

theorem Flat.take (flat : Flat first) (count : Nat) : Flat (first.take count) :=
  flat.subset (List.take_subset _ _)

theorem flat_mmt : Flat (bytesOf "mmt-") := by decide +kernel

theorem flat_formatByte {byte : UInt8} (some_byte : byte ≠ 0) :
    formatByte byte ≠ 47 ∧ formatByte byte ≠ 92 ∧ formatByte byte ≠ 0 := by
  unfold formatByte
  split_ifs with hslash hother
  · decide
  · decide
  · refine ⟨?_, ?_, some_byte⟩
    · rintro rfl
      exact hslash (by decide +kernel)
    · rintro rfl
      exact hslash (by decide +kernel)

theorem flat_stringFormatFileName (bytes : List UInt8) : Flat (stringFormatFileName bytes) := by
  intro byte hbyte
  rcases List.mem_map.mp hbyte with ⟨source, hsource, rfl⟩
  have hne : (source != 0) = true := List.mem_takeWhile_imp (p := (· != 0)) hsource
  exact flat_formatByte (bne_iff_ne.mp hne)

theorem flat_namePart (bytes : Option (List UInt8)) (cut : List UInt8 → List UInt8) :
    Flat (namePart bytes cut) := by
  unfold namePart
  split
  · exact List.forall_mem_nil _
  · exact List.forall_mem_nil _
  · intro byte hbyte
    rcases List.mem_cons.mp hbyte with rfl | hformat
    · decide
    · exact flat_stringFormatFileName _ byte hformat

/-- The peers cannot put a directory into the name of a request. -/
theorem flat_requestName (packet : HttpPacket) : Flat (requestName packet).bytes := by
  rw [bytes_requestName]
  refine (Flat.append ?_ (flat_namePart _ _)).append (flat_namePart _ _)
  intro byte hbyte
  refine ⟨?_, ?_, ?_⟩
  · rintro rfl
    exact notMem_fixed (by decide) _ _ hbyte
  · rintro rfl
    exact notMem_fixed (by decide) _ _ hbyte
  · rintro rfl
    exact notMem_fixed (by decide) _ _ hbyte

theorem flat_getExtensionFromContentType (data : Option (List UInt8)) :
    Flat (getExtensionFromContentType data).bytes := by
  have hunknown : Flat (CString.ofText "unk").bytes := by decide +kernel
  have htable : ∀ entry ∈ fileExtensions, Flat (CString.ofText entry.2).bytes := by decide +kernel
  unfold getExtensionFromContentType
  split
  · exact hunknown
  · exact hunknown
  · unfold getFileExtensionFromContentType
    cases hfind : fileExtensions.find? _ with
    | none => exact hunknown
    | some entry => exact htable entry (List.mem_of_find?_eq_some hfind)

theorem flat_identString (encoding : ContentEncoding) : Flat encoding.identString.bytes := by
  cases encoding <;> decide +kernel

end Flat

/-! ## Paths -/

section Paths

variable {directory : CString}

/-- Only what fits behind the directory and the prefix matters. -/
theorem inDirectory_take_iff (name : List UInt8) :
    InDirectory directory ((directory.bytes ++ (bytesOf "mmt-" ++ name)).take 254) ↔
      Flat (name.take (nameRoom directory)) := by
  have hmmt : (bytesOf "mmt-").length = 4 := by decide +kernel
  have hcut : ∀ other : List UInt8, (directory.bytes ++ (bytesOf "mmt-" ++ other)).take 254 =
      (directory.bytes ++ bytesOf "mmt-").take 254 ++ other.take (nameRoom directory) := by
    intro other
    rw [← List.append_assoc, List.take_append, List.length_append, hmmt, nameRoom]
    congr 2
    omega
  constructor
  · rintro ⟨other, hflat, hsame⟩
    rw [hcut, hcut] at hsame
    rw [List.append_cancel_left hsame]
    exact hflat.take _
  · intro hflat
    refine ⟨name.take (nameRoom directory), hflat, ?_⟩
    rw [hcut, hcut, List.take_take, Nat.min_self]

/-- A stored name is the directory, the prefix, the name and flat characters, cut where the
array ends. -/
theorem storedName_eq (needs : Bool) (directory sessionName : CString) {fileExtension : List UInt8}
    (flat : Flat fileExtension) :
    ∃ tail, Flat tail ∧ storedName needs (builtName directory sessionName) fileExtension =
      (directory.bytes ++ (bytesOf "mmt-" ++ (sessionName.bytes ++ tail))).take 254 := by
  have hassoc : ∀ tail, directory.bytes ++ (bytesOf "mmt-" ++ (sessionName.bytes ++ tail)) =
      (directory.bytes ++ (bytesOf "mmt-" ++ sessionName.bytes)) ++ tail := by simp
  have hdot : Flat (46 :: fileExtension) := flat.cons (by decide)
  have hplain : ∃ tail, Flat tail ∧ builtName directory sessionName =
      (directory.bytes ++ (bytesOf "mmt-" ++ (sessionName.bytes ++ tail))).take 254 :=
    ⟨[], List.forall_mem_nil _, by rw [List.append_nil]; rfl⟩
  by_cases hshort : (directory.bytes ++ (bytesOf "mmt-" ++ sessionName.bytes)).length ≤ 254
  · cases needs with
    | false => exact hplain
    | true =>
        have hbuilt : builtName directory sessionName =
            directory.bytes ++ (bytesOf "mmt-" ++ sessionName.bytes) :=
          List.take_of_length_le hshort
        have hlength := length_storedName_le (length_builtName_le directory sessionName) true
          fileExtension
        refine ⟨(46 :: fileExtension).take (254 - 2 * (builtName directory sessionName).length),
          hdot.take _, ?_⟩
        rw [hassoc, ← hbuilt]
        rw [storedName, if_pos rfl] at hlength ⊢
        exact (List.take_of_length_le hlength).symm
  · -- there is no room behind the name
    have hfull : (builtName directory sessionName).length = 254 := by
      rw [builtName, List.length_take]
      omega
    have hsame : storedName needs (builtName directory sessionName) fileExtension =
        builtName directory sessionName := by
      cases needs with
      | false => rfl
      | true => rw [storedName, if_pos rfl, hfull, List.take_zero, List.append_nil]
    rw [hsame]
    exact hplain

/-- An opened path is the same with the encoding behind it. -/
theorem openedName_eq {stored rest : List UInt8} (cut : stored = rest.take 254)
    (contentEncoding : Option ContentEncoding) :
    ∃ tail, Flat tail ∧ openedName stored contentEncoding = (rest ++ tail).take 254 := by
  have hnone : ∃ tail, Flat tail ∧ stored = (rest ++ tail).take 254 :=
    ⟨[], List.forall_mem_nil _, by rw [List.append_nil]; exact cut⟩
  unfold openedName
  split
  · rename_i fields hfields
    rcases encodingFields_cases hfields with ⟨encoding, rfl⟩
    have hflat : Flat (46 :: encoding.identString.bytes) :=
      (flat_identString encoding).cons (by decide)
    rw [flatMap_full_suffix]
    refine ⟨46 :: encoding.identString.bytes, hflat, ?_⟩
    rw [List.take_append, cut, List.length_take]
    congr 2
    omega
  · exact hnone

end Paths

end MmtProbe.Dpi

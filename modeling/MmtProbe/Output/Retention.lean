/-
# Retention of sampled files

The first output of a probe limits the number of sampled files.  It lists the semaphores
in the directory, sorted by their names, and removes the first ones with their data files
until as many are left as are retained.

A name begins with the time, so the order of the names is the order in which the files were
created.  What can go wrong is that the filter takes other names for semaphores, or does
not see that a name is one: it looks for the first `.sem` and wants nothing behind it, so
it refuses all semaphores when the configured file name holds `.sem`.
-/

import MmtProbe.Output.FileOutputRuns
import MmtProbe.Math.Texts

namespace MmtProbe.Output

open MmtProbe.Math MmtProbe.Dpi MmtProbe.Lib

/-! ## The code -/

/-- `_load_filter` -/
def loadFilter (name : Path) : Bool :=
  match strstr semaphoreExt.bytes name with
  | none => false
  | some ext => ext.length == semaphoreExt.bytes.length

/-- `alphasort`; the process has the byte order of the C locale. -/
def alphasort (names : List Path) : List Path := names.insertionSort (· ≤ ·)

/-- `scandir`, of a directory that can be read, whose names are given in any order. -/
def scandir (names : List Path) : List Path := alphasort (names.filter loadFilter)

/-- The number of files to remove.  It is computed as a `size_t` and stored as an `int`. -/
def toRemove (n : Nat) (retains : UInt16) : Nat :=
  (Int.bmod (((n : Int) - retains.toNat) % 2 ^ 64) (2 ^ 32)).toNat

/-- One round of the loop: the array behind it, and the paths that were unlinked. -/
def removeEntry (offset : Nat) (fileName : List UInt8) (name : Path) :
    Except Fault (List UInt8 × List Path) :=
  if maxLengthFullPathFileName ≤ name.length + offset then .ok (fileName, [])
  else do
    let fileName ← storeBytes fileName offset (name ++ [0])
    let semaphore ← loadString fileName 0
    -- cut `.sem`
    let fileName ← store fileName (offset + name.length - semaphoreExt.bytes.length) 0
    let data ← loadString fileName 0
    return (fileName, [semaphore, data])

/-- The loop of `_remove_old_sampled_files`. -/
def removeEntries (offset : Nat) : List Path → List UInt8 → Except Fault (List Path)
  | [], _ => .ok []
  | name :: names, fileName => do
      let (fileName, unlinked) ← removeEntry offset fileName name
      let later ← removeEntries offset names fileName
      return unlinked ++ later

/-- `_remove_old_sampled_files`: the number it returns and the paths that it unlinks.  Its
callers pass the 16 bits of `retained_files_count`, so the loop stays inside the entries. -/
def removeOldSampledFiles (folder : CString) (retains : UInt16) (names : List Path)
    (fileName : PathArray) : Except Fault (Nat × List Path) := do
  let entries := scandir names
  let count := toRemove entries.length retains
  let offset := folder.bytes.length
  let fileName ← storeBytes fileName.val 0 folder.bytes
  let last ← load fileName (sizeSub offset 1)
  if last = 47 then do
    let unlinked ← removeEntries offset (entries.take count) fileName
    return (count, unlinked)
  else do
    let fileName ← store fileName offset 47
    let unlinked ← removeEntries (offset + 1) (entries.take count) fileName
    return (count, unlinked)

/-! ## The filter -/

theorem semaphoreExt_eq : semaphoreExt.bytes = [46, 115, 101] ++ [109] := by decide +kernel

/-- The filter accepts a name that ends with the extension and has it nowhere else. -/
theorem loadFilter_iff (name : Path) :
    loadFilter name = true ↔
      ∃ front, name = front ++ semaphoreExt.bytes ∧ ¬ semaphoreExt.bytes <:+: front := by
  have hsearch : loadFilter name = true ↔
      strstr semaphoreExt.bytes name = some semaphoreExt.bytes := by
    cases hfound : strstr semaphoreExt.bytes name with
    | none => simp [loadFilter, hfound]
    | some ext =>
        have hstarts := prefix_of_strstr hfound
        simp only [loadFilter, hfound, beq_iff_eq, Option.some.injEq]
        constructor
        · intro hlength
          exact (hstarts.eq_of_length hlength.symm).symm
        · exact congrArg List.length
  have hinside : ∀ front : List UInt8,
      semaphoreExt.bytes <:+: front ++ semaphoreExt.bytes.dropLast ↔
        semaphoreExt.bytes <:+: front := by
    intro front
    rw [semaphoreExt_eq]
    exact infix_append_iff _ (by decide) front
  rw [hsearch, strstr_eq_some_iff (by decide +kernel)]
  simp only [hinside]

theorem infix_of_loadFilter {name : Path} (accepted : loadFilter name = true) :
    semaphoreExt.bytes <:+: name := by
  rcases (loadFilter_iff name).mp accepted with ⟨front, rfl, _⟩
  exact (List.suffix_append _ _).isInfix

theorem loadFilter_append_iff (name : Path) :
    loadFilter (name ++ semaphoreExt.bytes) = true ↔ ¬ semaphoreExt.bytes <:+: name := by
  rw [loadFilter_iff]
  constructor
  · rintro ⟨front, hsame, honly⟩
    rwa [List.append_cancel_right hsame]
  · intro honly
    exact ⟨name, rfl, honly⟩

/-! ## The list -/

theorem mem_scandir {names : List Path} {name : Path} :
    name ∈ scandir names ↔ name ∈ names ∧ loadFilter name = true := by
  rw [scandir, alphasort, List.mem_insertionSort, List.mem_filter]

theorem alphasort_eq_of_perm {listed names : List Path} (sorted : names.Pairwise (· < ·))
    (perm : listed.Perm names) : alphasort listed = names := by
  have hperm : (alphasort listed).Perm names := (List.perm_insertionSort _ listed).trans perm
  have hle : names.Pairwise (· ≤ ·) := sorted.imp fun hlt => List.le_of_lt hlt
  exact hperm.eq_of_pairwise' (List.pairwise_insertionSort _ listed) hle

/-- Different names in the order of `alphasort` are strictly increasing. -/
theorem pairwise_alphasort {names : List Path} (nodup : names.Nodup) :
    (alphasort names).Pairwise (· < ·) := by
  have hle : (alphasort names).Pairwise (· ≤ ·) := List.pairwise_insertionSort _ names
  have hne : (alphasort names).Nodup := ((List.perm_insertionSort _ names).nodup_iff).mpr nodup
  refine (hle.and hne).imp ?_
  rintro first second ⟨hfirst, hdiffer⟩
  by_contra hnot
  exact hdiffer (List.le_antisymm hfirst (List.not_lt.mp hnot))

/-! ## The loop -/

/-- A name without the four characters at its end. -/
def withoutExt (name : Path) : Path := name.take (name.length - semaphoreExt.bytes.length)

@[simp]
theorem withoutExt_append (front : Path) : withoutExt (front ++ semaphoreExt.bytes) = front := by
  rw [withoutExt, List.length_append, Nat.add_sub_cancel, List.take_left]

/-- What is unlinked for a name of the list: nothing, when the array is too small. -/
def unlinkedFor (folder : List UInt8) (name : Path) : List Path :=
  if folder.length + name.length < maxLengthFullPathFileName then
    [folder ++ name, folder ++ withoutExt name]
  else []

/-- A name is put behind the path of the folder, and then the extension is cut. -/
theorem removeEntry_eq {folder tail : List UInt8} {name : Path} (plainFolder : (0 : UInt8) ∉ folder)
    (plain : (0 : UInt8) ∉ name) (accepted : loadFilter name = true)
    (whole : folder.length + tail.length = 255) :
    ∃ tail', folder.length + tail'.length = 255 ∧
      removeEntry folder.length (folder ++ tail) name =
        .ok (folder ++ tail', unlinkedFor folder name) := by
  rw [removeEntry, unlinkedFor, maxLengthFullPathFileName, Nat.add_comm name.length]
  by_cases hfits : folder.length + name.length < 255
  · rcases (loadFilter_iff name).mp accepted with ⟨front, rfl, _⟩
    rw [if_neg (by omega), if_pos hfits]
    have hfour : semaphoreExt.bytes = 46 :: [115, 101, 109] := by decide +kernel
    have haddress : folder.length + (front ++ semaphoreExt.bytes).length -
        semaphoreExt.bytes.length = folder.length + front.length := by
      rw [List.length_append]
      omega
    rw [List.length_append, hfour, List.length_cons, List.length_cons, List.length_cons,
      List.length_cons, List.length_nil] at hfits
    let after := tail.drop (front.length + 5)
    have hstore : storeBytes (folder ++ tail) folder.length (front ++ semaphoreExt.bytes ++ [0]) =
        .ok (folder ++ (front ++ semaphoreExt.bytes) ++ 0 :: after) := by
      rw [storeBytes_eq_splice (by simp [hfour]; omega), splice, List.take_left, List.drop_append,
        List.drop_eq_nil_of_le (by simp)]
      simp [after, hfour]
    have hread : loadString (folder ++ (front ++ semaphoreExt.bytes) ++ 0 :: after) 0 =
        .ok (folder ++ (front ++ semaphoreExt.bytes)) :=
      loadString_front (by simp_all) after
    have hstoreCut : store (folder ++ (front ++ semaphoreExt.bytes) ++ 0 :: after)
        (folder.length + front.length) 0 =
        .ok (folder ++ (front ++ 0 :: ([115, 101, 109] ++ 0 :: after))) := by
      have hwritten := store_append_append folder front ([115, 101, 109] ++ 0 :: after) 46 0
      rw [hfour, List.append_assoc, List.append_assoc]
      exact hwritten
    have hreadCut : loadString (folder ++ (front ++ 0 :: ([115, 101, 109] ++ 0 :: after))) 0 =
        .ok (folder ++ front) := by
      rw [← List.append_assoc]
      exact loadString_front (by simp_all) _
    refine ⟨front ++ 0 :: ([115, 101, 109] ++ 0 :: after), ?_, ?_⟩
    · simp only [List.length_append, List.length_cons, List.length_nil, after, List.length_drop]
      omega
    · rw [withoutExt_append, haddress]
      simp only [hstore, bind_ok, hread, hstoreCut, hreadCut]
      rfl
  · rw [if_pos (by omega), if_neg hfits]
    exact ⟨tail, whole, rfl⟩

theorem removeEntries_eq {folder : List UInt8} (plainFolder : (0 : UInt8) ∉ folder)
    {names : List Path} (plain : ∀ name ∈ names, (0 : UInt8) ∉ name)
    (accepted : ∀ name ∈ names, loadFilter name = true) {tail : List UInt8}
    (whole : folder.length + tail.length = 255) :
    removeEntries folder.length names (folder ++ tail) =
      .ok (names.flatMap (unlinkedFor folder)) := by
  induction names generalizing tail with
  | nil => rfl
  | cons name names ih =>
      rw [List.forall_mem_cons] at plain accepted
      rcases removeEntry_eq plainFolder plain.1 accepted.1 whole with ⟨tail', hwhole, hentry⟩
      have hlater := ih plain.2 accepted.2 hwhole
      simp only [removeEntries, hentry, bind_ok, hlater]
      rfl

/-- The detour over `size_t` does no harm. -/
theorem toRemove_eq {n : Nat} (few : n < 2 ^ 31) (retains : UInt16) :
    toRemove n retains = n - retains.toNat := by
  have hretains := retains.toNat_lt
  have hcut := Int.emod_emod_of_dvd ((n : Int) - retains.toNat)
    (show ((2 ^ 32 : Nat) : Int) ∣ 2 ^ 64 by decide)
  rw [toRemove, ← Int.emod_bmod, hcut, Int.emod_bmod, Int.bmod_eq_of_le (by omega) (by omega)]
  omega

/-- A longer path does not fit into the array. -/
theorem folderFits_of_ok {folder : CString} {retains : UInt16} {names : List Path}
    {array : PathArray} {result : Nat × List Path}
    (returns : removeOldSampledFiles folder retains names array = .ok result) :
    folder.bytes.length ≤ maxLengthFullPathFileName := by
  have harray : array.val.length = maxLengthFullPathFileName := array.property
  rcases bind_eq_ok_iff.mp returns with ⟨block, hblock, _⟩
  rw [storeBytes] at hblock
  split_ifs at hblock with hfits
  omega

end MmtProbe.Output

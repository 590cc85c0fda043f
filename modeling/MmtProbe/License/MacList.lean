/-
# The addresses in the license report

`license_check_expiry` lists the addresses of a license in its report.  Each of them
takes thirteen bytes of the list, twelve characters and what stands behind them, but the
comma in front of an address is written twelve bytes further on than the last one.  The
first comma is where it should be.  The second one replaces the last character of the
second address, and the NUL behind that address stays and ends the list.
-/

import MmtProbe.License.DecodeLicense

namespace MmtProbe.License

open MmtProbe.Math

/-! ## The loop -/

/-- "separate mac addresses by comma", from the address `i` on. -/
def macListLoop (macAddresses : List UInt8) (list : List UInt8) (i : Nat) :
    Nat → Except Fault (List UInt8)
  | 0 => .ok list
  | left + 1 => do
      let list ← (if i = 0 then do
          let address ← loadBytes macAddresses (i * 12) 12
          let list ← storeBytes list 0 address
          store list 12 0
        else do
          let list ← store list (i * 12) 44
          let address ← loadBytes macAddresses (i * 12) 12
          let list ← storeBytes list (i * 13) address
          store list (i * 13 + 12) 0 : Except Fault (List UInt8))
      macListLoop macAddresses list (i + 1) left

/-- The string `mac_address`, in memory that `malloc` has returned. -/
def macAddressList (license : LicenseContent) (allocated : List UInt8) :
    Except Fault (List UInt8) :=
  macListLoop license.macAddresses allocated 0 license.macCount.toNat

/-- An address of the license. -/
def addressAt (macAddresses : List UInt8) (i : Nat) : List UInt8 :=
  (macAddresses.drop (i * 12)).take 12

/-- The addresses of the license, in order. -/
def addresses (macAddresses : List UInt8) (count : Nat) : List (List UInt8) :=
  (List.range count).map (addressAt macAddresses)

/-- All writes are inside, and the list is that of the addresses with commas between them. -/
def ListsAll (license : LicenseContent) (count : Nat) (allocated : List UInt8) : Prop :=
  macAddressList license allocated =
    .ok (joinWith 44 (addresses license.macAddresses count) ++ [0])

/-! ## One address -/

variable {macAddresses list : List UInt8} {i : Nat}

theorem loadBytes_addressAt (stored : i * 12 + 12 ≤ macAddresses.length) :
    loadBytes macAddresses (i * 12) 12 = .ok (addressAt macAddresses i) := if_pos stored

theorem length_addressAt (stored : i * 12 + 12 ≤ macAddresses.length) :
    (addressAt macAddresses i).length = 12 := by
  rw [addressAt, List.length_take, List.length_drop]
  omega

/-- The first address. -/
theorem macListLoop_zero (stored : 12 ≤ macAddresses.length) (room : 13 ≤ list.length)
    (left : Nat) :
    macListLoop macAddresses list 0 (left + 1) =
      macListLoop macAddresses (splice list 0 (addressAt macAddresses 0 ++ [0])) 1 left := by
  have hlength : (addressAt macAddresses 0).length = 12 := length_addressAt (by omega)
  have hload : loadBytes macAddresses (0 * 12) 12 = .ok (addressAt macAddresses 0) :=
    loadBytes_addressAt (by omega)
  have hcopy : storeBytes list 0 (addressAt macAddresses 0) =
      .ok (splice list 0 (addressAt macAddresses 0)) := storeBytes_eq_splice (by omega)
  have hclose := @store_splice_zero list (addressAt macAddresses 0) (by omega) 0
  rw [hlength] at hclose
  rw [macListLoop, if_pos rfl, hload, bind_ok, hcopy, bind_ok, hclose, bind_ok]

/-- Another address: the comma, the characters and the NUL. -/
theorem macListLoop_succ (later : i ≠ 0) (stored : i * 12 + 12 ≤ macAddresses.length)
    (room : i * 13 + 13 ≤ list.length) (left : Nat) :
    macListLoop macAddresses list i (left + 1) =
      macListLoop macAddresses
        (splice (list.set (i * 12) 44) (i * 13) (addressAt macAddresses i ++ [0]))
          (i + 1) left := by
  have hlength : (addressAt macAddresses i).length = 12 := length_addressAt stored
  have hcomma : store list (i * 12) 44 = .ok (list.set (i * 12) 44) := if_pos (by omega)
  have hset : (list.set (i * 12) 44).length = list.length := List.length_set
  have hcopy : storeBytes (list.set (i * 12) 44) (i * 13) (addressAt macAddresses i) =
      .ok (splice (list.set (i * 12) 44) (i * 13) (addressAt macAddresses i)) :=
    storeBytes_eq_splice (by omega)
  have hclose := @store_splice (list.set (i * 12) 44) (i * 13) (addressAt macAddresses i)
    (by omega) 0
  rw [hlength] at hclose
  rw [macListLoop, if_neg later, hcomma, bind_ok, loadBytes_addressAt stored, bind_ok, hcopy,
    bind_ok, hclose, bind_ok]

/-! ## The byte behind the second address -/

/-- From the third address on, every write is before or behind the byte 25. -/
theorem getElem?_macListLoop {left : Nat} {after : List UInt8} (late : 2 ≤ i)
    (stored : (i + left) * 12 ≤ macAddresses.length) (room : (i + left) * 13 ≤ list.length)
    (run : macListLoop macAddresses list i left = .ok after) : after[25]? = list[25]? := by
  induction left generalizing list i with
  | zero =>
      cases run
      rfl
  | succ left ih =>
      have hset : (list.set (i * 12) 44).length = list.length := List.length_set
      have hlength : (addressAt macAddresses i ++ [0]).length = 13 := by
        rw [List.length_append, length_addressAt (by omega), List.length_singleton]
      have hsplice : (splice (list.set (i * 12) 44) (i * 13)
          (addressAt macAddresses i ++ [0])).length = list.length := by
        rw [length_splice (by omega), hset]
      rw [macListLoop_succ (by omega) (by omega) (by omega)] at run
      rw [ih (by omega) (by omega) (by omega) run, splice,
        List.getElem?_append_left (by rw [List.length_take]; omega),
        List.getElem?_take_of_lt (by omega), List.getElem?_set_ne (by omega)]

/-- The first two addresses. -/
theorem macListLoop_two (stored : 24 ≤ macAddresses.length) (room : 26 ≤ list.length)
    (left : Nat) :
    macListLoop macAddresses list 0 (left + 2) =
      macListLoop macAddresses (splice list 0 (addressAt macAddresses 0 ++
        44 :: (addressAt macAddresses 1 ++ [0]))) 2 left := by
  have hzero : (addressAt macAddresses 0).length = 12 := length_addressAt (by omega)
  have hone : (addressAt macAddresses 1).length = 12 := length_addressAt (by omega)
  have hfirst : (splice list 0 (addressAt macAddresses 0 ++ [0])).length = list.length :=
    length_splice (by rw [List.length_append, List.length_singleton]; omega)
  -- the first comma replaces the NUL behind the first address
  have hcomma : (splice list 0 (addressAt macAddresses 0 ++ [0])).set 12 44 =
      splice list 0 (addressAt macAddresses 0 ++ [44]) := by
    have hstore := @store_splice_inside list 0 (addressAt macAddresses 0) []
      (by rw [List.length_nil]; omega) 0 44
    rw [Nat.zero_add, hzero, store, if_pos (by omega)] at hstore
    exact Except.ok.inj hstore
  have hboth := @splice_splice list (addressAt macAddresses 0 ++ [44])
    (addressAt macAddresses 1 ++ [0]) 0
    (by simp only [List.length_append, List.length_singleton]; omega)
  rw [List.length_append, hzero, List.length_singleton, List.append_assoc,
    List.singleton_append] at hboth
  rw [macListLoop_zero (by omega) (by omega),
    macListLoop_succ (by omega) (by omega) (by omega), Nat.one_mul, Nat.one_mul, hcomma]
  exact congrArg (macListLoop macAddresses · 2 left) hboth

/-! ## The whole list -/

/-- Behind two addresses the list has a comma. -/
theorem getElem?_joinWith {first second third : List UInt8} (others : List (List UInt8))
    (hfirst : first.length = 12) (hsecond : second.length = 12) :
    (joinWith 44 (first :: second :: third :: others) ++ [0])[25]? = some 44 := by
  have hcomma : (joinWith 44 (first :: second :: third :: others) ++ [0]) =
      (first ++ 44 :: second) ++ 44 :: (joinWith 44 (third :: others) ++ [0]) := by
    rw [joinWith_cons_cons, joinWith_cons_cons]
    simp only [List.append_assoc, List.cons_append]
  have hlength : (first ++ 44 :: second).length = 25 := by
    rw [List.length_append, List.length_cons, hfirst, hsecond]
  rw [hcomma, List.getElem?_append_right (by omega), hlength]
  rfl

/-- The list is complete exactly when the license has one or two addresses. -/
theorem listsAll_iff (license : LicenseContent) {count : Nat} (counted : license.macCount = count)
    (positive : 1 ≤ count) (stored : count * 12 ≤ license.macAddresses.length)
    (allocated : List UInt8) (room : allocated.length = count * 13) :
    ListsAll license count allocated ↔ count ≤ 2 := by
  have hcount : license.macCount.toNat = count := by rw [counted]; rfl
  unfold ListsAll macAddressList
  rw [hcount]
  match count, positive with
  | 1, _ =>
      refine iff_of_true ?_ (by decide)
      have hlength : (addressAt license.macAddresses 0).length = 12 := length_addressAt (by omega)
      rw [macListLoop_zero (by omega) (by omega), macListLoop,
        splice_zero_full (by rw [List.length_append, hlength, room]; rfl)]
      rfl
  | 2, _ =>
      refine iff_of_true ?_ (Nat.le_refl 2)
      have hzero : (addressAt license.macAddresses 0).length = 12 := length_addressAt (by omega)
      have hone : (addressAt license.macAddresses 1).length = 12 := length_addressAt (by omega)
      rw [macListLoop_two (by omega) (by omega), macListLoop, splice_zero_full (by
        simp only [List.length_append, List.length_cons, List.length_nil, hzero, hone, room])]
      change _ = Except.ok (joinWith 44 [addressAt _ 0, addressAt _ 1] ++ [0])
      rw [joinWith_cons_cons, joinWith, List.append_assoc, List.cons_append]
  | count + 3, _ =>
      refine iff_of_false ?_ (by omega)
      intro hlist
      have hzero : (addressAt license.macAddresses 0).length = 12 := length_addressAt (by omega)
      have hone : (addressAt license.macAddresses 1).length = 12 := length_addressAt (by omega)
      have hsplice : (splice allocated 0 (addressAt license.macAddresses 0 ++
          44 :: (addressAt license.macAddresses 1 ++ [0]))).length = allocated.length := by
        apply length_splice
        simp only [List.length_append, List.length_cons, List.length_nil, hzero, hone, room]
        omega
      rw [macListLoop_two (by omega) (by omega)] at hlist
      have hkept := getElem?_macListLoop (Nat.le_refl 2) (by omega) (by omega) hlist
      have hnul : (splice allocated 0 (addressAt license.macAddresses 0 ++
          44 :: (addressAt license.macAddresses 1 ++ [0])))[25]? = some 0 := by
        rw [splice_zero, List.getElem?_append_left (by
          simp only [List.length_append, List.length_cons, List.length_nil, hzero, hone]; omega)]
        rw [List.getElem?_append_right (by omega), hzero, List.getElem?_cons_succ,
          List.getElem?_append_right (by omega), hone]
        rfl
      have hrange : addresses license.macAddresses (count + 3) =
          addressAt license.macAddresses 0 :: addressAt license.macAddresses 1 ::
            addressAt license.macAddresses 2 ::
              (List.range count).map (fun i => addressAt license.macAddresses (i + 3)) := by
        simp only [addresses, List.range_succ_eq_map, List.map_cons, List.map_map]
        rfl
      rw [hrange, getElem?_joinWith _ hzero hone, hnul] at hkept
      exact absurd hkept (by decide)

/-- A license for some addresses. -/
def licenseFor (count : Nat) (macs : String) : LicenseContent := ⟨2025, 1, 1, count, bytesOf macs⟩

theorem listsAll_iff_two :
    ∃ license : LicenseContent, license.macCount = (2 : Nat) ∧
      2 * 12 ≤ license.macAddresses.length ∧
      ListsAll license 2 (List.replicate (2 * 13) 255) := by
  have hcount : (licenseFor 2 "0800277490530800271c04a5").macCount = (2 : Nat) := rfl
  have hstored : 2 * 12 ≤ (licenseFor 2 "0800277490530800271c04a5").macAddresses.length := by
    decide +kernel
  refine ⟨licenseFor 2 "0800277490530800271c04a5", hcount, hstored, ?_⟩
  exact (listsAll_iff _ hcount (by decide) hstored _ List.length_replicate).mpr (Nat.le_refl 2)

/-- Of three addresses the second one is cut, and the third one is not read. -/
theorem not_listsAll_three :
    ∃ list,
      macAddressList (licenseFor 3 "0800277490530800271c04a59c2a70246cdb")
          (List.replicate (3 * 13) 255) = .ok list ∧
        loadString list 0 = .ok (bytesOf "080027749053,0800271c04a,") ∧
        ¬ ListsAll (licenseFor 3 "0800277490530800271c04a59c2a70246cdb") 3
          (List.replicate (3 * 13) 255) := by
  have hlist : ∃ list, macAddressList (licenseFor 3 "0800277490530800271c04a59c2a70246cdb")
      (List.replicate (3 * 13) 255) = .ok list ∧
        loadString list 0 = .ok (bytesOf "080027749053,0800271c04a,") :=
    ⟨bytesOf "080027749053,0800271c04a," ++ 0 :: (bytesOf "9c2a70246cdb" ++ [0]),
      by decide +kernel, by decide +kernel⟩
  rcases hlist with ⟨list, hrun, hread⟩
  refine ⟨list, hrun, hread, ?_⟩
  intro hall
  rw [ListsAll, hrun] at hall
  rw [Except.ok.inj hall] at hread
  exact absurd hread (by decide +kernel)

end MmtProbe.License

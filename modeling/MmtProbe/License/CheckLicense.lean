/-
# Checking a license on a machine

`_check_license` prints each address of the machine as twelve characters and compares
them with those of the license.  It prints lower-case digits, and the generator keeps the
characters as they were typed, so an address is found only where it was typed without an
upper-case letter.
-/

import MmtProbe.License.DecodeLicense
import MmtProbe.Math.Hexadecimal

namespace MmtProbe.License

open MmtProbe.Math

/-! ## The functions -/

/-- The six bytes of the address of an interface. -/
structure HostAddress where
  bytes : List UInt8
  six : bytes.length = 6
deriving DecidableEq

/-- `snprintf` with `%.2x%.2x%.2x%.2x%.2x%.2x` -/
def printMac (ptr : List UInt8) : List UInt8 := ptr.flatMap lowerHexByte

/-- The loop over the addresses of the license, from the address `j` on. `strncmp` stops
behind a NUL that both texts have. -/
def findMac (license : LicenseContent) (mac : List UInt8) (j : Nat) : Nat → Except Fault Bool
  | 0 => .ok false
  | left + 1 => do
      let address ← loadBytes license.macAddresses (j * 12) 12
      if cstring address = cstring mac then .ok true
      else findMac license mac (j + 1) left

/-- The loop over the addresses of the machine, from the address `i` on. -/
def checkMacs (license : LicenseContent) (macAddresses : List UInt8) (i : Nat) :
    Nat → Except Fault Bool
  | 0 => .ok false
  | left + 1 => do
      let ptr ← loadBytes macAddresses (i * 6) 6
      let isOk ← findMac license (printMac ptr) 0 license.macCount.toNat
      if isOk then .ok true else checkMacs license macAddresses (i + 1) left

/-- `_check_license`, without the remaining time. -/
def checkLicense (license : LicenseContent) (macCount : Nat) (macAddresses : List UInt8) :
    Except Fault Bool := checkMacs license macAddresses 0 macCount

/-- The bytes that `_get_host_mac_address` writes. -/
def hostBytes (machine : List HostAddress) : List UInt8 := machine.flatMap HostAddress.bytes

/-! ## What an address stands for -/

/-- The address is that of the interface, in whatever case it is spelled. -/
def MacAddress.Names (mac : MacAddress) (host : HostAddress) : Prop :=
  mac.pairs.map hexPairValue = host.bytes.map some

/-- The address is spelled without an upper-case letter. -/
def MacAddress.LowerCase (mac : MacAddress) : Prop :=
  ∀ pair ∈ mac.pairs, isUpper pair.1 = false ∧ isUpper pair.2 = false

theorem flatMap_eq_printMac_iff {pairs : List (UInt8 × UInt8)} {bytes : List UInt8}
    (same : pairs.length = bytes.length) :
    (pairs.flatMap fun pair => [pair.1, pair.2]) = printMac bytes ↔
      pairs.map hexPairValue = bytes.map some ∧
        ∀ pair ∈ pairs, isUpper pair.1 = false ∧ isUpper pair.2 = false := by
  induction pairs generalizing bytes with
  | nil =>
      cases bytes with
      | nil => simp [printMac]
      | cons byte bytes => cases same
  | cons pair pairs ih =>
      cases bytes with
      | nil => cases same
      | cons byte bytes =>
          have hrest := ih (Nat.succ.inj same)
          have hsplit : ([pair.1, pair.2] ++ pairs.flatMap fun pair => [pair.1, pair.2]) =
              lowerHexByte byte ++ printMac bytes ↔
                [pair.1, pair.2] = lowerHexByte byte ∧
                  (pairs.flatMap fun pair => [pair.1, pair.2]) = printMac bytes :=
            ⟨fun heq => List.append_inj heq rfl, fun heq => by rw [heq.1, heq.2]⟩
          rw [List.flatMap_cons, printMac, List.flatMap_cons, ← printMac, hsplit,
            pair_eq_lowerHexByte_iff, hrest, List.map_cons, List.map_cons, List.cons_eq_cons,
            List.forall_mem_cons]
          tauto

/-- The characters of an address are the printed ones of an interface when the address
names it and is spelled in lower case. -/
theorem MacAddress.chars_eq_iff (mac : MacAddress) (host : HostAddress) :
    mac.chars = printMac host.bytes ↔ mac.Names host ∧ mac.LowerCase :=
  flatMap_eq_printMac_iff (mac.six.trans host.six.symm)

/-! ## The loops -/

section Loops

variable {macs : List MacAddress} {license : LicenseContent}

theorem plain_of_isAlnum {text : List UInt8} (alnum : ∀ ch ∈ text, isAlnum ch = true) :
    (0 : UInt8) ∉ text := fun hzero => absurd (alnum 0 hzero) (by decide)

theorem plain_printMac (ptr : List UInt8) : (0 : UInt8) ∉ printMac ptr := by
  intro hzero
  rcases List.mem_flatMap.mp hzero with ⟨byte, -, hbyte⟩
  have hall : ∀ n < 16, (0 : UInt8) ≠ lowerHexDigit n := by decide
  have hlt : byte.toNat < 256 := byte.toNat_lt
  simp only [lowerHexByte, List.mem_cons, List.not_mem_nil, or_false] at hbyte
  rcases hbyte with hhigh | hlow
  · exact hall _ (by omega) hhigh
  · exact hall _ (by omega) hlow

theorem macChars_cons (own : MacAddress) (after : List MacAddress) :
    macChars (own :: after) = own.chars ++ macChars after := List.flatMap_cons ..

theorem macChars_concat (before : List MacAddress) (own : MacAddress) :
    macChars (before ++ [own]) = macChars before ++ own.chars := by
  rw [macChars, List.flatMap_append, List.flatMap_singleton]
  rfl

theorem length_hostBytes (machine : List HostAddress) :
    (hostBytes machine).length = machine.length * 6 := by
  induction machine with
  | nil => rfl
  | cons host machine ih =>
      rw [hostBytes, List.flatMap_cons, ← hostBytes, List.length_append, host.six, ih,
        List.length_cons]
      omega

/-- The inner loop looks for the text among the addresses that are left. -/
theorem findMac_eq {mac rest : List UInt8} (plain : (0 : UInt8) ∉ mac)
    (before after : List MacAddress)
    (stored : license.macAddresses = macChars before ++ (macChars after ++ rest)) :
    findMac license mac before.length after.length =
      .ok (decide (∃ own ∈ after, own.chars = mac)) := by
  induction after generalizing before with
  | nil => simp [findMac]
  | cons own after ih =>
      have hload : loadBytes license.macAddresses (before.length * 12) 12 = .ok own.chars := by
        have hplace := loadBytes_append (macChars before) own.chars (macChars after ++ rest)
        rw [length_macChars, own.length_chars] at hplace
        rw [stored, macChars_cons, List.append_assoc]
        exact hplace
      have hnext := ih (before ++ [own]) (by
        rw [stored, macChars_concat, macChars_cons, List.append_assoc, List.append_assoc])
      rw [List.length_append, List.length_singleton] at hnext
      rw [List.length_cons, findMac, hload, bind_ok, cstring_eq_self plain,
        cstring_eq_self (plain_of_isAlnum fun ch => MacAddress.isAlnum_of_mem_chars), hnext]
      by_cases hsame : own.chars = mac <;> simp [hsame]

/-- The outer loop looks for the addresses of the machine that are left. -/
theorem checkMacs_eq {rest padding : List UInt8} (counted : license.macCount = macs.length)
    (stored : license.macAddresses = macChars macs ++ rest) (before after : List HostAddress) :
    checkMacs license (hostBytes before ++ (hostBytes after ++ padding)) before.length
        after.length =
      .ok (decide (∃ host ∈ after, ∃ own ∈ macs, own.chars = printMac host.bytes)) := by
  induction after generalizing before with
  | nil => simp [checkMacs]
  | cons host after ih =>
      have hload : loadBytes (hostBytes before ++ (hostBytes (host :: after) ++ padding))
          (before.length * 6) 6 = .ok host.bytes := by
        have hplace := loadBytes_append (hostBytes before) host.bytes (hostBytes after ++ padding)
        rw [length_hostBytes, host.six] at hplace
        rw [hostBytes, hostBytes, List.flatMap_cons, List.append_assoc]
        exact hplace
      have hfind := findMac_eq (plain_printMac host.bytes) [] macs
        (by rw [stored]; rfl : license.macAddresses = macChars [] ++ (macChars macs ++ rest))
      have hnext := ih (before ++ [host])
      rw [List.length_append, List.length_singleton] at hnext
      have hmemory : hostBytes (before ++ [host]) ++ (hostBytes after ++ padding) =
          hostBytes before ++ (hostBytes (host :: after) ++ padding) := by
        simp only [hostBytes, List.flatMap_append, List.flatMap_cons, List.flatMap_nil,
          List.append_nil, List.append_assoc]
      rw [hmemory] at hnext
      have hcount : license.macCount.toNat = macs.length := by rw [counted]; rfl
      rw [List.length_cons, checkMacs, hload, bind_ok, hcount, ← List.length_nil, hfind, bind_ok,
        hnext]
      by_cases hfound : ∃ own ∈ macs, own.chars = printMac host.bytes
      · rw [if_pos (decide_eq_true hfound)]
        exact congrArg _ (decide_eq_true ⟨host, List.mem_cons_self, hfound⟩).symm
      · rw [if_neg (by simpa using hfound)]
        simp [hfound]

end Loops

/-! ## The machine of a license -/

/-- The machine has an interface with one of the addresses. -/
def Licensed (macs : List MacAddress) (machine : List HostAddress) : Prop :=
  ∃ mac ∈ macs, ∃ host ∈ machine, mac.Names host

/-- The license is decoded, and is found to be one for the machine exactly when it is. What
`mac_to_verify` holds behind the addresses does not matter. -/
def Honoured (key : List UInt8) (li : LicenseContent) (file : List UInt8) (macs : List MacAddress)
    (machine : List HostAddress) (padding : List UInt8) : Prop :=
  ∃ content, decodeLicenseFile key li (some file) = .ok (.conform, content) ∧
    (Licensed macs machine →
      checkLicense content machine.length (hostBytes machine ++ padding) = .ok true) ∧
    (¬ Licensed macs machine →
      checkLicense content machine.length (hostBytes machine ++ padding) = .ok false)

/-- What the check returns for a license that was decoded. -/
theorem checkLicense_eq {macs : List MacAddress} {content : LicenseContent}
    (counted : content.macCount = macs.length)
    (stored : content.macAddresses.take (macs.length * 12) = macChars macs)
    (machine : List HostAddress) (padding : List UInt8) :
    ∃ found, checkLicense content machine.length (hostBytes machine ++ padding) = .ok found ∧
      (found = true ↔ ∃ mac ∈ macs, ∃ host ∈ machine, mac.Names host ∧ mac.LowerCase) := by
  have hmacs : content.macAddresses =
      macChars macs ++ content.macAddresses.drop (macs.length * 12) := by
    rw [← stored, List.take_append_drop]
  have hcheck := @checkMacs_eq macs content _ padding counted hmacs [] machine
  refine ⟨_, hcheck, ?_⟩
  rw [decide_eq_true_iff]
  constructor
  · rintro ⟨host, hhost, mac, hmac, hchars⟩
    exact ⟨mac, hmac, host, hhost, (mac.chars_eq_iff host).mp hchars⟩
  · rintro ⟨mac, hmac, host, hhost, hboth⟩
    exact ⟨host, hhost, mac, hmac, (mac.chars_eq_iff host).mpr hboth⟩

/-- A license of at most 81 addresses is honoured exactly on the machines that have none of
them, and on those that have one that was typed without an upper-case letter. -/
theorem honoured_iff {macs : List MacAddress} {date : ExpiryDate} {file : List UInt8}
    (present : macs ≠ []) (few : macs.length ≤ 81)
    (accepted : keyGenerator (macArgument macs) date.argument = .ok file)
    (key : List UInt8) (li : LicenseContent) (keyBuffer : key.length = keySize)
    (macBuffer : li.macAddresses.length = keySize) (machine : List HostAddress)
    (padding : List UInt8) :
    Honoured key li file macs machine padding ↔
      ¬ Licensed macs machine ∨
        ∃ mac ∈ macs, ∃ host ∈ machine, mac.Names host ∧ mac.LowerCase := by
  rcases keyGenerator_eq_ok present accepted with ⟨-, rfl⟩
  rcases @agrees_of_few key macs date few li keyBuffer macBuffer with
    ⟨content, hdecoded, -, -, -, hcount, hstored⟩
  rcases checkLicense_eq hcount hstored machine padding with ⟨found, hfound, hiff⟩
  constructor
  · rintro ⟨other, hother, hyes, -⟩
    rw [hdecoded] at hother
    cases hother
    by_cases hlicensed : Licensed macs machine
    · have htrue := hyes hlicensed
      rw [hfound] at htrue
      exact .inr (hiff.mp (Except.ok.inj htrue))
    · exact .inl hlicensed
  · intro hright
    have hsome : found = true → Licensed macs machine := by
      intro htrue
      rcases hiff.mp htrue with ⟨mac, hmac, host, hhost, hnames, -⟩
      exact ⟨mac, hmac, host, hhost, hnames⟩
    refine ⟨content, hdecoded, ?_, ?_⟩
    · intro hlicensed
      rw [hfound, hiff.mpr (hright.resolve_left (not_not.mpr hlicensed))]
    · intro hnone
      rw [hfound, Bool.eq_false_iff.mpr fun htrue => hnone (hsome htrue)]

/-- `00:00:00:00:00:AB`, and the interface that has this address. -/
def upperMac : MacAddress := endingMac (65, 66) (by decide)

def hostAb : HostAddress := ⟨List.replicate 5 0 ++ [171], rfl⟩

/-- An interface with the address `00:00:00:00:00:01`. -/
def hostOne : HostAddress := ⟨List.replicate 5 0 ++ [1], rfl⟩

/-- The second address of the license is that of the second interface. -/
theorem honoured_iff_twoMacs :
    ∃ file, [zeroMac, lowerMac] ≠ [] ∧ [zeroMac, lowerMac].length ≤ 81 ∧
      keyGenerator (macArgument [zeroMac, lowerMac]) newYear.argument = .ok file ∧
      emptyKey.length = keySize ∧ emptyContent.macAddresses.length = keySize ∧
      Licensed [zeroMac, lowerMac] [hostOne, hostAb] ∧
        Honoured emptyKey emptyContent file [zeroMac, lowerMac] [hostOne, hostAb] [] := by
  have hpresent : [zeroMac, lowerMac] ≠ [] := by simp
  have haccepted := keyGenerator_of_lt hpresent (by decide) newYear
  have hkey : emptyKey.length = keySize := List.length_replicate
  have hmacs : emptyContent.macAddresses.length = keySize := List.length_replicate
  have hnames : lowerMac.Names hostAb := rfl
  have hlower : lowerMac.LowerCase := by
    intro pair hpair
    rcases List.mem_append.mp hpair with hzero | hlast
    · rw [List.eq_of_mem_replicate hzero]
      decide
    · rw [List.mem_singleton.mp hlast]
      decide
  have hmac : lowerMac ∈ [zeroMac, lowerMac] := List.mem_pair.mpr (.inr rfl)
  have hhost : hostAb ∈ [hostOne, hostAb] := List.mem_pair.mpr (.inr rfl)
  refine ⟨_, hpresent, by decide, haccepted, hkey, hmacs,
    ⟨lowerMac, hmac, hostAb, hhost, hnames⟩, ?_⟩
  exact (honoured_iff hpresent (by decide) haccepted _ _ hkey hmacs [hostOne, hostAb] []).mpr
    (.inr ⟨lowerMac, hmac, hostAb, hhost, hnames, hlower⟩)

/-- The license for an address in upper case is not one for its machine. -/
theorem not_honoured_upperMac :
    ∃ file, keyGenerator (macArgument [upperMac]) newYear.argument = .ok file ∧
      Licensed [upperMac] [hostAb] ∧
      ¬ Honoured emptyKey emptyContent file [upperMac] [hostAb] [] := by
  have hpresent : [upperMac] ≠ [] := by simp
  have haccepted := keyGenerator_of_lt hpresent (by decide) newYear
  have hkey : emptyKey.length = keySize := List.length_replicate
  have hmacs : emptyContent.macAddresses.length = keySize := List.length_replicate
  have hnames : upperMac.Names hostAb := rfl
  have hlicensed : Licensed [upperMac] [hostAb] :=
    ⟨upperMac, List.mem_singleton.mpr rfl, hostAb, List.mem_singleton.mpr rfl, hnames⟩
  refine ⟨_, haccepted, hlicensed, ?_⟩
  rintro ⟨content, hcontent, hyes, -⟩
  rcases @agrees_of_few emptyKey [upperMac] newYear (by decide) emptyContent hkey hmacs with
    ⟨other, hdecoded, -, -, -, hcount, hstored⟩
  rw [hdecoded] at hcontent
  cases hcontent
  rcases checkLicense_eq hcount hstored [hostAb] [] with ⟨found, hfound, hiff⟩
  have htrue := hyes hlicensed
  rw [hfound] at htrue
  rcases hiff.mp (Except.ok.inj htrue) with ⟨mac, hmac, -, -, -, hlower⟩
  rw [List.mem_singleton.mp hmac] at hlower
  have hpair := hlower (65, 66) (List.mem_append_right _ (List.mem_singleton.mpr rfl))
  exact absurd hpair (by decide)

end MmtProbe.License

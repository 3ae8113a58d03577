import Libesf.Base.CString

/-!
# Raw bytes and hexadecimal text

The byte image of a fixed-width integer, least significant byte first, and the upper-case encoder and case-insensitive decoder of `boost::algorithm::hex`. Reading an image back, and decoding what was encoded, are the identity.
-/

namespace Libesf

def toBytes : Nat → Nat → List UInt8
  | 0, _ => []
  | count + 1, value => UInt8.ofNat value :: toBytes count (value / 256)

def ofBytes (bytes : List UInt8) : Nat := bytes.foldr (fun b value => b.toNat + 256 * value) 0

@[simp] theorem length_toBytes (count value : Nat) : (toBytes count value).length = count := by
  induction count generalizing value with
  | zero => rfl
  | succ count ih => rw [toBytes, List.length_cons, ih]

theorem ofBytes_toBytes {count value : Nat} (hvalue : value < 256 ^ count) :
    ofBytes (toBytes count value) = value := by
  induction count generalizing value with
  | zero =>
    rw [pow_zero, Nat.lt_one_iff] at hvalue
    rw [hvalue]
    rfl
  | succ count ih =>
    have hdiv : value / 256 < 256 ^ count := by
      rw [pow_succ] at hvalue
      exact Nat.div_lt_of_lt_mul (by omega)
    have hih := ih hdiv
    rw [ofBytes] at hih
    rw [toBytes, ofBytes, List.foldr_cons, hih, UInt8.toNat_ofNat']
    omega

theorem ofBytes_lt (bytes : List UInt8) : ofBytes bytes < 256 ^ bytes.length := by
  induction bytes with
  | nil => decide
  | cons b bytes ih =>
    have hb := b.toNat_lt
    rw [ofBytes] at ih
    rw [ofBytes, List.foldr_cons, List.length_cons, pow_succ]
    omega

theorem toBytes_ofBytes (bytes : List UInt8) : toBytes bytes.length (ofBytes bytes) = bytes := by
  induction bytes with
  | nil => rfl
  | cons b bytes ih =>
    have hlow : UInt8.ofNat (b.toNat + 256 * ofBytes bytes) = b := by
      rw [← UInt8.toNat_inj, UInt8.toNat_ofNat', Nat.add_mul_mod_self_left]
      exact Nat.mod_eq_of_lt b.toNat_lt
    have hhigh : (b.toNat + 256 * ofBytes bytes) / 256 = ofBytes bytes := by
      have hb := b.toNat_lt
      omega
    rw [ofBytes] at ih hlow hhigh
    rw [List.length_cons, ofBytes, List.foldr_cons, toBytes, hlow, hhigh, ih]

/-! ### Hexadecimal -/

/-- `isxdigit`. -/
def isHexDigit (b : UInt8) : Bool := (48 ≤ b && b ≤ 57) || (65 ≤ b && b ≤ 70) || (97 ≤ b && b ≤ 102)

/-- `toupper` in the "C" locale. -/
def toUpper (b : UInt8) : UInt8 := if 97 ≤ b ∧ b ≤ 122 then b - 32 else b

def hexDigit (n : Nat) : UInt8 := if n < 10 then UInt8.ofNat (48 + n) else UInt8.ofNat (55 + n)

def hexValue (b : UInt8) : Option Nat :=
  if 48 ≤ b ∧ b ≤ 57 then some (b.toNat - 48)
  else if 65 ≤ b ∧ b ≤ 70 then some (b.toNat - 55)
  else if 97 ≤ b ∧ b ≤ 102 then some (b.toNat - 87)
  else none

/-- `boost::algorithm::hex`. -/
def hex (bytes : List UInt8) : Str := bytes.flatMap fun b =>
    [hexDigit (b.toNat / 16), hexDigit (b.toNat % 16)]

/-- `boost::algorithm::unhex`, which throws on an odd number of digits and on anything that is no digit. -/
def unhex : Str → Option (List UInt8)
  | [] => some []
  | [_] => none
  | high :: low :: rest => do
    let h ← hexValue high
    let l ← hexValue low
    return UInt8.ofNat (16 * h + l) :: (← unhex rest)

theorem hexValue_hexDigit {n : Nat} (hn : n < 16) : hexValue (hexDigit n) = some n := by
  have hall : ∀ i : Fin 16, hexValue (hexDigit i) = some i.val := by decide
  exact hall ⟨n, hn⟩

/-- A hexadecimal digit of either case stands for a value whose own digit is the upper-case one. -/
theorem hexDigit_hexValue (b : UInt8) :
    (hexValue b).isSome = isHexDigit b ∧ ∀ n ∈ hexValue b, n < 16 ∧ hexDigit n = toUpper b := by
  have hall : ∀ i : Fin 256, (hexValue (UInt8.ofNat i)).isSome = isHexDigit (UInt8.ofNat i) ∧
      ∀ n ∈ hexValue (UInt8.ofNat i), n < 16 ∧ hexDigit n = toUpper (UInt8.ofNat i) := by
      decide +kernel
  have hb := hall ⟨b.toNat, b.toNat_lt⟩
  rwa [UInt8.ofNat_toNat] at hb

theorem unhex_hex (bytes : List UInt8) : unhex (hex bytes) = some bytes := by
  induction bytes with
  | nil => rfl
  | cons b bytes ih =>
    have hb := b.toNat_lt
    have hdigits : 16 * (b.toNat / 16) + b.toNat % 16 = b.toNat := Nat.div_add_mod _ _
    rw [hex, List.flatMap_cons, ← hex]
    simp only [List.cons_append, List.nil_append, unhex,
      hexValue_hexDigit (by omega : b.toNat / 16 < 16),
      hexValue_hexDigit (by omega : b.toNat % 16 < 16), ih]
    change some (UInt8.ofNat (16 * (b.toNat / 16) + b.toNat % 16) :: bytes) = _
    rw [hdigits, UInt8.ofNat_toNat]

/-- What can be decoded is the text of its bytes, but for the case of its digits. -/
theorem hex_of_unhex : ∀ {text : Str} {bytes : List UInt8}, unhex text = some bytes →
    hex bytes = text.map toUpper
  | [], bytes, h => by
    rw [← Option.some.inj h]
    rfl
  | [_], _, h => by cases h
  | high :: low :: rest, bytes, h => by
    obtain ⟨hi, hhigh, h⟩ := Option.bind_eq_some_iff.1 h
    obtain ⟨lo, hlow, h⟩ := Option.bind_eq_some_iff.1 h
    obtain ⟨bytes', hrest, h⟩ := Option.bind_eq_some_iff.1 h
    obtain ⟨hhi, hdigit⟩ := (hexDigit_hexValue high).2 hi hhigh
    obtain ⟨hlo, hdigit'⟩ := (hexDigit_hexValue low).2 lo hlow
    have hbyte : (UInt8.ofNat (16 * hi + lo)).toNat = 16 * hi + lo := by
      rw [UInt8.toNat_ofNat']
      exact Nat.mod_eq_of_lt (by omega)
    rw [← Option.some.inj h, hex, List.flatMap_cons, ← hex, hex_of_unhex hrest, hbyte,
      show (16 * hi + lo) / 16 = hi by omega, show (16 * hi + lo) % 16 = lo by omega, hdigit, hdigit']
    rfl

/-- What can be decoded is an even number of hexadecimal digits. -/
theorem unhex_isSome_iff : ∀ text : Str, (unhex text).isSome = true ↔ Even text.length ∧
    ∀ b ∈ text, isHexDigit b = true
  | [] => by simp [unhex]
  | [_] => by simp [unhex]
  | high :: low :: rest => by
    have hlength : Even (rest.length + 1 + 1) ↔ Even rest.length := by simp [Nat.even_add_one]
    have hsome : (unhex (high :: low :: rest)).isSome =
        ((hexValue high).isSome && (hexValue low).isSome && (unhex rest).isSome) := by
      rw [unhex]
      cases hexValue high with
      | none => rfl
      | some h =>
        cases hexValue low with
        | none => rfl
        | some l => cases unhex rest <;> rfl
    rw [hsome, Bool.and_eq_true, Bool.and_eq_true, unhex_isSome_iff rest,
      (hexDigit_hexValue high).1, (hexDigit_hexValue low).1, List.forall_mem_cons,
      List.forall_mem_cons, List.length_cons, List.length_cons, hlength]
    exact ⟨fun ⟨⟨hhigh, hlow⟩, heven, hrest⟩ => ⟨heven, hhigh, hlow, hrest⟩,
      fun ⟨heven, hhigh, hlow, hrest⟩ => ⟨⟨hhigh, hlow⟩, heven, hrest⟩⟩

theorem length_hex (bytes : List UInt8) : (hex bytes).length = 2 * bytes.length := by
  rw [hex, List.length_flatMap]
  simp [mul_comm]

theorem length_of_unhex {text : Str} {bytes : List UInt8} (h : unhex text = some bytes) :
    text.length = 2 * bytes.length := by
  rw [← length_hex, hex_of_unhex h, List.length_map]

end Libesf

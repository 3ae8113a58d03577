import Libesf.Base.CString

/-!
# Decimal numbers in C strings

`sprintf` with a zero-padded width on one side, `atoi` on the other. They are inverse to each other as long as the number has no more digits than the width; a text of `n` digits never reads as `10 ^ n` or more, whatever it was cut from.
-/

namespace Libesf

/-- `sprintf("%lu")`. -/
def decimal (n : Nat) : Str := ascii (toString n)

/-- `sprintf("%0*lu")`: zeros on the left up to the width, and more digits than the width where the number has them. -/
def decimalPadded (width n : Nat) : Str := List.replicate (width - (decimal n).length) 48 ++ decimal n

/-- `isspace` in the "C" locale. -/
def isSpace (b : UInt8) : Bool := b == 32 || (9 ≤ b && b ≤ 13)

/-- `isdigit`. -/
def isDigit (b : UInt8) : Bool := 48 ≤ b && b ≤ 57

def digitsValue (text : Str) : Nat := text.foldl (fun n b => 10 * n + (b.toNat - 48)) 0

/-- `atoi`: white space, an optional sign, and the digits up to the first other byte; 0 when there are none. -/
def atoi (text : Str) : Int :=
  let text := text.dropWhile isSpace
  if text.head? = some 45 then -(digitsValue (text.tail.takeWhile isDigit) : Int)
  else if text.head? = some 43 then digitsValue (text.tail.takeWhile isDigit)
  else digitsValue (text.takeWhile isDigit)

/-! ### Digits -/

private theorem toNat_of_isDigit {c : Char} (hc : c.isDigit = true) :
    (UInt8.ofNat c.toNat).toNat = c.toNat := by
  have hle : c.toNat ≤ 57 := by
    simp only [Char.isDigit, Bool.and_eq_true, decide_eq_true_eq] at hc
    exact hc.2
  rw [UInt8.toNat_ofNat']
  exact Nat.mod_eq_of_lt (by omega)

private theorem foldl_digits {chars : List Char} (hdigits : ∀ c ∈ chars, c.isDigit = true)
    (init : Nat) :
    (chars.map fun c => UInt8.ofNat c.toNat).foldl (fun n b => 10 * n + (b.toNat - 48)) init =
      Nat.ofDigitChars 10 chars init := by
  induction chars generalizing init with
  | nil => simp
  | cons c chars ih =>
    have hc := toNat_of_isDigit (hdigits c List.mem_cons_self)
    rw [List.map_cons, List.foldl_cons, Nat.ofDigitChars_cons, hc]
    exact ih (fun d hd => hdigits d (List.mem_cons_of_mem c hd)) _

private theorem decimal_eq_map (n : Nat) : decimal n = (Nat.toDigits 10 n).map fun c =>
    UInt8.ofNat c.toNat := by
  rw [decimal, ascii, Nat.toString_eq_repr, Nat.toList_repr]

theorem length_decimal_le_iff {n width : Nat} (hwidth : 0 < width) :
    (decimal n).length ≤ width ↔ n < 10 ^ width := by
  rw [decimal_eq_map, List.length_map]
  exact Nat.length_toDigits_le_iff (by decide) hwidth

theorem isDigit_of_mem_decimal {n : Nat} {b : UInt8} (hb : b ∈ decimal n) : isDigit b = true := by
  rw [decimal_eq_map, List.mem_map] at hb
  obtain ⟨c, hc, rfl⟩ := hb
  have hdigit := Nat.isDigit_of_mem_toDigits (by decide) (by decide) hc
  have hval := toNat_of_isDigit hdigit
  simp only [Char.isDigit, Bool.and_eq_true, decide_eq_true_eq] at hdigit
  simp only [isDigit, Bool.and_eq_true, decide_eq_true_eq, UInt8.le_iff_toNat_le, hval]
  exact hdigit

theorem isDigit_of_mem_decimalPadded {width n : Nat} {b : UInt8} (hb : b ∈ decimalPadded width n) :
    isDigit b = true := by
  rw [decimalPadded, List.mem_append, List.mem_replicate] at hb
  obtain ⟨_, rfl⟩ | hb := hb
  · rfl
  · exact isDigit_of_mem_decimal hb

theorem length_decimalPadded {width n : Nat} (hwidth : 0 < width) (hn : n < 10 ^ width) :
    (decimalPadded width n).length = width := by
  have hle := (length_decimal_le_iff hwidth).2 hn
  rw [decimalPadded, List.length_append, List.length_replicate]
  omega

theorem width_lt_length_decimalPadded {width n : Nat} (hwidth : 0 < width) (hn : 10 ^ width ≤ n) :
    width < (decimalPadded width n).length := by
  have hlt : ¬ (decimal n).length ≤ width := fun h =>
    absurd ((length_decimal_le_iff hwidth).1 h) (by omega)
  rw [decimalPadded, List.length_append, List.length_replicate]
  omega

@[simp] theorem digitsValue_decimalPadded (width n : Nat) :
    digitsValue (decimalPadded width n) = n := by
  have hzeros : List.replicate (width - (decimal n).length) (48 : UInt8) =
      (List.replicate (width - (decimal n).length) '0').map fun c => UInt8.ofNat c.toNat := by
    rw [List.map_replicate]
    rfl
  rw [digitsValue, decimalPadded, hzeros, List.foldl_append, foldl_digits (by simp),
    decimal_eq_map, foldl_digits fun c hc => Nat.isDigit_of_mem_toDigits (by decide) (by decide) hc]
  simp

theorem digitsValue_lt {text : Str} (hdigits : ∀ b ∈ text, isDigit b = true) :
    digitsValue text < 10 ^ text.length := by
  induction text using List.reverseRecOn with
  | nil => decide
  | append_singleton text b ih =>
    have hb : b.toNat ≤ 57 := by
      have := hdigits b (by simp)
      simp only [isDigit, Bool.and_eq_true, decide_eq_true_eq, UInt8.le_iff_toNat_le] at this
      exact this.2
    have hih := ih fun d hd => hdigits d (List.mem_append_left _ hd)
    rw [digitsValue, List.foldl_append, List.length_append, List.length_singleton, pow_succ]
    change 10 * digitsValue text + (b.toNat - 48) < _
    omega

/-! ### `atoi` -/

theorem atoi_of_digits {text : Str} (hdigits : ∀ b ∈ text, isDigit b = true) :
    atoi text = digitsValue text := by
  have htake : text.takeWhile isDigit = text := List.takeWhile_eq_self_iff.2 hdigits
  cases text with
  | nil => rfl
  | cons b text =>
    have hb := hdigits b List.mem_cons_self
    simp only [isDigit, Bool.and_eq_true, decide_eq_true_eq, UInt8.le_iff_toNat_le] at hb
    have hspace : isSpace b = false := by
      simp only [isSpace, Bool.or_eq_false_iff, beq_eq_false_iff_ne, Bool.and_eq_false_iff,
        decide_eq_false_iff_not, UInt8.le_iff_toNat_le]
      refine ⟨?_, Or.inr ?_⟩
      · rintro rfl
        exact absurd hb.1 (by decide)
      · exact fun h => absurd (le_trans hb.1 h) (by decide)
    have hminus : b ≠ 45 := by
      rintro rfl
      exact absurd hb.1 (by decide)
    have hplus : b ≠ 43 := by
      rintro rfl
      exact absurd hb.1 (by decide)
    rw [atoi, List.dropWhile_cons, hspace]
    simp [hminus, hplus, htake]

theorem nul_not_mem_digits {text : Str} (hdigits : ∀ b ∈ text, isDigit b = true) : 0 ∉ text :=
  fun h => absurd (hdigits 0 h) (by decide)

end Libesf

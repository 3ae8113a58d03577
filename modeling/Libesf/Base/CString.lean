import Mathlib

/-!
# Byte strings and C strings

A `std::string` is a list of bytes. A C string inside a fixed buffer ends at the first NUL, so copying into a buffer and reading it back is the identity exactly for texts without one.
-/

namespace Libesf

/-- The contents of a `std::string`. -/
abbrev Str := List UInt8

/-- The bytes of an ASCII literal. -/
def ascii (text : String) : Str := text.toList.map fun c => UInt8.ofNat c.toNat

/-- The string a `const char*` stands for: everything before the first NUL. -/
def cstr (buffer : Str) : Str := buffer.takeWhile (· ≠ 0)

/-- `strcpy`: the C string of the source and its NUL overwrite the front of the destination. -/
def strcpy (buffer text : Str) : Str := cstr text ++ 0 :: buffer.drop ((cstr text).length + 1)

theorem cstr_eq_self {text : Str} (hnul : 0 ∉ text) : cstr text = text := by
  rw [cstr, List.takeWhile_eq_self_iff]
  intro b hb
  simpa using fun h : b = 0 => hnul (h ▸ hb)

theorem nul_not_mem_cstr (buffer : Str) : 0 ∉ cstr buffer := by
  intro h
  have := List.mem_takeWhile_imp h
  simp at this

theorem cstr_append_nul {text : Str} (hnul : 0 ∉ text) (rest : Str) :
    cstr (text ++ 0 :: rest) = text := by
  induction text with
  | nil => simp [cstr]
  | cons b text ih =>
    have hb : b ≠ 0 := fun h => hnul (h ▸ List.mem_cons_self)
    have htail : 0 ∉ text := fun h => hnul (List.mem_cons_of_mem b h)
    simpa [cstr, hb] using ih htail

@[simp] theorem cstr_strcpy (buffer text : Str) : cstr (strcpy buffer text) = cstr text :=
  cstr_append_nul (nul_not_mem_cstr text) _

end Libesf

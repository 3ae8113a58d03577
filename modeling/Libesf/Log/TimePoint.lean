import Libesf.Base.Bytes
import Libesf.Json.Template

/-!
# The time stamp codec

`TimePointElement` writes a time point as the hexadecimal image of its 64-bit clock count, and reads it back.
-/

namespace Libesf.Log

open Json

namespace TimePointElement

/-- The bytes `memcpy` takes out of a clock count, on a little-endian machine. -/
def rawOfRep (rep : Int64) : List UInt8 := toBytes 8 rep.toUInt64.toNat

/-- The clock count `memcpy` puts together. -/
def repOfRaw (raw : List UInt8) : Int64 := (UInt64.ofNat (ofBytes raw)).toInt64

def text (rep : Int64) : Str := hex (rawOfRep rep)

/-- `extract`, once the node is known to be a string. -/
def parse (sizeError : Str) (asHex : Str) : Except Str Int64 :=
  match unhex asHex with
  | none => .error (ascii "std::exception")
  | some raw => if raw.length ≠ 8 then .error sizeError else .ok (repOfRaw raw)

theorem repOfRaw_rawOfRep (rep : Int64) : repOfRaw (rawOfRep rep) = rep := by
  have hlt : rep.toUInt64.toNat < 256 ^ 8 := rep.toUInt64.toNat_lt
  rw [repOfRaw, rawOfRep, ofBytes_toBytes hlt, UInt64.ofNat_toNat]
  rfl

theorem parse_text (sizeError : Str) (rep : Int64) : parse sizeError (text rep) = .ok rep := by
  rw [parse, text, unhex_hex]
  simp only [rawOfRep, length_toBytes, ne_eq, not_true_eq_false, if_false]
  exact congrArg Except.ok (repOfRaw_rawOfRep rep)

theorem rawOfRep_repOfRaw {raw : List UInt8} (hraw : raw.length = 8) :
    rawOfRep (repOfRaw raw) = raw := by
  have hlt := ofBytes_lt raw
  rw [hraw] at hlt
  have hrep : (repOfRaw raw).toUInt64.toNat = ofBytes raw := UInt64.toNat_ofNat_of_lt' hlt
  rw [rawOfRep, hrep, ← hraw]
  exact toBytes_ofBytes raw

/-- `extract` on the bound time point, which is written after everything that may throw. -/
def extract (sizeError asHex : Str) : ExceptT Str (StateM Int64) Unit := do
  let rep ← ExceptT.mk (pure (parse sizeError asHex))
  set rep

/-- A clock count in hexadecimal: 16 digits of either case. -/
def IsText (s : Str) : Prop := s.length = 16 ∧ ∀ b ∈ s, isHexDigit b = true

instance (s : Str) : Decidable (IsText s) := inferInstanceAs (Decidable (_ ∧ _))

theorem extract_run (sizeError asHex : Str) (ref : Int64) : (extract sizeError asHex).run.run ref =
    match parse sizeError asHex with
    | .ok rep => (.ok (), rep)
    | .error what => (.error what, ref) := by
  rw [extract]
  cases parse sizeError asHex <;> rfl

theorem parse_of_isText (sizeError : Str) {s : Str} (hs : IsText s) :
    ∃ rep, parse sizeError s = .ok rep ∧ text rep = s.map toUpper := by
  have hsome : (unhex s).isSome = true := (unhex_isSome_iff s).2 ⟨by rw [hs.1]; decide, hs.2⟩
  obtain ⟨raw, hraw⟩ := Option.isSome_iff_exists.1 hsome
  have hlength : raw.length = 8 := by
    have htwice := length_of_unhex hraw
    rw [hs.1] at htwice
    omega
  refine ⟨repOfRaw raw, ?_, ?_⟩
  · simp only [parse, hraw, hlength, ne_eq, not_true_eq_false, if_false]
  · rw [text, rawOfRep_repOfRaw hlength, hex_of_unhex hraw]

theorem parse_of_not_isText (sizeError : Str) {s : Str} (hs : ¬ IsText s) :
    ∃ what, parse sizeError s = .error what := by
  rw [parse]
  split
  · exact ⟨_, rfl⟩
  · next raw hraw =>
    have hlength : raw.length ≠ 8 := by
      intro hlength
      refine hs ⟨by rw [length_of_unhex hraw, hlength], ((unhex_isSome_iff s).1 ?_).2⟩
      rw [hraw]
      rfl
    rw [if_pos hlength]
    exact ⟨_, rfl⟩

/-- **The time stamp codec.** What is written of a clock count restores it. A string of 16 hexadecimal digits is read, and written back with its letters in upper case; any other one throws, and the bound time point is as before. -/
theorem extract_codec (sizeError : Str) :
    (∀ rep ref, (extract sizeError (text rep)).run.run ref = (.ok (), rep)) ∧
    ∀ (s : Str) (ref : Int64), if IsText s then
        ∃ rep, (extract sizeError s).run.run ref = (.ok (), rep) ∧ text rep = s.map toUpper
      else ∃ what, (extract sizeError s).run.run ref = (.error what, ref) := by
  refine ⟨fun rep ref => ?_, fun s ref => ?_⟩
  · rw [extract_run, parse_text]
  · split
    · next hs =>
      obtain ⟨rep, hparse, htext⟩ := parse_of_isText sizeError hs
      exact ⟨rep, by rw [extract_run, hparse], htext⟩
    · next hs =>
      obtain ⟨what, hparse⟩ := parse_of_not_isText sizeError hs
      exact ⟨what, by rw [extract_run, hparse]⟩

end TimePointElement

variable {J : Json} {σ : Type}

/-- A `std::chrono::time_point` bound to a key. Of a node that is no string, the null pointer of its `downcast` is followed. -/
def timePoint (key : Str) (ref : Ref σ Int64) : Binding J σ where
  key := key
  element := ⟨fun s => J.ofString (TimePointElement.text (ref.get s)), fun node s =>
    match J.stringValue node with
    | none => .error .nullPointer
    | some asHex =>
      (reading (TimePointElement.parse (J.exceptionText node (ascii "invalid size")) asHex)).map
        (ref.set · s)⟩
  copy a s := ref.set (ref.get a) s

/-- The template extracts a time point the way `extract` does on the member it is bound to. -/
theorem extract_timePoint (key : Str) (ref : Ref σ Int64) {node : J.Node} {asHex : Str}
    (hnode : J.stringValue node = some asHex) (s : σ) :
    (timePoint (J := J) key ref).element.extract node s =
      let (result, rep) :=
  (TimePointElement.extract (J.exceptionText node (ascii "invalid size")) asHex).run.run (ref.get s)
      (reading result).map fun _ => ref.set rep s := by
  rw [TimePointElement.extract_run]
  simp only [timePoint, hnode]
  cases TimePointElement.parse (J.exceptionText node (ascii "invalid size")) asHex <;> rfl

theorem restores_timePoint (hJ : Lawful J) (key : Str) (ref : Ref σ Int64) :
    (timePoint (J := J) key ref).Restores := by
  intro a s
  simp only [timePoint, hJ.stringValue_ofString, TimePointElement.parse_text]
  rfl

end Libesf.Log

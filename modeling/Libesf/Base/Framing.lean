import Mathlib

/-!
# Reading a stream of self-delimiting frames

A reader takes the next value off a stream, or stops for some reason; reading to the end repeats that until the reader stops. When the reader undoes an encoder, on a whole frame and on a frame cut short alike, reading a cut stream gives exactly the values whose frames the cut leaves whole.
-/

namespace Libesf

/-- One read: the next value and the rest of the stream, which is shorter, or the reason to stop. -/
structure Reader (α β ε : Type*) where
  next : List β → Except ε (α × List β)
  consumes : ∀ {input value rest}, next input = .ok (value, rest) → rest.length < input.length

namespace Reader

variable {α β ε : Type*}

/-- Read until the reader stops: the values in order, and why it stopped. -/
def readAll (r : Reader α β ε) (input : List β) : List α × ε :=
  match h : r.next input with
  | .error stop => ([], stop)
  | .ok (value, rest) =>
    have := r.consumes h
    let (values, stop) := readAll r rest
    (value :: values, stop)
termination_by input.length

theorem readAll_of_error {r : Reader α β ε} {input : List β} {stop : ε}
    (h : r.next input = .error stop) : r.readAll input = ([], stop) := by
  rw [readAll]
  split <;> simp_all

theorem readAll_of_ok {r : Reader α β ε} {input rest : List β} {value : α}
    (h : r.next input = .ok (value, rest)) :
    r.readAll input = (value :: (r.readAll rest).1, (r.readAll rest).2) := by
  rw [readAll]
  split <;> simp_all

/-- The reader gets back every value of `ok` from its frame, leaves what follows alone, and stops with `short` inside a frame. -/
structure Undoes (r : Reader α β ε) (encode : α → List β) (ok : α → Prop) (short : ε) : Prop where
  nil : r.next [] = .error short
  whole : ∀ {value}, ok value → ∀ rest, r.next (encode value ++ rest) = .ok (value, rest)
  cut : ∀ {value k}, ok value → k < (encode value).length →
    r.next ((encode value).take k) = .error short

def frameEnd (encode : α → List β) (values : List α) (i : Nat) : Nat :=
  ((values.take (i + 1)).flatMap encode).length

/-- The values whose frames lie within the first `k` elements of the stream. -/
def wholeWithin (encode : α → List β) (k : Nat) (values : List α) : List α :=
  (values.zipIdx.filter fun entry => frameEnd encode values entry.2 ≤ k).map Prod.fst

theorem frameEnd_cons_zero (encode : α → List β) (value : α) (values : List α) :
    frameEnd encode (value :: values) 0 = (encode value).length := by
  simp [frameEnd]

theorem frameEnd_cons_succ (encode : α → List β) (value : α) (values : List α) (i : Nat) :
    frameEnd encode (value :: values) (i + 1) = (encode value).length + frameEnd encode values i := by
  rw [frameEnd, List.take_succ_cons, List.flatMap_cons, List.length_append, frameEnd]

theorem wholeWithin_cons (encode : α → List β) (k : Nat) (value : α) (values : List α) :
    wholeWithin encode k (value :: values) =
      if (encode value).length ≤ k then value :: wholeWithin encode (k - (encode value).length)
        values else [] := by
  have hshift : values.zipIdx 1 = values.zipIdx.map fun entry => (entry.1, entry.2 + 1) := by
    rw [List.zipIdx_succ]
  have hends : ∀ entry ∈ values.zipIdx, decide (frameEnd encode (value :: values) (entry.2 + 1) ≤ k) =
      decide ((encode value).length + frameEnd encode values entry.2 ≤ k) := by
    intro entry _
    rw [frameEnd_cons_succ]
  rw [wholeWithin, List.zipIdx_cons, List.filter_cons, frameEnd_cons_zero, hshift, List.filter_map]
  simp only [Function.comp_def, decide_eq_true_eq]
  rw [List.filter_congr hends]
  split_ifs with hle
  · rw [List.map_cons, List.map_map, wholeWithin]
    congr 1
    refine congrArg (List.map Prod.fst) (List.filter_congr fun entry _ => ?_)
    simp only [decide_eq_decide]
    omega
  · rw [List.map_map, List.map_eq_nil_iff, List.filter_eq_nil_iff]
    intro entry _
    simp only [decide_eq_true_eq]
    omega

/-- **A cut stream.** Reading the first `k` elements of a stream of frames delivers the values whose frames lie within them, in order, and nothing else. -/
theorem readAll_take_flatMap {r : Reader α β ε} {encode : α → List β} {ok : α → Prop} {short : ε}
    (hundoes : r.Undoes encode ok short) {values : List α} (hok : ∀ value ∈ values, ok value)
    (k : Nat) :
    r.readAll ((values.flatMap encode).take k) = (wholeWithin encode k values, short) := by
  induction values generalizing k with
  | nil => simpa [wholeWithin] using readAll_of_error hundoes.nil
  | cons value values ih =>
    have hvalue := hok value List.mem_cons_self
    rw [List.flatMap_cons, List.take_append, wholeWithin_cons]
    by_cases hle : (encode value).length ≤ k
    · rw [if_pos hle, List.take_of_length_le hle, readAll_of_ok (hundoes.whole hvalue _),
        ih fun v hv => hok v (List.mem_cons_of_mem value hv)]
    · have hzero : k - (encode value).length = 0 := by omega
      rw [if_neg hle, hzero, List.take_zero, List.append_nil]
      exact readAll_of_error (hundoes.cut hvalue (by omega))

/-! ### A reader behind a writer -/

/-- A proper part of one frame, as a writer that is cut off leaves it. -/
def Torn (encode : α → List β) (ok : α → Prop) (part : List β) : Prop :=
  ∃ value k, ok value ∧ k < (encode value).length ∧ part = (encode value).take k

theorem Undoes.next_of_short {r : Reader α β ε} {encode : α → List β} {ok : α → Prop} {short : ε}
    (hundoes : r.Undoes encode ok short) {value : α} (hvalue : ok value) {input rest : List β}
    (hpre : input <+: encode value ++ rest) (hshort : input.length < (encode value).length) :
    r.next input = .error short := by
  have hcut : input = (encode value).take input.length := by
    have htake := List.prefix_iff_eq_take.1 hpre
    rwa [List.take_append_of_le_length (Nat.le_of_lt hshort)] at htake
  rw [hcut]
  exact hundoes.cut hvalue hshort

theorem Undoes.next_of_torn {r : Reader α β ε} {encode : α → List β} {ok : α → Prop} {short : ε}
    (hundoes : r.Undoes encode ok short) {part : List β} (hpart : part = [] ∨ Torn encode ok part)
    {input : List β} (hpre : input <+: part) : r.next input = .error short := by
  obtain rfl | ⟨value, k, hvalue, hk, rfl⟩ := hpart
  · rw [List.prefix_nil.1 hpre]
    exact hundoes.nil
  · have hle := hpre.length_le
    rw [List.length_take] at hle
    exact hundoes.next_of_short hvalue
      ((hpre.trans (List.take_prefix k _)).trans (List.prefix_append _ [])) (by omega)

/-- Whatever prefix has arrived of some frames and a torn one, the values read are a prefix of those written, and all of them once everything has arrived. -/
theorem readAll_isPrefix {r : Reader α β ε} {encode : α → List β} {ok : α → Prop} {short : ε}
    (hundoes : r.Undoes encode ok short) {values : List α} (hok : ∀ value ∈ values, ok value)
    {part : List β} (hpart : part = [] ∨ Torn encode ok part) {input : List β}
    (harrived : input <+: values.flatMap encode ++ part) :
    (r.readAll input).1 <+: values ∧
      (input = values.flatMap encode ++ part → (r.readAll input).1 = values) := by
  induction values generalizing input with
  | nil =>
    rw [readAll_of_error (hundoes.next_of_torn hpart harrived)]
    exact ⟨List.nil_prefix, fun _ => rfl⟩
  | cons value values ih =>
    have hvalue := hok value List.mem_cons_self
    rw [List.flatMap_cons, List.append_assoc] at harrived ⊢
    by_cases hle : (encode value).length ≤ input.length
    · obtain ⟨rest, rfl⟩ := List.prefix_of_prefix_length_le (List.prefix_append _ _) harrived hle
      obtain ⟨hpre, hall⟩ := ih (fun v hv => hok v (List.mem_cons_of_mem value hv))
        ((List.prefix_append_right_inj (encode value)).1 harrived)
      rw [readAll_of_ok (hundoes.whole hvalue rest)]
      exact ⟨(List.prefix_cons_inj value).2 hpre,
        fun heq => by rw [hall (List.append_cancel_left heq)]⟩
    · rw [readAll_of_error (hundoes.next_of_short hvalue harrived (Nat.lt_of_not_le hle))]
      refine ⟨List.nil_prefix, fun heq => absurd ?_ hle⟩
      rw [heq, List.length_append]
      exact Nat.le_add_right _ _

/-- Where whole frames end in a stream of frames, the next frame begins, or the torn one. -/
theorem Undoes.isPrefix_of_flatMap {r : Reader α β ε} {encode : α → List β}
    {ok : α → Prop} {short : ε} (hundoes : r.Undoes encode ok short) {values read : List α}
    (hok : ∀ value ∈ values, ok value) (hread : ∀ value ∈ read, ok value) {part rest : List β}
    (hpart : part = [] ∨ Torn encode ok part)
    (hpre : read.flatMap encode ++ rest <+: values.flatMap encode ++ part) :
    ∃ values', values = read ++ values' ∧ rest <+: values'.flatMap encode ++ part := by
  induction read generalizing values with
  | nil => exact ⟨values, rfl, hpre⟩
  | cons value read ih =>
    have hvalue := hread value List.mem_cons_self
    rw [List.flatMap_cons, List.append_assoc] at hpre
    cases values with
    | nil =>
      have hstop := hundoes.next_of_torn hpart hpre
      rw [hundoes.whole hvalue] at hstop
      cases hstop
    | cons value' values =>
      rw [List.flatMap_cons, List.append_assoc] at hpre
      have hvalue' := hok value' List.mem_cons_self
      obtain ⟨tail, htail⟩ := hpre
      rw [List.append_assoc] at htail
      have hnext := hundoes.whole hvalue (read.flatMap encode ++ rest ++ tail)
      rw [htail, hundoes.whole hvalue'] at hnext
      obtain ⟨rfl, hrest⟩ := Prod.mk.inj (Except.ok.inj hnext)
      obtain ⟨values', rfl, hrest'⟩ := ih (fun v hv => hok v (List.mem_cons_of_mem _ hv))
        (fun v hv => hread v (List.mem_cons_of_mem _ hv)) ⟨tail, hrest.symm⟩
      exact ⟨values', rfl, hrest'⟩

end Reader

end Libesf

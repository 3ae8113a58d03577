import Libesf.Base.Transition

/-!
# The one-place buffer

What a bounded buffer of capacity one is for: values are put in one at a time, each only after the one before it was taken out, and come out in the order they went in. The state keeps the two histories, so that the hand-off property is an equation between them.
-/

namespace Libesf.OnePlaceBuffer

open Transition

variable {α : Type*}

structure State (α : Type*) where
  slot : Option α
  put : List α
  taken : List α

inductive Op (α : Type*) where
  | put (value : α)
  | take

def init : State α := ⟨none, [], []⟩

def step (s : State α) : Op α → Option (State α)
  | .put value =>
    match s.slot with
    | none => some ⟨some value, s.put ++ [value], s.taken⟩
    | some _ => none
  | .take =>
    match s.slot with
    | some value => some ⟨none, s.put, s.taken ++ [value]⟩
    | none => none

/-- Everything put was taken, in order, but for what the slot still holds. -/
def HandsOff (s : State α) : Prop := s.put = s.taken ++ s.slot.toList

theorem handsOff_step (s : State α) (op : Op α) (t : State α) (hs : HandsOff s)
    (h : step s op = some t) : HandsOff t := by
  obtain ⟨slot, put, taken⟩ := s
  cases op <;> cases slot <;> simp only [step, Option.some.injEq, reduceCtorEq] at h <;> subst h
  · simpa [HandsOff] using hs
  · simpa [HandsOff] using hs

theorem handsOff_of_reaches {s : State α} (h : Reaches step init s) : HandsOff s := by
  obtain ⟨acts, hrun⟩ := h
  exact invariant_run HandsOff handsOff_step (show HandsOff init from rfl) hrun

/-- In every reachable state what was taken is a prefix of what was put, with at most one value still to come. -/
theorem taken_prefix_put {s : State α} (h : Reaches step init s) :
    s.taken <+: s.put ∧ s.put.length ≤ s.taken.length + 1 := by
  have hs : s.put = s.taken ++ s.slot.toList := handsOff_of_reaches h
  refine ⟨⟨s.slot.toList, hs.symm⟩, ?_⟩
  rw [hs, List.length_append]
  cases s.slot <;> simp

end Libesf.OnePlaceBuffer

import Mathlib

/-!
# Iterating over a set that changes

A loop over a `std::set` holds a position and asks for the next larger element each time round, so it sees what is in the set by then. Whatever stays in the set for the whole loop is visited exactly once, and nothing is visited twice, however elements come and go meanwhile.
-/

namespace Libesf

variable {α : Type*} [LinearOrder α]

/-- The least element after the position, or the least of all before the loop has begun. -/
def nextIn (s : Finset α) (position : Option α) : Option α :=
  (s.filter fun a => position.all fun c => decide (c < a)).min

/-- A loop that is at `current`. What it has visited and what has been in the set since it began is bookkeeping. -/
structure Iteration (α : Type*) where
  current : α
  visited : List α
  stayed : Finset α
  deriving DecidableEq

namespace Iteration

def first (s : Finset α) : Option (Iteration α) := (nextIn s none).map fun a => ⟨a, [a], s⟩

def next (it : Iteration α) (s : Finset α) : Option (Iteration α) :=
  (nextIn s (some it.current)).map fun a => { it with current := a, visited := it.visited ++ [a] }

/-- The element has left the set. -/
def leave (it : Iteration α) (a : α) : Iteration α := { it with stayed := it.stayed.erase a }

/-- Everything that has stayed and is not after the current element has been visited, in order. -/
structure Covers (it : Iteration α) : Prop where
  sorted : it.visited.Pairwise (· < ·)
  visited_le : ∀ a ∈ it.visited, a ≤ it.current
  visited : ∀ a ∈ it.stayed, a ≤ it.current → a ∈ it.visited

end Iteration

theorem nextIn_eq_some {s : Finset α} {position : Option α} {a : α} (h : nextIn s position = some a) :
    a ∈ s ∧ (∀ c ∈ position, c < a) ∧ ∀ b ∈ s, (∀ c ∈ position, c < b) → a ≤ b := by
  have hmem := Finset.mem_of_min h
  rw [Finset.mem_filter, Option.all_eq_true] at hmem
  refine ⟨hmem.1, fun c hc => of_decide_eq_true (hmem.2 c hc),
    fun b hb hlt => Finset.min_le_of_eq ?_ h⟩
  rw [Finset.mem_filter, Option.all_eq_true]
  exact ⟨hb, fun c hc => decide_eq_true (hlt c hc)⟩

theorem nextIn_eq_none {s : Finset α} {position : Option α} (h : nextIn s position = none) :
    ∀ a ∈ s, ∃ c ∈ position, a ≤ c := by
  intro a ha
  by_contra hnot
  push Not at hnot
  have hmem : a ∈ s.filter fun a => position.all fun c => decide (c < a) := by
    rw [Finset.mem_filter, Option.all_eq_true]
    exact ⟨ha, fun c hc => decide_eq_true (hnot c hc)⟩
  rw [Finset.min_eq_top.1 h] at hmem
  exact Finset.notMem_empty a hmem

namespace Iteration

variable {s : Finset α} {it it' : Iteration α}

theorem first_eq_some (h : first s = some it) : it.current ∈ s ∧ it.stayed = s ∧ it.Covers := by
  obtain ⟨a, hnext, rfl⟩ := Option.map_eq_some_iff.1 h
  obtain ⟨hmem, -, hleast⟩ := nextIn_eq_some hnext
  refine ⟨hmem, rfl, List.pairwise_singleton _ _, fun b hb => (List.mem_singleton.1 hb).le,
    fun b hb hle => ?_⟩
  exact List.mem_singleton.2 (le_antisymm hle (hleast b hb nofun))

theorem next_eq_some (h : it.next s = some it') : it'.current ∈ s ∧ it'.stayed = it.stayed := by
  obtain ⟨a, hnext, rfl⟩ := Option.map_eq_some_iff.1 h
  exact ⟨(nextIn_eq_some hnext).1, rfl⟩

theorem Covers.next (hit : it.Covers) (hstayed : it.stayed ⊆ s) (h : it.next s = some it') :
    it'.Covers := by
  obtain ⟨a, hnext, rfl⟩ := Option.map_eq_some_iff.1 h
  obtain ⟨-, hlt, hleast⟩ := nextIn_eq_some hnext
  have hlt : it.current < a := hlt it.current rfl
  refine ⟨?_, fun b hb => ?_, fun b hb hle => ?_⟩
  · refine List.pairwise_append.2 ⟨hit.sorted, List.pairwise_singleton _ _, fun b hb c hc => ?_⟩
    rw [List.mem_singleton.1 hc]
    exact lt_of_le_of_lt (hit.visited_le b hb) hlt
  · obtain hold | hnew := List.mem_append.1 hb
    · exact le_trans (hit.visited_le b hold) hlt.le
    · exact (List.mem_singleton.1 hnew).le
  · by_cases hbefore : b ≤ it.current
    · exact List.mem_append_left _ (hit.visited b hb hbefore)
    · have hleast : a ≤ b := hleast b (hstayed hb) fun c hc => Option.some.inj hc ▸ not_le.1 hbefore
      exact List.mem_append_right _ (List.mem_singleton.2 (le_antisymm hle hleast))

/-- A loop at its end has visited once whatever has stayed. -/
theorem Covers.finished (hit : it.Covers) (hstayed : it.stayed ⊆ s) (h : it.next s = none) :
    it.visited.Nodup ∧ ∀ a ∈ it.stayed, a ∈ it.visited := by
  refine ⟨hit.sorted.imp ne_of_lt, fun a ha => hit.visited a ha ?_⟩
  obtain ⟨c, hc, hle⟩ := nextIn_eq_none (Option.map_eq_none_iff.1 h) a (hstayed ha)
  exact Option.some.inj hc ▸ hle

theorem Covers.leave (hit : it.Covers) (a : α) : (it.leave a).Covers :=
  ⟨hit.sorted, hit.visited_le, fun b hb hle => hit.visited b (Finset.mem_of_mem_erase hb) hle⟩

end Iteration

end Libesf

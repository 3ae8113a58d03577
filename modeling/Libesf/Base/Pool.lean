import Mathlib

/-!
# Pools of threads

An unbounded set of threads is a list with one entry per thread, and a step of thread `i` replaces entry `i`. What a resource argument needs of such a pool is a count: how many entries are inside a region. These are the facts that let a conservation law be read off one replaced entry.
-/

namespace Libesf.Pool

variable {α : Type*} (p : α → Bool)

/-- Replacing one entry moves the count by what that entry contributed before and after. -/
theorem countP_set_add {l : List α} {i : Nat} {x : α} (hx : l[i]? = some x) (y : α) :
    (l.set i y).countP p + (p x).toNat = l.countP p + (p y).toNat := by
  obtain ⟨hi, hget⟩ := List.getElem?_eq_some_iff.1 hx
  have hle : (if p l[i] then 1 else 0) ≤ l.countP p := by
    split
    · next hp => exact List.countP_pos_iff.2 ⟨l[i], List.getElem_mem hi, hp⟩
    · exact Nat.zero_le _
  rw [List.countP_set hi]
  rw [hget] at hle ⊢
  cases hpx : p x <;> cases hpy : p y <;>
    simp only [hpx, Bool.false_eq_true, if_true, if_false, Bool.toNat_true,
      Bool.toNat_false] at hle ⊢ <;>
    omega

theorem countP_set_of_eq {l : List α} {i : Nat} {x y : α} (hx : l[i]? = some x) (hxy : p y = p x) :
    (l.set i y).countP p = l.countP p := by
  have h := countP_set_add p hx y
  rw [hxy] at h
  exact Nat.add_right_cancel h

theorem countP_eraseIdx_add {l : List α} {i : Nat} {x : α} (hx : l[i]? = some x) :
    (l.eraseIdx i).countP p + (p x).toNat = l.countP p := by
  obtain ⟨hi, rfl⟩ := List.getElem?_eq_some_iff.1 hx
  rw [← (List.getElem_cons_eraseIdx_perm hi).countP_eq p, List.countP_cons]
  cases p l[i] <;> rfl

theorem countP_append_single (l : List α) (x : α) :
    (l ++ [x]).countP p = l.countP p + (p x).toNat := by
  rw [List.countP_append, List.countP_singleton]
  cases p x <;> rfl

theorem countP_pos_of_getElem? {l : List α} {i : Nat} {x : α} (hx : l[i]? = some x)
    (hp : p x = true) : 0 < l.countP p :=
  List.countP_pos_iff.2 ⟨x, List.mem_of_getElem? hx, hp⟩

/-- A region that counts at most one thread is occupied by at most one thread. -/
theorem eq_of_countP_le_one {l : List α} (hle : l.countP p ≤ 1) {i j : Nat} {x y : α}
    (hx : l[i]? = some x) (hy : l[j]? = some y) (hpx : p x = true) (hpy : p y = true) : i = j := by
  induction l generalizing i j with
  | nil => simp at hx
  | cons z l ih =>
    cases i with
    | zero =>
      obtain rfl : z = x := by simpa using hx
      cases j with
      | zero => rfl
      | succ j =>
        have hpos := countP_pos_of_getElem? p (l := l) (i := j) (by simpa using hy) hpy
        rw [List.countP_cons_of_pos hpx] at hle
        omega
    | succ i =>
      have htail : l[i]? = some x := by simpa using hx
      have hpos := countP_pos_of_getElem? p htail hpx
      cases j with
      | zero =>
        obtain rfl : z = y := by simpa using hy
        rw [List.countP_cons_of_pos hpy] at hle
        omega
      | succ j =>
        have hle' : l.countP p ≤ 1 :=
          le_trans (List.Sublist.countP_le (List.sublist_cons_self z l)) hle
        rw [ih hle' htail (by simpa using hy)]

/-- If no value of `f` is counted twice, the values are distinct. -/
theorem nodup_map_of_countP_le_one {β : Type*} [DecidableEq β] {f : α → β} {l : List α}
    (hle : ∀ b, l.countP (fun x => decide (f x = b)) ≤ 1) : (l.map f).Nodup := by
  rw [List.nodup_iff_count_le_one]
  intro b
  rw [List.count, List.countP_map]
  exact hle b

theorem getElem?_set_cases {l : List α} {i j : Nat} {x y : α} (h : (l.set i y)[j]? = some x) :
    j = i ∧ x = y ∨ j ≠ i ∧ l[j]? = some x := by
  by_cases hj : j = i
  · subst hj
    have hlt := (List.getElem?_eq_some_iff.1 h).1
    rw [List.length_set] at hlt
    rw [List.getElem?_set_self hlt] at h
    exact .inl ⟨rfl, (Option.some.inj h).symm⟩
  · rw [List.getElem?_set_ne (Ne.symm hj)] at h
    exact .inr ⟨hj, h⟩

theorem getElem?_append_single_cases {l : List α} {i : Nat} {x y : α} (h : (l ++ [y])[i]? = some x) :
    l[i]? = some x ∨ i = l.length ∧ x = y := by
  obtain hlt | hge := Nat.lt_or_ge i l.length
  · exact .inl (List.getElem?_append_left hlt ▸ h)
  · rw [List.getElem?_append_right hge, List.getElem?_singleton] at h
    split at h
    · next hi => exact .inr ⟨by omega, (Option.some.inj h).symm⟩
    · cases h

theorem mem_set_of_ne {l : List α} {i : Nat} {x y z : α} (hx : l[i]? = some x) (hz : z ∈ l)
    (hne : z ≠ x) : z ∈ l.set i y := by
  obtain ⟨j, hj⟩ := List.mem_iff_getElem?.1 hz
  refine List.mem_iff_getElem?.2 ⟨j, ?_⟩
  rw [List.getElem?_set_ne, hj]
  rintro rfl
  exact hne (Option.some.inj (hj.symm.trans hx))

theorem eq_singleton_of_getElem? {l : List α} {i : Nat} {x : α} (hle : l.length ≤ 1)
    (hx : l[i]? = some x) : l = [x] ∧ i = 0 := by
  obtain ⟨hi, hget⟩ := List.getElem?_eq_some_iff.1 hx
  obtain rfl : i = 0 := by omega
  obtain ⟨y, rfl⟩ := List.length_eq_one_iff.1 (by omega : l.length = 1)
  exact ⟨congrArg (fun z => [z]) hget, rfl⟩

theorem perm_cons_eraseIdx {l : List α} {i : Nat} {x : α} (hx : l[i]? = some x) :
    l.Perm (x :: l.eraseIdx i) := by
  obtain ⟨hi, rfl⟩ := List.getElem?_eq_some_iff.1 hx
  exact (List.getElem_cons_eraseIdx_perm hi).symm

theorem perm_set_eraseIdx {l : List α} {i : Nat} {x : α} (hx : l[i]? = some x) (y : α) :
    (l.set i y).Perm (y :: l.eraseIdx i) := by
  obtain ⟨hi, -⟩ := List.getElem?_eq_some_iff.1 hx
  have hy : (l.set i y)[i]? = some y := List.getElem?_set_self hi
  rw [← List.eraseIdx_set_eq (l := l) (i := i) (a := y)]
  exact perm_cons_eraseIdx hy

theorem filterMap_append_none {β : Type*} (f : α → Option β) {x : α} (hx : f x = none) (l : List α) :
    (l ++ [x]).filterMap f = l.filterMap f := by
  rw [List.filterMap_append, List.filterMap_cons_none hx, List.filterMap_nil, List.append_nil]

theorem filterMap_append_some {β : Type*} (f : α → Option β) {x : α} {y : β} (hx : f x = some y)
    (l : List α) : (l ++ [x]).filterMap f = l.filterMap f ++ [y] := by
  rw [List.filterMap_append, List.filterMap_cons_some hx, List.filterMap_nil]

/-- A partial map that takes only `x` to `y` finds `y` where `x` is. -/
theorem mem_filterMap_iff {β : Type*} {f : α → Option β} {x : α} {y : β}
    (h : ∀ z, f z = some y ↔ z = x) {l : List α} : y ∈ l.filterMap f ↔ x ∈ l := by
  simp only [List.mem_filterMap, h, exists_eq_right]

/-- Replacing one entry moves the bag of images by what that entry contributed before and after. -/
theorem filterMap_set_perm {β : Type*} (f : α → Option β) {l : List α} {i : Nat} {x : α}
    (hx : l[i]? = some x) (y : α) :
    ((f x).toList ++ (l.set i y).filterMap f).Perm ((f y).toList ++ l.filterMap f) := by
  have hcons : ∀ z, ((z :: l.eraseIdx i).filterMap f) = (f z).toList ++
      (l.eraseIdx i).filterMap f := by
    intro z
    rw [List.filterMap_cons]
    cases f z <;> rfl
  have hold := (perm_cons_eraseIdx hx).filterMap f
  have hnew := (perm_set_eraseIdx hx y).filterMap f
  rw [hcons] at hold hnew
  refine (hnew.append_left _).trans (.trans ?_ (hold.append_left _).symm)
  rw [← List.append_assoc, ← List.append_assoc]
  exact List.perm_append_comm.append_right _

/-- What one bag has, an equal bag has, and without it they are equal again. -/
theorem exists_of_perm_cons {l rest : List α} {x : α} (h : l.Perm (x :: rest)) :
    ∃ i, l[i]? = some x ∧ (l.eraseIdx i).Perm rest := by
  obtain ⟨i, hi⟩ := List.mem_iff_getElem?.1 (h.mem_iff.2 List.mem_cons_self)
  exact ⟨i, hi, List.Perm.cons_inv ((perm_cons_eraseIdx hi).symm.trans h)⟩

theorem sum_map_set_add (f : α → Nat) {l : List α} {i : Nat} {x : α} (hx : l[i]? = some x) (y : α) :
    ((l.set i y).map f).sum + f x = (l.map f).sum + f y := by
  induction l generalizing i with
  | nil => cases hx
  | cons z l ih =>
    cases i with
    | zero =>
      obtain rfl : z = x := by simpa using hx
      simp only [List.set_cons_zero, List.map_cons, List.sum_cons]
      omega
    | succ i =>
      have hih := ih (i := i) (by simpa using hx)
      simp only [List.set_cons_succ, List.map_cons, List.sum_cons]
      omega

end Libesf.Pool

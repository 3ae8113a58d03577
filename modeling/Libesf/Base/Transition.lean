import Mathlib

/-!
# Runs of a partial step function

A system is a step function `σ → α → Option σ`: the label carries every choice the scheduler or the environment makes, and `none` says that the label is not enabled. A run is a list of labels. Two recursions over a run are all the rest of the development uses: `Always P` says that every state the run passes satisfies `P`, and `Along C` says that every step it takes satisfies `C` before it is taken.

`always_iff_along` is the rule that settles when exactly a run is safe: an invariant that holds as long as every step meets `C`, and that a single step outside `C` turns into a state outside `P`.
-/

namespace Libesf.Transition

variable {σ τ α β : Type*} (step : σ → α → Option σ)

/-- The state a run ends in, when each of its steps is enabled. -/
def run : σ → List α → Option σ
  | s, [] => some s
  | s, a :: rest => (step s a).bind fun t => run t rest

/-- Every state the run passes, the first and the last included, satisfies `P`. -/
def Always (P : σ → Prop) : σ → List α → Prop
  | s, [] => P s
  | s, a :: rest => P s ∧ ∀ t, step s a = some t → Always P t rest

/-- Every step of the run satisfies `C` in the state it is taken from. -/
def Along (C : σ → α → Prop) : σ → List α → Prop
  | _, [] => True
  | s, a :: rest => C s a ∧ ∀ t, step s a = some t → Along C t rest

def Reaches (s t : σ) : Prop := ∃ acts, run step s acts = some t

/-- Along a given run, a decidable condition is decidable. -/
instance decidableAlong {C : σ → α → Prop} [∀ s a, Decidable (C s a)] :
    ∀ (s : σ) (acts : List α), Decidable (Along step C s acts)
  | _, [] => .isTrue trivial
  | s, a :: rest =>
    match h : step s a with
    | none =>
      decidable_of_iff (C s a) ⟨fun hC => ⟨hC, fun t ht => absurd (h.symm.trans ht) (by simp)⟩,
        fun hC => hC.1⟩
    | some t =>
      have : Decidable (Along step C t rest) := decidableAlong t rest
      decidable_of_iff (C s a ∧ Along step C t rest)
        ⟨fun hC => ⟨hC.1, fun u hu => Option.some.inj (h.symm.trans hu) ▸ hC.2⟩,
          fun hC => ⟨hC.1, hC.2 t h⟩⟩

variable {step}

theorem run_cons_eq_some {s u : σ} {a : α} {rest : List α} :
    run step s (a :: rest) = some u ↔ ∃ t, step s a = some t ∧ run step t rest = some u := by
  simp only [run, Option.bind_eq_some_iff]

theorem run_append (s : σ) (xs ys : List α) :
    run step s (xs ++ ys) = (run step s xs).bind fun t => run step t ys := by
  induction xs generalizing s with
  | nil => rfl
  | cons a xs ih =>
    simp only [List.cons_append, run]
    cases step s a with
    | none => rfl
    | some t => exact ih t

theorem run_append_eq_some {s u : σ} {xs ys : List α} :
    run step s (xs ++ ys) = some u ↔ ∃ t, run step s xs = some t ∧ run step t ys = some u := by
  rw [run_append, Option.bind_eq_some_iff]

theorem Reaches.refl (s : σ) : Reaches step s s := ⟨[], rfl⟩

theorem Reaches.single {s t : σ} {a : α} (h : step s a = some t) : Reaches step s t :=
  ⟨[a], by rw [run, h]; rfl⟩

theorem Reaches.trans {s t u : σ} (hst : Reaches step s t) (htu : Reaches step t u) :
    Reaches step s u := by
  obtain ⟨xs, hxs⟩ := hst
  obtain ⟨ys, hys⟩ := htu
  exact ⟨xs ++ ys, run_append_eq_some.2 ⟨t, hxs, hys⟩⟩

/-! ### Invariants -/

theorem invariant_run (Inv : σ → Prop) (hstep : ∀ s a t, Inv s → step s a = some t → Inv t) :
    ∀ {s t : σ} {acts : List α}, Inv s → run step s acts = some t → Inv t := by
  intro s t acts
  induction acts generalizing s with
  | nil =>
    intro hs h
    exact Option.some.inj h ▸ hs
  | cons a rest ih =>
    intro hs h
    obtain ⟨u, hu, hrest⟩ := run_cons_eq_some.1 h
    exact ih (hstep s a u hs hu) hrest

/-- What every step that meets `C` preserves, every run whose steps all meet `C` preserves. -/
theorem invariant_along (Inv : σ → Prop) (C : σ → α → Prop)
    (hstep : ∀ s a t, Inv s → C s a → step s a = some t → Inv t) :
    ∀ {s t : σ} {acts : List α}, Inv s → Along step C s acts → run step s acts = some t → Inv t := by
  intro s t acts
  induction acts generalizing s with
  | nil =>
    intro hs _ h
    exact Option.some.inj h ▸ hs
  | cons a rest ih =>
    intro hs hC h
    obtain ⟨u, hu, hrest⟩ := run_cons_eq_some.1 h
    exact ih (hstep s a u hs hC.1 hu) (hC.2 u hu) hrest

/-- A condition on the labels alone is a condition on the steps of the run. -/
theorem along_of_forall_mem {C : σ → α → Prop} {acts : List α} (h : ∀ a ∈ acts, ∀ s, C s a) :
    ∀ s, Along step C s acts := by
  induction acts with
  | nil => exact fun _ => trivial
  | cons a rest ih =>
    intro s
    exact ⟨h a List.mem_cons_self s, fun t _ => ih (fun b hb => h b (List.mem_cons_of_mem a hb)) t⟩

theorem le_of_run {f : σ → Nat} (hstep : ∀ s a t, step s a = some t → f s ≤ f t) {s t : σ}
    {acts : List α} (h : run step s acts = some t) : f s ≤ f t :=
  invariant_run (f s ≤ f ·) (fun u a v hu huv => le_trans hu (hstep u a v huv)) (le_refl (f s)) h

/-- What each step adds to a bag, a run adds to it. -/
theorem perm_of_run {C : σ → α → Prop} {f : σ → List β} {g : α → List β}
    (hstep : ∀ s a t, C s a → step s a = some t → (f t).Perm (f s ++ g a)) :
    ∀ {s t : σ} {acts : List α}, Along step C s acts → run step s acts = some t →
      (f t).Perm (f s ++ acts.flatMap g) := by
  intro s t acts
  induction acts generalizing s with
  | nil =>
    intro _ h
    rw [Option.some.inj h, List.flatMap_nil, List.append_nil]
  | cons a rest ih =>
    intro hC h
    obtain ⟨u, hu, hrest⟩ := run_cons_eq_some.1 h
    rw [List.flatMap_cons, ← List.append_assoc]
    exact (ih (hC.2 u hu) hrest).trans ((hstep s a u hC.1 hu).append_right _)

variable (step) in
/-- What the steps of a run let be seen, in order. -/
def trace (emit : σ → α → List β) : σ → List α → List β
  | _, [] => []
  | s, a :: rest => emit s a ++ (step s a).elim [] fun t => trace emit t rest

theorem trace_cons {emit : σ → α → List β} {s t : σ} {a : α} (h : step s a = some t) (rest : List α) :
    trace step emit s (a :: rest) = emit s a ++ trace step emit t rest := by
  rw [trace, h]
  rfl

/-- An invariant of the state and of what was seen so far, kept as long as that satisfies `P`. -/
theorem invariant_trace {emit : σ → α → List β} {P : List β → Prop} (Inv : σ → List β → Prop)
    (hpre : ∀ xs ys, P (xs ++ ys) → P xs)
    (hstep : ∀ s seen a t, Inv s seen → P (seen ++ emit s a) → step s a = some t →
      Inv t (seen ++ emit s a)) :
    ∀ {s t : σ} {acts : List α}, Inv s [] → P (trace step emit s acts) → run step s acts = some t →
      Inv t (trace step emit s acts) := by
  have hgo : ∀ (acts : List α) (s t : σ) (seen : List β), Inv s seen →
      P (seen ++ trace step emit s acts) →
      run step s acts = some t → Inv t (seen ++ trace step emit s acts) := by
    intro acts
    induction acts with
    | nil =>
      intro s t seen hs _ h
      rw [trace, List.append_nil, ← Option.some.inj h]
      exact hs
    | cons a rest ih =>
      intro s t seen hs hP h
      obtain ⟨u, hu, hrest⟩ := run_cons_eq_some.1 h
      rw [trace_cons hu, ← List.append_assoc] at hP ⊢
      exact ih u t (seen ++ emit s a) (hstep s seen a u hs (hpre _ _ hP) hu) hP hrest
  exact fun {s t acts} hs hP h => hgo acts s t [] hs hP h

theorem exists_of_any_run (step : σ → α → Option σ) (s : σ) (acts : List α) (p : σ → Bool)
    (h : (run step s acts).any p = true) : ∃ t, run step s acts = some t ∧ p t = true := by
  cases hrun : run step s acts with
  | none => simp [hrun] at h
  | some t => exact ⟨t, rfl, by simpa [hrun] using h⟩

theorem Always.head {P : σ → Prop} {s : σ} {acts : List α} (h : Always step P s acts) : P s := by
  cases acts with
  | nil => exact h
  | cons a rest => exact h.1

theorem always_of_along {Inv P : σ → Prop} {C : σ → α → Prop} (hP : ∀ s, Inv s → P s)
    (hstep : ∀ s a t, Inv s → C s a → step s a = some t → Inv t) :
    ∀ {s : σ} {acts : List α}, Inv s → Along step C s acts → Always step P s acts := by
  intro s acts
  induction acts generalizing s with
  | nil =>
    intro hs _
    exact hP s hs
  | cons a rest ih =>
    intro hs hC
    exact ⟨hP s hs, fun t ht => ih (hstep s a t hs hC.1 ht) (hC.2 t ht)⟩

/-- What an invariant and `C` together say of a step, they say of every step of a run along `C`. -/
theorem Along.imp {Inv : σ → Prop} {C D : σ → α → Prop} (hD : ∀ s a, Inv s → C s a → D s a)
    (hstep : ∀ s a t, Inv s → C s a → step s a = some t → Inv t) :
    ∀ {s : σ} {acts : List α}, Inv s → Along step C s acts → Along step D s acts := by
  intro s acts
  induction acts generalizing s with
  | nil => exact fun _ _ => trivial
  | cons a rest ih =>
    intro hs hC
    exact ⟨hD s a hs hC.1, fun t ht => ih (hstep s a t hs hC.1 ht) (hC.2 t ht)⟩

theorem Along.and {C D : σ → α → Prop} : ∀ {s : σ} {acts : List α}, Along step C s acts →
    Along step D s acts →
    Along step (fun s a => C s a ∧ D s a) s acts := by
  intro s acts
  induction acts generalizing s with
  | nil => exact fun _ _ => trivial
  | cons a rest ih =>
    intro hC hD
    exact ⟨⟨hC.1, hD.1⟩, fun t ht => ih (hC.2 t ht) (hD.2 t ht)⟩

/-- In a run along `D`, safety is that each step meets `C`, if the two keep the invariant and a step outside `C` leaves `P` at once. -/
theorem always_iff_along_of_along {Inv P : σ → Prop} {C D : σ → α → Prop} (hP : ∀ s, Inv s → P s)
    (hstep : ∀ s a t, Inv s → D s a → C s a → step s a = some t → Inv t)
    (hbad : ∀ s a t, Inv s → ¬ C s a → step s a = some t → ¬ P t) :
    ∀ {s u : σ} {acts : List α}, Inv s → Along step D s acts → run step s acts = some u →
      (Always step P s acts ↔ Along step C s acts) := by
  intro s u acts hs hD hrun
  refine ⟨fun halways => ?_, fun hC =>
    always_of_along hP (fun s a t h hDC => hstep s a t h hDC.1 hDC.2) hs (hD.and hC)⟩
  induction acts generalizing s with
  | nil => trivial
  | cons a rest ih =>
    obtain ⟨t, ht, hrest⟩ := run_cons_eq_some.1 hrun
    have hC : C s a := by
      by_contra hnot
      exact hbad s a t hs hnot ht (halways.2 t ht).head
    refine ⟨hC, fun t' ht' => ?_⟩
    obtain rfl : t = t' := Option.some.inj (ht.symm.trans ht')
    exact ih (hstep s a t hs hD.1 hC ht) (hD.2 t ht) hrest (halways.2 t ht)

/-- A run is safe exactly when each of its steps meets `C`, if `C` keeps the invariant and a step outside `C` leaves `P` at once. -/
theorem always_iff_along {Inv P : σ → Prop} {C : σ → α → Prop} (hP : ∀ s, Inv s → P s)
    (hstep : ∀ s a t, Inv s → C s a → step s a = some t → Inv t)
    (hbad : ∀ s a t, Inv s → ¬ C s a → step s a = some t → ¬ P t) {s u : σ} {acts : List α}
    (hs : Inv s) (hrun : run step s acts = some u) : Always step P s acts ↔ Along step C s acts :=
  always_iff_along_of_along (D := fun _ _ => True) hP (fun s a t h _ hC => hstep s a t h hC) hbad hs
    (along_of_forall_mem (fun _ _ _ => trivial) s) hrun

/-- The same for a run whose steps are to satisfy `Q`, each in the state it is taken from. -/
theorem always_and_along_iff {Inv P : σ → Prop} {Q C : σ → α → Prop} (hP : ∀ s, Inv s → P s)
    (hQ : ∀ s a, Inv s → C s a → Q s a) (hstep : ∀ s a t, Inv s → C s a → step s a = some t → Inv t)
    (hbad : ∀ s a t, Inv s → ¬ C s a → step s a = some t → P t → ¬ Q s a) {s u : σ} {acts : List α}
    (hs : Inv s) (hrun : run step s acts = some u) :
    Always step P s acts ∧ Along step Q s acts ↔ Along step C s acts := by
  refine ⟨fun h => ?_, fun hC => ⟨always_of_along hP hstep hs hC, Along.imp hQ hstep hs hC⟩⟩
  induction acts generalizing s with
  | nil => trivial
  | cons a rest ih =>
    obtain ⟨t, ht, hrest⟩ := run_cons_eq_some.1 hrun
    obtain ⟨halways, hQ'⟩ := h
    have hC : C s a := by
      by_contra hnot
      exact hbad s a t hs hnot ht (halways.2 t ht).head hQ'.1
    refine ⟨hC, fun t' ht' => ?_⟩
    obtain rfl : t = t' := Option.some.inj (ht.symm.trans ht')
    exact ih (hstep s a t hs hC ht) hrest ⟨halways.2 t ht, hQ'.2 t ht⟩

/-! ### Fewer steps

What a system does that takes some of the steps of another one. -/

section

variable {less : σ → α → Option σ} (hle : ∀ s a t, less s a = some t → step s a = some t)
include hle

theorem run_of_le {s t : σ} {acts : List α} (h : run less s acts = some t) :
    run step s acts = some t := by
  induction acts generalizing s with
  | nil => exact h
  | cons a rest ih =>
    obtain ⟨u, hu, hrest⟩ := run_cons_eq_some.1 h
    exact run_cons_eq_some.2 ⟨u, hle s a u hu, ih hrest⟩

theorem trace_of_le (emit : σ → α → List β) {s t : σ} {acts : List α} (h : run less s acts = some t) :
    trace less emit s acts = trace step emit s acts := by
  induction acts generalizing s with
  | nil => rfl
  | cons a rest ih =>
    obtain ⟨u, hu, hrest⟩ := run_cons_eq_some.1 h
    rw [trace_cons hu, trace_cons (hle s a u hu), ih hrest]

theorem along_of_le {C : σ → α → Prop} {s t : σ} {acts : List α} (h : run less s acts = some t)
    (hC : Along less C s acts) : Along step C s acts := by
  induction acts generalizing s with
  | nil => trivial
  | cons a rest ih =>
    obtain ⟨u, hu, hrest⟩ := run_cons_eq_some.1 h
    refine ⟨hC.1, fun t' ht' => ?_⟩
    obtain rfl : u = t' := Option.some.inj ((hle s a u hu).symm.trans ht')
    exact ih hrest (hC.2 u hu)

end

/-! ### Potential -/

/-- Work that is paid for: a step that works lowers the potential, and only a step that brings new work in raises it, by `k` at most. -/
theorem countP_add_le_of_run {Inv : σ → Prop} {f : σ → Nat} {works brings : α → Bool} {k : Nat}
    (hstep : ∀ s a t, Inv s → step s a = some t → Inv t ∧
      f t + (works a).toNat ≤ f s + k * (brings a).toNat) :
    ∀ {s t : σ} {acts : List α}, Inv s → run step s acts = some t →
      f t + acts.countP works ≤ f s + k * acts.countP brings := by
  intro s t acts
  induction acts generalizing s with
  | nil =>
    intro _ h
    rw [Option.some.inj h]
    exact le_rfl
  | cons a rest ih =>
    intro hs h
    obtain ⟨u, hu, hrest⟩ := run_cons_eq_some.1 h
    obtain ⟨hInv, hle⟩ := hstep s a u hs hu
    have hih := ih hInv hrest
    have hworks : (a :: rest).countP works = rest.countP works + (works a).toNat := by
      rw [List.countP_cons]
      cases works a <;> rfl
    have hbrings : (a :: rest).countP brings = rest.countP brings + (brings a).toNat := by
      rw [List.countP_cons]
      cases brings a <;> rfl
    rw [hworks, hbrings, Nat.mul_add]
    omega

/-- Steps that each lower the potential come to an end. -/
theorem exists_rest {Inv : σ → Prop} {f : σ → Nat} {works : α → Bool}
    (hstep : ∀ s a t, Inv s → works a = true → step s a = some t → Inv t ∧ f t < f s) :
    ∀ {s : σ}, Inv s → ∃ acts t, (∀ a ∈ acts, works a = true) ∧ run step s acts = some t ∧
      ∀ a, works a = true → step t a = none := by
  intro s
  induction hn : f s using Nat.strong_induction_on generalizing s with
  | _ n ih =>
    intro hs
    by_cases hrest : ∀ a, works a = true → step s a = none
    · exact ⟨[], s, nofun, rfl, hrest⟩
    · obtain ⟨a, ha⟩ := not_forall.1 hrest
      obtain ⟨hworks, hsome⟩ := Classical.not_imp.1 ha
      obtain ⟨u, hu⟩ := Option.ne_none_iff_exists'.1 hsome
      obtain ⟨hInv, hlt⟩ := hstep s a u hs hworks hu
      obtain ⟨acts, t, hacts, hrun, hdone⟩ := ih (f u) (hn ▸ hlt) rfl hInv
      exact ⟨a :: acts, t, List.forall_mem_cons.2 ⟨hworks, hacts⟩,
        run_cons_eq_some.2 ⟨u, hu, hrun⟩, hdone⟩

/-! ### Refinement -/

/-- A step that meets `C` is a run of the abstract system, and the relation is kept. -/
def Simulates (step : σ → α → Option σ) (C : σ → α → Prop) (absStep : τ → β → Option τ)
    (R : σ → τ → Prop) : Prop :=
  ∀ s a t u, R s u → C s a → step s a = some t → ∃ v, Reaches absStep u v ∧ R t v

theorem Simulates.run {C : σ → α → Prop} {absStep : τ → β → Option τ} {R : σ → τ → Prop}
    (h : Simulates step C absStep R) : ∀ {s t : σ} {u : τ} {acts : List α}, R s u →
      Along step C s acts → run step s acts = some t → ∃ v, Reaches absStep u v ∧ R t v := by
  intro s t u acts
  induction acts generalizing s u with
  | nil =>
    intro hR _ hrun
    exact ⟨u, .refl u, Option.some.inj hrun ▸ hR⟩
  | cons a rest ih =>
    intro hR hC hrun
    obtain ⟨s', hs', hrest⟩ := run_cons_eq_some.1 hrun
    obtain ⟨v, huv, hRv⟩ := h s a s' u hR hC.1 hs'
    obtain ⟨w, hvw, hRw⟩ := ih hRv (hC.2 s' hs') hrest
    exact ⟨w, huv.trans hvw, hRw⟩

end Libesf.Transition

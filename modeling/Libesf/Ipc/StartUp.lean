import Libesf.Ipc.MessageFactory

/-!
# Before `main`

The message classes of the actions are registered by the constructors of static objects, and `m_rtti_map` and `m_ctors` are static objects themselves. In which order the objects of different files are constructed is up to the linker. A class that is registered before the two maps are there goes into an object whose lifetime has not begun, which is not defined, and whatever it left there would be gone once the maps are constructed; an exception that leaves a constructor ends the process.
-/

namespace Libesf.Ipc

open Json

variable {J : Json}

namespace Registry

variable {types : MessageTypes J}

/-- Calls of `registerMessageType` that nobody catches an exception of. -/
def registerAll (r : Registry types) (calls : List (types.Name × Str)) :
    Except Exception (Registry types) :=
  calls.foldlM (fun r call => r.registerMessageType call.1 call.2) r

theorem registerAll_cons_eq_ok {r r' : Registry types} {call : types.Name × Str}
    {calls : List (types.Name × Str)} :
    r.registerAll (call :: calls) = .ok r' ↔
      ∃ next, r.registerMessageType call.1 call.2 = .ok next ∧ next.registerAll calls = .ok r' := by
  rw [registerAll, List.foldlM_cons]
  cases hcall : r.registerMessageType call.1 call.2 with
  | error exc => simp [bind, Except.bind]
  | ok next => simp [bind, Except.bind, registerAll]

/-- The process gets to `main` if and only if no identifier is given out twice. -/
theorem exists_registerAll_iff (calls : List (types.Name × Str)) (r : Registry types) :
    (∃ r', r.registerAll calls = .ok r') ↔ (calls.map Prod.snd).Nodup ∧
      ∀ call ∈ calls, r.ctors call.2 = none := by
  induction calls generalizing r with
  | nil => exact ⟨fun _ => ⟨List.nodup_nil, nofun⟩, fun _ => ⟨r, rfl⟩⟩
  | cons call calls ih =>
    simp only [registerAll_cons_eq_ok, List.map_cons, List.nodup_cons, List.forall_mem_cons]
    constructor
    · rintro ⟨r', next, hcall, hrest⟩
      obtain ⟨hfree, -, hctors⟩ := registerMessageType_eq_ok hcall
      obtain ⟨hnodup, hnext⟩ := (ih next).1 ⟨r', hrest⟩
      have hne : ∀ call' ∈ calls, call'.2 ≠ call.2 := by
        intro call' hmem heq
        have hnone := hnext call' hmem
        rw [hctors, heq, Function.update_self] at hnone
        cases hnone
      refine ⟨⟨fun hmem => ?_, hnodup⟩, hfree, fun call' hmem => ?_⟩
      · obtain ⟨call', hcall', heq⟩ := List.mem_map.1 hmem
        exact hne call' hcall' heq
      · rw [← hnext call' hmem, hctors, Function.update_of_ne (hne call' hmem)]
    · rintro ⟨⟨hfresh, hnodup⟩, hfree, hrest⟩
      have hcall : ∃ next, r.registerMessageType call.1 call.2 = .ok next := by
        rw [registerMessageType, hfree]
        exact ⟨_, rfl⟩
      obtain ⟨next, hcall⟩ := hcall
      have hnext : ∀ call' ∈ calls, next.ctors call'.2 = none := by
        intro call' hmem
        rw [(registerMessageType_eq_ok hcall).2.2,
          Function.update_of_ne fun heq => hfresh (List.mem_map.2 ⟨call', hmem, heq⟩)]
        exact hrest call' hmem
      obtain ⟨r', hr'⟩ := (ih next).2 ⟨hnodup, hnext⟩
      exact ⟨r', next, hcall, hr'⟩

theorem ctors_registerAll {r r' : Registry types} {calls : List (types.Name × Str)}
    (h : r.registerAll calls = .ok r') :
    (∀ id T, r.ctors id = some T → r'.ctors id = some T) ∧
      ∀ call ∈ calls, r'.ctors call.2 = some call.1 := by
  induction calls generalizing r with
  | nil =>
    obtain rfl : r = r' := Except.ok.inj h
    exact ⟨fun _ _ hctor => hctor, nofun⟩
  | cons call calls ih =>
    obtain ⟨next, hcall, hrest⟩ := registerAll_cons_eq_ok.1 h
    obtain ⟨hkeep, hnew⟩ := ih hrest
    obtain ⟨-, -, hctors⟩ := registerMessageType_eq_ok hcall
    refine ⟨fun id T hctor => hkeep id T (ctors_registerMessageType hcall hctor),
      List.forall_mem_cons.2 ⟨?_, hnew⟩⟩
    exact hkeep call.2 call.1 (by rw [hctors, Function.update_self])

/-- A type that is registered under one identifier only has that identifier. -/
theorem rttiMap_registerAll (hnames : Function.Injective types.rtti) {T : types.Name} {id : Str}
    {r r' : Registry types} {calls : List (types.Name × Str)} (h : r.registerAll calls = .ok r')
    (honly : ∀ call ∈ calls, call.1 = T → call.2 = id)
    (hthere : (T, id) ∈ calls ∨ r.rttiMap (types.rtti T) = some id) :
    r'.rttiMap (types.rtti T) = some id := by
  induction calls generalizing r with
  | nil =>
    obtain rfl : r = r' := Except.ok.inj h
    exact hthere.resolve_left List.not_mem_nil
  | cons call calls ih =>
    obtain ⟨next, hcall, hrest⟩ := registerAll_cons_eq_ok.1 h
    obtain ⟨hfirst, hothers⟩ := List.forall_mem_cons.1 honly
    obtain ⟨-, hrtti, -⟩ := registerMessageType_eq_ok hcall
    refine ih hrest hothers ?_
    by_cases hT : call.1 = T
    · refine .inr ?_
      rw [hrtti, hT, Function.update_self, hfirst hT]
    · refine hthere.imp (fun hmem => ?_) fun hold => ?_
      · exact (List.mem_cons.1 hmem).resolve_left fun heq => hT (congrArg Prod.fst heq.symm)
      · rw [hrtti, Function.update_of_ne fun heq => hT (hnames heq.symm)]
        exact hold

end Registry

/-! ### Static objects -/

variable {types : MessageTypes J}

/-- What happens before `main`: the two maps are constructed, which `message_factory.cpp` defines one after the other, or the constructor of another static object registers a class. -/
inductive StaticInit (types : MessageTypes J) where
  | maps
  | registration (call : types.Name × Str)

namespace StaticInit

def isMaps : StaticInit types → Bool
  | .maps => true
  | .registration _ => false

def call? : StaticInit types → Option (types.Name × Str)
  | .maps => none
  | .registration call => some call

end StaticInit

/-- How a process fails before `main`. -/
inductive StartUpFailure where
  | unconstructed
  | terminated (exc : Exception)

/-- A step towards `main`, with the maps if they are there. -/
def StaticInit.perform (maps : Option (Registry types)) :
    StaticInit types → Except StartUpFailure (Option (Registry types))
  | .maps => .ok (some .empty)
  | .registration (T, id) =>
    match maps with
    | none => .error .unconstructed
    | some r =>
      match r.registerMessageType T id with
      | .ok r => .ok (some r)
      | .error exc => .error (.terminated exc)

/-- The steps in the order the linker has made. The maps are constructed once. -/
structure StartUp (types : MessageTypes J) where
  inits : List (StaticInit types)
  maps_once : inits.countP StaticInit.isMaps = 1

namespace StartUp

/-- The maps as `main` finds them. -/
def run (u : StartUp types) : Except StartUpFailure (Option (Registry types)) :=
  u.inits.foldlM StaticInit.perform none

/-- The registrations, in their order. -/
def calls (u : StartUp types) : List (types.Name × Str) := u.inits.filterMap StaticInit.call?

def mapsFirst (u : StartUp types) : Prop := ∃ rest, u.inits = .maps :: rest

theorem foldlM_registrations {inits : List (StaticInit types)}
    (hcalls : inits.countP StaticInit.isMaps = 0) (r r' : Registry types) :
    inits.foldlM StaticInit.perform (some r) = .ok (some r') ↔
      r.registerAll (inits.filterMap StaticInit.call?) = .ok r' := by
  induction inits generalizing r with
  | nil => simp [Registry.registerAll, pure, Except.pure]
  | cons init inits ih =>
    cases init with
    | maps => simp [StaticInit.isMaps] at hcalls
    | registration call =>
      have hrest : inits.countP StaticInit.isMaps = 0 := by simpa [StaticInit.isMaps] using hcalls
      have hfirst : StaticInit.call? (.registration call) = some call := rfl
      rw [List.filterMap_cons_some hfirst, Registry.registerAll_cons_eq_ok, List.foldlM_cons,
        StaticInit.perform]
      cases hcall : r.registerMessageType call.1 call.2 with
      | error exc => simp [bind, Except.bind]
      | ok next =>
        simp only [Except.ok.injEq, exists_eq_left']
        exact ih hrest next

/-- A process that gets to `main` has constructed the maps first, and registered the classes after that. -/
theorem run_eq_ok {u : StartUp types} {r : Registry types} :
    u.run = .ok (some r) ↔ u.mapsFirst ∧ Registry.empty.registerAll u.calls = .ok r := by
  obtain ⟨inits, honce⟩ := u
  cases inits with
  | nil => cases honce
  | cons init rest =>
    cases init with
    | maps =>
      have hmaps : StaticInit.isMaps (.maps : StaticInit types) = true := rfl
      have hrest : rest.countP StaticInit.isMaps = 0 :=
        Nat.succ.inj ((List.countP_cons_of_pos hmaps).symm.trans honce)
      have hrun : (⟨.maps :: rest, honce⟩ : StartUp types).run =
          rest.foldlM StaticInit.perform (some .empty) := rfl
      rw [hrun, foldlM_registrations hrest]
      exact ⟨fun h => ⟨⟨rest, rfl⟩, h⟩, fun h => h.2⟩
    | registration call =>
      refine iff_of_false (fun h => ?_) fun h => ?_
      · have hrun : (⟨.registration call :: rest, honce⟩ : StartUp types).run =
            .error .unconstructed := rfl
        rw [hrun] at h
        cases h
      · obtain ⟨⟨rest', hmaps⟩, -⟩ := h
        cases hmaps

/-- Nothing fails before `main` if and only if the maps come first and no identifier is given out twice. -/
theorem exists_run_iff (u : StartUp types) :
    (∃ r, u.run = .ok (some r)) ↔ u.mapsFirst ∧ (u.calls.map Prod.snd).Nodup := by
  simp only [run_eq_ok, exists_and_left, Registry.exists_registerAll_iff]
  exact and_congr_right fun _ => and_iff_left fun _ _ => rfl

/-- The maps first, and then these registrations. -/
def of (calls : List (types.Name × Str)) : StartUp types where
  inits := .maps :: calls.map .registration
  maps_once := by
    have hnone : calls.countP (StaticInit.isMaps ∘ StaticInit.registration) = 0 :=
      List.countP_eq_zero.2 fun _ _ => Bool.false_ne_true
    rw [List.countP_cons_of_pos rfl, List.countP_map, hnone]

theorem calls_of (calls : List (types.Name × Str)) : (of calls).calls = calls := by
  rw [StartUp.calls, of, List.filterMap_cons_none rfl, List.filterMap_map]
  exact List.filterMap_some

theorem mapsFirst_of (calls : List (types.Name × Str)) (hids : (calls.map Prod.snd).Nodup) :
    (of calls).mapsFirst ∧ ((of calls).calls.map Prod.snd).Nodup :=
  ⟨⟨_, rfl⟩, by rwa [calls_of]⟩

end StartUp

end Libesf.Ipc

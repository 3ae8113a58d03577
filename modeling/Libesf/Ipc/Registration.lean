import Libesf.Ipc.Dispatch

/-!
# Every message finds its slot

`registerMessageType` looks whether the identifier is in use, and not whether the type already has one, or another type of the same RTTI name. The two maps of the registry are inverse to each other as long as no RTTI name is registered again, and then a slot stays under the identifier that messages of its type are sent with, provided that it was filed under one: `registerSlot` asks for the RTTI name only.
-/

namespace Libesf.Ipc

open Json Transition

variable {J : Json} {types : MessageTypes J}

/-- `registerMessageType` statement by statement: an exception leaves the maps as the statements before it made them. -/
def Registry.register (T : types.Name) (id : Str) :
    ExceptT Exception (StateM (Registry types)) Unit := do
  if ((← get).ctors id).isSome then
    throw (.recoverable (.typeException (ascii "identifier `" ++ id ++ ascii "` is already used")))
  modify fun r => { r with rttiMap := Function.update r.rttiMap (types.rtti T) (some id) }
  modify fun r => { r with ctors := Function.update r.ctors id (some T) }

theorem Registry.run_register (r : Registry types) (T : types.Name) (id : Str) :
    (register T id).run.run r =
      match r.registerMessageType T id with
      | .ok r' => (.ok (), r')
      | .error exc => (.error exc, r) := by
  have hget : ∀ f : Registry types → ExceptT Exception (StateM (Registry types)) Unit,
      (get >>= f).run.run r = (f r).run.run r := fun _ => rfl
  rw [registerMessageType, register, hget]
  cases (r.ctors id).isSome with
  | true => rfl
  | false => rfl

theorem Registry.refused {r r' : Registry types} {T : types.Name} {id : Str} {exc : Exception}
    (h : (register T id).run.run r = (.error exc, r')) : r' = r := by
  rw [run_register] at h
  split at h
  · cases (Prod.mk.inj h).1
  · exact (Prod.mk.inj h).2.symm

theorem Registry.attempt_of_used {r : Registry types} {T : types.Name} {id : Str}
    (hused : (r.ctors id).isSome = true) : r.attempt (T, id) = r := by
  rw [attempt, registerMessageType, if_pos hused]
  rfl

theorem Registry.attempt_of_free {r : Registry types} {T : types.Name} {id : Str}
    (hfree : r.ctors id = none) :
    r.attempt (T, id) =
      { rttiMap := Function.update r.rttiMap (types.rtti T) (some id),
        ctors := Function.update r.ctors id (some T) } := by
  rw [attempt, registerMessageType, hfree]
  rfl

/-- A process, and for each endpoint and type the last handler that was registered for the type. -/
structure Wiring (types : MessageTypes J) where
  process : Process types
  last : Nat → types.Name → Option Nat

namespace Wiring

variable (O : Objects J) (w : Wiring types)

def start : Wiring types := ⟨.start, fun _ _ => none⟩

variable [DecidableEq types.Name]

/-- A call of `registerSlot` for a type that is not registered throws, and registers no handler. -/
def record : DispatchAct types → Nat → types.Name → Option Nat
  | .registerSlot endpoint T handler =>
    if (w.process.registry.rttiMap (types.rtti T)).isSome then
      Function.update w.last endpoint (Function.update (w.last endpoint) T (some handler))
    else w.last
  | _ => w.last

def step (w : Wiring types) (a : DispatchAct types) : Option (Wiring types) :=
  (w.process.step O a).map fun process => ⟨process, w.record a⟩

/-- The RTTI name is the type's own: a call of `registerMessageType` that does not throw is the first one for the name, and a call of `registerSlot` that does not throw finds an identifier with the constructor of the type. -/
def ownsName : DispatchAct types → Bool
  | .registerMessageType T id =>
    (w.process.registry.ctors id).isSome || (w.process.registry.rttiMap (types.rtti T)).isNone
  | .registerSlot _ T _ =>
    (w.process.registry.rttiMap (types.rtti T)).all fun id =>
      decide (w.process.registry.ctors id = some T)
  | _ => true

end Wiring

/-- The identifiers in `m_ctors` are those in `m_rtti_map`, each under the name of the type its constructor builds. -/
def Registry.Inverse (r : Registry types) : Prop :=
  ∀ name id, r.rttiMap name = some id ↔ ∃ T, r.ctors id = some T ∧ types.rtti T = name

/-- What is promised of a state: the two maps are inverse to each other, a call that throws changes neither, and a message of a type with a slot that is serialised now is constructed under an identifier with the last handler of its type, which is called once the receive thread comes to it. -/
structure Delivers (O : Objects J) (w : Wiring types) : Prop where
  inverse : w.process.registry.Inverse
  refused : ∀ T id exc r, (Registry.register T id).run.run w.process.registry = (.error exc, r) →
    r = w.process.registry
  delivered : ∀ endpoint T handler, w.last endpoint T = some handler →
    ∀ object : (types.type T).Object,
    ∃ json id object', MessageFactory.serialize O w.process.registry ⟨T, object⟩ = .ok json ∧
      MessageFactory.construct O w.process.registry json = .ok (⟨T, object'⟩, id) ∧
      (types.type T).members.Agree object object' ∧ w.process.slots endpoint id = some ⟨T, handler⟩ ∧
      (w.process.constructed endpoint = none →
        ∃ q, run (Process.step O) w.process [.construct endpoint json, .dispatch endpoint] = some q ∧
          q.handled = w.process.handled ++ [⟨⟨T, handler⟩, ⟨T, object'⟩, id⟩])

/-- As long as no name is registered again, the maps are inverse to each other, and the last handler of a type is under the identifier of the type. -/
structure Wired (w : Wiring types) : Prop where
  inverse : w.process.registry.Inverse
  slots : ∀ endpoint T handler, w.last endpoint T = some handler →
    ∃ id, w.process.registry.ctors id = some T ∧ w.process.slots endpoint id = some ⟨T, handler⟩

namespace Process

variable {O : Objects J} {p : Process types}

theorem construct_frame (endpoint : Nat) (json : Str) :
    (p.construct O endpoint json).registry = p.registry ∧
      (p.construct O endpoint json).slots = p.slots := by
  rw [construct]
  split <;> exact ⟨rfl, rfl⟩

theorem dispatch_frame (endpoint : Nat) (msg : Message types) (id : Str) :
    (p.dispatch endpoint msg id).registry = p.registry ∧
      (p.dispatch endpoint msg id).slots = p.slots := by
  rw [dispatch]
  split
  · exact ⟨rfl, rfl⟩
  · split <;> exact ⟨rfl, rfl⟩

/-- The receive thread constructs a message and finds the slot of its type. -/
theorem dispatched {endpoint : Nat} {json id : Str} {msg : Message types}
    {handler : Nat} (hidle : p.constructed endpoint = none)
    (hjson : MessageFactory.construct O p.registry json = .ok (msg, id))
    (hslot : p.slots endpoint id = some ⟨msg.type, handler⟩) :
    ∃ q, run (step O) p [.construct endpoint json, .dispatch endpoint] = some q ∧
      q.handled = p.handled ++ [⟨⟨msg.type, handler⟩, msg, id⟩] := by
  have hcast : (⟨msg.type, handler⟩ : Slot types).cast msg = .ok msg :=
    if_pos (types.derives_self msg.type)
  have hconstruct : p.step O (.construct endpoint json) =
      some { p with constructed := Function.update p.constructed endpoint (some (msg, id)) } := by
    rw [step, hidle, construct, hjson]
  refine ⟨dispatch { p with constructed := Function.update p.constructed endpoint (some (msg, id)) }
    endpoint msg id, ?_, ?_⟩
  · rw [run, hconstruct, Option.bind_some, run, step]
    simp only [Function.update_self, Option.bind_some, run]
  · rw [dispatch]
    simp only [hslot, hcast]

end Process

namespace Wired

variable {O : Objects J} {w v : Wiring types}

theorem start : Wired (.start : Wiring types) where
  inverse _ _ := iff_of_false (by simp [Wiring.start, Process.start, Registry.empty])
    (by simp [Wiring.start, Process.start, Registry.empty])
  slots _ _ _ h := by cases h

theorem delivers (hO : O.Lawful) (h : Wired w) : Delivers O w where
  inverse := h.inverse
  refused _ _ _ _ := Registry.refused
  delivered endpoint T handler hlast object := by
    obtain ⟨id, hctor, hslot⟩ := h.slots endpoint T handler hlast
    have hid := (h.inverse (types.rtti T) id).2 ⟨T, hctor, rfl⟩
    obtain ⟨json, object', hserialize, hconstruct, hagree⟩ := MessageFactory.roundTrip hO ⟨T, object⟩
      (Registry.typeIdentifier_eq_ok.2 hid) hctor
    exact ⟨json, id, object', hserialize, hconstruct, hagree, hslot,
      fun hidle => Process.dispatched hidle hconstruct hslot⟩

/-- A type that is registered under a new name and a new identifier. -/
theorem inverse_attempt {r : Registry types} (hr : r.Inverse) {T : types.Name} {id : Str}
    (hfree : r.ctors id = none) (hnew : r.rttiMap (types.rtti T) = none) :
    (r.attempt (T, id)).Inverse := by
  intro name id'
  rw [Registry.attempt_of_free hfree]
  dsimp only
  by_cases hname : name = types.rtti T
  · rw [hname, Function.update_self]
    by_cases hid : id' = id
    · rw [hid, Function.update_self]
      exact iff_of_true rfl ⟨T, rfl, rfl⟩
    · rw [Function.update_of_ne hid, ← hr, hnew]
      exact iff_of_false (fun heq => hid (Option.some.inj heq).symm) nofun
  · rw [Function.update_of_ne hname]
    by_cases hid : id' = id
    · rw [hid, Function.update_self, hr, hfree]
      refine iff_of_false nofun ?_
      rintro ⟨U, hU, hrtti⟩
      exact hname (hrtti.symm.trans (congrArg types.rtti (Option.some.inj hU).symm))
    · rw [Function.update_of_ne hid]
      exact hr name id'

theorem registerMessageType (h : Wired w) {T : types.Name} {id : Str}
    (hfree : w.process.registry.ctors id = none)
    (hnew : w.process.registry.rttiMap (types.rtti T) = none) :
    Wired (⟨{ w.process with registry := w.process.registry.attempt (T, id) }, w.last⟩ :
      Wiring types) := by
  refine ⟨inverse_attempt h.inverse hfree hnew, fun endpoint U handler hlast => ?_⟩
  obtain ⟨id', hctor, hslot⟩ := h.slots endpoint U handler hlast
  exact ⟨id', Registry.ctors_attempt (T, id) hctor, hslot⟩

theorem of_frame (h : Wired w) {p : Process types}
    (hframe : p.registry = w.process.registry ∧ p.slots = w.process.slots) : Wired ⟨p, w.last⟩ := by
  obtain ⟨hregistry, hslots⟩ := hframe
  refine ⟨?_, fun endpoint T handler => ?_⟩
  · rw [hregistry]
    exact h.inverse
  · rw [hregistry, hslots]
    exact h.slots endpoint T handler

/-- A name that is registered again leaves its first identifier to a constructor that nothing has the identifier of. -/
theorem not_inverse_attempt {r : Registry types} (hr : r.Inverse) {T : types.Name} {id id' : Str}
    (hfree : r.ctors id = none) (hid' : r.rttiMap (types.rtti T) = some id') :
    ¬ (r.attempt (T, id)).Inverse := by
  obtain ⟨U, hctor, hrtti⟩ := (hr (types.rtti T) id').1 hid'
  have hne : id' ≠ id := by
    rintro rfl
    rw [hfree] at hctor
    cases hctor
  intro hinverse
  have hlost := (hinverse (types.rtti T) id').2 ⟨U, Registry.ctors_attempt (T, id) hctor, hrtti⟩
  rw [Registry.attempt_of_free hfree] at hlost
  dsimp only at hlost
  rw [Function.update_self] at hlost
  exact hne (Option.some.inj hlost).symm

/-- Where the messages of a type with a slot are delivered, the identifier under its name is its own. -/
theorem ctors_of_delivers {v : Wiring types} (hdelivers : Delivers O v) {endpoint : Nat}
    {T : types.Name} {handler : Nat} (hlast : v.last endpoint T = some handler) {id : Str}
    (hid : v.process.registry.rttiMap (types.rtti T) = some id) :
    v.process.registry.ctors id = some T := by
  obtain ⟨json, id', object', -, hconstruct, -⟩ :=
    hdelivers.delivered endpoint T handler hlast (types.type T).fresh
  have hctor := MessageFactory.construct_eq_ok hconstruct
  have hid' := (hdelivers.inverse (types.rtti T) id').2 ⟨T, hctor, rfl⟩
  rw [Option.some.inj (hid.symm.trans hid')]
  exact hctor

variable [DecidableEq types.Name]

theorem registerSlot (h : Wired w) (endpoint : Nat) (T : types.Name) (handler : Nat)
    (howns : w.ownsName (.registerSlot endpoint T handler) = true) :
    Wired (⟨w.process.registerSlot endpoint T handler,
      w.record (.registerSlot endpoint T handler)⟩ : Wiring types) := by
  rw [Process.registerSlot, Registry.typeIdentifier, Wiring.record]
  rw [Wiring.ownsName] at howns
  cases hid : w.process.registry.rttiMap (types.rtti T) with
  | none => exact h
  | some id =>
    rw [hid, Option.all_some, decide_eq_true_eq] at howns
    refine ⟨h.inverse, fun e U handler' hlast => ?_⟩
    dsimp only [Option.isSome_some, if_true] at hlast ⊢
    by_cases he : e = endpoint
    · rw [he, if_pos rfl, Function.update_self] at hlast
      rw [he, Function.update_self]
      by_cases hU : U = T
      · rw [hU, Function.update_self] at hlast
        obtain rfl := Option.some.inj hlast
        exact ⟨id, hU ▸ howns, by rw [Function.update_self, hU]⟩
      · rw [Function.update_of_ne hU] at hlast
        obtain ⟨id', hctor, hslot⟩ := h.slots endpoint U handler' hlast
        -- the constructors under the two identifiers differ, so the identifiers do
        have hne : id' ≠ id := by
          rintro rfl
          exact hU (Option.some.inj (hctor.symm.trans howns))
        exact ⟨id', hctor, by rw [Function.update_of_ne hne]; exact hslot⟩
    · rw [if_pos rfl, Function.update_of_ne he] at hlast
      rw [Function.update_of_ne he]
      exact h.slots e U handler' hlast

theorem step (w : Wiring types) (a : DispatchAct types) (v : Wiring types) (h : Wired w)
    (howns : w.ownsName a = true) (hstep : w.step O a = some v) : Wired v := by
  obtain ⟨p, hp, rfl⟩ := Option.map_eq_some_iff.1 hstep
  cases a with
  | registerMessageType T id =>
    obtain rfl := Option.some.inj hp
    cases hused : (w.process.registry.ctors id).isSome with
    | true =>
      rw [Registry.attempt_of_used hused]
      exact h
    | false =>
      rw [Wiring.ownsName, hused, Bool.false_or, Option.isNone_iff_eq_none] at howns
      exact h.registerMessageType
        (Option.isSome_eq_false_iff.1 hused |> Option.isNone_iff_eq_none.1) howns
  | registerSlot endpoint T handler =>
    obtain rfl := Option.some.inj hp
    exact h.registerSlot endpoint T handler howns
  | construct endpoint json =>
    rw [Process.step] at hp
    split at hp
    · obtain rfl := Option.some.inj hp
      exact h.of_frame (Process.construct_frame endpoint json)
    · cases hp
  | dispatch endpoint =>
    rw [Process.step] at hp
    split at hp
    · cases hp
    · next msg id hmsg =>
      obtain rfl := Option.some.inj hp
      exact h.of_frame (Process.dispatch_frame endpoint msg id)

theorem not_delivers (w : Wiring types) (a : DispatchAct types) (v : Wiring types) (h : Wired w)
    (hnot : ¬ w.ownsName a = true) (hstep : w.step O a = some v) : ¬ Delivers O v := by
  obtain ⟨p, hp, rfl⟩ := Option.map_eq_some_iff.1 hstep
  cases a with
  | registerMessageType T id =>
    obtain rfl := Option.some.inj hp
    rw [Wiring.ownsName, Bool.not_eq_true, Bool.or_eq_false_iff, Option.isSome_eq_false_iff,
      Option.isNone_iff_eq_none, Option.isNone_eq_false_iff, Option.isSome_iff_exists] at hnot
    obtain ⟨hfree, id', hid'⟩ := hnot
    exact fun hdelivers => not_inverse_attempt h.inverse hfree hid' hdelivers.inverse
  | registerSlot endpoint T handler =>
    obtain rfl := Option.some.inj hp
    rw [Wiring.ownsName] at hnot
    cases hid : w.process.registry.rttiMap (types.rtti T) with
    | none => exact absurd (by rw [hid]; rfl) hnot
    | some id =>
      rw [hid, Option.all_some, decide_eq_true_eq] at hnot
      rw [Process.registerSlot, Registry.typeIdentifier, Wiring.record, hid]
      intro hdelivers
      have hlast : Function.update w.last endpoint
          (Function.update (w.last endpoint) T (some handler)) endpoint T =
          some handler := by
        rw [Function.update_self, Function.update_self]
      exact hnot (ctors_of_delivers hdelivers hlast hid)
  | _ => exact absurd rfl hnot

end Wired

variable [DecidableEq types.Name] {O : Objects J}

/-- **Every message finds its slot.** In a run of registrations of types and of slots and of received texts, every state keeps the promise if and only if, but for calls that throw, no RTTI name is registered again and no slot is filed under the identifier of another type. -/
theorem delivers_iff_ownsName (hO : O.Lawful) {acts : List (DispatchAct types)} {w : Wiring types}
    (hrun : run (Wiring.step O) .start acts = some w) :
    Always (Wiring.step O) (Delivers O) .start acts ↔
      Along (Wiring.step O) (fun w a => w.ownsName a = true) .start acts :=
  always_iff_along (fun _ h => h.delivers hO) Wired.step Wired.not_delivers Wired.start hrun

open MessageFactory in
/-- A report is registered and given a slot, a ping is refused its identifier, and the slot gets another handler. -/
def registeredOnce (J : Json) : List (DispatchAct (sampleTypes J)) :=
  [.registerMessageType .report (ascii "b"), .registerSlot 0 .report 7,
    .registerMessageType .ping (ascii "b"), .registerSlot 0 .report 8]

open MessageFactory in
theorem delivers_iff_ownsName_registeredOnce :
    ∃ w, run (Wiring.step (Tree.objects reportTree reportText)) .start (registeredOnce _) = some w ∧
      w.last 0 SampleName.report = some 8 ∧
      Always (Wiring.step (Tree.objects reportTree reportText))
        (Delivers (Tree.objects reportTree reportText)) .start
        (registeredOnce _) := by
  obtain ⟨w, hrun, hlast⟩ :=
    exists_of_any_run (Wiring.step (Tree.objects reportTree reportText)) .start
    (registeredOnce _) (fun w => w.last 0 SampleName.report == some 8) (by decide +kernel)
  exact ⟨w, hrun, by simpa using hlast,
    (delivers_iff_ownsName (Tree.lawful_objects reportTree reportText) hrun).2 (by decide +kernel)⟩

open MessageFactory in
/-- A report is registered, given a slot, and registered again. -/
def registeredAgain (J : Json) : List (DispatchAct (sampleTypes J)) :=
  [.registerMessageType .report (ascii "a"), .registerSlot 0 .report 7,
    .registerMessageType .report (ascii "b")]

open MessageFactory in
/-- The first identifier is left over, and a report that is sent now is not connected to any slot. -/
theorem registeredAgain_loses_slot :
    ∃ w q, run (Wiring.step (Tree.objects reportTree reportText)) .start
      (registeredAgain _) = some w ∧
      serialize (Tree.objects reportTree reportText) w.process.registry (sampleReport _) =
        .ok reportText ∧
      run (Process.step (Tree.objects reportTree reportText)) w.process
        [.construct 0 reportText, .dispatch 0] = some q ∧
      q.handled = [] ∧ q.raised =
        [dataFormatException (ascii "IPC message type `b`is not connected to any slot")] ∧
      ¬ Delivers (Tree.objects reportTree reportText) w := by
  obtain ⟨w, hrun, hp⟩ := exists_of_any_run (Wiring.step (Tree.objects reportTree reportText))
    .start (registeredAgain _)
    (fun w => (w.process.registry.ctors (ascii "a")).isSome &&
      w.process.registry.rttiMap (ascii "6Report") == some (ascii "b") &&
      w.process.registry.rttiMap (ascii "4Ping") == none &&
      decide (serialize (Tree.objects reportTree reportText) w.process.registry (sampleReport _) =
        .ok reportText) &&
      (run (Process.step (Tree.objects reportTree reportText)) w.process
        [.construct 0 reportText, .dispatch 0]).any
        fun q => q.handled.isEmpty &&
          q.raised ==
            [dataFormatException (ascii "IPC message type `b`is not connected to any slot")])
    (by decide +kernel)
  simp only [Bool.and_eq_true, beq_iff_eq, decide_eq_true_eq, Option.any_eq_true,
    List.isEmpty_iff] at hp
  obtain ⟨⟨⟨⟨hctor, hreport⟩, hping⟩, hserialize⟩, q, hq, hhandled, hraised⟩ := hp
  refine ⟨w, q, hrun, hserialize, hq, hhandled, hraised, fun hdelivers => ?_⟩
  obtain ⟨T, hT⟩ := Option.isSome_iff_exists.1 hctor
  have hid := (hdelivers.inverse ((sampleTypes _).rtti T) _).2 ⟨T, hT, rfl⟩
  cases T with
  | report =>
    rw [show (sampleTypes _).rtti .report = ascii "6Report" from rfl, hreport] at hid
    exact absurd hid (by decide)
  | ping =>
    rw [show (sampleTypes _).rtti .ping = ascii "4Ping" from rfl, hping] at hid
    cases hid

end Libesf.Ipc

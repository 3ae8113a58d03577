import Libesf.Base.Transition
import Libesf.Ipc.MessageFactory

/-!
# Dispatch

A slot is stored under the identifier its type has at that moment, and called for the messages that are constructed under that identifier later, when the type may have another one. The slot wrapper casts the message to the type of the slot. That the cast succeeds is a matter of the constructors alone: the one under the identifier was that of the slot's type when the slot was registered, provided that no other type has its RTTI name, and constructors are there for good.

The receive thread constructs a message and looks up its slot in two steps, between which other threads may register types and slots.
-/

namespace Libesf.Ipc

open Json Transition

variable {J : Json}

/-- What `registerSlot` stores: the type it was instantiated for, and the handler. -/
structure Slot (types : MessageTypes J) where
  type : types.Name
  handler : Nat

/-- A call of a handler, for a message that was constructed under `id`. -/
structure SlotCall (types : MessageTypes J) where
  slot : Slot types
  message : Message types
  id : Str

/-- What `dynamic_cast` to a reference throws. It is none the receive thread catches. -/
def badCast : Exception := .other (ascii "std::bad_cast")

/-- The slot wrapper: `dynamic_cast<T const&>(msg)`. -/
def Slot.cast {types : MessageTypes J} (slot : Slot types) (msg : Message types) :
    Except Exception (Message types) :=
  if types.derives msg.type slot.type then .ok msg else .error badCast

/-- A process: the registry is static, the slots are those of its endpoints, by number. -/
structure Process (types : MessageTypes J) where
  registry : Registry types
  slots : Nat → Str → Option (Slot types)
  /-- The message an endpoint's receive thread has constructed and not dispatched yet. -/
  constructed : Nat → Option (Message types × Str)
  handled : List (SlotCall types)
  /-- The exceptions the receive threads have met. -/
  raised : List Exception

inductive DispatchAct (types : MessageTypes J) where
  | registerMessageType (T : types.Name) (id : Str)
  | registerSlot (endpoint : Nat) (T : types.Name) (handler : Nat)
  | construct (endpoint : Nat) (json : Str)
  | dispatch (endpoint : Nat)

namespace Process

variable {types : MessageTypes J} (O : Objects J) (p : Process types)

def start : Process types := ⟨.empty, fun _ _ => none, fun _ => none, [], []⟩

/-- `registerSlot`, which throws for a type that is not registered. -/
def registerSlot (endpoint : Nat) (T : types.Name) (handler : Nat) : Process types :=
  match p.registry.typeIdentifier T with
  | .error _ => p
  | .ok id =>
    { p with
      slots := Function.update p.slots endpoint
        (Function.update (p.slots endpoint) id (some ⟨T, handler⟩)) }

def construct (endpoint : Nat) (json : Str) : Process types :=
  match MessageFactory.construct O p.registry json with
  | .error exc => { p with raised := p.raised ++ [exc] }
  | .ok constructed =>
    { p with constructed := Function.update p.constructed endpoint (some constructed) }

def dispatch (endpoint : Nat) (msg : Message types) (id : Str) : Process types :=
  let p := { p with constructed := Function.update p.constructed endpoint none }
  match p.slots endpoint id with
  | none =>
    let exc := MessageFactory.dataFormatException
      (ascii "IPC message type `" ++ id ++ ascii "`is not connected to any slot")
    { p with raised := p.raised ++ [exc] }
  | some slot =>
    match slot.cast msg with
    | .error exc => { p with raised := p.raised ++ [exc] }
    | .ok msg => { p with handled := p.handled ++ [⟨slot, msg, id⟩] }

def step (p : Process types) : DispatchAct types → Option (Process types)
  | .registerMessageType T id => some { p with registry := p.registry.attempt (T, id) }
  | .registerSlot endpoint T handler => some (p.registerSlot endpoint T handler)
  | .construct endpoint json =>
    match p.constructed endpoint with
    | none => some (p.construct O endpoint json)
    | some _ => none
  | .dispatch endpoint =>
    match p.constructed endpoint with
    | none => none
    | some (msg, id) => some (p.dispatch endpoint msg id)

end Process

/-! ### What the maps have in common -/

/-- Whatever is filed under an identifier belongs to the type whose constructor is there. -/
structure WellTyped {types : MessageTypes J} (p : Process types) : Prop where
  registry : p.registry.Consistent
  slots : ∀ endpoint id slot, p.slots endpoint id = some slot → p.registry.ctors id = some slot.type
  constructed : ∀ endpoint msg id, p.constructed endpoint = some (msg, id) →
    p.registry.ctors id = some msg.type
  handled : ∀ call ∈ p.handled,
    p.registry.ctors call.id = some call.slot.type ∧ p.registry.ctors call.id = some call.message.type
  raised : badCast ∉ p.raised

namespace WellTyped

variable {types : MessageTypes J} {O : Objects J} {p : Process types}

theorem cast (h : WellTyped p) {endpoint : Nat} {msg : Message types} {id : Str} {slot : Slot types}
    (hmsg : p.registry.ctors id = some msg.type) (hslot : p.slots endpoint id = some slot) :
    msg.type = slot.type ∧ slot.cast msg = .ok msg := by
  have htype : msg.type = slot.type :=
    Option.some.inj (hmsg.symm.trans (h.slots endpoint id slot hslot))
  refine ⟨htype, ?_⟩
  rw [Slot.cast, htype, types.derives_self]
  rfl

theorem attempt (hnames : Function.Injective types.rtti) (h : WellTyped p) (call : types.Name × Str) :
    WellTyped { p with registry := p.registry.attempt call } := by
  have hkeep : ∀ {id T}, p.registry.ctors id = some T → (p.registry.attempt call).ctors id = some T :=
    fun hctor => Registry.ctors_attempt call hctor
  exact ⟨Registry.consistent_attempt hnames h.registry call,
    fun endpoint id slot hslot => hkeep (h.slots endpoint id slot hslot),
    fun endpoint msg id hmsg => hkeep (h.constructed endpoint msg id hmsg), fun call hcall =>
    ⟨hkeep (h.handled call hcall).1, hkeep (h.handled call hcall).2⟩, h.raised⟩

theorem registerSlot (h : WellTyped p) (endpoint : Nat) (T : types.Name) (handler : Nat) :
    WellTyped (p.registerSlot endpoint T handler) := by
  rw [Process.registerSlot]
  split
  · exact h
  · next id hid =>
    refine ⟨h.registry, fun e id' slot hslot => ?_, h.constructed, h.handled, h.raised⟩
    dsimp only at hslot ⊢
    by_cases he : e = endpoint
    · rw [he, Function.update_self] at hslot
      by_cases hid' : id' = id
      · rw [hid', Function.update_self] at hslot
        obtain rfl := Option.some.inj hslot
        rw [hid']
        exact h.registry T id (Registry.typeIdentifier_eq_ok.1 hid)
      · rw [Function.update_of_ne hid'] at hslot
        exact h.slots endpoint id' slot hslot
    · rw [Function.update_of_ne he] at hslot
      exact h.slots e id' slot hslot

theorem raise (h : WellTyped p) {exc : Exception} (hexc : exc ≠ badCast) :
    WellTyped { p with raised := p.raised ++ [exc] } :=
  ⟨h.registry, h.slots, h.constructed, h.handled, fun hmem => by
    rw [List.mem_append, List.mem_singleton] at hmem
    exact hmem.elim h.raised fun heq => hexc heq.symm⟩

theorem construct (h : WellTyped p) (endpoint : Nat) (json : Str) :
    WellTyped (p.construct O endpoint json) := by
  rw [Process.construct]
  split
  · next exc hexc =>
    obtain rfl | ⟨what, rfl⟩ := MessageFactory.construct_eq_error hexc
    · exact h.raise nofun
    · exact h.raise nofun
  · next constructed hconstructed =>
    refine ⟨h.registry, h.slots, fun e msg id hmsg => ?_, h.handled, h.raised⟩
    dsimp only at hmsg ⊢
    by_cases he : e = endpoint
    · rw [he, Function.update_self] at hmsg
      rw [Option.some.inj hmsg] at hconstructed
      exact MessageFactory.construct_eq_ok hconstructed
    · rw [Function.update_of_ne he] at hmsg
      exact h.constructed e msg id hmsg

/-- The receive thread is done with the message. -/
theorem taken (h : WellTyped p) (endpoint : Nat) :
    WellTyped { p with constructed := Function.update p.constructed endpoint none } := by
  refine ⟨h.registry, h.slots, fun e msg id hmsg => ?_, h.handled, h.raised⟩
  dsimp only at hmsg ⊢
  by_cases he : e = endpoint
  · rw [he, Function.update_self] at hmsg
    cases hmsg
  · rw [Function.update_of_ne he] at hmsg
    exact h.constructed e msg id hmsg

theorem dispatch (h : WellTyped p) {endpoint : Nat} {msg : Message types} {id : Str}
    (hmsg : p.constructed endpoint = some (msg, id)) : WellTyped (p.dispatch endpoint msg id) := by
  have htaken := h.taken endpoint
  have hctor := h.constructed endpoint msg id hmsg
  rw [Process.dispatch]
  split
  · exact htaken.raise nofun
  · next slot hslot =>
    rw [(htaken.cast hctor hslot).2]
    refine ⟨h.registry, h.slots, htaken.constructed, fun call hcall => ?_, h.raised⟩
    rw [List.mem_append, List.mem_singleton] at hcall
    obtain hcall | rfl := hcall
    · exact h.handled call hcall
    · exact ⟨h.slots endpoint id slot hslot, hctor⟩

end WellTyped

variable {types : MessageTypes J} {O : Objects J}

theorem wellTyped_start : WellTyped (.start : Process types) :=
  ⟨Registry.consistent_empty, nofun, nofun, nofun, List.not_mem_nil⟩

theorem wellTyped_step (hnames : Function.Injective types.rtti) (p : Process types)
    (a : DispatchAct types) (q : Process types) (h : WellTyped p) (hstep : p.step O a = some q) :
    WellTyped q := by
  cases a with
  | registerMessageType T id => exact Option.some.inj hstep ▸ h.attempt hnames (T, id)
  | registerSlot endpoint T handler => exact Option.some.inj hstep ▸ h.registerSlot endpoint T handler
  | construct endpoint json =>
    rw [Process.step] at hstep
    split at hstep
    · exact Option.some.inj hstep ▸ h.construct endpoint json
    · cases hstep
  | dispatch endpoint =>
    rw [Process.step] at hstep
    split at hstep
    · cases hstep
    · next msg id hmsg => exact Option.some.inj hstep ▸ h.dispatch hmsg

/-- What dispatch promises of a state: the slot found for a constructed message takes it, no cast has failed, a handler has only been called with messages of its own type, and `construct` reports the identifier it found the constructor under. -/
structure DispatchesOwnType (O : Objects J) (p : Process types) : Prop where
  cast : ∀ endpoint msg id slot, p.constructed endpoint = some (msg, id) →
    p.slots endpoint id = some slot →
    msg.type = slot.type ∧ slot.cast msg = .ok msg
  handled : ∀ call ∈ p.handled,
    call.message.type = call.slot.type ∧ p.registry.ctors call.id = some call.slot.type
  raised : badCast ∉ p.raised
  reported : ∀ json msg id, MessageFactory.construct O p.registry json = .ok (msg, id) →
    p.registry.ctors id = some msg.type

/-- **Type-safe dispatch.** Where no two message types share an RTTI name, a slot that is found for a message is of the message's type, however registrations of types, registrations of slots and received texts follow each other. -/
theorem dispatchesOwnType_run (hnames : Function.Injective types.rtti)
    {acts : List (DispatchAct types)} {p : Process types}
    (hrun : run (Process.step O) .start acts = some p) : DispatchesOwnType O p := by
  have h : WellTyped p := invariant_run WellTyped (wellTyped_step hnames) wellTyped_start hrun
  refine ⟨fun endpoint msg id slot hmsg hslot => h.cast (h.constructed endpoint msg id hmsg) hslot,
    fun call hcall => ?_, h.raised, fun json msg id => MessageFactory.construct_eq_ok⟩
  obtain ⟨hslot, hmsg⟩ := h.handled call hcall
  exact ⟨Option.some.inj (hmsg.symm.trans hslot), hslot⟩

/-- A slot for reports is registered, reports get another identifier, and one with the first identifier comes in. -/
def oldIdentifier (J : Json) : List (DispatchAct (MessageFactory.sampleTypes J)) :=
  [.registerMessageType .report (ascii "b"), .registerSlot 0 .report 7,
    .registerMessageType .report (ascii "c"), .construct 0 MessageFactory.reportText,
    .registerMessageType .ping (ascii "b"), .dispatch 0]

theorem dispatchesOwnType_run_oldIdentifier :
    ∃ p, run (Process.step (Tree.objects MessageFactory.reportTree MessageFactory.reportText)) .start
        (oldIdentifier _) = some p ∧ p.handled.length = 1 ∧
      DispatchesOwnType (Tree.objects MessageFactory.reportTree MessageFactory.reportText) p := by
  obtain ⟨p, hrun, hone⟩ := exists_of_any_run
    (Process.step (Tree.objects MessageFactory.reportTree MessageFactory.reportText)) .start
    (oldIdentifier _) (fun p => p.handled.length == 1) (by decide +kernel)
  exact ⟨p, hrun, by simpa using hone,
    dispatchesOwnType_run (MessageFactory.sampleTypes_names _) hrun⟩

/-- Of two types of one name, the slot of the first is filed under the identifier of the second. -/
def slotOfHomonym (J : Json) : List (DispatchAct (MessageFactory.homonyms J)) :=
  [.registerMessageType MessageFactory.SampleName.ping (ascii "a"),
    .registerMessageType MessageFactory.SampleName.report (ascii "b"),
    .registerSlot 0 MessageFactory.SampleName.ping 7, .construct 0 MessageFactory.reportText,
    .dispatch 0]

theorem slotOfHomonym_badCast :
    ∃ p, run (Process.step (Tree.objects MessageFactory.reportTree MessageFactory.reportText)) .start
        (slotOfHomonym _) = some p ∧ p.raised = [badCast] ∧
      ¬ DispatchesOwnType (Tree.objects MessageFactory.reportTree MessageFactory.reportText) p := by
  obtain ⟨p, hrun, hraised⟩ := exists_of_any_run
    (Process.step (Tree.objects MessageFactory.reportTree MessageFactory.reportText)) .start
    (slotOfHomonym _) (fun p => p.raised == [badCast]) (by decide +kernel)
  rw [beq_iff_eq] at hraised
  refine ⟨p, hrun, hraised, fun h => h.raised ?_⟩
  rw [hraised]
  exact List.mem_singleton_self badCast

end Libesf.Ipc

import Libesf.Ipc.Dispatch
import Libesf.Ipc.Conveyance

/-!
# From `send` to the slot of the message's type

`Endpoint::send` puts the text of a message into the shared buffer, and the receive thread at the other end makes a message of it and calls the slot filed under its identifier. The two processes have a registry each, and what is needed of the two is that an identifier means the same type in both.

`registerSlot` inserts an empty function into `m_slots` and assigns the wrapper to it after that, and `m_slots` has no lock. A thread that is there while another one is, or while the receive thread is in its `try` block, does what is not defined, and the model goes no further.
-/

namespace Libesf.Ipc

open Json Transition

/-! ### The slots at the other end -/

variable {J : Json} {types : MessageTypes J}

/-- What the receive thread makes of a text: the call of a slot, or an exception before there is one. -/
abbrev Outcome (types : MessageTypes J) := Except RecoverableException (SlotCall types)

/-- One direction of a pair of endpoints: the channel, the slots of the receiving endpoint, the messages written into the buffer, and what has become of them. -/
structure TypedChannel (types : MessageTypes J) where
  channel : Channel (Message types)
  /-- `m_slots`: under a key there is an empty function at first. -/
  slots : Str → Option (Option (Slot types))
  /-- The calls of `registerSlot` that have inserted their key and not assigned the wrapper yet. -/
  registering : List (Str × Slot types)
  sent : List (Message types)
  outcomes : List (Outcome types)

/-- A step of a sender, of `registerSlot` up to its key and from there on, or of the receive thread, with what the slot it calls throws. -/
inductive TypedAct (types : MessageTypes J) where
  | call (msg : Message types)
  | send (i : Nat)
  | registerSlot (T : types.Name) (handler : Nat)
  | assignSlot (i : Nat)
  | receive (throws : Except RecoverableException Unit)

/-- The exception for an identifier that no slot is filed under. -/
def notConnectedToSlot (id : Str) : RecoverableException :=
  .dataFormatException (ascii "IPC message type `" ++ id ++ ascii "`is not connected to any slot")

namespace TypedChannel

-- the registry of the sending process is `near`, that of the receiving one `far`
variable (O : Objects J) (near far : Registry types) (s : TypedChannel types)

def init (types : MessageTypes J) (excHandler : Bool) : TypedChannel types :=
  ⟨.init _ true excHandler, fun _ => none, [], [], []⟩

/-- A step of the channel, with the message it may write and what it may have become of the one that was read. -/
def transmit (a : Act (Message types)) (outcome : List (Outcome types)) :
    Option (TypedChannel types) := do
  let channel ← s.channel.step (MessageFactory.serialize O near) a
  return { s with
    channel
    sent := s.sent ++ s.channel.writes (MessageFactory.serialize O near) a
    outcomes := s.outcomes ++ outcome }

/-- The `try` block of the receive thread. A failing `dynamic_cast` would end the process, and so would the call of an empty function. -/
def dispatch (throws : Except RecoverableException Unit) : Option (TypedChannel types) :=
  match MessageFactory.construct O far (s.channel.received.getLast?.getD []) with
  | .error (.recoverable exc) => s.transmit O near (.receive (.error exc)) [.error exc]
  | .error _ => none
  | .ok (msg, id) =>
    match s.slots id with
    | none =>
      s.transmit O near (.receive (.error (notConnectedToSlot id))) [.error (notConnectedToSlot id)]
    | some none => none
    | some (some slot) =>
      match slot.cast msg with
      | .error _ => none
      | .ok msg => s.transmit O near (.receive throws) [.ok ⟨slot, msg, id⟩]

/-- `registerSlot` up to `m_slots[id]`. It throws for a type that is not registered. -/
def registerSlot (T : types.Name) (handler : Nat) : TypedChannel types :=
  match far.typeIdentifier T with
  | .error _ => s
  | .ok id =>
    { s with
      slots := Function.update s.slots id (some ((s.slots id).getD none))
      registering := s.registering ++ [(id, ⟨T, handler⟩)] }

/-- The rest of `registerSlot`. -/
def assignSlot (i : Nat) : Option (TypedChannel types) := do
  let (id, slot) ← s.registering[i]?
  return { s with
    slots := Function.update s.slots id (some (some slot)), registering := s.registering.eraseIdx i }

/-- `m_slots` is left to one thread: no `registerSlot` begins in the middle of another one, none is under way in the `try` block of the receive thread. -/
def Defined : TypedAct types → Prop
  | .registerSlot _ _ => s.registering = [] ∧ s.channel.receiver ≠ some .dispatch
  | .assignSlot _ => s.channel.receiver ≠ some .dispatch
  | .receive _ => s.channel.receiver = some .dispatch → s.registering = []
  | .call _ | .send _ => True

instance (a : TypedAct types) : Decidable (s.Defined a) := by
  cases a <;> unfold Defined <;> infer_instance

def perform : TypedAct types → Option (TypedChannel types)
  | .call msg => s.transmit O near (.call msg) []
  | .send i => s.transmit O near (.send i) []
  | .registerSlot T handler => some (s.registerSlot far T handler)
  | .assignSlot i => s.assignSlot i
  | .receive throws =>
    if s.channel.receiver = some .dispatch then s.dispatch O near far throws
    else s.transmit O near (.receive (.ok ())) []

def step (s : TypedChannel types) (a : TypedAct types) : Option (TypedChannel types) :=
  if s.Defined a then s.perform O near far a else none

/-- A slot is there for the message that was written last. -/
def connected : TypedAct types → Bool
  | .receive _ => s.sent.getLast?.all fun msg =>
    match near.typeIdentifier msg.type with
    | .ok id => (s.slots id).isSome
    | .error _ => true
  | _ => true

variable {O near far s}

theorem transmit_eq_some {a : Act (Message types)} {outcome : List (Outcome types)}
    {t : TypedChannel types} (h : s.transmit O near a outcome = some t) :
    s.channel.step (MessageFactory.serialize O near) a = some t.channel ∧
      (t.slots = s.slots ∧ t.registering = s.registering) ∧
      t.sent = s.sent ++ s.channel.writes (MessageFactory.serialize O near) a ∧
      t.outcomes = s.outcomes ++ outcome := by
  obtain ⟨channel, hchannel, ht⟩ := Option.bind_eq_some_iff.1 h
  obtain rfl := Option.some.inj ht
  exact ⟨hchannel, ⟨rfl, rfl⟩, rfl, rfl⟩

theorem step_eq_some {a : TypedAct types} {t : TypedChannel types} :
    s.step O near far a = some t ↔ s.Defined a ∧ s.perform O near far a = some t := by
  rw [step, Option.ite_none_right_eq_some]

end TypedChannel

/-! ### What the other process makes of a text -/

/-- Both processes mean the same type by an identifier. -/
def Registry.Understands (near far : Registry types) : Prop :=
  ∀ T id, near.typeIdentifier T = .ok id → far.ctors id = some T

namespace MessageFactory

variable {O : Objects J} {near far : Registry types}

theorem serialize_eq_ok {msg : Message types} {json : Str} (h : serialize O near msg = .ok json) :
    ∃ id, near.typeIdentifier msg.type = .ok id ∧
      J.serialize false
        (envelope O id (((types.type msg.type).push O msg.object).getD O.newObject)) = .ok json := by
  rw [serialize] at h
  cases hid : near.typeIdentifier msg.type with
  | error exc =>
    rw [hid] at h
    cases h
  | ok id =>
    simp only [hid] at h
    refine ⟨id, rfl, ?_⟩
    cases htext : J.serialize false
      (envelope O id (((types.type msg.type).push O msg.object).getD O.newObject)) with
    | error what =>
      rw [htext] at h
      cases h
    | ok text =>
      rw [htext] at h
      exact congrArg Except.ok (Except.ok.inj h)

/-- A message survives from a registry to another one in which its identifier leads to its own constructor. -/
theorem exists_construct (hO : O.Lawful) (msg : Message types) {id : Str}
    (hid : near.typeIdentifier msg.type = .ok id) (hctor : far.ctors id = some msg.type) :
    ∃ json object, serialize O near msg = .ok json ∧
      construct O far json = .ok (⟨msg.type, object⟩, id) ∧
      (types.type msg.type).members.Agree msg.object object := by
  obtain ⟨json, hjson⟩ :=
    hO.serialize_ok false (envelope O id (((types.type msg.type).push O msg.object).getD O.newObject))
  obtain ⟨object, hpull, hagree⟩ := MessageType.pull_push hO msg.object O.newObject
  refine ⟨json, object, ?_, ?_, hagree⟩
  · simp only [serialize, hid, hjson]
    rfl
  · simp only [construct, hO.parse_serialize hjson, openEnvelope_envelope hO, hctor,
      newMessage, hpull]
    rfl

/-- A message that one registry has serialised is restored by any registry with the constructor of its type under its identifier. -/
theorem construct_of_serialize (hO : O.Lawful) {msg : Message types} {json : Str}
    (hjson : serialize O near msg = .ok json) (hunderstands : near.Understands far) :
    ∃ id object, near.typeIdentifier msg.type = .ok id ∧ far.ctors id = some msg.type ∧
      construct O far json = .ok (⟨msg.type, object⟩, id) ∧
      (types.type msg.type).members.Agree msg.object object := by
  obtain ⟨id, hid, -⟩ := serialize_eq_ok hjson
  have hctor := hunderstands msg.type id hid
  obtain ⟨json', object, hjson', hconstruct, hagree⟩ := exists_construct hO msg hid hctor
  obtain rfl : json' = json := Except.ok.inj (hjson'.symm.trans hjson)
  exact ⟨id, object, hid, hctor, hconstruct, hagree⟩

end MessageFactory

/-! ### The messages arrive -/

/-- A message of the same type whose members hold the same. -/
def Message.Same (msg received : Message types) : Prop :=
  ∃ object, received = ⟨msg.type, object⟩ ∧ (types.type msg.type).members.Agree msg.object object

/-- What may become of a message: a slot for its type is called with the same message, or its type has an identifier with no slot under it. -/
def Settles (far : Registry types) (msg : Message types) : Outcome types → Prop
  | .ok call => call.slot.type = msg.type ∧ msg.Same call.message
  | .error exc => ∃ id, far.ctors id = some msg.type ∧ exc = notConnectedToSlot id

/-- What is under an identifier belongs to the type whose constructor is there. -/
structure Filed (far : Registry types) (s : TypedChannel types) : Prop where
  slots : ∀ id slot, s.slots id = some (some slot) → far.ctors id = some slot.type
  registering : ∀ entry ∈ s.registering, far.ctors entry.1 = some entry.2.type
  empty : ∀ id, s.slots id = some none → ∃ slot, (id, slot) ∈ s.registering

namespace Filed

variable {far : Registry types} {s t : TypedChannel types}

theorem of_frame (h : Filed far s) (hframe : t.slots = s.slots ∧ t.registering = s.registering) :
    Filed far t := by
  obtain ⟨hslots, hregistering⟩ := hframe
  refine ⟨?_, ?_, ?_⟩
  · rw [hslots]
    exact h.slots
  · rw [hregistering]
    exact h.registering
  · rw [hslots, hregistering]
    exact h.empty

theorem registerSlot (h : Filed far s) (hconsistent : far.Consistent) (T : types.Name)
    (handler : Nat) : Filed far (s.registerSlot far T handler) := by
  rw [TypedChannel.registerSlot]
  split
  · exact h
  · next id hid =>
    have hctor := hconsistent T id (Registry.typeIdentifier_eq_ok.1 hid)
    refine ⟨fun id' slot hslot => ?_, fun entry hentry => ?_, fun id' hempty => ?_⟩
    · dsimp only at hslot
      by_cases heq : id' = id
      · rw [heq, Function.update_self, Option.some.injEq] at hslot
        rw [heq]
        refine h.slots id slot ?_
        cases hold : s.slots id with
        | none =>
          rw [hold] at hslot
          cases hslot
        | some entry =>
          rw [hold] at hslot
          exact congrArg some hslot
      · rw [Function.update_of_ne heq] at hslot
        exact h.slots id' slot hslot
    · obtain hold | rfl := List.mem_append.1 hentry |>.imp_right List.mem_singleton.1
      · exact h.registering entry hold
      · exact hctor
    · dsimp only at hempty ⊢
      by_cases heq : id' = id
      · exact ⟨⟨T, handler⟩, heq ▸ List.mem_append_right _ (List.mem_singleton_self _)⟩
      · rw [Function.update_of_ne heq] at hempty
        obtain ⟨slot, hslot⟩ := h.empty id' hempty
        exact ⟨slot, List.mem_append_left _ hslot⟩

theorem assignSlot (h : Filed far s) {i : Nat} (hassign : s.assignSlot i = some t) : Filed far t := by
  obtain ⟨⟨id, slot⟩, hentry, ht⟩ := Option.bind_eq_some_iff.1 hassign
  obtain rfl := Option.some.inj ht
  have hperm := Pool.perm_cons_eraseIdx hentry
  refine ⟨fun id' slot' hslot => ?_, fun entry hmem => ?_, fun id' hempty => ?_⟩
  · dsimp only at hslot
    by_cases heq : id' = id
    · rw [heq, Function.update_self, Option.some.injEq, Option.some.injEq] at hslot
      rw [heq, ← hslot]
      exact h.registering _ (List.mem_of_getElem? hentry)
    · rw [Function.update_of_ne heq] at hslot
      exact h.slots id' slot' hslot
  · exact h.registering entry (hperm.mem_iff.2 (List.mem_cons_of_mem _ hmem))
  · dsimp only at hempty ⊢
    by_cases heq : id' = id
    · rw [heq, Function.update_self] at hempty
      cases hempty
    · rw [Function.update_of_ne heq] at hempty
      obtain ⟨slot', hmem⟩ := h.empty id' hempty
      refine ⟨slot', (List.mem_cons.1 (hperm.mem_iff.1 hmem)).resolve_left fun hsame => heq ?_⟩
      exact congrArg Prod.fst hsame

/-- Outside of `registerSlot` there is no empty function. -/
theorem ne_empty (h : Filed far s) (hrest : s.registering = []) (id : Str) :
    s.slots id ≠ some none := by
  intro hempty
  obtain ⟨slot, hslot⟩ := h.empty id hempty
  rw [hrest] at hslot
  cases hslot

end Filed

structure Delivering (O : Objects J) (near far : Registry types) (s : TypedChannel types) : Prop where
  conveys : Conveys (MessageFactory.serialize O near) s.channel s.sent
  filed : Filed far s
  counted : s.outcomes.length + s.channel.undispatched.toNat = s.channel.received.length
  settled : List.Forall₂ (Settles far) (s.sent.take s.outcomes.length) s.outcomes

namespace Delivering

variable {O : Objects J} {near far : Registry types} {s t : TypedChannel types}

theorem init (excHandler : Bool) : Delivering O near far (.init types excHandler) :=
  ⟨.init true excHandler, ⟨nofun, nofun, nofun⟩, rfl, .nil⟩

theorem length_outcomes_le (h : Delivering O near far s) : s.outcomes.length ≤ s.sent.length := by
  have hsent := h.conveys.length_sent
  have hcounted := h.counted
  omega

/-- A step between two messages. -/
theorem transmit (h : Delivering O near far s) {a : Act (Message types)} (hlive : a ≠ .destroy)
    (hpc : ∀ outcome, a = .receive outcome → s.channel.receiver ≠ some .dispatch)
    (hstep : s.transmit O near a [] = some t) : Delivering O near far t := by
  obtain ⟨hchannel, hslots, hsent, houtcomes⟩ := TypedChannel.transmit_eq_some hstep
  rw [List.append_nil] at houtcomes
  have hlength := Channel.length_received h.conveys.undisturbed hlive hpc hchannel
  have hcounted := h.counted
  refine ⟨?_, h.filed.of_frame hslots, by rw [houtcomes]; omega, ?_⟩
  · rw [hsent]
    exact h.conveys.step hlive hchannel
  · rw [hsent, houtcomes, List.take_append_of_le_length h.length_outcomes_le]
    exact h.settled

/-- The step that settles the last message sent. -/
theorem settle (h : Delivering O near far s) (hpc : s.channel.receiver = some .dispatch)
    {before : List (Message types)} {msg : Message types} (hsent : s.sent = before ++ [msg])
    (hlength : before.length = s.outcomes.length) {throws : Except RecoverableException Unit}
    {outcome : Outcome types} (hsettles : Settles far msg outcome)
    (hstep : s.transmit O near (.receive throws) [outcome] = some t) : Delivering O near far t := by
  obtain ⟨hchannel, hslots, hsent', houtcomes⟩ := TypedChannel.transmit_eq_some hstep
  obtain ⟨hreceived, hundispatched⟩ := Channel.received_of_dispatch hpc hchannel
  have hcounted := h.counted
  have hthis : s.channel.undispatched = true := decide_eq_true hpc
  rw [hthis, Bool.toNat_true] at hcounted
  have hwrites : s.sent ++ s.channel.writes (MessageFactory.serialize O near) (.receive throws) =
      s.sent := List.append_nil _
  refine ⟨hsent' ▸ h.conveys.step nofun hchannel, h.filed.of_frame hslots, ?_, ?_⟩
  · rw [houtcomes, hreceived, hundispatched, List.length_append, List.length_singleton,
      Bool.toNat_false]
    exact hcounted
  · have hsettled := h.settled
    rw [hsent, List.take_left' hlength] at hsettled
    rw [hsent', hwrites, houtcomes, hsent,
      List.take_of_length_le
        (by simp only [List.length_append, hlength, le_refl, List.length_singleton])]
    exact List.rel_append hsettled (.cons hsettles .nil)

/-- The text the receive thread works on is restored to the last message sent. -/
theorem constructs (h : Delivering O near far s) (hO : O.Lawful) (hunderstands : near.Understands far)
    (hnul : ∀ msg json, MessageFactory.serialize O near msg = .ok json → 0 ∉ json)
    (hpc : s.channel.receiver = some .dispatch) :
    ∃ before msg received id, s.sent = before ++ [msg] ∧ before.length = s.outcomes.length ∧
      near.typeIdentifier msg.type = .ok id ∧ far.ctors id = some msg.type ∧
      MessageFactory.construct O far (s.channel.received.getLast?.getD []) = .ok (received, id) ∧
      msg.Same received := by
  have hcounted := h.counted
  have hthis : s.channel.undispatched = true := decide_eq_true hpc
  rw [hthis, Bool.toNat_true] at hcounted
  have hne : s.channel.received ≠ [] := List.ne_nil_of_length_pos (by omega)
  obtain ⟨before, msg, json, hsent, hpacket, hlast⟩ := h.conveys.last_of_dispatch hpc hne
  have hjson := (packet_eq_ok.1 hpacket).1
  obtain ⟨id, object, hid, hctor, hconstruct, hagree⟩ :=
    MessageFactory.construct_of_serialize hO hjson hunderstands
  refine ⟨before, msg, ⟨msg.type, object⟩, id, hsent, ?_, hid, hctor, ?_, object, rfl, hagree⟩
  · have hlength := h.conveys.length_sent
    rw [h.conveys.fresh_of_dispatch hpc, hsent, List.length_append, List.length_singleton,
      Bool.toNat_false] at hlength
    omega
  · rw [hlast, Option.getD_some, cstr_eq_self (hnul msg json hjson)]
    exact hconstruct

/-- The `try` block settles the last message sent: with an exception where no slot is filed under its identifier, else with the call of one. -/
theorem dispatches (h : Delivering O near far s) (hO : O.Lawful) (hunderstands : near.Understands far)
    (hnul : ∀ msg json, MessageFactory.serialize O near msg = .ok json → 0 ∉ json)
    (hpc : s.channel.receiver = some .dispatch) (hrest : s.registering = [])
    (throws : Except RecoverableException Unit) :
    ∃ before msg id outcome throws', s.sent = before ++ [msg] ∧ before.length = s.outcomes.length ∧
      s.dispatch O near far throws = s.transmit O near (.receive throws') [outcome] ∧
      Settles far msg outcome ∧
      near.typeIdentifier msg.type = .ok id ∧
      ((s.slots id).isSome = true → ∃ call, outcome = .ok call) := by
  obtain ⟨before, msg, received, id, hsent, hlength, hid, hctor, hconstruct, hsame⟩ :=
    h.constructs hO hunderstands hnul hpc
  have htype : received.type = msg.type := by
    obtain ⟨object, rfl, -⟩ := hsame
    rfl
  cases hslot : s.slots id with
  | none =>
    refine ⟨before, msg, id, .error (notConnectedToSlot id), .error (notConnectedToSlot id), hsent,
      hlength, ?_, ⟨id, hctor, rfl⟩, hid, ?_⟩
    · rw [TypedChannel.dispatch, hconstruct]
      simp only [hslot]
    · intro hsome
      rw [hslot] at hsome
      cases hsome
  | some entry =>
    obtain ⟨slot, rfl⟩ : ∃ slot, entry = some slot :=
      Option.ne_none_iff_exists'.1 fun hempty =>
        h.filed.ne_empty hrest id (hslot.trans (congrArg some hempty))
    have hslotType : slot.type = msg.type :=
      Option.some.inj ((h.filed.slots id slot hslot).symm.trans hctor)
    have hcast : slot.cast received = .ok received := by
      rw [Slot.cast, htype, hslotType, types.derives_self]
      rfl
    refine ⟨before, msg, id, .ok ⟨slot, received, id⟩, throws, hsent, hlength, ?_,
      ⟨hslotType, hsame⟩, hid, fun _ => ⟨_, rfl⟩⟩
    rw [TypedChannel.dispatch, hconstruct]
    simp only [hslot, hcast]

/-- A step of `registerSlot` adds nothing to the outcomes. -/
theorem register (h : Delivering O near far s)
    (hframe : t.channel = s.channel ∧ t.sent = s.sent ∧ t.outcomes = s.outcomes)
    (hfiled : Filed far t) {C : Prop} :
    Delivering O near far t ∧ ∃ outcomes, t.outcomes = s.outcomes ++ outcomes ∧
      (C → ∀ outcome ∈ outcomes, ∃ call, outcome = .ok call) := by
  obtain ⟨hchannel, hsent, houtcomes⟩ := hframe
  refine ⟨⟨?_, hfiled, ?_, ?_⟩, [], houtcomes.trans (List.append_nil _).symm, fun _ => nofun⟩
  · rw [hchannel, hsent]
    exact h.conveys
  · rw [hchannel, houtcomes]
    exact h.counted
  · rw [hsent, houtcomes]
    exact h.settled

/-- What a step adds to the outcomes. -/
theorem step (h : Delivering O near far s) (hO : O.Lawful) (hunderstands : near.Understands far)
    (hconsistent : far.Consistent)
    (hnul : ∀ msg json, MessageFactory.serialize O near msg = .ok json → 0 ∉ json)
    {a : TypedAct types} (hstep : s.step O near far a = some t) :
    Delivering O near far t ∧ ∃ outcomes, t.outcomes = s.outcomes ++ outcomes ∧
      (s.connected near a = true → ∀ outcome ∈ outcomes, ∃ call, outcome = .ok call) := by
  obtain ⟨hdefined, hstep⟩ := TypedChannel.step_eq_some.1 hstep
  have hnone : ∀ {a'}, s.transmit O near a' [] = some t →
      ∃ outcomes, t.outcomes = s.outcomes ++ outcomes ∧
      (s.connected near a = true → ∀ outcome ∈ outcomes, ∃ call, outcome = .ok call) :=
    fun hstep => ⟨[], (TypedChannel.transmit_eq_some hstep).2.2.2, fun _ => nofun⟩
  cases a with
  | call msg => exact ⟨h.transmit (a := .call msg) nofun nofun hstep, hnone hstep⟩
  | send i => exact ⟨h.transmit (a := .send i) nofun nofun hstep, hnone hstep⟩
  | registerSlot T handler =>
    obtain rfl := Option.some.inj hstep
    have hframe : (s.registerSlot far T handler).channel = s.channel ∧
        (s.registerSlot far T handler).sent = s.sent ∧
        (s.registerSlot far T handler).outcomes = s.outcomes := by
      rw [TypedChannel.registerSlot]
      split <;> exact ⟨rfl, rfl, rfl⟩
    exact h.register hframe (h.filed.registerSlot hconsistent T handler)
  | assignSlot i =>
    have hframe : t.channel = s.channel ∧ t.sent = s.sent ∧ t.outcomes = s.outcomes := by
      obtain ⟨entry, -, ht⟩ := Option.bind_eq_some_iff.1 hstep
      obtain rfl := Option.some.inj ht
      exact ⟨rfl, rfl, rfl⟩
    exact h.register hframe (h.filed.assignSlot hstep)
  | receive throws =>
    rw [TypedChannel.perform] at hstep
    split at hstep
    · next hpc =>
      obtain ⟨before, msg, id, outcome, throws', hsent, hlength, hdispatch, hsettles, hid, hok⟩ :=
        h.dispatches hO hunderstands hnul hpc (hdefined hpc) throws
      rw [hdispatch] at hstep
      refine ⟨h.settle hpc hsent hlength hsettles hstep, [outcome],
        (TypedChannel.transmit_eq_some hstep).2.2.2, ?_⟩
      intro hconnected outcome' hmem
      rw [List.mem_singleton.1 hmem]
      refine hok ?_
      simpa only [TypedChannel.connected, hsent, List.getLast?_concat, Option.all_some,
        hid] using hconnected
    · next hpc => exact ⟨h.transmit (a := .receive (.ok ())) nofun (fun _ _ => hpc) hstep,
        hnone hstep⟩

end Delivering

/-- What the receiving process has made of the messages written: they are settled one after the other, with at most one still to come, and outside of `registerSlot` nothing the receive thread works on ends the process. -/
structure SettlesInOrder (O : Objects J) (near far : Registry types)
    (s : TypedChannel types) : Prop where
  inOrder : ∃ settled pending, s.sent = settled ++ pending ∧ pending.length ≤ 1 ∧
    List.Forall₂ (Settles far) settled s.outcomes
  proceeds : s.channel.receiver = some .dispatch → s.registering = [] →
    ∀ throws, ∃ t, s.step O near far (.receive throws) = some t

variable {O : Objects J} {near far : Registry types}

theorem Delivering.settlesInOrder {s : TypedChannel types} (h : Delivering O near far s)
    (hO : O.Lawful) (hunderstands : near.Understands far)
    (hnul : ∀ msg json, MessageFactory.serialize O near msg = .ok json → 0 ∉ json) :
    SettlesInOrder O near far s := by
  refine ⟨⟨s.sent.take s.outcomes.length, s.sent.drop s.outcomes.length,
    (List.take_append_drop _ _).symm, ?_, h.settled⟩, ?_⟩
  · have hsent := h.conveys.length_sent
    have hcounted := h.counted
    have hfresh : s.channel.fresh.toNat + s.channel.undispatched.toNat ≤ 1 := by
      by_cases hpc : s.channel.receiver = some .dispatch
      · rw [h.conveys.fresh_of_dispatch hpc, Bool.toNat_false, Nat.zero_add]
        exact Bool.toNat_le _
      · rw [Channel.undispatched, decide_eq_false hpc]
        exact Bool.toNat_le _
    rw [List.length_drop]
    omega
  · intro hpc hrest throws
    obtain ⟨before, msg, id, outcome, throws', -, -, hdispatch, -⟩ :=
      h.dispatches hO hunderstands hnul hpc hrest throws
    have hdefined : s.Defined (.receive throws) := fun _ => hrest
    rw [TypedChannel.step, if_pos hdefined, TypedChannel.perform, if_pos hpc, hdispatch,
      TypedChannel.transmit, Channel.step, Channel.receiveStep, hpc]
    exact ⟨_, rfl⟩

/-- **From `send` to a slot.** Between two processes that mean the same types by their identifiers, under any interleaving of senders, of `registerSlot` and of the receive thread that leaves `m_slots` to one thread, and whatever the slots throw: the messages written are settled in this order, each by the call of a slot for its type with the same message, or by the exception that there is none. There is none of these when each message finds its slot registered. -/
theorem settlesInOrder_run (hO : O.Lawful) (hunderstands : near.Understands far)
    (hconsistent : far.Consistent)
    (hnul : ∀ msg json, MessageFactory.serialize O near msg = .ok json → 0 ∉ json) {excHandler : Bool}
    {acts : List (TypedAct types)} {s : TypedChannel types}
    (hrun : run (TypedChannel.step O near far) (.init types excHandler) acts = some s) :
    SettlesInOrder O near far s ∧
      (Along (TypedChannel.step O near far) (fun s a => s.connected near a = true)
        (.init types excHandler) acts →
        ∀ outcome ∈ s.outcomes, ∃ call, outcome = .ok call) := by
  have h : Delivering O near far s := invariant_run (Delivering O near far)
    (fun _ _ _ h hstep => (h.step hO hunderstands hconsistent hnul hstep).1) (.init excHandler) hrun
  refine ⟨h.settlesInOrder hO hunderstands hnul, fun hconnected => ?_⟩
  refine (invariant_along (fun s => Delivering O near far s ∧
    ∀ outcome ∈ s.outcomes, ∃ call, outcome = .ok call)
    (fun s a => s.connected near a = true) ?_ ⟨.init excHandler, nofun⟩ hconnected hrun).2
  rintro s a t ⟨h, hok⟩ hconnected hstep
  obtain ⟨ht, outcomes, houtcomes, hnew⟩ := h.step hO hunderstands hconsistent hnul hstep
  refine ⟨ht, fun outcome hmem => ?_⟩
  rw [houtcomes, List.mem_append] at hmem
  exact hmem.elim (hok outcome) (hnew hconnected outcome)

/-- The sending process knows reports only, under the identifier they have last in the other. -/
def senderRegistry (J : Json) : Registry (MessageFactory.sampleTypes J) :=
  .after [(MessageFactory.SampleName.report, ascii "b")]

theorem senderRegistry_understands (J : Json) :
    (senderRegistry J).Understands (MessageFactory.reportRegistry J) := by
  intro T id hid
  rw [Registry.typeIdentifier_eq_ok] at hid
  cases T with
  | ping => cases hid
  | report =>
    obtain rfl := Option.some.inj hid
    rfl

/-- A report comes in before there is a slot for it, and another one afterwards, on which the slot throws. -/
def lateSlot (J : Json) : List (TypedAct (MessageFactory.sampleTypes J)) :=
  .call (MessageFactory.sampleReport J) :: .call (MessageFactory.sampleReport J) ::
    List.replicate 5 (.send 0) ++
    List.replicate 7 (.receive (.ok ())) ++
    .registerSlot MessageFactory.SampleName.report 7 :: .assignSlot 0 ::
    List.replicate 5 (.send 1) ++
    List.replicate 7 (.receive (.error (.typeException [])))

theorem settlesInOrder_run_lateSlot :
    ∃ s, run (TypedChannel.step (Tree.objects MessageFactory.reportTree MessageFactory.reportText)
        (senderRegistry _) (MessageFactory.reportRegistry _)) (.init _ true) (lateSlot _) = some s ∧
      (s.sent.length = 2 ∧ s.outcomes.map Except.toBool = [false, true]) ∧
      SettlesInOrder (Tree.objects MessageFactory.reportTree MessageFactory.reportText)
        (senderRegistry _) (MessageFactory.reportRegistry _) s := by
  obtain ⟨s, hrun, hcheck⟩ := exists_of_any_run (TypedChannel.step
      (Tree.objects MessageFactory.reportTree MessageFactory.reportText) (senderRegistry _)
      (MessageFactory.reportRegistry _)) (.init _ true) (lateSlot _)
    (fun s => s.sent.length == 2 && s.outcomes.map Except.toBool == [false, true]) (by decide +kernel)
  refine ⟨s, hrun, by simpa using hcheck,
    (settlesInOrder_run (Tree.lawful_objects _ _) (senderRegistry_understands _)
    (Registry.consistent_after (MessageFactory.sampleTypes_names _) _)
      (fun msg json hjson => ?_) hrun).1⟩
  obtain ⟨id, -, htext⟩ := MessageFactory.serialize_eq_ok hjson
  rw [← Except.ok.inj htext]
  exact Tree.not_mem_textOf (by decide) (by decide) _

end Libesf.Ipc

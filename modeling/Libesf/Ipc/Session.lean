import Libesf.Ipc.ActionThreads
import Libesf.Ipc.Conveyance
import Libesf.Ipc.Correlation

/-!
# The threads refine the action protocol

`ActionProtocol` sends a request in one step and has it delivered in another, from a bag. `ActionThreads` has two channels in their place, threads that give up their number once their request is sent, and response handlers that call `async` themselves. Whatever these threads do is something the protocol does, as long as `generateId` does not repeat itself: a request is in the bag while it is in a `send`, in the shared buffer, or with a receive thread that has not looked at it yet.

What a session shows of itself is a list of events. The protocol keeps the same record.
-/

namespace Libesf.Ipc

open Transition

variable {A Params Result : Type}

/-! ### Events -/

/-- `asked` is a request that is handed to `send`, `unserved` one of a type the server has not registered, `handled` the end of a handler of the server, `invoked` the call of a response handler. -/
inductive Event (A Params Result : Type) where
  | generated (id : Str)
  | asked (req : Request A Params)
  | unserved (req : Request A Params)
  | handled (req : Request A Params) (result : ResponseOrError Result)
  | invoked (action : A) (id : Str) (result : ResponseOrError Result)

namespace Event

def generatedId? : Event A Params Result → Option Str
  | generated id => some id
  | _ => none

def asked? : Event A Params Result → Option (Request A Params)
  | asked req => some req
  | _ => none

def unserved? : Event A Params Result → Option (Request A Params)
  | unserved req => some req
  | _ => none

def handled? : Event A Params Result → Option (Request A Params × ResponseOrError Result)
  | handled req result => some (req, result)
  | _ => none

def invoked? : Event A Params Result → Option (A × Str × ResponseOrError Result)
  | invoked action id result => some (action, id, result)
  | _ => none

end Event

/-- What a step of `async` shows. -/
def CallThread.emits (call : CallThread A Params) (id : Str) : List (Event A Params Result) :=
  match call.pc with
  | .generateId => [.generated id]
  | .send id => [.asked ⟨call.action, id, call.params⟩]
  | _ => []

def ActionThreads.emits [DecidableEq A] (codec : Codec A Params Result)
    (s : ActionThreads A Params Result) :
    ThreadsAct A Params Result → List (Event A Params Result)
  | .call i id =>
    match s.calls[i]? with
    | some call => call.emits id
    | none => []
  | .serverReceive =>
    if s.up.receiver = some .dispatch then
      match codec.constructRequest (s.up.received.getLast?.getD []) with
      | .ok req => if s.served req.action then [] else [.unserved req]
      | .error _ => []
    else []
  | .serverHandlerReturns i result =>
    match s.workers[i]? with
    | some ⟨req, .handling⟩ => [.handled req result]
    | _ => []
  | .handle =>
    match s.slotPc with
    | .find resp =>
      if s.activeHandlers resp.key then [.invoked resp.action resp.data.id resp.data.result] else []
    | _ => []
  | .nestedCall id =>
    match s.slotPc with
    | .nested _ call => call.emits id
    | _ => []
  | _ => []

/-! ### Calls and their numbers -/

/-- Where the protocol has a call that is at `pc`. -/
def CallPc.At : CallPc → AsyncPc → Prop
  | .lock, pc => pc = .lock
  | .generateId, pc => pc = .generateId
  | .registerSlot id, pc => pc = .registerSlot id
  | .insertHandler id, pc => pc = .insertHandler id
  | .send id, pc => pc = .send id
  | .sending _, pc | .unlock, pc => ∃ id, pc = .unlock id
  | .finished, pc => ∃ id, pc = .returned id

structure CallThread.Is (call : CallThread A Params) (call' : Call A Params) : Prop where
  action : call'.action = call.action
  params : call'.params = call.params
  pc : call.pc.At call'.pc

/-- Each of the threads that are in `async` is one of the calls. -/
structure Represents (callers : Option Nat → Option (CallThread A Params))
    (calls : List (Call A Params)) (number : Option Nat → Nat) : Prop where
  calls : ∀ c call, callers c = some call → ∃ call', calls[number c]? = some call' ∧ call.Is call'
  distinct : ∀ c c' call call', callers c = some call → callers c' = some call' →
    number c = number c' → c = c'

namespace Represents

variable {callers : Option Nat → Option (CallThread A Params)} {calls : List (Call A Params)}
    {number : Option Nat → Nat}

theorem lt_length (h : Represents callers calls number) {c : Option Nat}
    {call : CallThread A Params} (hcall : callers c = some call) : number c < calls.length := by
  obtain ⟨call', hcall', -⟩ := h.calls c call hcall
  exact (List.getElem?_eq_some_iff.1 hcall').1

theorem add (h : Represents callers calls number) (c : Option Nat) (action : A) (params : Params) :
    Represents (Function.update callers c (some ⟨action, params, .lock⟩))
      (calls ++ [⟨action, params, .lock⟩]) (Function.update number c calls.length) := by
  have hother : ∀ {c' call}, c' ≠ c →
      Function.update callers c (some ⟨action, params, .lock⟩) c' = some call →
      callers c' = some call := by
    intro c' call hne hcall
    rwa [Function.update_of_ne hne] at hcall
  refine ⟨fun c' call hcall => ?_, fun c₁ c₂ call₁ call₂ h₁ h₂ heq => ?_⟩
  · by_cases hc : c' = c
    · rw [hc, Function.update_self] at hcall ⊢
      obtain rfl := Option.some.inj hcall
      exact ⟨⟨action, params, .lock⟩, List.getElem?_concat_length, rfl, rfl, rfl⟩
    · obtain ⟨call', hcall', his⟩ := h.calls c' call (hother hc hcall)
      rw [Function.update_of_ne hc, List.getElem?_append_left (h.lt_length (hother hc hcall))]
      exact ⟨call', hcall', his⟩
  · by_cases hc₁ : c₁ = c <;> by_cases hc₂ : c₂ = c
    · rw [hc₁, hc₂]
    · rw [hc₁, Function.update_self, Function.update_of_ne hc₂] at heq
      exact absurd heq.symm (h.lt_length (hother hc₂ h₂)).ne
    · rw [hc₂, Function.update_self, Function.update_of_ne hc₁] at heq
      exact absurd heq (h.lt_length (hother hc₁ h₁)).ne
    · rw [Function.update_of_ne hc₁, Function.update_of_ne hc₂] at heq
      exact h.distinct c₁ c₂ call₁ call₂ (hother hc₁ h₁) (hother hc₂ h₂) heq

theorem goesOn (h : Represents callers calls number) {c : Option Nat}
    {call call' : CallThread A Params} (hcall : callers c = some call) {x : Call A Params}
    (his : call'.Is x) :
    Represents (Function.update callers c (some call')) (calls.set (number c) x) number := by
  have hold : ∀ {c' call''}, Function.update callers c (some call') c' = some call'' →
      ∃ call₀, callers c' = some call₀ := by
    intro c' call'' hcall'
    by_cases hc : c' = c
    · exact ⟨call, hc ▸ hcall⟩
    · rw [Function.update_of_ne hc] at hcall'
      exact ⟨call'', hcall'⟩
  refine ⟨fun c' call'' hcall' => ?_, fun c₁ c₂ call₁ call₂ h₁ h₂ heq => ?_⟩
  · by_cases hc : c' = c
    · rw [hc, Function.update_self] at hcall'
      obtain rfl := Option.some.inj hcall'
      rw [hc]
      exact ⟨x, List.getElem?_set_self (h.lt_length hcall), his⟩
    · rw [Function.update_of_ne hc] at hcall'
      have hne : number c ≠ number c' := fun heq => hc (h.distinct c c' _ _ hcall hcall' heq).symm
      rw [List.getElem?_set_ne hne]
      exact h.calls c' call'' hcall'
  · obtain ⟨call₃, h₃⟩ := hold h₁
    obtain ⟨call₄, h₄⟩ := hold h₂
    exact h.distinct c₁ c₂ call₃ call₄ h₃ h₄ heq

theorem stays (h : Represents callers calls number) {c : Option Nat}
    {call call' : CallThread A Params} (hcall : callers c = some call)
    (hsame : ∀ x, call.Is x → call'.Is x) :
    Represents (Function.update callers c (some call')) calls number := by
  obtain ⟨x, hx, his⟩ := h.calls c call hcall
  have hon := h.goesOn hcall (hsame x his)
  obtain ⟨hlt, rfl⟩ := List.getElem?_eq_some_iff.1 hx
  rwa [List.set_getElem_self hlt] at hon

theorem leaves (h : Represents callers calls number) (c : Option Nat) :
    Represents (Function.update callers c none) calls number := by
  have hold : ∀ {c' call}, Function.update callers c none c' = some call →
      callers c' = some call := by
    intro c' call hcall
    by_cases hc : c' = c
    · rw [hc, Function.update_self] at hcall
      cases hcall
    · rwa [Function.update_of_ne hc] at hcall
  exact ⟨fun c' call hcall => h.calls c' call (hold hcall),
    fun c₁ c₂ call₁ call₂ h₁ h₂ heq => h.distinct c₁ c₂ call₁ call₂ (hold h₁) (hold h₂) heq⟩

end Represents

/-! ### The refinement -/

/-- The converse of `move_of_step`. -/
theorem Actions.step_of_move [DecidableEq A] [Inhabited Result] {s t : Actions A Params Result}
    {a : ActionsAct A Params Result} (h : Move s a t) : s.step a = some t := by
  cases h with
  | async action params | registerAction action => rfl
  | callLocks i newId call hcall hpc hfree => simp [step, callStep, hcall, hpc, hfree]
  | callGeneratesId i newId call hcall hpc hfresh =>
    have hguard : ∀ other ∈ s.calls, ¬ other.pc.id = some newId := hfresh
    simp only [step, callStep, hcall, hpc, Option.bind_eq_bind, Option.bind_some]
    rw [guard, if_pos hguard]
    rfl
  | callRegistersSlot i newId call id hcall hpc | callInsertsHandler i newId call id hcall hpc
  | callSends i newId call id hcall hpc | callUnlocks i newId call id hcall hpc =>
    simp [step, callStep, hcall, hpc]
  | requestServed i req hreq hserved => simp [step, hreq, hserved]
  | requestUnserved i req hreq hserved => simp [step, hreq, hserved]
  | handlerReturns i result req hw => simp [step, hw]
  | respond i req result hw => simp [step, hw]
  | responseRouted i resp hresp hpc hslot => simp [step, hresp, hpc, hslot]
  | responseUnrouted i resp hresp hpc hslot => simp [step, hresp, hpc, hslot]
  | handlerLocks resp hpc hfree => simp [step, handleStep, hpc, hfree]
  | handlerFinds resp call hpc hfound => simp [step, handleStep, hpc, hfound]
  | handlerThrows resp hpc hmissing => simp [step, handleStep, hpc, hmissing]
  | handlerInvokes resp call hpc | handlerErases resp hpc | handlerUnlocks action hpc =>
    simp [step, handleStep, hpc]

/-- The request of a call that has sent it. -/
def Call.asked? (call : Call A Params) : Option (Request A Params) :=
  call.pc.sentId.map fun id => ⟨call.action, id, call.params⟩

/-- A thread of the server that has not passed its response to `send`. -/
def ServerThread.worker? (w : ServerThread A Params Result) : Option (Worker A Params Result) :=
  match w.pc with
  | .handling => some ⟨w.request, none⟩
  | .send result => some ⟨w.request, some result⟩
  | .sending _ => none

/-- A response handler is called at once when it is found. -/
def SlotPc.handlerPc : SlotPc A Params Result → HandlerPc A Result
  | .idle => .idle
  | .lock resp => .lock resp
  | .find resp => .find resp
  | .running resp | .nested resp _ | .erase resp => .erase resp
  | .unlock resp => .unlock resp.action

def SlotPc.isIdle : SlotPc A Params Result → Bool
  | .idle => true
  | _ => false

def SlotPc.caller? : SlotPc A Params Result → Option (CallThread A Params)
  | .nested _ call => some call
  | _ => none

/-- The threads in `async`: those of `calls`, and the client's receive thread. -/
def ActionThreads.caller? (s : ActionThreads A Params Result) :
    Option Nat → Option (CallThread A Params)
  | some i => s.calls[i]?
  | none => s.slotPc.caller?

theorem ActionThreads.caller?_eq {s t : ActionThreads A Params Result} (hcalls : t.calls = s.calls)
    (hslot : t.slotPc.caller? = s.slotPc.caller?) : t.caller? = s.caller? := by
  funext c
  cases c with
  | some i => rw [caller?, caller?, hcalls]
  | none => exact hslot

theorem ActionThreads.caller?_append {s t : ActionThreads A Params Result}
    {call : CallThread A Params} (hcalls : t.calls = s.calls ++ [call])
    (hslot : t.slotPc = s.slotPc) :
    t.caller? = Function.update s.caller? (some s.calls.length) (some call) := by
  funext c
  cases c with
  | none =>
    rw [Function.update_of_ne (Option.some_ne_none _).symm, caller?, caller?, hslot]
  | some i =>
    rw [caller?, hcalls]
    by_cases hi : i = s.calls.length
    · rw [hi, Function.update_self, List.getElem?_concat_length]
    · rw [Function.update_of_ne (fun heq => hi (Option.some.inj heq)), caller?]
      obtain hlt | hge := Nat.lt_or_ge i s.calls.length
      · exact List.getElem?_append_left hlt
      · rw [List.getElem?_eq_none hge, List.getElem?_eq_none]
        rw [List.length_append, List.length_singleton]
        omega

theorem ActionThreads.caller?_set {s t : ActionThreads A Params Result} {i : Nat}
    {call call' : CallThread A Params} (hcall : s.calls[i]? = some call)
    (hcalls : t.calls = s.calls.set i call') (hslot : t.slotPc = s.slotPc) :
    t.caller? = Function.update s.caller? (some i) (some call') := by
  funext c
  cases c with
  | none =>
    rw [Function.update_of_ne (Option.some_ne_none _).symm, caller?, caller?, hslot]
  | some j =>
    rw [caller?, hcalls]
    by_cases hj : j = i
    · rw [hj, Function.update_self, List.getElem?_set_self (List.getElem?_eq_some_iff.1 hcall).1]
    · rw [Function.update_of_ne (fun heq => hj (Option.some.inj heq)), caller?,
        List.getElem?_set_ne (Ne.symm hj)]

theorem ActionThreads.caller?_slot {s t : ActionThreads A Params Result}
    (hcalls : t.calls = s.calls) : t.caller? = Function.update s.caller? none t.slotPc.caller? := by
  funext c
  cases c with
  | none => rw [Function.update_self, caller?]
  | some i => rw [Function.update_of_ne (Option.some_ne_none _), caller?, caller?, hcalls]

def Invocation.seen (inv : Invocation A Result) : A × Str × ResponseOrError Result :=
  (inv.action, inv.id, inv.result)

variable [DecidableEq A] [Inhabited Result]

/-- The threads, with `callers` in `async`, stand where the protocol stands, and it has the record of what was seen. -/
structure Refines (codec : Codec A Params Result) (s : ActionThreads A Params Result)
    (callers : Option Nat → Option (CallThread A Params)) (seen : List (Event A Params Result))
    (u : Actions A Params Result) : Prop where
  wf : u.Wf
  callers : ∃ number, Represents callers u.calls number
  locked : u.locked = s.locked
  slots : u.slots = s.slots
  served : u.served = s.served
  activeHandlers : ∀ k, u.activeHandlers k ≠ none → s.activeHandlers k = true
  requests : InTransit codec.serializeRequest s.up s.up.undispatched u.requests
  workers : u.workers.Perm (s.workers.filterMap ServerThread.worker?)
  responses : InTransit codec.serializeResponse s.down
    (s.down.undispatched && s.slotPc.isIdle) u.responses
  handlerPc : u.handlerPc = s.slotPc.handlerPc
  dispatching : s.slotPc ≠ .idle → s.down.receiver = some .dispatch
  generated : ∀ call ∈ u.calls, ∀ id, call.pc.id = some id → id ∈ seen.filterMap Event.generatedId?
  asked : (u.calls.filterMap Call.asked?).Perm (seen.filterMap Event.asked?)
  handled : u.handled = seen.filterMap Event.handled?
  invoked : u.invoked.map Invocation.seen = seen.filterMap Event.invoked?
  unserved : u.unserved = seen.filterMap Event.unserved?

/-- The text of a message stands for this message at the other end. -/
structure Codec.Restores (codec : Codec A Params Result) : Prop where
  request : ∀ req json, packet codec.serializeRequest req = .ok json →
    codec.constructRequest (cstr json) = .ok req
  response : ∀ resp json, packet codec.serializeResponse resp = .ok json →
    codec.constructResponse (cstr json) = .ok resp

namespace Refines

variable {codec : Codec A Params Result} {s t : ActionThreads A Params Result}
    {callers : Option Nat → Option (CallThread A Params)}
  {seen : List (Event A Params Result)} {u : Actions A Params Result}

theorem init (serverExcHandler clientExcHandler : Bool) :
    Refines codec (.init A Params Result serverExcHandler clientExcHandler) (fun _ => none) []
      (.init A Params Result) where
  wf := Actions.wf_init
  callers := ⟨fun _ => 0, nofun, nofun⟩
  locked := rfl
  slots := rfl
  served := rfl
  activeHandlers _ hk := absurd rfl hk
  requests := .init true serverExcHandler
  workers := .refl _
  responses := .init true clientExcHandler
  handlerPc := rfl
  dispatching hslot := absurd rfl hslot
  generated := nofun
  asked := .refl _
  handled := rfl
  invoked := rfl
  unserved := rfl

omit [Inhabited Result] [DecidableEq A] in
theorem generated_set {calls : List (Call A Params)} {ids : List Str}
    (h : ∀ call ∈ calls, ∀ id, call.pc.id = some id → id ∈ ids) {n : Nat} {y : Call A Params}
    (hy : ∀ id, y.pc.id = some id → id ∈ ids) :
    ∀ call ∈ calls.set n y, ∀ id, call.pc.id = some id → id ∈ ids := by
  intro call hmem
  obtain hold | rfl := List.mem_or_eq_of_mem_set hmem
  · exact h call hold
  · exact hy

/-- A step of a call that shows nothing. -/
theorem callSteps (h : Refines codec s callers seen u) {number : Option Nat → Nat}
    (hnumber : Represents callers u.calls number) {c : Option Nat}
    {call call' : CallThread A Params} (hcall : callers c = some call) {x : Call A Params}
    (hx : u.calls[number c]? = some x) (pc : AsyncPc) (his : call'.Is { x with pc := pc })
    (hid : pc.id = x.pc.id) (hsent : pc.sentId = x.pc.sentId) {newId : Str}
    {v : Actions A Params Result} (hmove : Actions.Move u (.call (number c) newId) v)
    (hv : v = { u with locked := t.locked, slots := t.slots, activeHandlers := v.activeHandlers,
                       calls := u.calls.set (number c) { x with pc := pc } })
    (ht : t = { s with locked := t.locked, slots := t.slots, activeHandlers := t.activeHandlers })
    (hactive : ∀ k, v.activeHandlers k ≠ none → t.activeHandlers k = true) :
    ∃ v, Reaches Actions.step u v ∧
    Refines codec t (Function.update callers c (some call')) seen v := by
  have hstep := Actions.step_of_move hmove
  refine ⟨v, .single hstep, ?_⟩
  have hwf := Actions.wf_step h.wf hstep
  rw [hv] at hwf ⊢
  rw [ht]
  refine ⟨hwf, ⟨number, hnumber.goesOn hcall his⟩, rfl, rfl, h.served, hactive,
    h.requests, h.workers, h.responses, h.handlerPc, h.dispatching, ?_, ?_, h.handled,
    h.invoked, h.unserved⟩
  · refine generated_set h.generated fun id hpc => h.generated x (List.mem_of_getElem? hx) id ?_
    rw [← hid]
    exact hpc
  · have hset := Pool.filterMap_set_perm Call.asked? hx { x with pc := pc }
    have hsame : Call.asked? { x with pc := pc } = x.asked? := by rw [Call.asked?, Call.asked?, hsent]
    rw [hsame] at hset
    exact ((List.perm_append_left_iff _).1 hset).trans h.asked

/-- A call gets to a place that is the same to the protocol. -/
theorem callStays (h : Refines codec s callers seen u) {c : Option Nat}
    {call call' : CallThread A Params} (hcall : callers c = some call)
    (hsame : ∀ x, call.Is x → call'.Is x) :
    Refines codec s (Function.update callers c (some call')) seen u := by
  obtain ⟨number, hnumber⟩ := h.callers
  exact ⟨h.wf, ⟨number, hnumber.stays hcall hsame⟩, h.locked, h.slots, h.served, h.activeHandlers,
    h.requests, h.workers, h.responses, h.handlerPc, h.dispatching, h.generated, h.asked, h.handled,
    h.invoked, h.unserved⟩

/-- A step of `async` by any thread. -/
theorem callStep (h : Refines codec s callers seen u) {c : Option Nat}
    {call call' : CallThread A Params} {id : Str} (hcall : callers c = some call)
    (hfresh : ((seen ++ call.emits id).filterMap Event.generatedId?).Nodup)
    (hstep : s.callStep codec call id = some (t, call')) :
    ∃ v, Reaches Actions.step u v ∧
      Refines codec t (Function.update callers c (some call')) (seen ++ call.emits id) v := by
  obtain ⟨number, hnumber⟩ := h.callers
  obtain ⟨x, hx, his⟩ := hnumber.calls c call hcall
  have haction := his.action
  have hat := his.pc
  unfold ActionThreads.callStep at hstep
  cases hpc : call.pc with
  | lock =>
    rw [hpc] at hat
    simp only [CallThread.emits, hpc, List.append_nil] at hstep ⊢
    split at hstep
    · cases hstep
    · next hfree =>
      obtain ⟨rfl, rfl⟩ := Prod.mk.inj (Option.some.inj hstep)
      have hlocked : u.locked x.action = false := by
        rw [h.locked, haction]
        exact Bool.eq_false_iff.2 hfree
      refine h.callSteps hnumber hcall hx .generateId ⟨haction, his.params, rfl⟩ (by rw [hat]; rfl)
        (by rw [hat]; rfl)
        (.callLocks (number c) id x hx hat hlocked) ?_ rfl h.activeHandlers
      rw [h.locked, haction, h.slots]
  | generateId =>
    rw [hpc] at hat
    simp only [CallThread.emits, hpc] at hstep hfresh ⊢
    obtain ⟨rfl, rfl⟩ := Prod.mk.inj (Option.some.inj hstep)
    rw [List.filterMap_append, List.nodup_append] at hfresh
    have hnew : ∀ other ∈ u.calls, other.pc.id ≠ some id := by
      intro other hother hid
      exact hfresh.2.2 id (h.generated other hother id hid) id (List.mem_singleton_self id) rfl
    have hstep' := Actions.step_of_move (.callGeneratesId (number c) id x hx hat hnew)
    refine ⟨_, .single hstep', Actions.wf_step h.wf hstep',
      ⟨number, hnumber.goesOn hcall ⟨haction, his.params, rfl⟩⟩, h.locked, h.slots, h.served,
      h.activeHandlers, h.requests, h.workers, h.responses, h.handlerPc, h.dispatching, ?_,
      ?_, ?_, ?_, ?_⟩
    · rw [Pool.filterMap_append_some Event.generatedId? rfl]
      refine generated_set (fun call hmem id' hid =>
        List.mem_append_left _ (h.generated call hmem id' hid)) fun id' hid => ?_
      obtain rfl := Option.some.inj hid
      exact List.mem_append_right _ (List.mem_singleton_self _)
    · have hset := Pool.filterMap_set_perm Call.asked? hx { x with pc := .registerSlot id }
      have hsame : Call.asked? { x with pc := .registerSlot id } = x.asked? := by
        rw [Call.asked?, Call.asked?, hat]; rfl
      rw [hsame] at hset
      rw [Pool.filterMap_append_none Event.asked? rfl]
      exact ((List.perm_append_left_iff _).1 hset).trans h.asked
    · rw [Pool.filterMap_append_none Event.handled? rfl]
      exact h.handled
    · rw [Pool.filterMap_append_none Event.invoked? rfl]
      exact h.invoked
    · rw [Pool.filterMap_append_none Event.unserved? rfl]
      exact h.unserved
  | registerSlot newId =>
    rw [hpc] at hat
    simp only [CallThread.emits, hpc, List.append_nil] at hstep ⊢
    obtain ⟨rfl, rfl⟩ := Prod.mk.inj (Option.some.inj hstep)
    refine h.callSteps hnumber hcall hx (.insertHandler newId) ⟨haction, his.params, rfl⟩
      (by rw [hat]; rfl)
      (by rw [hat]; rfl) (.callRegistersSlot (number c) id x newId hx hat) ?_ rfl h.activeHandlers
    rw [h.locked, haction, h.slots]
  | insertHandler newId =>
    rw [hpc] at hat
    simp only [CallThread.emits, hpc, List.append_nil] at hstep ⊢
    obtain ⟨rfl, rfl⟩ := Prod.mk.inj (Option.some.inj hstep)
    refine h.callSteps hnumber hcall hx (.send newId) ⟨haction, his.params, rfl⟩ (by rw [hat]; rfl)
      (by rw [hat]; rfl) (.callInsertsHandler (number c) id x newId hx hat) ?_ rfl ?_
    · rw [h.locked, h.slots]
    · intro k hk
      dsimp only at hk ⊢
      rw [haction] at hk
      by_cases hkey : k = (call.action, newId)
      · rw [hkey, Function.update_self]
      · rw [Function.update_of_ne hkey] at hk ⊢
        exact h.activeHandlers k hk
  | send newId =>
    rw [hpc] at hat
    simp only [CallThread.emits, hpc] at hstep ⊢
    obtain ⟨up, hup, hstep⟩ := Option.bind_eq_some_iff.1 hstep
    obtain ⟨rfl, rfl⟩ := Prod.mk.inj (Option.some.inj hstep)
    have hstep' := Actions.step_of_move (.callSends (number c) id x newId hx hat)
    have hundispatched : up.undispatched = s.up.undispatched := by rw [← Option.some.inj hup]; rfl
    refine ⟨_, .single hstep', Actions.wf_step h.wf hstep',
      ⟨number, hnumber.goesOn hcall ⟨haction, his.params, newId, rfl⟩⟩, h.locked, h.slots, h.served,
      h.activeHandlers, ?_, h.workers, h.responses, h.handlerPc, h.dispatching, ?_, ?_, ?_, ?_, ?_⟩
    · rw [hundispatched, haction, his.params]
      exact h.requests.call hup
    · rw [Pool.filterMap_append_none Event.generatedId? rfl]
      refine generated_set h.generated fun id' hid => h.generated x (List.mem_of_getElem? hx) id' ?_
      rw [hat]
      exact hid
    · have hset := Pool.filterMap_set_perm Call.asked? hx { x with pc := .unlock newId }
      have hbefore : x.asked? = none := by rw [Call.asked?, hat]; rfl
      rw [hbefore] at hset
      rw [Pool.filterMap_append_some Event.asked? rfl]
      refine (hset.trans List.perm_append_comm).trans (h.asked.append ?_)
      rw [Call.asked?, haction, his.params]
      exact .refl _
    · rw [Pool.filterMap_append_none Event.handled? rfl]
      exact h.handled
    · rw [Pool.filterMap_append_none Event.invoked? rfl]
      exact h.invoked
    · rw [Pool.filterMap_append_none Event.unserved? rfl]
      exact h.unserved
  | sending entry =>
    simp only [CallThread.emits, hpc, List.append_nil] at hstep ⊢
    have hsame : ∀ y : Call A Params, call.Is y → CallThread.Is { call with pc := .unlock } y := by
      intro y hy
      have hunlock := hy.pc
      rw [hpc] at hunlock
      exact ⟨hy.action, hy.params, hunlock⟩
    split at hstep
    · obtain ⟨rfl, rfl⟩ := Prod.mk.inj (Option.some.inj hstep)
      exact ⟨u, .refl u, h.callStays hcall hsame⟩
    · obtain ⟨rfl, rfl⟩ := Prod.mk.inj (Option.some.inj hstep)
      exact ⟨u, .refl u, h.callStays hcall hsame⟩
    · cases hstep
  | unlock =>
    rw [hpc] at hat
    obtain ⟨newId, hat⟩ := hat
    simp only [CallThread.emits, hpc, List.append_nil] at hstep ⊢
    obtain ⟨rfl, rfl⟩ := Prod.mk.inj (Option.some.inj hstep)
    refine h.callSteps hnumber hcall hx (.returned newId) ⟨haction, his.params, newId, rfl⟩
      (by rw [hat]; rfl)
      (by rw [hat]; rfl) (.callUnlocks (number c) id x newId hx hat) ?_ rfl h.activeHandlers
    rw [h.locked, haction, h.slots]
  | finished =>
    simp only [hpc] at hstep
    cases hstep

theorem asyncs (h : Refines codec s callers seen u) (c : Option Nat) (action : A) (params : Params) :
    ∃ v, Reaches Actions.step u v ∧
      Refines codec s (Function.update callers c (some ⟨action, params, .lock⟩)) seen v := by
  obtain ⟨number, hnumber⟩ := h.callers
  have hstep := Actions.step_of_move (.async (s := u) action params)
  refine ⟨_, .single hstep, Actions.wf_step h.wf hstep, ⟨_, hnumber.add c action params⟩, h.locked,
    h.slots, h.served, h.activeHandlers, h.requests, h.workers, h.responses, h.handlerPc,
    h.dispatching, ?_, ?_, h.handled, h.invoked, h.unserved⟩
  · intro call hmem
    obtain hold | rfl := List.mem_append.1 hmem |>.imp_right List.mem_singleton.1
    · exact h.generated call hold
    · exact nofun
  · rw [List.filterMap_append]
    exact (List.append_nil _ ▸ .refl _ : List.Perm _ _).trans h.asked

/-! #### The server -/

theorem sendRequest (h : Refines codec s callers seen u) {entry : Nat}
    {up : Channel (Request A Params)}
    (hup : s.up.step codec.serializeRequest (.send entry) = some up) :
    Refines codec { s with up } callers seen u := by
  have hundispatched : up.undispatched = s.up.undispatched := by
    rw [Channel.undispatched, receiver_eq_of_send hup]; rfl
  refine ⟨h.wf, h.callers, h.locked, h.slots, h.served, h.activeHandlers, ?_, h.workers,
    h.responses, h.handlerPc, h.dispatching, h.generated, h.asked, h.handled, h.invoked, h.unserved⟩
  rw [hundispatched]
  exact h.requests.send hup

omit [DecidableEq A] [Inhabited Result] in
/-- The server's receive thread is done with the text it has looked at. -/
theorem receiveUp {requests : List (Request A Params)}
    (hrequests : InTransit codec.serializeRequest s.up false requests)
    (hpc : s.up.receiver = some .dispatch) {outcome : Except RecoverableException Unit}
    (hstep : s.receiveUp codec outcome = some t) :
    ∃ up, t = { s with up } ∧ InTransit codec.serializeRequest up up.undispatched requests := by
  obtain ⟨up, hup, ht⟩ := Option.bind_eq_some_iff.1 hstep
  obtain ⟨htransit, hundispatched⟩ := hrequests.dispatched hpc hup
  rw [← hundispatched] at htransit
  exact ⟨up, (Option.some.inj ht).symm, htransit⟩

theorem serverReceive (h : Refines codec s callers seen u) (hcodec : codec.Restores)
    (hstep : s.serverReceive codec = some t) :
    ∃ v, Reaches Actions.step u v ∧
      Refines codec t callers (seen ++ s.emits codec .serverReceive) v ∧ t.caller? = s.caller? := by
  rw [ActionThreads.serverReceive] at hstep
  rw [ActionThreads.emits]
  split at hstep
  · next hpc =>
    have hrequests := h.requests
    rw [show s.up.undispatched = true from decide_eq_true hpc] at hrequests
    obtain ⟨req, json, hpacket, hlast, i, hreq, htaken⟩ := hrequests.take hpc
    rw [if_pos hpc, hlast, Option.getD_some, hcodec.request req json hpacket]
    rw [hlast, Option.getD_some, hcodec.request req json hpacket] at hstep
    dsimp only at hstep ⊢
    cases hserved : s.served req.action with
    | true =>
      rw [hserved, if_pos rfl] at hstep
      rw [if_pos rfl, List.append_nil]
      obtain ⟨up, rfl, htransit⟩ :=
        receiveUp (s := { s with workers := s.workers ++ [⟨req, .handling⟩] }) htaken hpc hstep
      have hstep' := Actions.step_of_move (.requestServed i req hreq (h.served ▸ hserved))
      refine ⟨_, .single hstep',
        ⟨Actions.wf_step h.wf hstep', h.callers, h.locked, h.slots, h.served,
          h.activeHandlers, htransit,
        ?_, h.responses, h.handlerPc, h.dispatching, h.generated, h.asked, h.handled, h.invoked,
        h.unserved⟩, rfl⟩
      rw [List.filterMap_append]
      exact h.workers.append_right _
    | false =>
      rw [hserved, if_neg Bool.false_ne_true] at hstep
      rw [if_neg Bool.false_ne_true]
      obtain ⟨up, rfl, htransit⟩ := receiveUp htaken hpc hstep
      have hstep' := Actions.step_of_move (.requestUnserved i req hreq (h.served ▸ hserved))
      refine ⟨_, .single hstep',
        ⟨Actions.wf_step h.wf hstep', h.callers, h.locked, h.slots, h.served,
          h.activeHandlers, htransit,
        h.workers, h.responses, h.handlerPc, h.dispatching, ?_, ?_, ?_, ?_, ?_⟩, rfl⟩
      · rw [Pool.filterMap_append_none Event.generatedId? rfl]
        exact h.generated
      · rw [Pool.filterMap_append_none Event.asked? rfl]
        exact h.asked
      · rw [Pool.filterMap_append_none Event.handled? rfl]
        exact h.handled
      · rw [Pool.filterMap_append_none Event.invoked? rfl]
        exact h.invoked
      · rw [Pool.filterMap_append_some Event.unserved? rfl]
        exact congrArg (· ++ [req]) h.unserved
  · next hpc =>
    rw [if_neg hpc, List.append_nil]
    obtain ⟨up, hup, ht⟩ := Option.bind_eq_some_iff.1 hstep
    obtain rfl := Option.some.inj ht
    have hrequests := h.requests
    rw [show s.up.undispatched = false from decide_eq_false hpc] at hrequests
    exact ⟨u, .refl u, ⟨h.wf, h.callers, h.locked, h.slots, h.served, h.activeHandlers,
      hrequests.receive hpc hup, h.workers, h.responses, h.handlerPc, h.dispatching, h.generated,
      h.asked, h.handled, h.invoked, h.unserved⟩, rfl⟩

/-- A thread of the server is a worker until it passes its response to `send`. -/
theorem exists_worker (h : Refines codec s callers seen u) {i : Nat}
    {w : ServerThread A Params Result} (hw : s.workers[i]? = some w) (w' : Worker A Params Result)
    (hworker : w.worker? = some w') :
    ∃ j, u.workers[j]? = some w' ∧
      (u.workers.eraseIdx j).Perm ((s.workers.eraseIdx i).filterMap ServerThread.worker?) := by
  have hperm := h.workers.trans ((Pool.perm_cons_eraseIdx hw).filterMap _)
  rw [List.filterMap_cons_some hworker] at hperm
  exact Pool.exists_of_perm_cons hperm

theorem serverHandlerReturns (h : Refines codec s callers seen u) {i : Nat} {req : Request A Params}
    (hw : s.workers[i]? = some ⟨req, .handling⟩) (result : ResponseOrError Result) :
    ∃ v, Reaches Actions.step u v ∧
      Refines codec { s with workers := s.workers.set i ⟨req, .send result⟩ } callers
      (seen ++ [.handled req result]) v := by
  obtain ⟨j, hj, hperm⟩ := h.exists_worker hw ⟨req, none⟩ rfl
  have hstep := Actions.step_of_move (.handlerReturns j result req hj)
  refine ⟨_, .single hstep, Actions.wf_step h.wf hstep, h.callers, h.locked, h.slots, h.served,
    h.activeHandlers, h.requests, ?_, h.responses, h.handlerPc, h.dispatching, ?_, ?_, ?_, ?_, ?_⟩
  · refine (Pool.perm_set_eraseIdx hj _).trans ((hperm.cons _).trans ?_)
    exact ((Pool.perm_set_eraseIdx hw (ServerThread.mk req (.send result))).filterMap
      ServerThread.worker?).symm
  · rw [Pool.filterMap_append_none Event.generatedId? rfl]
    exact h.generated
  · rw [Pool.filterMap_append_none Event.asked? rfl]
    exact h.asked
  · rw [Pool.filterMap_append_some Event.handled? rfl]
    exact congrArg (· ++ [(req, result)]) h.handled
  · rw [Pool.filterMap_append_none Event.invoked? rfl]
    exact h.invoked
  · rw [Pool.filterMap_append_none Event.unserved? rfl]
    exact h.unserved

theorem workerStep (h : Refines codec s callers seen u) {i : Nat}
    (hstep : s.workerStep codec i = some t) :
    ∃ v, Reaches Actions.step u v ∧ Refines codec t callers seen v ∧ t.caller? = s.caller? := by
  obtain ⟨⟨req, pc⟩, hw, hstep⟩ := Option.bind_eq_some_iff.1 hstep
  cases pc with
  | handling => cases hstep
  | send result =>
    obtain ⟨down, hdown, ht⟩ := Option.bind_eq_some_iff.1 hstep
    obtain rfl := Option.some.inj ht
    obtain ⟨j, hj, hperm⟩ := h.exists_worker hw ⟨req, some result⟩ rfl
    have hstep' := Actions.step_of_move (.respond j req result hj)
    have hreceiver : down.receiver = s.down.receiver := by rw [← Option.some.inj hdown]
    have hundispatched : down.undispatched = s.down.undispatched := by
      rw [Channel.undispatched, hreceiver]; rfl
    refine ⟨_, .single hstep',
      ⟨Actions.wf_step h.wf hstep', h.callers, h.locked, h.slots, h.served,
        h.activeHandlers, h.requests,
      ?_, ?_, h.handlerPc, fun hslot => hreceiver.trans (h.dispatching hslot), h.generated, h.asked,
      h.handled, h.invoked, h.unserved⟩, rfl⟩
    · refine hperm.trans ?_
      exact ((Pool.perm_set_eraseIdx hw
        (ServerThread.mk req (.sending s.down.sends.length))).filterMap ServerThread.worker?).symm
    · rw [hundispatched]
      exact h.responses.call hdown
  | sending entry =>
    dsimp only at hstep
    split at hstep
    · obtain rfl := Option.some.inj hstep
      refine ⟨u, .refl u, ⟨h.wf, h.callers, h.locked, h.slots, h.served, h.activeHandlers,
        h.requests, ?_, h.responses, h.handlerPc, h.dispatching, h.generated, h.asked, h.handled,
        h.invoked, h.unserved⟩, rfl⟩
      exact h.workers.trans ((Pool.perm_cons_eraseIdx hw).filterMap ServerThread.worker?)
    · cases hstep

theorem sendResponse (h : Refines codec s callers seen u) {entry : Nat}
    {down : Channel (Response A Result)}
    (hdown : s.down.step codec.serializeResponse (.send entry) = some down) :
    Refines codec { s with down } callers seen u := by
  have hreceiver := receiver_eq_of_send hdown
  have hundispatched : down.undispatched = s.down.undispatched := by
    rw [Channel.undispatched, hreceiver]; rfl
  refine ⟨h.wf, h.callers, h.locked, h.slots, h.served, h.activeHandlers, h.requests, h.workers, ?_,
    h.handlerPc, fun hslot => hreceiver.trans (h.dispatching hslot), h.generated, h.asked,
    h.handled, h.invoked, h.unserved⟩
  rw [hundispatched]
  exact h.responses.send hdown

/-! #### The client's receive thread -/

omit [DecidableEq A] [Inhabited Result] in
theorem receiveDown {responses : List (Response A Result)}
    (hresponses : InTransit codec.serializeResponse s.down false responses)
    (hpc : s.down.receiver = some .dispatch) {outcome : Except RecoverableException Unit}
    (hstep : s.receiveDown codec outcome = some t) :
    ∃ down, t = { s with down, slotPc := .idle } ∧
      InTransit codec.serializeResponse down (down.undispatched && true) responses := by
  obtain ⟨down, hdown, ht⟩ := Option.bind_eq_some_iff.1 hstep
  obtain ⟨htransit, hundispatched⟩ := hresponses.dispatched hpc hdown
  refine ⟨down, (Option.some.inj ht).symm, ?_⟩
  rw [hundispatched]
  exact htransit

theorem clientReceive (h : Refines codec s callers seen u) (hcodec : codec.Restores)
    (hstep : s.clientReceive codec = some t) :
    ∃ v, Reaches Actions.step u v ∧ Refines codec t callers seen v ∧ t.caller? = s.caller? := by
  rw [ActionThreads.clientReceive] at hstep
  split at hstep
  · next hidle =>
    have hresponses := h.responses
    have hhandler := h.handlerPc
    rw [hidle] at hresponses hhandler
    split at hstep
    · next hpc =>
      rw [show s.down.undispatched = true from decide_eq_true hpc] at hresponses
      obtain ⟨resp, json, hpacket, hlast, i, hresp, htaken⟩ := hresponses.take hpc
      rw [hlast, Option.getD_some, hcodec.response resp json hpacket] at hstep
      dsimp only at hstep
      cases hslot : s.slots resp.action with
      | true =>
        rw [hslot, if_pos rfl] at hstep
        obtain rfl := Option.some.inj hstep
        have hstep' := Actions.step_of_move (.responseRouted i resp hresp hhandler (h.slots ▸ hslot))
        refine ⟨_, .single hstep',
          ⟨Actions.wf_step h.wf hstep', h.callers, h.locked, h.slots, h.served,
            h.activeHandlers, h.requests,
          h.workers, ?_, rfl, fun _ => hpc, h.generated, h.asked, h.handled, h.invoked, h.unserved⟩,
          ?_⟩
        · rw [show (s.down.undispatched && (SlotPc.lock resp : SlotPc A Params Result).isIdle) =
            false from Bool.and_false _]
          exact htaken
        · exact ActionThreads.caller?_eq rfl (by rw [hidle]; rfl)
      | false =>
        rw [hslot, if_neg Bool.false_ne_true] at hstep
        obtain ⟨down, rfl, htransit⟩ := receiveDown htaken hpc hstep
        have hstep' := Actions.step_of_move
          (.responseUnrouted i resp hresp hhandler (h.slots ▸ hslot))
        exact ⟨_, .single hstep',
          ⟨Actions.wf_step h.wf hstep', h.callers, h.locked, h.slots, h.served,
            h.activeHandlers, h.requests,
          h.workers, htransit, rfl, fun hslot => absurd rfl hslot, h.generated, h.asked, h.handled,
          h.invoked, h.unserved⟩, ActionThreads.caller?_eq rfl (by rw [hidle])⟩
    · next hpc =>
      obtain ⟨down, hdown, ht⟩ := Option.bind_eq_some_iff.1 hstep
      obtain rfl := Option.some.inj ht
      rw [show s.down.undispatched = false from decide_eq_false hpc] at hresponses
      refine ⟨u, .refl u, ⟨h.wf, h.callers, h.locked, h.slots, h.served, h.activeHandlers,
        h.requests, h.workers, ?_, hhandler, fun hslot => absurd rfl hslot, h.generated, h.asked,
        h.handled, h.invoked, h.unserved⟩, ActionThreads.caller?_eq rfl (by rw [hidle])⟩
      rw [show (SlotPc.idle : SlotPc A Params Result).isIdle = true from rfl, Bool.and_true]
      exact hresponses.receive hpc hdown
  · cases hstep

/-- The slot gets to a place that is the same to the protocol. -/
theorem slotStays (h : Refines codec s callers seen u) (slotPc : SlotPc A Params Result)
    (hbusy : s.slotPc.isIdle = false) (hbusy' : slotPc.isIdle = false)
    (hsame : slotPc.handlerPc = s.slotPc.handlerPc) :
    Refines codec { s with slotPc } callers seen u := by
  have hne : s.slotPc ≠ .idle := fun hidle => by
    rw [hidle] at hbusy
    cases hbusy
  refine ⟨h.wf, h.callers, h.locked, h.slots, h.served, h.activeHandlers, h.requests, h.workers, ?_,
    h.handlerPc.trans hsame.symm, fun _ => h.dispatching hne, h.generated, h.asked, h.handled,
    h.invoked, h.unserved⟩
  have hresponses := h.responses
  rw [hbusy] at hresponses
  rw [hbusy']
  exact hresponses

/-- The slot is left, with the mutex it held. -/
theorem slotLeaves (h : Refines codec s callers seen u) {resp : Response A Result}
    (hbusy : s.slotPc.isIdle = false) (hunlock : u.handlerPc = .unlock resp.action)
    {outcome : Except RecoverableException Unit}
    (hstep : (s.release resp.action).receiveDown codec outcome = some t) :
    ∃ v, Reaches Actions.step u v ∧ Refines codec t callers seen v ∧ t.calls = s.calls ∧
      t.slotPc = .idle := by
  have hne : s.slotPc ≠ .idle := fun hidle => by
    rw [hidle] at hbusy
    cases hbusy
  have hresponses := h.responses
  rw [hbusy, Bool.and_false] at hresponses
  obtain ⟨down, rfl, htransit⟩ :=
    receiveDown (s := s.release resp.action) hresponses (h.dispatching hne) hstep
  have hstep' := Actions.step_of_move (.handlerUnlocks resp.action hunlock)
  refine ⟨_, .single hstep',
    ⟨Actions.wf_step h.wf hstep', h.callers, ?_, h.slots, h.served, h.activeHandlers, h.requests,
    h.workers, htransit, rfl, fun hslot => absurd rfl hslot, h.generated, h.asked, h.handled,
    h.invoked, h.unserved⟩, rfl, rfl⟩
  rw [h.locked]
  rfl

/-- The handler that was called is forgotten. -/
theorem slotErases (h : Refines codec s callers seen u) {resp : Response A Result}
    (hpc : u.handlerPc = .erase resp) (active : Key A → Bool)
    (hactive : ∀ k, k ≠ resp.key → s.activeHandlers k = true → active k = true) :
    ∃ v, Reaches Actions.step u v ∧ v.handlerPc = .unlock resp.action ∧
      ∀ slotPc : SlotPc A Params Result,
      slotPc.isIdle = false → s.slotPc.isIdle = false → slotPc.handlerPc = .unlock resp.action →
        Refines codec { s with activeHandlers := active, slotPc } callers seen v := by
  have hstep := Actions.step_of_move (.handlerErases resp hpc)
  refine ⟨_, .single hstep, rfl, fun slotPc hbusy' hbusy hsame => ?_⟩
  have hne : s.slotPc ≠ .idle := fun hidle => by
    rw [hidle] at hbusy
    cases hbusy
  refine ⟨Actions.wf_step h.wf hstep, h.callers, h.locked, h.slots, h.served, fun k hk => ?_,
    h.requests, h.workers, ?_, hsame.symm, fun _ => h.dispatching hne, h.generated, h.asked,
    h.handled, h.invoked, h.unserved⟩
  · dsimp only at hk ⊢
    by_cases hkey : k = resp.key
    · rw [hkey, Function.update_self] at hk
      exact absurd rfl hk
    · rw [Function.update_of_ne hkey] at hk
      exact hactive k hkey (h.activeHandlers k hk)
  · have hresponses := h.responses
    rw [hbusy] at hresponses
    rw [hbusy']
    exact hresponses

theorem handle (h : Refines codec s callers seen u) (hstep : s.handle codec = some t) :
    ∃ v, Reaches Actions.step u v ∧ Refines codec t callers (seen ++ s.emits codec .handle) v ∧
      t.caller? = s.caller? := by
  have hhandler := h.handlerPc
  rw [ActionThreads.emits]
  cases hpc : s.slotPc with
  | idle | running resp | nested resp call => simp [ActionThreads.handle, hpc] at hstep
  | lock resp =>
    simp only [ActionThreads.handle, hpc, List.append_nil] at hstep hhandler ⊢
    split at hstep
    · cases hstep
    · next hfree =>
      obtain rfl := Option.some.inj hstep
      have hlocked : u.locked resp.action = false := by
        rw [h.locked]
        exact Bool.eq_false_iff.2 hfree
      have hstep' := Actions.step_of_move (.handlerLocks resp hhandler hlocked)
      have hslot := h.slotStays (.lock resp) (by rw [hpc]; rfl) rfl (by rw [hpc])
      refine ⟨_, .single hstep',
        ⟨Actions.wf_step h.wf hstep', h.callers, ?_, h.slots, h.served, h.activeHandlers,
          h.requests, h.workers,
        hslot.responses, rfl, fun _ => hslot.dispatching nofun, h.generated, h.asked, h.handled,
        h.invoked, h.unserved⟩, ActionThreads.caller?_eq rfl (by rw [hpc]; rfl)⟩
      rw [h.locked]
  | find resp =>
    rw [hpc] at hhandler
    have hfound : u.activeHandlers resp.key ≠ none :=
      h.wf.registered.awaited resp.key (Actions.inFlight_pos_of_holding (by rw [hhandler]; rfl))
    have hactive := h.activeHandlers resp.key hfound
    simp only [ActionThreads.handle, hpc, hactive, if_true, Option.some.injEq] at hstep ⊢
    obtain rfl := hstep
    obtain ⟨call, hcall⟩ := Option.ne_none_iff_exists'.1 hfound
    have hfinds := Actions.step_of_move (.handlerFinds resp call hhandler hcall)
    have hinvokes := Actions.step_of_move
      (.handlerInvokes (s := { u with handlerPc := .invoke resp call }) resp call rfl)
    have hslot := h.slotStays (.find resp) (by rw [hpc]; rfl) rfl (by rw [hpc])
    refine ⟨_, (Reaches.single hfinds).trans (.single hinvokes),
      ⟨Actions.wf_step (Actions.wf_step h.wf hfinds) hinvokes, h.callers, h.locked, h.slots,
        h.served, h.activeHandlers, h.requests, h.workers, hslot.responses, rfl, fun _ =>
        hslot.dispatching nofun,
      ?_, ?_, ?_, ?_, ?_⟩, ActionThreads.caller?_eq rfl (by rw [hpc]; rfl)⟩
    · rw [Pool.filterMap_append_none Event.generatedId? rfl]
      exact h.generated
    · rw [Pool.filterMap_append_none Event.asked? rfl]
      exact h.asked
    · rw [Pool.filterMap_append_none Event.handled? rfl]
      exact h.handled
    · rw [Pool.filterMap_append_some Event.invoked? rfl, List.map_append]
      exact congrArg (· ++ [(resp.action, resp.data.id, resp.data.result)]) h.invoked
    · rw [Pool.filterMap_append_none Event.unserved? rfl]
      exact h.unserved
  | erase resp =>
    simp only [ActionThreads.handle, hpc, List.append_nil, Option.some.injEq] at hstep hhandler ⊢
    obtain rfl := hstep
    obtain ⟨v, hreach, -, herased⟩ :=
      h.slotErases hhandler (Function.update s.activeHandlers resp.key false)
      fun k hkey hk => by rwa [Function.update_of_ne hkey]
    exact ⟨v, hreach, herased (.unlock resp) rfl (by rw [hpc]; rfl) rfl,
      ActionThreads.caller?_eq rfl (by rw [hpc]; rfl)⟩
  | unlock resp =>
    simp only [ActionThreads.handle, hpc, List.append_nil] at hstep hhandler ⊢
    obtain ⟨v, hreach, hleft, hcalls, hidle⟩ := h.slotLeaves (by rw [hpc]; rfl) hhandler hstep
    exact ⟨v, hreach, hleft, ActionThreads.caller?_eq hcalls (by rw [hpc, hidle]; rfl)⟩

/-- A handler that throws is forgotten by the protocol, though the map keeps it. -/
theorem handlerReturns (h : Refines codec s callers seen u) {resp : Response A Result}
    (hpc : s.slotPc = .running resp) {throws : Option RecoverableException}
    (hstep : s.step codec (.handlerReturns throws) = some t) :
    ∃ v, Reaches Actions.step u v ∧ Refines codec t callers seen v ∧ t.caller? = s.caller? := by
  simp only [ActionThreads.step, hpc] at hstep
  cases throws with
  | none =>
    obtain rfl := Option.some.inj hstep
    exact ⟨u, .refl u, h.slotStays _ (by rw [hpc]; rfl) rfl (by rw [hpc]; rfl),
      ActionThreads.caller?_eq rfl (by rw [hpc]; rfl)⟩
  | some exc =>
    have hhandler : u.handlerPc = .erase resp := by rw [h.handlerPc, hpc]; rfl
    obtain ⟨v, hreach, hunlock, herased⟩ := h.slotErases hhandler s.activeHandlers fun _ _ hk => hk
    have hunlocking := herased (.unlock resp) rfl (by rw [hpc]; rfl) rfl
    obtain ⟨w, hreach', hleft, hcalls, hidle⟩ := hunlocking.slotLeaves rfl hunlock hstep
    exact ⟨w, hreach.trans hreach', hleft, ActionThreads.caller?_eq hcalls (by rw [hpc, hidle]; rfl)⟩

/-! #### Runs -/

omit [Inhabited Result] in
theorem keeps_of_callStep {call call' : CallThread A Params} {id : Str}
    (hstep : s.callStep codec call id = some (t, call')) :
    t.calls = s.calls ∧ t.slotPc = s.slotPc :=
  have hmove := ActionThreads.callMove_of_callStep hstep
  ⟨hmove.calls, hmove.slotPc⟩

/-- Whatever the threads do, the protocol does it too. -/
theorem step (h : Refines codec s s.caller? seen u) (hcodec : codec.Restores)
    {a : ThreadsAct A Params Result}
    (hfresh : ((seen ++ s.emits codec a).filterMap Event.generatedId?).Nodup)
    (hstep : s.step codec a = some t) :
    ∃ v, Reaches Actions.step u v ∧ Refines codec t t.caller? (seen ++ s.emits codec a) v := by
  have hend : ∀ {seen' callers v}, seen ++ s.emits codec a = seen' → t.caller? = callers →
      Reaches Actions.step u v →
      Refines codec t callers seen' v → ∃ v, Reaches Actions.step u v ∧
      Refines codec t t.caller? (seen ++ s.emits codec a) v := by
    rintro _ _ v rfl rfl hreach hv
    exact ⟨v, hreach, hv⟩
  have hsilent : s.emits codec a = [] →
      (∃ v, Reaches Actions.step u v ∧ Refines codec t s.caller? seen v ∧ t.caller? = s.caller?) →
      ∃ v, Reaches Actions.step u v ∧ Refines codec t t.caller? (seen ++ s.emits codec a) v := by
    rintro hnone ⟨v, hreach, hv, hcallers⟩
    exact hend (by rw [hnone, List.append_nil]) hcallers hreach hv
  cases a with
  | async action params =>
    obtain rfl := Option.some.inj hstep
    obtain ⟨v, hreach, hv⟩ := h.asyncs (some s.calls.length) action params
    exact hend (List.append_nil _) (ActionThreads.caller?_append rfl rfl) hreach
      ⟨hv.wf, hv.callers, hv.locked, hv.slots, hv.served, hv.activeHandlers, hv.requests,
        hv.workers, hv.responses, hv.handlerPc, hv.dispatching, hv.generated, hv.asked, hv.handled,
      hv.invoked, hv.unserved⟩
  | registerAction action =>
    obtain rfl := Option.some.inj hstep
    have hstep' := Actions.step_of_move (.registerAction (s := u) action)
    refine hsilent rfl ⟨_, .single hstep',
      ⟨Actions.wf_step h.wf hstep', h.callers, h.locked, h.slots, ?_, h.activeHandlers, h.requests,
      h.workers, h.responses, h.handlerPc, h.dispatching, h.generated, h.asked, h.handled,
      h.invoked, h.unserved⟩, rfl⟩
    rw [h.served]
  | call i id =>
    obtain ⟨call, hcall, hstep⟩ := Option.bind_eq_some_iff.1 hstep
    obtain ⟨⟨t', call'⟩, hcallStep, ht⟩ := Option.bind_eq_some_iff.1 hstep
    obtain rfl := Option.some.inj ht
    obtain ⟨hcalls, hslot⟩ := keeps_of_callStep hcallStep
    have hemits : s.emits codec (.call i id) = call.emits id := by rw [ActionThreads.emits, hcall]
    rw [hemits] at hfresh
    obtain ⟨v, hreach, hv⟩ := h.callStep (c := some i) hcall hfresh hcallStep
    exact hend (by rw [hemits])
      (ActionThreads.caller?_set hcall (congrArg (·.set i call') hcalls) hslot) hreach
        ⟨hv.wf, hv.callers,
      hv.locked, hv.slots, hv.served, hv.activeHandlers, hv.requests, hv.workers, hv.responses,
      hv.handlerPc, hv.dispatching, hv.generated, hv.asked, hv.handled, hv.invoked, hv.unserved⟩
  | sendRequest entry =>
    obtain ⟨up, hup, ht⟩ := Option.bind_eq_some_iff.1 hstep
    obtain rfl := Option.some.inj ht
    exact hsilent rfl ⟨u, .refl u, h.sendRequest hup, rfl⟩
  | serverReceive =>
    obtain ⟨v, hreach, hv, hcallers⟩ := h.serverReceive hcodec hstep
    exact hend rfl hcallers hreach hv
  | serverHandlerReturns i result =>
    simp only [ActionThreads.step] at hstep
    split at hstep
    · next req hw =>
      obtain rfl := Option.some.inj hstep
      obtain ⟨v, hreach, hv⟩ := h.serverHandlerReturns hw result
      exact hend (by rw [ActionThreads.emits, hw]) rfl hreach hv
    · cases hstep
  | respond i => exact hsilent rfl (h.workerStep hstep)
  | sendResponse entry =>
    obtain ⟨down, hdown, ht⟩ := Option.bind_eq_some_iff.1 hstep
    obtain rfl := Option.some.inj ht
    exact hsilent rfl ⟨u, .refl u, h.sendResponse hdown, rfl⟩
  | clientReceive => exact hsilent rfl (h.clientReceive hcodec hstep)
  | handle =>
    obtain ⟨v, hreach, hv, hcallers⟩ := h.handle hstep
    exact hend rfl hcallers hreach hv
  | handlerCalls action params =>
    simp only [ActionThreads.step] at hstep
    split at hstep
    · next resp hpc =>
      obtain rfl := Option.some.inj hstep
      have hslot := h.slotStays (.nested resp ⟨action, params, .lock⟩) (by rw [hpc]; rfl) rfl
        (by rw [hpc]; rfl)
      obtain ⟨v, hreach, hv⟩ := hslot.asyncs none action params
      exact hend (List.append_nil _) (ActionThreads.caller?_slot (s := s) rfl) hreach hv
    · cases hstep
  | nestedCall id =>
    simp only [ActionThreads.step] at hstep
    split at hstep
    · next resp call hpc =>
      obtain ⟨⟨t', call'⟩, hcallStep, ht⟩ := Option.bind_eq_some_iff.1 hstep
      obtain rfl := Option.some.inj ht
      obtain ⟨hcalls, hslot⟩ := keeps_of_callStep hcallStep
      have hemits : s.emits codec (.nestedCall id) = call.emits id := by rw [ActionThreads.emits, hpc]
      rw [hemits] at hfresh
      have hcall : s.caller? none = some call := by rw [ActionThreads.caller?, hpc]; rfl
      obtain ⟨v, hreach, hv⟩ := h.callStep hcall hfresh hcallStep
      have hbusy : t'.slotPc.isIdle = false := by rw [hslot, hpc]; rfl
      have hhandler : t'.slotPc.handlerPc = .erase resp := by rw [hslot, hpc]; rfl
      refine hend (by rw [hemits]) (ActionThreads.caller?_slot (s := s) hcalls) hreach ?_
      dsimp only
      split
      · have hleft := hv.slotStays (.running resp) hbusy rfl hhandler.symm
        obtain ⟨number, hnumber⟩ := hleft.callers
        have hgone := hnumber.leaves none
        rw [Function.update_idem] at hgone
        exact { hleft with callers := ⟨number, hgone⟩ }
      · exact hv.slotStays (.nested resp call') hbusy rfl hhandler.symm
    · cases hstep
  | handlerReturns throws =>
    have hrunning : ∃ resp, s.slotPc = .running resp := by
      simp only [ActionThreads.step] at hstep
      split at hstep
      · next resp hpc => exact ⟨resp, hpc⟩
      · cases hstep
    obtain ⟨resp, hpc⟩ := hrunning
    exact hsilent rfl (h.handlerReturns hpc hstep)

end Refines

/-- Whatever the threads have done in a run, the protocol has a run that did it. -/
theorem exists_refines {codec : Codec A Params Result} (hcodec : codec.Restores)
    {serverExcHandler clientExcHandler : Bool} {acts : List (ThreadsAct A Params Result)}
    {s : ActionThreads A Params Result}
    (hfresh :
      ((trace (ActionThreads.step codec) (ActionThreads.emits codec)
        (.init A Params Result serverExcHandler clientExcHandler)
      acts).filterMap Event.generatedId?).Nodup)
    (hrun : run (ActionThreads.step codec) (.init A Params Result serverExcHandler clientExcHandler)
      acts = some s) :
    ∃ u, Reaches Actions.step (.init A Params Result) u ∧
      Refines codec s s.caller? (trace (ActionThreads.step codec)
      (ActionThreads.emits codec) (.init A Params Result serverExcHandler clientExcHandler) acts)
        u := by
  refine invariant_trace (P := fun seen => (seen.filterMap Event.generatedId?).Nodup)
    (fun s seen => ∃ u, Reaches Actions.step (.init A Params Result) u ∧
      Refines codec s s.caller? seen u) ?_ ?_ ?_ hfresh hrun
  · intro xs ys h
    rw [List.filterMap_append] at h
    exact (List.nodup_append.1 h).1
  · rintro s seen a t ⟨u, hreach, h⟩ hfresh hstep
    obtain ⟨v, hv, ht⟩ := h.step hcodec hfresh hstep
    exact ⟨v, hreach.trans hv, ht⟩
  · refine ⟨_, .refl _, ?_⟩
    rw [show (ActionThreads.init A Params Result serverExcHandler clientExcHandler).caller? =
      fun _ => none by
      funext c
      cases c <;> rfl]
    exact .init serverExcHandler clientExcHandler

end Libesf.Ipc

import Mathlib.Data.List.Nodup
import Libesf.Ipc.Action
import Libesf.Ipc.Endpoint

/-!
# The active handlers of an action type

`async` and `M_responseHandler` of one action type share a mutex, and `active_handlers` is touched by nobody else. Both hold the mutex from their first statement to their last, so that the state has one program counter, that of the owner. `async` stores the handler before it sends the request, `M_responseHandler` erases it after it has called it: an exception of the send, or of the handler, leaves between the two.

The map holds the requests that are sent and not answered, in every state in which the mutex is free, if and only if no request of the run fails to be sent and no handler of the run throws.
-/

namespace Libesf.Ipc

open Transition

structure ActionData (Params : Type) where
  id : Str
  data : Params
  deriving DecidableEq, Repr

/-- The arguments of a call of `async`, with the parameters of the action object it is called on. -/
structure AsyncCall (Params Handler : Type) where
  ep : Nat
  handler : Handler
  params : Params
  deriving DecidableEq, Repr

/-- Where the owner of `m_mutex` is, in `async` or in `M_responseHandler`. -/
inductive LockedPc (Params Result Handler : Type) where
  | generateId (call : AsyncCall Params Handler)
  | registerSlot (call : AsyncCall Params Handler) (id : Str)
  | insertHandler (call : AsyncCall Params Handler) (id : Str)
  | send (call : AsyncCall Params Handler) (id : Str)
  | returnId (id : Str)
  | find (resp : ResponseData Result)
  | invoke (resp : ResponseData Result) (handler : Handler)
  | erase (resp : ResponseData Result)
  | handled

/-- A call of a `ResponseHandler`, with its arguments. -/
structure HandlerCall (Result Handler : Type) where
  handler : Handler
  result : ResponseOrError Result
  id : Str

structure ActiveHandlers (Params Result Handler : Type) where
  /-- `m_mutex`: free, or where its owner is. -/
  mutex : Option (LockedPc Params Result Handler)
  endpoints : List Nat
  activeHandlers : Str → Option Handler
  issued : List Str
  sent : List (ActionData Params)
  returned : List Str
  thrown : List Exception
  invoked : List (HandlerCall Result Handler)
  badActionIds : List Str

/-- `next` is the owner's next step, `generateId` and `invoke` are the two whose outcome is not the owner's to decide. -/
inductive ActiveHandlersAct (Params Result Handler : Type) where
  | async (call : AsyncCall Params Handler)
  | generateId (id : Str)
  | response (ep : Nat) (resp : ResponseData Result)
  | invoke (throws : Bool)
  | next

variable {Params Result Handler : Type} (serialize : ActionData Params → Except Exception Str)

namespace ActiveHandlers

def init (Params Result Handler : Type) : ActiveHandlers Params Result Handler where
  mutex := none
  endpoints := []
  activeHandlers _ := none
  issued := []
  sent := []
  returned := []
  thrown := []
  invoked := []
  badActionIds := []

/-- Every exception releases the mutex on its way out, like the end of the function. -/
def nextStep (s : ActiveHandlers Params Result Handler) :
    Option (ActiveHandlers Params Result Handler) :=
  match s.mutex with
  | some (.registerSlot call id) =>
    some { s with
      endpoints := if call.ep ∈ s.endpoints then s.endpoints else s.endpoints ++ [call.ep]
      mutex := some (.insertHandler call id) }
  | some (.insertHandler call id) =>
    some { s with
      activeHandlers := Function.update s.activeHandlers id (some call.handler)
      mutex := some (.send call id) }
  | some (.send call id) =>
    match packet serialize ⟨id, call.params⟩ with
    | .ok _ => some { s with sent := s.sent ++ [⟨id, call.params⟩], mutex := some (.returnId id) }
    | .error exc => some { s with thrown := s.thrown ++ [exc], mutex := none }
  | some (.returnId id) => some { s with returned := s.returned ++ [id], mutex := none }
  | some (.find resp) =>
    match s.activeHandlers resp.id with
    | none => some { s with badActionIds := s.badActionIds ++ [resp.id], mutex := none }
    | some handler => some { s with mutex := some (.invoke resp handler) }
  | some (.erase resp) =>
    some { s with
      activeHandlers := Function.update s.activeHandlers resp.id none
      mutex := some .handled }
  | some .handled => some { s with mutex := none }
  | none | some (.generateId _) | some (.invoke _ _) => none

/-- `generateId` never repeats itself. A response gets to `M_responseHandler` through the slot of an endpoint that some call has registered. -/
def step (s : ActiveHandlers Params Result Handler) :
    ActiveHandlersAct Params Result Handler → Option (ActiveHandlers Params Result Handler)
  | .async call =>
    match s.mutex with
    | none => some { s with mutex := some (.generateId call) }
    | some _ => none
  | .generateId id =>
    match s.mutex with
    | some (.generateId call) =>
      if id ∈ s.issued then none
      else some { s with issued := s.issued ++ [id], mutex := some (.registerSlot call id) }
    | _ => none
  | .response ep resp =>
    match s.mutex with
    | none => if ep ∈ s.endpoints then some { s with mutex := some (.find resp) } else none
    | some _ => none
  | .invoke throws =>
    match s.mutex with
    | some (.invoke resp handler) =>
      some { s with
        invoked := s.invoked ++ [⟨handler, resp.result, resp.id⟩]
        mutex := if throws then none else some (.erase resp) }
    | _ => none
  | .next => s.nextStep serialize

/-! ### What a step does -/

variable {serialize}

inductive Move (serialize : ActionData Params → Except Exception Str)
    (s : ActiveHandlers Params Result Handler) :
    ActiveHandlersAct Params Result Handler → ActiveHandlers Params Result Handler → Prop where
  | async (call : AsyncCall Params Handler) (hfree : s.mutex = none) :
      Move serialize s (.async call) { s with mutex := some (.generateId call) }
  | generatesId (call : AsyncCall Params Handler) (id : Str) (hpc : s.mutex = some (.generateId call))
      (hfresh : id ∉ s.issued) :
      Move serialize s (.generateId id) { s with
        issued := s.issued ++ [id], mutex := some (.registerSlot call id) }
  | registersSlot (call : AsyncCall Params Handler) (id : Str)
      (hpc : s.mutex = some (.registerSlot call id)) :
      Move serialize s .next
        { s with
          endpoints := if call.ep ∈ s.endpoints then s.endpoints else s.endpoints ++ [call.ep]
          mutex := some (.insertHandler call id) }
  | insertsHandler (call : AsyncCall Params Handler) (id : Str)
      (hpc : s.mutex = some (.insertHandler call id)) :
      Move serialize s .next
        { s with
          activeHandlers := Function.update s.activeHandlers id (some call.handler)
          mutex := some (.send call id) }
  | sends (call : AsyncCall Params Handler) (id json : Str) (hpc : s.mutex = some (.send call id))
      (hpacket : packet serialize ⟨id, call.params⟩ = .ok json) :
      Move serialize s .next { s with
        sent := s.sent ++ [⟨id, call.params⟩], mutex := some (.returnId id) }
  | throws (call : AsyncCall Params Handler) (id : Str) (exc : Exception)
      (hpc : s.mutex = some (.send call id))
      (hpacket : packet serialize ⟨id, call.params⟩ = .error exc) :
      Move serialize s .next { s with thrown := s.thrown ++ [exc], mutex := none }
  | returnsId (id : Str) (hpc : s.mutex = some (.returnId id)) :
      Move serialize s .next { s with returned := s.returned ++ [id], mutex := none }
  | response (ep : Nat) (resp : ResponseData Result) (hfree : s.mutex = none)
      (hslot : ep ∈ s.endpoints) :
      Move serialize s (.response ep resp) { s with mutex := some (.find resp) }
  | rejects (resp : ResponseData Result) (hpc : s.mutex = some (.find resp))
      (hmissing : s.activeHandlers resp.id = none) :
      Move serialize s .next { s with badActionIds := s.badActionIds ++ [resp.id], mutex := none }
  | finds (resp : ResponseData Result) (handler : Handler) (hpc : s.mutex = some (.find resp))
      (hfound : s.activeHandlers resp.id = some handler) :
      Move serialize s .next { s with mutex := some (.invoke resp handler) }
  | invokes (throws : Bool) (resp : ResponseData Result) (handler : Handler)
      (hpc : s.mutex = some (.invoke resp handler)) :
      Move serialize s (.invoke throws)
        { s with
          invoked := s.invoked ++ [⟨handler, resp.result, resp.id⟩]
          mutex := if throws then none else some (.erase resp) }
  | erases (resp : ResponseData Result) (hpc : s.mutex = some (.erase resp)) :
      Move serialize s .next
        { s with
          activeHandlers := Function.update s.activeHandlers resp.id none, mutex := some .handled }
  | handled (hpc : s.mutex = some .handled) : Move serialize s .next { s with mutex := none }

private theorem move_of_nextStep {s t : ActiveHandlers Params Result Handler}
    (h : s.nextStep serialize = some t) : Move serialize s .next t := by
  unfold nextStep at h
  split at h
  · next call id hpc => exact Option.some.inj h ▸ .registersSlot call id hpc
  · next call id hpc => exact Option.some.inj h ▸ .insertsHandler call id hpc
  · next call id hpc =>
    split at h
    · next json hpacket => exact Option.some.inj h ▸ .sends call id json hpc hpacket
    · next exc hpacket => exact Option.some.inj h ▸ .throws call id exc hpc hpacket
  · next id hpc => exact Option.some.inj h ▸ .returnsId id hpc
  · next resp hpc =>
    split at h
    · next hmissing => exact Option.some.inj h ▸ .rejects resp hpc hmissing
    · next handler hfound => exact Option.some.inj h ▸ .finds resp handler hpc hfound
  · next resp hpc => exact Option.some.inj h ▸ .erases resp hpc
  · next hpc => exact Option.some.inj h ▸ .handled hpc
  all_goals cases h

theorem move_of_step {s t : ActiveHandlers Params Result Handler}
    {a : ActiveHandlersAct Params Result Handler} (h : s.step serialize a = some t) :
    Move serialize s a t := by
  cases a with
  | async call =>
    simp only [step] at h
    split at h
    · next hfree => exact Option.some.inj h ▸ .async call hfree
    · cases h
  | generateId id =>
    simp only [step] at h
    split at h
    · next call hpc =>
      split at h
      · cases h
      · next hfresh => exact Option.some.inj h ▸ .generatesId call id hpc hfresh
    · cases h
  | response ep resp =>
    simp only [step] at h
    split at h
    · next hfree =>
      split at h
      · next hslot => exact Option.some.inj h ▸ .response ep resp hfree hslot
      · cases h
    · cases h
  | invoke throws =>
    simp only [step] at h
    split at h
    · next resp handler hpc => exact Option.some.inj h ▸ .invokes throws resp handler hpc
    · cases h
  | next => exact move_of_nextStep h

/-! ### What the map should hold -/

def sentIds (s : ActiveHandlers Params Result Handler) : List Str := s.sent.map ActionData.id

/-- The identifiers of the responses that have been handed to a handler. -/
def consumed (s : ActiveHandlers Params Result Handler) : List Str := s.invoked.map HandlerCall.id

/-- With the mutex free, the keys of the map are the requests that have been sent and not answered; and no handler is called for one response twice. -/
structure Exact (s : ActiveHandlers Params Result Handler) : Prop where
  keys : s.mutex = none → ∀ id, (s.activeHandlers id).isSome ↔ id ∈ s.sentIds ∧ id ∉ s.consumed
  once : s.consumed.Nodup

/-- The step is not a send that fails, and not a handler that throws. -/
def completes (serialize : ActionData Params → Except Exception Str)
    (s : ActiveHandlers Params Result Handler) :
    ActiveHandlersAct Params Result Handler → Bool
  | .next =>
    match s.mutex with
    | some (.send call id) => sendable serialize ⟨id, call.params⟩
    | _ => true
  | .invoke throws => !throws
  | _ => true

end ActiveHandlers

namespace LockedPc

/-- The key the owner has put into the map ahead of the request, or not yet taken out of it. -/
def extra : LockedPc Params Result Handler → Option Str
  | .send _ id => some id
  | .erase resp => some resp.id
  | _ => none

/-- The identifier of the request the owner is about to send. -/
def unsent : LockedPc Params Result Handler → Option Str
  | .registerSlot _ id | .insertHandler _ id | .send _ id => some id
  | _ => none

end LockedPc

namespace ActiveHandlers

variable {serialize} {s t : ActiveHandlers Params Result Handler}

structure Tracked (s : ActiveHandlers Params Result Handler) : Prop where
  keys : ∀ id, (s.activeHandlers id).isSome ↔
    (id ∈ s.sentIds ∧ id ∉ s.consumed) ∨ s.mutex.bind LockedPc.extra = some id
  once : s.consumed.Nodup
  issued : ∀ id ∈ s.sentIds, id ∈ s.issued
  answered : ∀ id ∈ s.consumed, id ∈ s.sentIds
  unsent : ∀ id, s.mutex.bind LockedPc.unsent = some id → id ∈ s.issued ∧ id ∉ s.sentIds
  found : ∀ resp handler, s.mutex = some (.invoke resp handler) →
    s.activeHandlers resp.id = some handler
  erasing : ∀ resp, s.mutex = some (.erase resp) → resp.id ∈ s.consumed

theorem tracked_init : Tracked (init Params Result Handler) where
  keys id := by simp [init, sentIds, consumed]
  once := List.nodup_nil
  issued := nofun
  answered := nofun
  unsent := nofun
  found := nofun
  erasing := nofun

namespace Tracked

theorem exact (h : Tracked s) : Exact s where
  keys hfree id := by
    rw [h.keys, hfree]
    simp
  once := h.once

/-- The owner moves on without touching the map or the requests. -/
theorem moveOn (h : Tracked s) (hmap : t.activeHandlers = s.activeHandlers)
    (hissued : t.issued = s.issued) (hsent : t.sent = s.sent) (hinvoked : t.invoked = s.invoked)
    (hextra : t.mutex.bind LockedPc.extra = s.mutex.bind LockedPc.extra)
    (hunsent : ∀ id, t.mutex.bind LockedPc.unsent = some id → s.mutex.bind LockedPc.unsent = some id)
    (hfound : ∀ resp handler, t.mutex = some (.invoke resp handler) →
      s.activeHandlers resp.id = some handler)
    (herasing : ∀ resp, t.mutex ≠ some (LockedPc.erase resp)) : Tracked t := by
  have hsentIds : t.sentIds = s.sentIds := by rw [sentIds, hsent, sentIds]
  have hconsumed : t.consumed = s.consumed := by rw [consumed, hinvoked, consumed]
  refine ⟨?_, ?_, ?_, ?_, ?_, ?_, fun resp hresp => absurd hresp (herasing resp)⟩
  · rw [hmap, hsentIds, hconsumed, hextra]
    exact h.keys
  · rw [hconsumed]
    exact h.once
  · rw [hsentIds, hissued]
    exact h.issued
  · rw [hsentIds, hconsumed]
    exact h.answered
  · rw [hsentIds, hissued]
    exact fun id hid => h.unsent id (hunsent id hid)
  · rw [hmap]
    exact hfound

theorem generatesId (h : Tracked s) {call : AsyncCall Params Handler} {id : Str}
    (hpc : s.mutex = some (.generateId call)) (hfresh : id ∉ s.issued) :
    Tracked { s with issued := s.issued ++ [id], mutex := some (.registerSlot call id) } where
  keys id' := by
    rw [h.keys, hpc]
    rfl
  once := h.once
  issued id' hid' := List.mem_append_left _ (h.issued id' hid')
  answered := h.answered
  unsent id' hid' := by
    obtain rfl : id = id' := Option.some.inj hid'
    exact ⟨List.mem_append_right _ (List.mem_singleton_self id),
      fun hsent => hfresh (h.issued id hsent)⟩
  found := nofun
  erasing := nofun

theorem insertsHandler (h : Tracked s) {call : AsyncCall Params Handler} {id : Str}
    (hpc : s.mutex = some (.insertHandler call id)) :
    Tracked { s with
      activeHandlers := Function.update s.activeHandlers id (some call.handler),
      mutex := some (.send call id) } where
  keys id' := by
    have hkeys := h.keys id'
    rw [hpc] at hkeys
    change (Function.update s.activeHandlers id (some call.handler) id').isSome ↔
      (id' ∈ s.sentIds ∧ id' ∉ s.consumed) ∨ some id = some id'
    by_cases hid : id' = id
    · rw [hid, Function.update_self]
      simp
    · rw [Function.update_of_ne hid, hkeys]
      simp [LockedPc.extra, Ne.symm hid]
  once := h.once
  issued := h.issued
  answered := h.answered
  unsent id' hid' := h.unsent id' (by rw [hpc]; exact hid')
  found := nofun
  erasing := nofun

theorem sends (h : Tracked s) {call : AsyncCall Params Handler} {id : Str}
    (hpc : s.mutex = some (.send call id)) :
    Tracked { s with sent := s.sent ++ [⟨id, call.params⟩], mutex := some (.returnId id) } := by
  have hunsent := h.unsent id (by rw [hpc]; rfl)
  have hsent : ∀ id', id' ∈ (s.sent ++ [ActionData.mk id call.params]).map ActionData.id ↔
      id' ∈ s.sentIds ∨ id' = id := by
    intro id'
    rw [List.map_append, List.mem_append]
    exact or_congr_right List.mem_singleton
  refine ⟨fun id' => ?_, h.once, fun id' hid' => ?_, fun id' hid' => ?_, nofun, nofun, nofun⟩
  · have hkeys := h.keys id'
    rw [hpc] at hkeys
    change (s.activeHandlers id').isSome ↔
      (id' ∈ (s.sent ++ [ActionData.mk id call.params]).map ActionData.id ∧ id' ∉ s.consumed) ∨
      none = some id'
    rw [hkeys, hsent]
    by_cases hid : id' = id
    · have hnot : id ∉ s.consumed := fun hconsumed => hunsent.2 (h.answered id hconsumed)
      simp [hid, hnot, LockedPc.extra]
    · simp [LockedPc.extra, hid, Ne.symm hid]
  · obtain hold | rfl := (hsent id').1 hid'
    · exact h.issued id' hold
    · exact hunsent.1
  · exact (hsent id').2 (.inl (h.answered id' hid'))

/-- The response takes its request out of what is unanswered, and leaves the key to be erased. -/
theorem invokes (h : Tracked s) {resp : ResponseData Result} {handler : Handler}
    (hpc : s.mutex = some (.invoke resp handler)) :
    Tracked { s with
      invoked := s.invoked ++ [⟨handler, resp.result, resp.id⟩], mutex := some (.erase resp) } := by
  have hkey : resp.id ∈ s.sentIds ∧ resp.id ∉ s.consumed := by
    have hkeys := h.keys resp.id
    rw [h.found resp handler hpc, hpc] at hkeys
    simpa [LockedPc.extra] using hkeys
  have hconsumed : ∀ id,
      id ∈ (s.invoked ++ [HandlerCall.mk handler resp.result resp.id]).map HandlerCall.id ↔
        id ∈ s.consumed ∨ id = resp.id := by
    intro id
    rw [List.map_append, List.mem_append]
    exact or_congr_right List.mem_singleton
  refine ⟨fun id => ?_, ?_, h.issued, fun id hid => ?_, nofun, nofun, fun resp' hresp' => ?_⟩
  · have hkeys := h.keys id
    rw [hpc] at hkeys
    change (s.activeHandlers id).isSome ↔
      (id ∈ s.sentIds ∧
        id ∉ (s.invoked ++ [HandlerCall.mk handler resp.result resp.id]).map HandlerCall.id) ∨
        some resp.id = some id
    rw [hkeys, hconsumed]
    by_cases hid : id = resp.id
    · simp [hid, hkey]
    · simp [LockedPc.extra, hid, Ne.symm hid]
  · change ((s.invoked ++ [HandlerCall.mk handler resp.result resp.id]).map HandlerCall.id).Nodup
    rw [List.map_append]
    exact h.once.append (List.nodup_singleton _) (List.disjoint_singleton.2 hkey.2)
  · obtain hold | rfl := (hconsumed id).1 hid
    · exact h.answered id hold
    · exact hkey.1
  · obtain rfl : resp = resp' := LockedPc.erase.inj (Option.some.inj hresp')
    exact (hconsumed resp.id).2 (.inr rfl)

theorem erases (h : Tracked s) {resp : ResponseData Result} (hpc : s.mutex = some (.erase resp)) :
    Tracked { s with
      activeHandlers := Function.update s.activeHandlers resp.id none, mutex := some .handled } := by
  refine ⟨fun id => ?_, h.once, h.issued, h.answered, nofun, nofun, nofun⟩
  have hkeys := h.keys id
  rw [hpc] at hkeys
  change (Function.update s.activeHandlers resp.id none id).isSome ↔
    (id ∈ s.sentIds ∧ id ∉ s.consumed) ∨ none = some id
  by_cases hid : id = resp.id
  · rw [hid, Function.update_self]
    simp [h.erasing resp hpc]
  · rw [Function.update_of_ne hid, hkeys]
    simp [LockedPc.extra, Ne.symm hid]

theorem step (s : ActiveHandlers Params Result Handler) (a : ActiveHandlersAct Params Result Handler)
    (t : ActiveHandlers Params Result Handler) (h : Tracked s)
    (hcompletes : s.completes serialize a = true) (hstep : s.step serialize a = some t) :
    Tracked t := by
  cases move_of_step hstep with
  | async call hfree => exact h.moveOn rfl rfl rfl rfl (by rw [hfree]; rfl) nofun nofun nofun
  | generatesId call id hpc hfresh => exact h.generatesId hpc hfresh
  | registersSlot call id hpc =>
    exact h.moveOn rfl rfl rfl rfl (by rw [hpc]; rfl)
      (by rw [hpc]; exact fun _ hid => hid) nofun nofun
  | insertsHandler call id hpc => exact h.insertsHandler hpc
  | sends call id json hpc hpacket => exact h.sends hpc
  | throws call id exc hpc hpacket =>
    rw [completes, hpc] at hcompletes
    simp only [sendable, hpacket] at hcompletes
    cases hcompletes
  | returnsId id hpc => exact h.moveOn rfl rfl rfl rfl (by rw [hpc]; rfl) nofun nofun nofun
  | response ep resp hfree hslot =>
    exact h.moveOn rfl rfl rfl rfl (by rw [hfree]; rfl) nofun nofun nofun
  | rejects resp hpc hmissing => exact h.moveOn rfl rfl rfl rfl (by rw [hpc]; rfl) nofun nofun nofun
  | finds resp handler hpc hfound =>
    refine h.moveOn rfl rfl rfl rfl (by rw [hpc]; rfl) nofun (fun resp' handler' hinvoke => ?_) nofun
    obtain ⟨rfl, rfl⟩ := LockedPc.invoke.inj (Option.some.inj hinvoke)
    exact hfound
  | invokes throws resp handler hpc =>
    obtain rfl : throws = false := Bool.not_eq_true' throws ▸ hcompletes
    exact h.invokes hpc
  | erases resp hpc => exact h.erases hpc
  | handled hpc => exact h.moveOn rfl rfl rfl rfl (by rw [hpc]; rfl) nofun nofun nofun

/-- An exception releases the mutex over a key that should not be there. -/
theorem not_exact (h : Tracked s) {a : ActiveHandlersAct Params Result Handler}
    (hnot : ¬ s.completes serialize a = true) (hstep : s.step serialize a = some t) : ¬ Exact t := by
  cases move_of_step hstep with
  | throws call id exc hpc hpacket =>
    intro hexact
    have hkey : (s.activeHandlers id).isSome := (h.keys id).2 (.inr (by rw [hpc]; rfl))
    exact (h.unsent id (by rw [hpc]; rfl)).2 ((hexact.keys rfl id).1 hkey).1
  | invokes throws resp handler hpc =>
    obtain rfl : throws = true := by simpa [completes] using hnot
    intro hexact
    have hkey : (s.activeHandlers resp.id).isSome := by
      rw [h.found resp handler hpc]
      rfl
    refine ((hexact.keys rfl resp.id).1 hkey).2 ?_
    exact List.mem_map_of_mem (List.mem_append_right _ (List.mem_singleton_self _))
  | sends call id json hpc hpacket =>
    refine absurd ?_ hnot
    rw [completes, hpc]
    simp only [sendable, hpacket]
  | registersSlot call id hpc | insertsHandler call id hpc | returnsId id hpc
  | rejects resp hpc hmissing
  | finds resp handler hpc hfound | erases resp hpc | handled hpc =>
    refine absurd ?_ hnot
    rw [completes, hpc]
  | _ => exact absurd rfl hnot

end Tracked

/-- **Unanswered requests.** In a run of an action type, the keys of `active_handlers` are in every state in which the mutex is free the identifiers of the requests that have been sent and not answered, and no handler is called twice for one response, if and only if every request of the run can be sent and no handler of the run throws. -/
theorem exact_iff_completes {acts : List (ActiveHandlersAct Params Result Handler)}
    {s : ActiveHandlers Params Result Handler}
    (hrun : run (step serialize) (init Params Result Handler) acts = some s) :
    Always (step serialize) Exact (init Params Result Handler) acts ↔
      Along (step serialize) (fun s a => s.completes serialize a = true)
        (init Params Result Handler) acts :=
  always_iff_along (fun _ h => h.exact) Tracked.step (fun _ _ _ h => h.not_exact) tracked_init hrun

/-- The text of a request with a single string for its parameters. -/
def serializeText (data : ActionData Str) : Except Exception Str :=
  .ok (ascii "\x7b\"id\":\"ns::name_action\",\"payload\":\x7b\"data.text\":\"" ++ data.data ++
    ascii "\",\"id\":\"" ++ data.id ++
    ascii "\"\x7d\x7d")

/-- One request and its answer. -/
def askAndAnswer : List (ActiveHandlersAct Str Str Nat) :=
  [.async ⟨0, 0, ascii "a"⟩, .generateId (ascii "1"), .next, .next, .next, .next,
    .response 0 (.ofResponse (ascii "1") (ascii "b")), .next, .invoke false, .next, .next]

theorem exact_iff_completes_askAndAnswer :
    ∃ s, run (step serializeText) (init Str Str Nat) askAndAnswer = some s ∧ s.sentIds = [ascii "1"] ∧
      s.consumed = [ascii "1"] ∧
      Always (step serializeText) Exact (init Str Str Nat) askAndAnswer := by
  obtain ⟨s, hrun, hp⟩ := exists_of_any_run (step serializeText) (init Str Str Nat) askAndAnswer
    (fun s => decide (s.sentIds = [ascii "1"] ∧ s.consumed = [ascii "1"])) (by decide +kernel)
  obtain ⟨hsent, hconsumed⟩ := of_decide_eq_true hp
  exact ⟨s, hrun, hsent, hconsumed, (exact_iff_completes hrun).2 (by decide +kernel)⟩

/-- A request too large for the buffer. -/
def askTooMuch : List (ActiveHandlersAct Str Str Nat) :=
  [.async ⟨0, 0, List.replicate maxMessageSize 97⟩, .generateId (ascii "1"), .next, .next, .next]

/-- A handler that throws, and the same response once more. -/
def answerTwice : List (ActiveHandlersAct Str Str Nat) :=
  [.async ⟨0, 0, ascii "a"⟩, .generateId (ascii "1"), .next, .next, .next, .next,
    .response 0 (.ofResponse (ascii "1") (ascii "b")), .next, .invoke true,
    .response 0 (.ofResponse (ascii "1") (ascii "b")), .next, .invoke false, .next, .next]

/-- The call that has thrown keeps its handler in the map, and so does the handler that has thrown, which the second response calls again. -/
theorem exceptions_keep_handlers :
    (∃ s, run (step serializeText) (init Str Str Nat) askTooMuch = some s ∧ s.mutex.isNone = true ∧
      s.thrown.length = 1 ∧ s.sentIds = [] ∧ s.activeHandlers (ascii "1") = some 0 ∧ ¬ Exact s) ∧
    ∃ s, run (step serializeText) (init Str Str Nat) answerTwice = some s ∧ s.mutex.isNone = true ∧
      s.sentIds = [ascii "1"] ∧ s.consumed = [ascii "1", ascii "1"] ∧ ¬ Exact s := by
  constructor
  · obtain ⟨s, hrun, hp⟩ := exists_of_any_run (step serializeText) (init Str Str Nat) askTooMuch
      (fun s => decide (s.mutex.isNone = true ∧ s.thrown.length = 1 ∧ s.sentIds = [] ∧
        s.activeHandlers (ascii "1") = some 0)) (by decide +kernel)
    obtain ⟨hfree, hthrown, hsent, hkept⟩ := of_decide_eq_true hp
    refine ⟨s, hrun, hfree, hthrown, hsent, hkept, fun hexact => ?_⟩
    have hkey :=
      ((hexact.keys (Option.isNone_iff_eq_none.1 hfree) (ascii "1")).1 (by rw [hkept]; rfl)).1
    rw [hsent] at hkey
    cases hkey
  · obtain ⟨s, hrun, hp⟩ := exists_of_any_run (step serializeText) (init Str Str Nat) answerTwice
      (fun s => decide (s.mutex.isNone = true ∧ s.sentIds = [ascii "1"] ∧
        s.consumed = [ascii "1", ascii "1"]))
      (by decide +kernel)
    obtain ⟨hfree, hsent, hconsumed⟩ := of_decide_eq_true hp
    refine ⟨s, hrun, hfree, hsent, hconsumed, fun hexact => ?_⟩
    have honce := hexact.once
    rw [hconsumed] at honce
    simp at honce

end ActiveHandlers

end Libesf.Ipc

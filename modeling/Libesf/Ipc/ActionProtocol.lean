import Libesf.Base.Transition
import Libesf.Base.Pool
import Libesf.Ipc.Action

/-!
# The action protocol

Any number of threads of the client call `async` on any number of action types. A call takes the mutex of its type, makes an identifier, sees to the response slot, stores its handler and sends the request. The server starts a thread for each request; threads finish in any order, and each sends a response. The client's receive thread takes the responses one at a time to the handler stored under their identifier.

The channel is what the IPC layer provides: a message sent is delivered once, in no particular order. `generateId` never repeats itself. The insertion of a slot into the endpoint's map is one step, as it is as long as the threads do not meet there: the map has no lock of its own.
-/

namespace Libesf.Ipc

/-- An identifier of a request of an action type. -/
abbrev Key (A : Type) := A × Str

/-- `ActionData`, with the type it belongs to. -/
structure Request (A Params : Type) where
  action : A
  id : Str
  params : Params
  deriving DecidableEq

/-- `ResponseData`, with the type it belongs to. -/
structure Response (A Result : Type) where
  action : A
  data : ResponseData Result
  deriving DecidableEq

inductive AsyncPc where
  | lock
  | generateId
  | registerSlot (id : Str)
  | insertHandler (id : Str)
  | send (id : Str)
  | unlock (id : Str)
  | returned (id : Str)
  deriving DecidableEq

/-- A call of `async`. Its handler is known by the position of the call. -/
structure Call (A Params : Type) where
  action : A
  params : Params
  pc : AsyncPc
  deriving DecidableEq

/-- A thread of the server: the request it handles, and what the handler returned. -/
structure Worker (A Params Result : Type) where
  request : Request A Params
  result : Option (ResponseOrError Result)

/-- Where the client's receive thread is in `M_responseHandler`. -/
inductive HandlerPc (A Result : Type) where
  | idle
  | lock (resp : Response A Result)
  | find (resp : Response A Result)
  | invoke (resp : Response A Result) (call : Nat)
  | erase (resp : Response A Result)
  | unlock (action : A)

/-- A call of a `ResponseHandler`: whose it is, and what it is called with. -/
structure Invocation (A Result : Type) where
  call : Nat
  action : A
  result : ResponseOrError Result
  id : Str

structure Actions (A Params Result : Type) where
  calls : List (Call A Params)
  /-- `m_mutex` of each action type. -/
  locked : A → Bool
  /-- The response slots of the client's endpoint. -/
  slots : A → Bool
  activeHandlers : Key A → Option Nat
  requests : List (Request A Params)
  /-- The action types the server has registered. -/
  served : A → Bool
  workers : List (Worker A Params Result)
  responses : List (Response A Result)
  handlerPc : HandlerPc A Result
  /-- What the handlers of the server returned. -/
  handled : List (Request A Params × ResponseOrError Result)
  invoked : List (Invocation A Result)
  /-- Messages a receive thread found no slot for, and responses rejected with `BadActionId`. -/
  unserved : List (Request A Params)
  unrouted : List (Response A Result)
  badActionIds : List (Response A Result)

variable {A Params Result : Type}

def Actions.init (A Params Result : Type) : Actions A Params Result where
  calls := []
  locked _ := false
  slots _ := false
  activeHandlers _ := none
  requests := []
  served _ := false
  workers := []
  responses := []
  handlerPc := .idle
  handled := []
  invoked := []
  unserved := []
  unrouted := []
  badActionIds := []

/-- The steps. `call` is the next step of a call, with the identifier `generateId` makes if it is that step's turn. -/
inductive ActionsAct (A Params Result : Type) where
  | async (action : A) (params : Params)
  | call (i : Nat) (id : Str)
  | registerAction (action : A)
  | deliverRequest (i : Nat)
  | handlerReturns (i : Nat) (result : ResponseOrError Result)
  | respond (i : Nat)
  | deliverResponse (i : Nat)
  | handle

def Request.key (req : Request A Params) : Key A := (req.action, req.id)

def Response.key (resp : Response A Result) : Key A := (resp.action, resp.data.id)

def Worker.key (w : Worker A Params Result) : Key A := w.request.key

def Invocation.key (inv : Invocation A Result) : Key A := (inv.action, inv.id)

def AsyncPc.id : AsyncPc → Option Str
  | .lock | .generateId => none
  | .registerSlot id | .insertHandler id | .send id | .unlock id | .returned id => some id

variable [DecidableEq A] [Inhabited Result]

namespace Actions

/-- A step of `async`. -/
def callStep (s : Actions A Params Result) (i : Nat) (newId : Str) :
    Option (Actions A Params Result) := do
  let call ← s.calls[i]?
  let goTo (pc : AsyncPc) := s.calls.set i { call with pc := pc }
  match call.pc with
  | .lock =>
    guard (s.locked call.action = false)
    return { s with locked := Function.update s.locked call.action true, calls := goTo .generateId }
  | .generateId =>
    guard (∀ other ∈ s.calls, other.pc.id ≠ some newId)
    return { s with calls := goTo (.registerSlot newId) }
  | .registerSlot id =>
    return { s with
      slots := Function.update s.slots call.action true, calls := goTo (.insertHandler id) }
  | .insertHandler id =>
    return { s with
      activeHandlers := Function.update s.activeHandlers (call.action, id) (some i),
      calls := goTo (.send id) }
  | .send id =>
    return { s with
      requests := s.requests ++ [⟨call.action, id, call.params⟩], calls := goTo (.unlock id) }
  | .unlock id =>
    return { s with
      locked := Function.update s.locked call.action false, calls := goTo (.returned id) }
  | .returned _ => none

/-- A step of `M_responseHandler`. -/
def handleStep (s : Actions A Params Result) : Option (Actions A Params Result) :=
  match s.handlerPc with
  | .idle => none
  | .lock resp => do
    guard (s.locked resp.action = false)
    return { s with locked := Function.update s.locked resp.action true, handlerPc := .find resp }
  | .find resp =>
    match s.activeHandlers resp.key with
    | none =>
      some { s with badActionIds := s.badActionIds ++ [resp], handlerPc := .unlock resp.action }
    | some call => some { s with handlerPc := .invoke resp call }
  | .invoke resp call =>
    some { s with
      invoked := s.invoked ++ [⟨call, resp.action, resp.data.result, resp.data.id⟩],
      handlerPc := .erase resp }
  | .erase resp =>
    some { s with
      activeHandlers := Function.update s.activeHandlers resp.key none,
      handlerPc := .unlock resp.action }
  | .unlock action =>
    some { s with locked := Function.update s.locked action false, handlerPc := .idle }

def step (s : Actions A Params Result) : ActionsAct A Params Result → Option (Actions A Params Result)
  | .async action params => some { s with calls := s.calls ++ [⟨action, params, .lock⟩] }
  | .call i id => s.callStep i id
  | .registerAction action => some { s with served := Function.update s.served action true }
  | .deliverRequest i => do
    let req ← s.requests[i]?
    let s := { s with requests := s.requests.eraseIdx i }
    return if s.served req.action then { s with workers := s.workers ++ [⟨req, none⟩] }
      else { s with unserved := s.unserved ++ [req] }
  | .handlerReturns i result => do
    let w ← s.workers[i]?
    guard (w.result.isNone)
    return { s with
      workers := s.workers.set i ⟨w.request, some result⟩,
      handled := s.handled ++ [(w.request, result)] }
  | .respond i => do
    let w ← s.workers[i]?
    let result ← w.result
    return { s with
      workers := s.workers.eraseIdx i
      responses := s.responses ++ [⟨w.request.action, .ofResult w.request.id result⟩] }
  | .deliverResponse i => do
    let resp ← s.responses[i]?
    let .idle := s.handlerPc | none
    let s := { s with responses := s.responses.eraseIdx i }
    return if s.slots resp.action then { s with handlerPc := .lock resp }
      else { s with unrouted := s.unrouted ++ [resp] }
  | .handle => s.handleStep

/-! ### What a step does -/

inductive Move (s : Actions A Params Result) :
    ActionsAct A Params Result → Actions A Params Result → Prop where
  | async (action : A) (params : Params) :
      Move s (.async action params) { s with calls := s.calls ++ [⟨action, params, .lock⟩] }
  | callLocks (i : Nat) (newId : Str) (call : Call A Params) (hcall : s.calls[i]? = some call)
      (hpc : call.pc = .lock)
      (hfree : s.locked call.action = false) :
      Move s (.call i newId)
        { s with
          locked := Function.update s.locked call.action true
          calls := s.calls.set i { call with pc := .generateId } }
  | callGeneratesId (i : Nat) (newId : Str) (call : Call A Params) (hcall : s.calls[i]? = some call)
      (hpc : call.pc = .generateId) (hfresh : ∀ other ∈ s.calls, other.pc.id ≠ some newId) :
      Move s (.call i newId) { s with calls := s.calls.set i { call with pc := .registerSlot newId } }
  | callRegistersSlot (i : Nat) (newId : Str) (call : Call A Params) (id : Str)
      (hcall : s.calls[i]? = some call)
      (hpc : call.pc = .registerSlot id) :
      Move s (.call i newId)
        { s with
          slots := Function.update s.slots call.action true
          calls := s.calls.set i { call with pc := .insertHandler id } }
  | callInsertsHandler (i : Nat) (newId : Str) (call : Call A Params) (id : Str)
      (hcall : s.calls[i]? = some call)
      (hpc : call.pc = .insertHandler id) :
      Move s (.call i newId)
        { s with
          activeHandlers := Function.update s.activeHandlers (call.action, id) (some i)
          calls := s.calls.set i { call with pc := .send id } }
  | callSends (i : Nat) (newId : Str) (call : Call A Params) (id : Str)
      (hcall : s.calls[i]? = some call)
      (hpc : call.pc = .send id) :
      Move s (.call i newId)
        { s with
          requests := s.requests ++ [⟨call.action, id, call.params⟩]
          calls := s.calls.set i { call with pc := .unlock id } }
  | callUnlocks (i : Nat) (newId : Str) (call : Call A Params) (id : Str)
      (hcall : s.calls[i]? = some call)
      (hpc : call.pc = .unlock id) :
      Move s (.call i newId)
        { s with
          locked := Function.update s.locked call.action false
          calls := s.calls.set i { call with pc := .returned id } }
  | registerAction (action : A) :
      Move s (.registerAction action) { s with served := Function.update s.served action true }
  | requestServed (i : Nat) (req : Request A Params) (hreq : s.requests[i]? = some req)
      (hserved : s.served req.action = true) :
      Move s (.deliverRequest i) { s with
        requests := s.requests.eraseIdx i, workers := s.workers ++ [⟨req, none⟩] }
  | requestUnserved (i : Nat) (req : Request A Params) (hreq : s.requests[i]? = some req)
      (hserved : s.served req.action = false) :
      Move s (.deliverRequest i) { s with
        requests := s.requests.eraseIdx i, unserved := s.unserved ++ [req] }
  | handlerReturns (i : Nat) (result : ResponseOrError Result) (req : Request A Params)
      (hw : s.workers[i]? = some ⟨req, none⟩) :
      Move s (.handlerReturns i result)
        { s with
          workers := s.workers.set i ⟨req, some result⟩, handled := s.handled ++ [(req, result)] }
  | respond (i : Nat) (req : Request A Params) (result : ResponseOrError Result)
      (hw : s.workers[i]? = some ⟨req, some result⟩) :
      Move s (.respond i)
        { s with
          workers := s.workers.eraseIdx i
          responses := s.responses ++ [⟨req.action, .ofResult req.id result⟩] }
  | responseRouted (i : Nat) (resp : Response A Result) (hresp : s.responses[i]? = some resp)
      (hpc : s.handlerPc = .idle)
      (hslot : s.slots resp.action = true) :
      Move s (.deliverResponse i) { s with
        responses := s.responses.eraseIdx i, handlerPc := .lock resp }
  | responseUnrouted (i : Nat) (resp : Response A Result) (hresp : s.responses[i]? = some resp)
      (hpc : s.handlerPc = .idle) (hslot : s.slots resp.action = false) :
      Move s (.deliverResponse i)
        { s with
          responses := s.responses.eraseIdx i, handlerPc := .idle, unrouted := s.unrouted ++ [resp] }
  | handlerLocks (resp : Response A Result) (hpc : s.handlerPc = .lock resp)
      (hfree : s.locked resp.action = false) :
      Move s .handle { s with
        locked := Function.update s.locked resp.action true, handlerPc := .find resp }
  | handlerFinds (resp : Response A Result) (call : Nat) (hpc : s.handlerPc = .find resp)
      (hfound : s.activeHandlers resp.key = some call) :
      Move s .handle { s with handlerPc := .invoke resp call }
  | handlerThrows (resp : Response A Result) (hpc : s.handlerPc = .find resp)
      (hmissing : s.activeHandlers resp.key = none) :
      Move s .handle { s with
        badActionIds := s.badActionIds ++ [resp], handlerPc := .unlock resp.action }
  | handlerInvokes (resp : Response A Result) (call : Nat) (hpc : s.handlerPc = .invoke resp call) :
      Move s .handle
        { s with
          invoked := s.invoked ++ [⟨call, resp.action, resp.data.result, resp.data.id⟩]
          handlerPc := .erase resp }
  | handlerErases (resp : Response A Result) (hpc : s.handlerPc = .erase resp) :
      Move s .handle
        { s with
          activeHandlers := Function.update s.activeHandlers resp.key none
          handlerPc := .unlock resp.action }
  | handlerUnlocks (action : A) (hpc : s.handlerPc = .unlock action) :
      Move s .handle { s with locked := Function.update s.locked action false, handlerPc := .idle }

private theorem move_of_callStep {s t : Actions A Params Result} {i : Nat} {newId : Str}
    (h : s.callStep i newId = some t) : Move s (.call i newId) t := by
  obtain ⟨call, hcall, h⟩ := Option.bind_eq_some_iff.1 h
  cases hpc : call.pc with
  | lock =>
    rw [hpc] at h
    obtain ⟨_, hfree, h⟩ := Option.bind_eq_some_iff.1 h
    exact Option.some.inj h ▸ .callLocks i newId call hcall hpc ((Option.guard_eq_some' _).1 hfree)
  | generateId =>
    rw [hpc] at h
    obtain ⟨_, hfresh, h⟩ := Option.bind_eq_some_iff.1 h
    exact Option.some.inj h ▸ .callGeneratesId i newId call hcall hpc
      ((Option.guard_eq_some' _).1 hfresh)
  | registerSlot id =>
    rw [hpc] at h
    exact Option.some.inj h ▸ .callRegistersSlot i newId call id hcall hpc
  | insertHandler id =>
    rw [hpc] at h
    exact Option.some.inj h ▸ .callInsertsHandler i newId call id hcall hpc
  | send id =>
    rw [hpc] at h
    exact Option.some.inj h ▸ .callSends i newId call id hcall hpc
  | unlock id =>
    rw [hpc] at h
    exact Option.some.inj h ▸ .callUnlocks i newId call id hcall hpc
  | returned id =>
    rw [hpc] at h
    cases h

private theorem move_of_handleStep {s t : Actions A Params Result} (h : s.handleStep = some t) :
    Move s .handle t := by
  unfold handleStep at h
  split at h
  · cases h
  · next resp hpc =>
    obtain ⟨_, hfree, h⟩ := Option.bind_eq_some_iff.1 h
    exact Option.some.inj h ▸ .handlerLocks resp hpc ((Option.guard_eq_some' _).1 hfree)
  · next resp hpc =>
    split at h
    · next hmissing => exact Option.some.inj h ▸ .handlerThrows resp hpc hmissing
    · next call hfound => exact Option.some.inj h ▸ .handlerFinds resp call hpc hfound
  · next resp call hpc => exact Option.some.inj h ▸ .handlerInvokes resp call hpc
  · next resp hpc => exact Option.some.inj h ▸ .handlerErases resp hpc
  · next action hpc => exact Option.some.inj h ▸ .handlerUnlocks action hpc

theorem move_of_step {s t : Actions A Params Result} {a : ActionsAct A Params Result}
    (h : s.step a = some t) : Move s a t := by
  cases a with
  | async action params => exact Option.some.inj h ▸ .async action params
  | call i newId => exact move_of_callStep h
  | registerAction action => exact Option.some.inj h ▸ .registerAction action
  | deliverRequest i =>
    obtain ⟨req, hreq, h⟩ := Option.bind_eq_some_iff.1 h
    rw [← Option.some.inj h]
    cases hserved : s.served req.action with
    | true =>
      simp only [if_true]
      exact .requestServed i req hreq hserved
    | false =>
      simp only [Bool.false_eq_true, if_false]
      exact .requestUnserved i req hreq hserved
  | handlerReturns i result =>
    obtain ⟨⟨req, res⟩, hw, h⟩ := Option.bind_eq_some_iff.1 h
    obtain ⟨_, hrunning, h⟩ := Option.bind_eq_some_iff.1 h
    obtain rfl : res = none := Option.isNone_iff_eq_none.1 ((Option.guard_eq_some' _).1 hrunning)
    exact Option.some.inj h ▸ .handlerReturns i result req hw
  | respond i =>
    obtain ⟨⟨req, res⟩, hw, h⟩ := Option.bind_eq_some_iff.1 h
    obtain ⟨result, hresult, h⟩ := Option.bind_eq_some_iff.1 h
    obtain rfl : res = some result := hresult
    exact Option.some.inj h ▸ .respond i req result hw
  | deliverResponse i =>
    obtain ⟨resp, hresp, h⟩ := Option.bind_eq_some_iff.1 h
    cases hpc : s.handlerPc with
    | idle =>
      rw [hpc] at h
      rw [← Option.some.inj h]
      cases hslot : s.slots resp.action with
      | true =>
        simp only [if_true]
        exact .responseRouted i resp hresp hpc hslot
      | false =>
        simp only [Bool.false_eq_true, if_false]
        exact .responseUnrouted i resp hresp hpc hslot
    | _ =>
      rw [hpc] at h
      cases h
  | handle => exact move_of_handleStep h

end Actions

end Libesf.Ipc

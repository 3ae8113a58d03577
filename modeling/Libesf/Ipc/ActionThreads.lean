import Libesf.Ipc.ActionProtocol
import Libesf.Ipc.Operating

/-!
# The threads of the action protocol

`ActionProtocol` takes the channel for granted and the handlers for instantaneous. Here are the threads as they block: the callers of `async`, the server's receive thread and the thread it starts for each request, and the client's receive thread, which holds the buffer and the mutex of the action type while it runs a response handler, and runs whatever calls of `async` the handler makes. Both directions are the channels of `Endpoint`, semaphore by semaphore.

The identifier of a request, the results of the handlers and what they do are labels. `MessageFactory` is a parameter.

The mutex of an action type does not protect the endpoint: `async` inserts the response slot of its type into `m_slots`, a map that all types share and that has no lock, while other types do the same and the receive thread looks a slot up. Here an insertion is one step. `Defined` says in which states this is what the code does, and `definedStep` takes the steps from these only.
-/

namespace Libesf.Ipc

/-- What `MessageFactory` makes of the two messages of an action type, and the type's name. -/
structure Codec (A Params Result : Type) where
  name : A → Str
  serializeRequest : Request A Params → Except Exception Str
  serializeResponse : Response A Result → Except Exception Str
  constructRequest : Str → Except RecoverableException (Request A Params)
  constructResponse : Str → Except RecoverableException (Response A Result)

/-- Where a call of `async` is; in `Endpoint::send` it is an entry of the channel. -/
inductive CallPc where
  | lock
  | generateId
  | registerSlot (id : Str)
  | insertHandler (id : Str)
  | send (id : Str)
  | sending (entry : Nat)
  | unlock
  | finished
  deriving DecidableEq

structure CallThread (A Params : Type) where
  action : A
  params : Params
  pc : CallPc
  deriving DecidableEq

inductive ServerPc (Result : Type) where
  | handling
  | send (result : ResponseOrError Result)
  | sending (entry : Nat)

/-- A thread of `ActionServer::registerAction`. -/
structure ServerThread (A Params Result : Type) where
  request : Request A Params
  pc : ServerPc Result

/-- Where the client's receive thread is while its channel is in `dispatch`: `running` is inside the response handler, `nested` inside an `async` the handler calls. -/
inductive SlotPc (A Params Result : Type) where
  | idle
  | lock (resp : Response A Result)
  | find (resp : Response A Result)
  | running (resp : Response A Result)
  | nested (resp : Response A Result) (call : CallThread A Params)
  | erase (resp : Response A Result)
  | unlock (resp : Response A Result)

structure ActionThreads (A Params Result : Type) where
  /-- From the client to the server. -/
  up : Channel (Request A Params)
  /-- From the server to the client. -/
  down : Channel (Response A Result)
  calls : List (CallThread A Params)
  /-- `m_mutex` of each action type. -/
  locked : A → Bool
  /-- The response slots of the client's endpoint. -/
  slots : A → Bool
  /-- Whether a handler is stored under an identifier. -/
  activeHandlers : Key A → Bool
  /-- The action types the server has registered. -/
  served : A → Bool
  workers : List (ServerThread A Params Result)
  slotPc : SlotPc A Params Result

/-- `async` and `registerAction` are new calls from outside, `handlerCalls` is a new call from inside a response handler. -/
inductive ThreadsAct (A Params Result : Type) where
  | async (action : A) (params : Params)
  | registerAction (action : A)
  | call (i : Nat) (id : Str)
  | sendRequest (entry : Nat)
  | serverReceive
  | serverHandlerReturns (i : Nat) (result : ResponseOrError Result)
  | respond (i : Nat)
  | sendResponse (entry : Nat)
  | clientReceive
  | handle
  | handlerCalls (action : A) (params : Params)
  | nestedCall (id : Str)
  | handlerReturns (throws : Option RecoverableException)

variable {A Params Result : Type}

def notConnected (name kind : Str) : RecoverableException :=
  .dataFormatException (ascii "IPC message type `" ++ name ++ kind ++
    ascii "`is not connected to any slot")

def badActionId (name id : Str) : RecoverableException :=
  .badActionId (ascii "unknown response id in command " ++ name ++ ascii " (" ++ id ++ ascii ")")

namespace ActionThreads

def init (A Params Result : Type) (serverExcHandler clientExcHandler : Bool) :
    ActionThreads A Params Result where
  up := .init _ true serverExcHandler
  down := .init _ true clientExcHandler
  calls := []
  locked _ := false
  slots _ := false
  activeHandlers _ := false
  served _ := false
  workers := []
  slotPc := .idle

variable [DecidableEq A] [Inhabited Result] (codec : Codec A Params Result)

/-- A step of `async`, by whichever thread. -/
def callStep (s : ActionThreads A Params Result) (call : CallThread A Params) (id : Str) :
    Option (ActionThreads A Params Result × CallThread A Params) :=
  match call.pc with
  | .lock =>
    if s.locked call.action then none
    else some ({ s with locked := Function.update s.locked call.action true },
      { call with pc := .generateId })
  | .generateId => some (s, { call with pc := .registerSlot id })
  | .registerSlot id =>
    some ({ s with slots := Function.update s.slots call.action true },
      { call with pc := .insertHandler id })
  | .insertHandler id =>
    some ({ s with activeHandlers := Function.update s.activeHandlers (call.action, id) true },
      { call with pc := .send id })
  | .send id => do
    let up ← s.up.step codec.serializeRequest (.call ⟨call.action, id, call.params⟩)
    return ({ s with up }, { call with pc := .sending s.up.sends.length })
  | .sending entry =>
    match s.up.sends[entry]? with
    | some .returned | some (.thrown _) => some (s, { call with pc := .unlock })
    | _ => none
  | .unlock =>
    some ({ s with locked := Function.update s.locked call.action false },
      { call with pc := .finished })
  | .finished => none

/-- A step of the server's receive thread on its channel. -/
def receiveUp (s : ActionThreads A Params Result) (outcome : Except RecoverableException Unit) :
    Option (ActionThreads A Params Result) := do
  let up ← s.up.step codec.serializeRequest (.receive outcome)
  return { s with up }

/-- The server's receive thread. What it does with a text cannot block: the slot only starts a thread. -/
def serverReceive (s : ActionThreads A Params Result) : Option (ActionThreads A Params Result) :=
  if s.up.receiver = some .dispatch then
    match codec.constructRequest (s.up.received.getLast?.getD []) with
    | .error exc => s.receiveUp codec (.error exc)
    | .ok req =>
      if s.served req.action then
        { s with workers := s.workers ++ [ServerThread.mk req .handling] }.receiveUp codec (.ok ())
      else s.receiveUp codec (.error (notConnected (codec.name req.action) (ascii "_action")))
  else s.receiveUp codec (.ok ())

/-- A step of a thread of the server. It ends when its `send` has returned; an exception there ends the process. -/
def workerStep (s : ActionThreads A Params Result) (i : Nat) :
    Option (ActionThreads A Params Result) := do
  let w ← s.workers[i]?
  match w.pc with
  | .handling => none
  | .send result =>
    let down ← s.down.step codec.serializeResponse
      (.call ⟨w.request.action, .ofResult w.request.id result⟩)
    return { s with down, workers := s.workers.set i { w with pc := .sending s.down.sends.length } }
  | .sending entry =>
    match s.down.sends[entry]? with
    | some .returned => return { s with workers := s.workers.eraseIdx i }
    | _ => none

/-- A step of the client's receive thread on its channel, outside of the slots. -/
def receiveDown (s : ActionThreads A Params Result) (outcome : Except RecoverableException Unit) :
    Option (ActionThreads A Params Result) := do
  let down ← s.down.step codec.serializeResponse (.receive outcome)
  return { s with down, slotPc := .idle }

/-- The client's receive thread, with its slot idle. -/
def clientReceive (s : ActionThreads A Params Result) : Option (ActionThreads A Params Result) :=
  match s.slotPc with
  | .idle =>
    if s.down.receiver = some .dispatch then
      match codec.constructResponse (s.down.received.getLast?.getD []) with
      | .error exc => s.receiveDown codec (.error exc)
      | .ok resp =>
        if s.slots resp.action then some { s with slotPc := .lock resp }
        else s.receiveDown codec (.error (notConnected (codec.name resp.action) (ascii "_response")))
    else s.receiveDown codec (.ok ())
  | _ => none

/-- The lock guard of `M_responseHandler` goes out of scope. -/
def release (s : ActionThreads A Params Result) (action : A) : ActionThreads A Params Result :=
  { s with locked := Function.update s.locked action false }

/-- A step of `M_responseHandler` but for the handler it calls. -/
def handle (s : ActionThreads A Params Result) : Option (ActionThreads A Params Result) :=
  match s.slotPc with
  | .lock resp =>
    if s.locked resp.action then none
    else some { s with locked := Function.update s.locked resp.action true, slotPc := .find resp }
  | .find resp =>
    if s.activeHandlers resp.key then some { s with slotPc := .running resp }
    else (s.release resp.action).receiveDown codec
      (.error (badActionId (codec.name resp.action) resp.data.id))
  | .erase resp =>
    some { s with
      activeHandlers := Function.update s.activeHandlers resp.key false, slotPc := .unlock resp }
  | .unlock resp => (s.release resp.action).receiveDown codec (.ok ())
  | .idle | .running _ | .nested _ _ => none

def step (s : ActionThreads A Params Result) :
    ThreadsAct A Params Result → Option (ActionThreads A Params Result)
  | .async action params => some { s with calls := s.calls ++ [⟨action, params, .lock⟩] }
  | .registerAction action => some { s with served := Function.update s.served action true }
  | .call i id => do
    let call ← s.calls[i]?
    let (s, call) ← s.callStep codec call id
    return { s with calls := s.calls.set i call }
  | .sendRequest entry => do
    let up ← s.up.step codec.serializeRequest (.send entry)
    return { s with up }
  | .serverReceive => s.serverReceive codec
  | .serverHandlerReturns i result =>
    match s.workers[i]? with
    | some ⟨req, .handling⟩ => some { s with workers := s.workers.set i ⟨req, .send result⟩ }
    | _ => none
  | .respond i => s.workerStep codec i
  | .sendResponse entry => do
    let down ← s.down.step codec.serializeResponse (.send entry)
    return { s with down }
  | .clientReceive => s.clientReceive codec
  | .handle => s.handle codec
  | .handlerCalls action params =>
    match s.slotPc with
    | .running resp => some { s with slotPc := .nested resp ⟨action, params, .lock⟩ }
    | _ => none
  | .nestedCall id =>
    match s.slotPc with
    | .nested resp call => do
      let (s, call) ← s.callStep codec call id
      return { s with slotPc := if call.pc = .finished then .running resp else .nested resp call }
    | _ => none
  | .handlerReturns throws =>
    match s.slotPc with
    | .running resp =>
      match throws with
      | none => some { s with slotPc := .erase resp }
      | some exc => (s.release resp.action).receiveDown codec (.error exc)
    | _ => none

end ActionThreads

/-! ### A map without a lock -/

namespace ActionThreads

variable [DecidableEq A] [Inhabited Result]

/-- The next step of the call inserts a slot. -/
def inserts (s : ActionThreads A Params Result) (call : CallThread A Params) : Bool :=
  match call.pc with
  | .registerSlot _ => !s.slots call.action
  | _ => false

/-- How many threads are about to insert a slot: those of `calls`, and the receive thread in a response handler. -/
def inserting (s : ActionThreads A Params Result) : Nat :=
  s.calls.countP s.inserts +
    match s.slotPc with
    | .nested _ call => (s.inserts call).toNat
    | _ => 0

/-- The client's receive thread is about to look a slot up. -/
def looksUp (s : ActionThreads A Params Result) : Bool :=
  match s.slotPc with
  | .idle => decide (s.down.receiver = some .dispatch)
  | _ => false

/-- A thread that is about to insert a slot is alone with `m_slots`; and `registerAction`, which one thread at a time calls, leaves the server's map alone while the server's receive thread is in its `try` block. -/
def Defined (s : ActionThreads A Params Result) (a : ThreadsAct A Params Result) : Prop :=
  s.inserting + s.looksUp.toNat ≤ 1 ∧
    match a with
    | .registerAction _ => s.up.receiver ≠ some .dispatch
    | _ => True

instance (s : ActionThreads A Params Result) (a : ThreadsAct A Params Result) :
    Decidable (s.Defined a) := by
  unfold Defined
  cases a <;> infer_instance

/-- A step from a state in which two threads are about to use a map and one of them to change it has no meaning. -/
def definedStep (codec : Codec A Params Result) (s : ActionThreads A Params Result)
    (a : ThreadsAct A Params Result) : Option (ActionThreads A Params Result) :=
  if s.Defined a then s.step codec a else none

theorem step_of_definedStep (codec : Codec A Params Result) (s : ActionThreads A Params Result)
    (a : ThreadsAct A Params Result) (t : ActionThreads A Params Result)
    (h : s.definedStep codec a = some t) : s.step codec a = some t :=
  (Option.ite_none_right_eq_some.1 h).2

end ActionThreads

/-! ### Who holds a mutex -/

/-- Between the lock guard's two ends. -/
def CallPc.inside : CallPc → Bool
  | .lock | .finished => false
  | .generateId | .registerSlot _ | .insertHandler _ | .send _ | .sending _ | .unlock => true

def CallThread.Holds (call : CallThread A Params) (action : A) : Prop :=
  call.action = action ∧ call.pc.inside = true

def SlotPc.Holds : SlotPc A Params Result → A → Prop
  | .idle, _ | .lock _, _ => False
  | .find resp, action | .running resp, action | .erase resp, action | .unlock resp, action =>
    resp.action = action
  | .nested resp call, action => resp.action = action ∨ call.Holds action

def ActionThreads.Holds (s : ActionThreads A Params Result) (action : A) : Prop :=
  (∃ call ∈ s.calls, call.Holds action) ∨ s.slotPc.Holds action

/-! ### What a step does -/

namespace ActionThreads

variable [DecidableEq A] [Inhabited Result] {codec : Codec A Params Result}
    {s t : ActionThreads A Params Result}

/-- What a step of a call does, whichever thread makes it: it may start a `send`, and only the mutex of its own type is touched. -/
structure CallMove (codec : Codec A Params Result) (s : ActionThreads A Params Result)
    (call : CallThread A Params) (t : ActionThreads A Params Result)
    (call' : CallThread A Params) : Prop where
  down : t.down = s.down
  calls : t.calls = s.calls
  workers : t.workers = s.workers
  slotPc : t.slotPc = s.slotPc
  up : t.up = s.up ∨ ∃ req, s.up.step codec.serializeRequest (.call req) = some t.up
  action : call'.action = call.action
  entry : ∀ entry, call'.pc = .sending entry → entry < t.up.sends.length
  locked : ∀ a, t.locked a = true → call'.Holds a ∨ s.locked a = true ∧ ¬ call.Holds a

omit [Inhabited Result] in
theorem callMove_of_callStep {call call' : CallThread A Params} {id : Str}
    (h : s.callStep codec call id = some (t, call')) : CallMove codec s call t call' := by
  have hkeep : ∀ {pc : CallPc}, call.pc.inside = true → pc.inside = true → ∀ a, s.locked a = true →
      ({ call with pc := pc } : CallThread A Params).Holds a ∨ s.locked a = true ∧
      ¬ call.Holds a := by
    intro pc hold hnew a ha
    by_cases hown : call.action = a
    · exact .inl ⟨hown, hnew⟩
    · exact .inr ⟨ha, fun hholds => hown hholds.1⟩
  unfold callStep at h
  cases hpc : call.pc with
  | lock =>
    simp only [hpc] at h
    split at h
    · cases h
    · obtain ⟨rfl, rfl⟩ := Prod.mk.inj (Option.some.inj h)
      refine ⟨rfl, rfl, rfl, rfl, .inl rfl, rfl, nofun, fun a ha => ?_⟩
      by_cases hown : call.action = a
      · exact .inl ⟨hown, rfl⟩
      · refine .inr ⟨?_, fun hholds => hown hholds.1⟩
        dsimp only at ha
        rwa [Function.update_of_ne (Ne.symm hown)] at ha
  | generateId =>
    simp only [hpc] at h
    obtain ⟨rfl, rfl⟩ := Prod.mk.inj (Option.some.inj h)
    exact ⟨rfl, rfl, rfl, rfl, .inl rfl, rfl, nofun, hkeep (by rw [hpc]; rfl) rfl⟩
  | registerSlot id =>
    simp only [hpc] at h
    obtain ⟨rfl, rfl⟩ := Prod.mk.inj (Option.some.inj h)
    exact ⟨rfl, rfl, rfl, rfl, .inl rfl, rfl, nofun, hkeep (by rw [hpc]; rfl) rfl⟩
  | insertHandler id =>
    simp only [hpc] at h
    obtain ⟨rfl, rfl⟩ := Prod.mk.inj (Option.some.inj h)
    exact ⟨rfl, rfl, rfl, rfl, .inl rfl, rfl, nofun, hkeep (by rw [hpc]; rfl) rfl⟩
  | send id =>
    simp only [hpc] at h
    obtain ⟨up, hup, h⟩ := Option.bind_eq_some_iff.1 h
    obtain ⟨rfl, rfl⟩ := Prod.mk.inj (Option.some.inj h)
    refine ⟨rfl, rfl, rfl, rfl, .inr ⟨_, hup⟩, rfl, fun entry hentry => ?_,
      hkeep (by rw [hpc]; rfl) rfl⟩
    obtain rfl := CallPc.sending.inj hentry
    obtain rfl := Option.some.inj hup
    change s.up.sends.length < (s.up.sends ++ [_]).length
    rw [List.length_append]
    exact Nat.lt_succ_self _
  | sending entry =>
    simp only [hpc] at h
    split at h
    · obtain ⟨rfl, rfl⟩ := Prod.mk.inj (Option.some.inj h)
      exact ⟨rfl, rfl, rfl, rfl, .inl rfl, rfl, nofun, hkeep (by rw [hpc]; rfl) rfl⟩
    · obtain ⟨rfl, rfl⟩ := Prod.mk.inj (Option.some.inj h)
      exact ⟨rfl, rfl, rfl, rfl, .inl rfl, rfl, nofun, hkeep (by rw [hpc]; rfl) rfl⟩
    · cases h
  | unlock =>
    simp only [hpc] at h
    obtain ⟨rfl, rfl⟩ := Prod.mk.inj (Option.some.inj h)
    refine ⟨rfl, rfl, rfl, rfl, .inl rfl, rfl, nofun, fun a ha => .inr ?_⟩
    dsimp only at ha
    by_cases hown : a = call.action
    · rw [hown, Function.update_self] at ha
      cases ha
    · rw [Function.update_of_ne hown] at ha
      exact ⟨ha, fun hholds => hown hholds.1.symm⟩
  | finished =>
    simp only [hpc] at h
    cases h

inductive Move (codec : Codec A Params Result) (s : ActionThreads A Params Result) :
    ThreadsAct A Params Result → ActionThreads A Params Result → Prop where
  | async (action : A) (params : Params) :
      Move codec s (.async action params) { s with calls := s.calls ++ [⟨action, params, .lock⟩] }
  | registerAction (action : A) :
      Move codec s (.registerAction action) { s with served := Function.update s.served action true }
  | call (i : Nat) (id : Str) (call call' : CallThread A Params) (u : ActionThreads A Params Result)
      (hcall : s.calls[i]? = some call) (hmove : CallMove codec s call u call') :
      Move codec s (.call i id) { u with calls := u.calls.set i call' }
  | sendRequest (entry : Nat) (up : Channel (Request A Params))
      (hup : s.up.step codec.serializeRequest (.send entry) = some up) :
      Move codec s (.sendRequest entry) { s with up }
  | serverReceive (outcome : Except RecoverableException Unit) (up : Channel (Request A Params))
      (hup : s.up.step codec.serializeRequest (.receive outcome) = some up) :
      Move codec s .serverReceive { s with up }
  | serverServes (req : Request A Params) (up : Channel (Request A Params))
      (hup : s.up.step codec.serializeRequest (.receive (.ok ())) = some up) :
      Move codec s .serverReceive { s with up, workers := s.workers ++ [⟨req, .handling⟩] }
  | serverHandlerReturns (i : Nat) (result : ResponseOrError Result) (req : Request A Params)
      (hw : s.workers[i]? = some ⟨req, .handling⟩) :
      Move codec s (.serverHandlerReturns i result) { s with
        workers := s.workers.set i ⟨req, .send result⟩ }
  | workerSends (i : Nat) (req : Request A Params) (result : ResponseOrError Result)
      (down : Channel (Response A Result))
      (hw : s.workers[i]? = some ⟨req, .send result⟩)
      (hdown : s.down.step codec.serializeResponse (.call ⟨req.action, .ofResult req.id result⟩) =
        some down) :
      Move codec s (.respond i) { s with
        down, workers := s.workers.set i ⟨req, .sending s.down.sends.length⟩ }
  | workerEnds (i : Nat) (req : Request A Params) (entry : Nat)
      (hw : s.workers[i]? = some ⟨req, .sending entry⟩) :
      Move codec s (.respond i) { s with workers := s.workers.eraseIdx i }
  | sendResponse (entry : Nat) (down : Channel (Response A Result))
      (hdown : s.down.step codec.serializeResponse (.send entry) = some down) :
      Move codec s (.sendResponse entry) { s with down }
  | clientReceive (outcome : Except RecoverableException Unit) (down : Channel (Response A Result))
      (hidle : s.slotPc = .idle)
      (hdown : s.down.step codec.serializeResponse (.receive outcome) = some down) :
      Move codec s .clientReceive { s with down, slotPc := .idle }
  | slotCalled (resp : Response A Result) (hidle : s.slotPc = .idle)
      (hdispatch : s.down.receiver = some .dispatch) :
      Move codec s .clientReceive { s with slotPc := .lock resp }
  | slotLocks (resp : Response A Result) (hpc : s.slotPc = .lock resp)
      (hfree : s.locked resp.action = false) :
      Move codec s .handle { s with
        locked := Function.update s.locked resp.action true, slotPc := .find resp }
  | slotFinds (resp : Response A Result) (hpc : s.slotPc = .find resp) :
      Move codec s .handle { s with slotPc := .running resp }
  | slotErases (resp : Response A Result) (hpc : s.slotPc = .erase resp) :
      Move codec s .handle
        { s with
          activeHandlers := Function.update s.activeHandlers resp.key false, slotPc := .unlock resp }
  | slotLeft (a : ThreadsAct A Params Result) (resp : Response A Result)
      (outcome : Except RecoverableException Unit)
      (down : Channel (Response A Result)) (hown : ∀ action, s.slotPc.Holds action →
        resp.action = action)
      (hdown : s.down.step codec.serializeResponse (.receive outcome) = some down) :
      Move codec s a { s with
        locked := Function.update s.locked resp.action false, down, slotPc := .idle }
  | handlerCalls (action : A) (params : Params) (resp : Response A Result)
      (hpc : s.slotPc = .running resp) :
      Move codec s (.handlerCalls action params) { s with
        slotPc := .nested resp ⟨action, params, .lock⟩ }
  | nestedCall (id : Str) (resp : Response A Result) (call call' : CallThread A Params)
      (u : ActionThreads A Params Result)
      (hpc : s.slotPc = .nested resp call) (hmove : CallMove codec s call u call') :
      Move codec s (.nestedCall id)
        { u with slotPc := if call'.pc = .finished then .running resp else .nested resp call' }
  | handlerReturns (resp : Response A Result) (hpc : s.slotPc = .running resp) :
      Move codec s (.handlerReturns none) { s with slotPc := .erase resp }

private theorem move_of_serverReceive (h : s.serverReceive codec = some t) :
    Move codec s .serverReceive t := by
  have hreceive : ∀ {s t : ActionThreads A Params Result} {outcome :
      Except RecoverableException Unit}, s.receiveUp codec outcome = some t →
        ∃ up, s.up.step codec.serializeRequest (.receive outcome) = some up ∧ { s with up } = t := by
    intro s t outcome h
    obtain ⟨up, hup, ht⟩ := Option.bind_eq_some_iff.1 h
    exact ⟨up, hup, Option.some.inj ht⟩
  unfold serverReceive at h
  split at h
  · split at h
    · obtain ⟨up, hup, rfl⟩ := hreceive h
      exact .serverReceive _ up hup
    · next req _ =>
      split at h
      · obtain ⟨up, hup, rfl⟩ := hreceive h
        exact .serverServes req up hup
      · obtain ⟨up, hup, rfl⟩ := hreceive h
        exact .serverReceive _ up hup
  · obtain ⟨up, hup, rfl⟩ := hreceive h
    exact .serverReceive _ up hup

omit [DecidableEq A] [Inhabited Result] in
private theorem exists_of_receiveDown {outcome : Except RecoverableException Unit}
    (h : s.receiveDown codec outcome = some t) :
    ∃ down, s.down.step codec.serializeResponse (.receive outcome) = some down ∧
      { s with down, slotPc := .idle } = t := by
  obtain ⟨down, hdown, ht⟩ := Option.bind_eq_some_iff.1 h
  exact ⟨down, hdown, Option.some.inj ht⟩

private theorem move_of_workerStep {i : Nat} (h : s.workerStep codec i = some t) :
    Move codec s (.respond i) t := by
  obtain ⟨⟨req, pc⟩, hw, h⟩ := Option.bind_eq_some_iff.1 h
  cases pc with
  | handling => cases h
  | send result =>
    obtain ⟨down, hdown, ht⟩ := Option.bind_eq_some_iff.1 h
    exact Option.some.inj ht ▸ .workerSends i req result down hw hdown
  | sending entry =>
    dsimp only at h
    split at h
    · exact Option.some.inj h ▸ .workerEnds i req entry hw
    · cases h

private theorem move_of_clientReceive (h : s.clientReceive codec = some t) :
    Move codec s .clientReceive t := by
  unfold clientReceive at h
  split at h
  · next hidle =>
    split at h
    · next hdispatch =>
      split at h
      · obtain ⟨down, hdown, rfl⟩ := exists_of_receiveDown h
        exact .clientReceive _ down hidle hdown
      · next resp _ =>
        split at h
        · exact Option.some.inj h ▸ .slotCalled resp hidle hdispatch
        · obtain ⟨down, hdown, rfl⟩ := exists_of_receiveDown h
          exact .clientReceive _ down hidle hdown
    · obtain ⟨down, hdown, rfl⟩ := exists_of_receiveDown h
      exact .clientReceive _ down hidle hdown
  · cases h

private theorem move_of_handle (h : s.handle codec = some t) : Move codec s .handle t := by
  unfold handle at h
  split at h
  · next resp hpc =>
    split at h
    · cases h
    · next hfree => exact Option.some.inj h ▸ .slotLocks resp hpc (Bool.eq_false_iff.2 hfree)
  · next resp hpc =>
    split at h
    · exact Option.some.inj h ▸ .slotFinds resp hpc
    · obtain ⟨down, hdown, rfl⟩ := exists_of_receiveDown h
      exact .slotLeft _ resp _ down (by rw [hpc]; exact fun _ hown => hown) hdown
  · next resp hpc => exact Option.some.inj h ▸ .slotErases resp hpc
  · next resp hpc =>
    obtain ⟨down, hdown, rfl⟩ := exists_of_receiveDown h
    exact .slotLeft _ resp _ down (by rw [hpc]; exact fun _ hown => hown) hdown
  all_goals cases h

theorem move_of_step {a : ThreadsAct A Params Result} (h : s.step codec a = some t) :
    Move codec s a t := by
  cases a with
  | async action params => exact Option.some.inj h ▸ .async action params
  | registerAction action => exact Option.some.inj h ▸ .registerAction action
  | call i id =>
    obtain ⟨call, hcall, h⟩ := Option.bind_eq_some_iff.1 h
    obtain ⟨⟨u, call'⟩, hstep, ht⟩ := Option.bind_eq_some_iff.1 h
    exact Option.some.inj ht ▸ .call i id call call' u hcall (callMove_of_callStep hstep)
  | sendRequest entry =>
    obtain ⟨up, hup, ht⟩ := Option.bind_eq_some_iff.1 h
    exact Option.some.inj ht ▸ .sendRequest entry up hup
  | serverReceive => exact move_of_serverReceive h
  | serverHandlerReturns i result =>
    simp only [step] at h
    split at h
    · next req hw => exact Option.some.inj h ▸ .serverHandlerReturns i result req hw
    · cases h
  | respond i => exact move_of_workerStep h
  | sendResponse entry =>
    obtain ⟨down, hdown, ht⟩ := Option.bind_eq_some_iff.1 h
    exact Option.some.inj ht ▸ .sendResponse entry down hdown
  | clientReceive => exact move_of_clientReceive h
  | handle => exact move_of_handle h
  | handlerCalls action params =>
    simp only [step] at h
    split at h
    · next resp hpc => exact Option.some.inj h ▸ .handlerCalls action params resp hpc
    · cases h
  | nestedCall id =>
    simp only [step] at h
    split at h
    · next resp call hpc =>
      obtain ⟨⟨u, call'⟩, hstep, ht⟩ := Option.bind_eq_some_iff.1 h
      exact Option.some.inj ht ▸ .nestedCall id resp call call' u hpc (callMove_of_callStep hstep)
    · cases h
  | handlerReturns throws =>
    simp only [step] at h
    split at h
    · next resp hpc =>
      cases throws with
      | none => exact Option.some.inj h ▸ .handlerReturns resp hpc
      | some exc =>
        obtain ⟨down, hdown, rfl⟩ := exists_of_receiveDown h
        exact .slotLeft _ resp _ down (by rw [hpc]; exact fun _ hown => hown) hdown
    · cases h

end ActionThreads

end Libesf.Ipc

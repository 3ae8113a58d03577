import Libesf.Base.Transition
import Libesf.Base.Pool
import Libesf.Log.Wire

/-!
# The log server

`log::Server` runs an event loop on a thread of its own. The constructor starts the thread and then asks for the first connection, in this order; `io_context::run` returns for good as soon as it finds no outstanding operation. A session alternates between two reads, of a header and of a message, until a read fails; the loop has no other duty than to give each handler of a decided operation its turn.

The handler of a message calls the server back, which synthesises the message and tells every subscriber of it. Nothing is caught there: what a subscriber throws leaves `run` and ends the process, and so does a null pointer that is followed. Subscribers are the program's own, so that a server comes with what becomes of its notifications, as a function of the texts it has been notified of. No two notifications of a run have the same texts before them, so this fixes nothing about them.

What a peer sends waits on the connection until a read takes it. A peer may close the connection, or break it, which also throws away what no read has taken yet.
-/

namespace Libesf.Log

open Transition

/-- What a session reads: its header buffer, or a message buffer of some size. -/
inductive Awaiting where
  | header
  | message (size : Nat)
  deriving DecidableEq, Repr

def Awaiting.size : Awaiting → Nat
  | header => headerSize
  | message size => size

/-- An outstanding read, and what became of it once that is decided: its bytes, or an error. -/
structure Read where
  awaiting : Awaiting
  result : Option (Option Str)
  deriving DecidableEq, Repr

/-- The bytes a read holds until its handler runs. -/
def Read.data (op : Read) : Str := (op.result.getD none).getD []

structure Session where
  connected : Bool
  /-- What has arrived and no read has taken. -/
  inbox : Str
  reads : List Read
  /-- The bytes of the reads whose handlers have run. -/
  handled : Str
  deriving DecidableEq, Repr

namespace Session

variable (c : Session)

def doReadHeader : Session := { c with reads := c.reads ++ [⟨.header, none⟩] }

def doReadMessage (size : Nat) : Session := { c with reads := c.reads ++ [⟨.message size, none⟩] }

/-- The handler of the `k`-th read takes over its bytes. -/
def handle (k : Nat) (data : Option Str) : Session :=
  { c with reads := c.reads.eraseIdx k, handled := c.handled ++ data.getD [] }

/-- The bytes that were received on the connection and have not been thrown away. -/
def received : Str := c.handled ++ c.reads.flatMap Read.data ++ c.inbox

end Session

inductive Constructor where
  | entered
  | threadStarted
  | returned
  deriving DecidableEq, Repr

/-- The I/O thread. An exception that leaves `run` ends the process. -/
inductive IoThread where
  | none
  | created
  | running
  | returned
  | terminated
  deriving DecidableEq, Repr

structure Server where
  /-- Whether `M_notifyMessageReceived` returns for the last of these texts, after the others. -/
  returns : List Str → Bool
  construction : Constructor
  ioThread : IoThread
  /-- The outstanding `async_accept`s, with their results. -/
  accepts : List (Option Bool)
  /-- All sessions there have been, by number. -/
  connections : List Session
  /-- `m_internals->sessions`. -/
  sessions : List Nat
  /-- The calls of `M_notifyMessageReceived`, with the session they came from. -/
  notified : List (Nat × Str)

/-- What moves the server: its constructor, its I/O thread, the peers, and the transport deciding an operation. -/
inductive ServerAct where
  | startThread
  | doAccept
  | enterRun
  | acceptCompletes (k : Nat) (ok : Bool)
  | acceptHandler (k : Nat)
  | arrive (i : Nat) (bytes : Str)
  | disconnect (i : Nat)
  | reset (i : Nat)
  | readCompletes (i k : Nat)
  | readHandler (i k : Nat)
  deriving DecidableEq, Repr

namespace Server

variable (s : Server)

def doAccept : Server := { s with accepts := s.accepts ++ [none] }

/-- Outstanding work, as `io_context::run` counts it. -/
def idle : Bool := s.accepts.isEmpty && s.connections.all (·.reads.isEmpty)

/-- `run` looks for outstanding work when it is entered and after every handler. -/
def checkWork : Server :=
  if s.ioThread = .running ∧ s.idle then { s with ioThread := .returned } else s

def setSession (i : Nat) (c : Session) : Server := { s with connections := s.connections.set i c }

/-- `Session::start`, of a new session. -/
def start : Server :=
  { s with
    connections := s.connections ++ [Session.doReadHeader ⟨true, [], [], []⟩]
    sessions := s.sessions ++ [s.connections.length] }

def acceptHandler (ok : Bool) : Server := if ok then s.start.doAccept else s

def erase (i : Nat) : Server := { s with sessions := s.sessions.erase i }

/-- The size `M_doReadHeader` makes of a header. -/
def sizeOfHeader (header : Str) : Nat := sizeOfInt (atoi (cstr header))

/-- The handler of `M_doReadHeader`. `resize` throws on a size no vector can have, and nothing catches that. -/
def headerHandler (i : Nat) (c : Session) : Option Str → Server
  | some header =>
    if maxSize < sizeOfHeader header then { s.setSession i c with ioThread := .terminated }
    else s.setSession i (c.doReadMessage (sizeOfHeader header))
  | none => (s.setSession i c).erase i

/-- Whether `M_notifyMessageReceived` returns for the next message. -/
def notificationReturns (msg : Str) : Bool := s.returns (s.notified.map Prod.snd ++ [msg])

def notify (i : Nat) (msg : Str) : Server := { s with notified := s.notified ++ [(i, msg)] }

/-- The handler of `M_doReadMessage`. If the notification does not return, nothing is left to read the next header. -/
def messageHandler (i : Nat) (c : Session) : Option Str → Server
  | some msg =>
    if s.notificationReturns msg then (s.setSession i c.doReadHeader).notify i msg
    else { (s.setSession i c).notify i msg with ioThread := .terminated }
  | none => (s.setSession i c).erase i

/-- The handler of a read. -/
def readHandler (i : Nat) (c : Session) (awaiting : Awaiting) (data : Option Str) : Server :=
  match awaiting with
  | .header => s.headerHandler i c data
  | .message _ => s.messageHandler i c data

def init (returns : List Str → Bool) : Server := ⟨returns, .entered, .none, [], [], [], []⟩

def step (s : Server) : ServerAct → Option Server
  | .startThread => do
    guard (s.construction = .entered)
    return { s with construction := .threadStarted, ioThread := .created }
  | .doAccept => do
    guard (s.construction = .threadStarted)
    return { s.doAccept with construction := .returned }
  | .enterRun => do
    guard (s.ioThread = .created)
    return { s with ioThread := .running }.checkWork
  | .acceptCompletes k ok => do
    let result ← s.accepts[k]?
    guard (result = none)
    return { s with accepts := s.accepts.set k (some ok) }
  | .acceptHandler k => do
    guard (s.ioThread = .running)
    let ok ← (← s.accepts[k]?)
    return ({ s with accepts := s.accepts.eraseIdx k }.acceptHandler ok).checkWork
  | .arrive i bytes => do
    let c ← s.connections[i]?
    guard (c.connected = true)
    return s.setSession i { c with inbox := c.inbox ++ bytes }
  | .disconnect i => do
    let c ← s.connections[i]?
    return s.setSession i { c with connected := false }
  | .reset i => do
    let c ← s.connections[i]?
    guard (c.reads ≠ [])
    return s.setSession i { c with connected := false, inbox := [] }
  | .readCompletes i k => do
    let c ← s.connections[i]?
    let op ← c.reads[k]?
    guard (op.result = none)
    if op.awaiting.size ≤ c.inbox.length then
      let op := { op with result := some (some (c.inbox.take op.awaiting.size)) }
      return s.setSession i { c with
        reads := c.reads.set k op, inbox := c.inbox.drop op.awaiting.size }
    else
      guard (c.connected = false)
      return s.setSession i { c with reads := c.reads.set k { op with result := some none } }
  | .readHandler i k => do
    guard (s.ioThread = .running)
    let c ← s.connections[i]?
    let op ← c.reads[k]?
    let data ← op.result
    return (s.readHandler i (c.handle k data) op.awaiting data).checkWork

/-! ### What a step does -/

/-- What the handler of a read leaves: a session that is removed, a process that is no more, or a session with its next read. -/
@[elab_as_elim]
theorem readHandler_cases {motive : Server → Prop} (s : Server) (i : Nat) (c : Session)
    (awaiting : Awaiting) (data : Option Str)
    (failed : data = none → motive ((s.setSession i c).erase i))
    (throws : ∀ header, awaiting = .header → data = some header → maxSize < sizeOfHeader header →
      motive { s.setSession i c with ioThread := .terminated })
    (header : ∀ header, awaiting = .header → data = some header → sizeOfHeader header ≤ maxSize →
      motive (s.setSession i (c.doReadMessage (sizeOfHeader header))))
    (message : ∀ n msg, awaiting = .message n → data = some msg → s.notificationReturns msg = true →
      motive ((s.setSession i c.doReadHeader).notify i msg))
    (escapes : ∀ n msg, awaiting = .message n → data = some msg → s.notificationReturns msg = false →
      motive { (s.setSession i c).notify i msg with ioThread := .terminated }) :
    motive (s.readHandler i c awaiting data) := by
  cases data with
  | none =>
    cases awaiting with
    | header => exact failed rfl
    | message n => exact failed rfl
  | some bytes =>
    cases awaiting with
    | header =>
      change motive (if maxSize < sizeOfHeader bytes then _ else _)
      split
      · next hsize => exact throws bytes rfl rfl hsize
      · next hsize => exact header bytes rfl rfl (not_lt.1 hsize)
    | message n =>
      change motive (if s.notificationReturns bytes then _ else _)
      split
      · next hreturns => exact message n bytes rfl rfl hreturns
      · next hreturns => exact escapes n bytes rfl rfl (Bool.not_eq_true _ ▸ hreturns)

@[simp] theorem returns_checkWork (s : Server) : s.checkWork.returns = s.returns := by
  rw [checkWork]
  split <;> rfl

theorem returns_readHandler (s : Server) (i : Nat) (c : Session) (awaiting : Awaiting)
    (data : Option Str) : (s.readHandler i c awaiting data).returns = s.returns :=
  s.readHandler_cases i c awaiting data (fun _ => rfl) (fun _ _ _ _ => rfl) (fun _ _ _ _ => rfl)
    (fun _ _ _ _ _ => rfl) (fun _ _ _ _ _ => rfl)

/-- The steps, one constructor for each label and outcome. -/
inductive Move (s : Server) : ServerAct → Server → Prop where
  | startThread (hconstruction : s.construction = .entered) :
      Move s .startThread { s with construction := .threadStarted, ioThread := .created }
  | doAccept (hconstruction : s.construction = .threadStarted) :
      Move s .doAccept { s.doAccept with construction := .returned }
  | enterRun (hio : s.ioThread = .created) :
      Move s .enterRun { s with ioThread := .running }.checkWork
  | acceptCompletes (k : Nat) (ok : Bool) (hpending : s.accepts[k]? = some none) :
      Move s (.acceptCompletes k ok) { s with accepts := s.accepts.set k (some ok) }
  | acceptHandler (k : Nat) (ok : Bool) (hio : s.ioThread = .running)
      (hdecided : s.accepts[k]? = some (some ok)) :
      Move s (.acceptHandler k) ({ s with
        accepts := s.accepts.eraseIdx k }.acceptHandler ok).checkWork
  | arrive (i : Nat) (bytes : Str) (c : Session) (hc : s.connections[i]? = some c)
      (hconnected : c.connected = true) :
      Move s (.arrive i bytes) (s.setSession i { c with inbox := c.inbox ++ bytes })
  | disconnect (i : Nat) (c : Session) (hc : s.connections[i]? = some c) :
      Move s (.disconnect i) (s.setSession i { c with connected := false })
  | reset (i : Nat) (c : Session) (hc : s.connections[i]? = some c) (hreads : c.reads ≠ []) :
      Move s (.reset i) (s.setSession i { c with connected := false, inbox := [] })
  | readSucceeds (i k : Nat) (c : Session) (op : Read) (hc : s.connections[i]? = some c)
      (hop : c.reads[k]? = some op) (hpending : op.result = none)
        (hsize : op.awaiting.size ≤ c.inbox.length) :
      Move s (.readCompletes i k)
        (s.setSession i { c with
          reads := c.reads.set k { op with result := some (some (c.inbox.take op.awaiting.size)) }
          inbox := c.inbox.drop op.awaiting.size })
  | readFails (i k : Nat) (c : Session) (op : Read) (hc : s.connections[i]? = some c)
      (hop : c.reads[k]? = some op) (hpending : op.result = none)
        (hsize : c.inbox.length < op.awaiting.size)
      (hconnected : c.connected = false) :
      Move s (.readCompletes i k) (s.setSession i { c with
        reads := c.reads.set k { op with result := some none } })
  | readHandler (i k : Nat) (c : Session) (op : Read) (data : Option Str)
      (hio : s.ioThread = .running)
      (hc : s.connections[i]? = some c) (hop : c.reads[k]? = some op)
        (hdecided : op.result = some data) :
      Move s (.readHandler i k) (s.readHandler i (c.handle k data) op.awaiting data).checkWork

theorem move_of_step {s t : Server} {a : ServerAct} (h : s.step a = some t) : Move s a t := by
  cases a with
  | startThread =>
    obtain ⟨_, hguard, ht⟩ := Option.bind_eq_some_iff.1 h
    exact Option.some.inj ht ▸ .startThread ((Option.guard_eq_some' _).1 hguard)
  | doAccept =>
    obtain ⟨_, hguard, ht⟩ := Option.bind_eq_some_iff.1 h
    exact Option.some.inj ht ▸ .doAccept ((Option.guard_eq_some' _).1 hguard)
  | enterRun =>
    obtain ⟨_, hguard, ht⟩ := Option.bind_eq_some_iff.1 h
    exact Option.some.inj ht ▸ .enterRun ((Option.guard_eq_some' _).1 hguard)
  | acceptCompletes k ok =>
    obtain ⟨result, hresult, h⟩ := Option.bind_eq_some_iff.1 h
    obtain ⟨_, hguard, ht⟩ := Option.bind_eq_some_iff.1 h
    rw [(Option.guard_eq_some' _).1 hguard] at hresult
    exact Option.some.inj ht ▸ .acceptCompletes k ok hresult
  | acceptHandler k =>
    obtain ⟨_, hguard, h⟩ := Option.bind_eq_some_iff.1 h
    obtain ⟨result, hresult, h⟩ := Option.bind_eq_some_iff.1 h
    obtain ⟨ok, hok, ht⟩ := Option.bind_eq_some_iff.1 h
    rw [hok] at hresult
    exact Option.some.inj ht ▸ .acceptHandler k ok ((Option.guard_eq_some' _).1 hguard) hresult
  | arrive i bytes =>
    obtain ⟨c, hc, h⟩ := Option.bind_eq_some_iff.1 h
    obtain ⟨_, hguard, ht⟩ := Option.bind_eq_some_iff.1 h
    exact Option.some.inj ht ▸ .arrive i bytes c hc ((Option.guard_eq_some' _).1 hguard)
  | disconnect i =>
    obtain ⟨c, hc, ht⟩ := Option.bind_eq_some_iff.1 h
    exact Option.some.inj ht ▸ .disconnect i c hc
  | reset i =>
    obtain ⟨c, hc, h⟩ := Option.bind_eq_some_iff.1 h
    obtain ⟨_, hguard, ht⟩ := Option.bind_eq_some_iff.1 h
    exact Option.some.inj ht ▸ .reset i c hc ((Option.guard_eq_some' _).1 hguard)
  | readCompletes i k =>
    obtain ⟨c, hc, h⟩ := Option.bind_eq_some_iff.1 h
    obtain ⟨op, hop, h⟩ := Option.bind_eq_some_iff.1 h
    obtain ⟨_, hguard, h⟩ := Option.bind_eq_some_iff.1 h
    have hpending := (Option.guard_eq_some' _).1 hguard
    split at h
    · next hsize => exact Option.some.inj h ▸ .readSucceeds i k c op hc hop hpending hsize
    · next hsize =>
      obtain ⟨_, hguard, ht⟩ := Option.bind_eq_some_iff.1 h
      exact Option.some.inj ht ▸
        .readFails i k c op hc hop hpending (by omega) ((Option.guard_eq_some' _).1 hguard)
  | readHandler i k =>
    obtain ⟨_, hguard, h⟩ := Option.bind_eq_some_iff.1 h
    obtain ⟨c, hc, h⟩ := Option.bind_eq_some_iff.1 h
    obtain ⟨op, hop, h⟩ := Option.bind_eq_some_iff.1 h
    obtain ⟨data, hdata, ht⟩ := Option.bind_eq_some_iff.1 h
    exact Option.some.inj ht ▸ .readHandler i k c op data ((Option.guard_eq_some' _).1 hguard)
      hc hop hdata

/-- What becomes of notifications is settled from the start. -/
theorem returns_of_step {s t : Server} {a : ServerAct} (h : s.step a = some t) :
    t.returns = s.returns := by
  cases move_of_step h with
  | enterRun hio => exact returns_checkWork _
  | acceptHandler k ok hio hdecided =>
    rw [returns_checkWork, acceptHandler]
    split <;> rfl
  | readHandler i k c op data hio hc hop hdecided => rw [returns_checkWork, returns_readHandler]
  | _ => rfl

end Server

end Libesf.Log

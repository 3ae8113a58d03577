import Libesf.Base.Transition
import Libesf.Base.Pool
import Libesf.Log.Wire

/-!
# The log client

`log::Client` owns a socket, a queue of frames, and three kinds of asynchronous operations: connection attempts, reads that only watch the socket, and writes of the queue's front. Handlers run one at a time on the I/O thread. An operation goes through two steps: the transport decides its result, and later its handler runs; closing the socket decides every operation the transport has not decided yet.

`pop_front` has no meaning on an empty queue. Past such a call nothing can be said of the program, and the model goes no further.

The state carries, next to the fields of the class, what the properties are about: what was queued, what the transport took, what `pop_front` removed, how many connections there have been, and which of them were noticed lost by an error handler.
-/

namespace Libesf.Log

open Transition

/-- A frame in the queue. The serial number tells two calls of `send` with one text apart. -/
structure Queued where
  serial : Nat
  frame : Str
  deriving DecidableEq, Repr

/-- An asynchronous operation: the connection it was started on, the buffer it was given, and what the transport made of it. -/
structure Operation (α : Type) where
  connection : Nat
  buffer : α
  result : Option Bool
  deriving DecidableEq, Repr

/-- A `pop_front`: the frame whose write the handler belongs to, and the one that leaves the queue, if there is one to leave. -/
structure Pop where
  written : Queued
  popped : Option Queued
  deriving DecidableEq, Repr

structure Client where
  connected : Bool
  terminate : Bool
  messageQueue : List Queued
  /-- The handlers `send` has posted to the I/O thread. -/
  posted : List Queued
  connects : List (Operation Unit)
  reads : List (Operation Unit)
  writes : List (Operation Queued)
  sent : Nat
  queued : List Queued
  /-- The buffers the transport has taken as a whole. -/
  delivered : List Queued
  pops : List Pop
  established : Nat
  /-- For each error handler that went back to `doConnect`, the connection its operation was started on. -/
  restarts : List Nat
  deriving DecidableEq, Repr

/-- What moves the client: a call of `send`, a posted handler, the transport deciding an operation, the handler of a decided operation. -/
inductive Act where
  | send (msg : Str)
  | queueMessage (i : Nat)
  | connectCompletes (i : Nat) (ok : Bool)
  | readCompletes (i : Nat) (ok : Bool)
  | writeCompletes (i : Nat) (ok : Bool)
  | connectHandler (i : Nat)
  | readHandler (i : Nat)
  | writeHandler (i : Nat)
  deriving DecidableEq, Repr

namespace Client

variable {α : Type}

/-- The connection an operation started now is for: the present one, or the one that is being set up. -/
def connection (c : Client) : Nat := if c.connected then c.established else c.established + 1

def start (c : Client) (buffer : α) : Operation α := ⟨c.connection, buffer, none⟩

def doConnect (c : Client) : Client :=
  if c.terminate then c else { c with connects := c.connects ++ [c.start ()] }

def doRead (c : Client) : Client := { c with reads := c.reads ++ [c.start ()] }

/-- `M_doWrite`: the buffer is the front of the queue, which every caller has found non-empty. -/
def doWrite (c : Client) : Client :=
  { c with writes := c.writes ++ (c.messageQueue.head?.map c.start).toList }

/-- The tail of three handlers: write if there is something in the queue. -/
def doWriteIfQueued (c : Client) : Client := if c.messageQueue.isEmpty then c else c.doWrite

@[simp] theorem doWriteIfQueued_reads (c : Client) : c.doWriteIfQueued.reads = c.reads := by
  rw [doWriteIfQueued]
  split <;> rfl

@[simp] theorem doConnect_pops (c : Client) : c.doConnect.pops = c.pops := by
  rw [doConnect]
  split <;> rfl

@[simp] theorem doWriteIfQueued_pops (c : Client) : c.doWriteIfQueued.pops = c.pops := by
  rw [doWriteIfQueued]
  split <;> rfl

/-- `m_internals->socket.close()`: what the transport has not decided yet fails. -/
def closeSocket (c : Client) : Client :=
  { c with
    connects := c.connects.map abort, reads := c.reads.map abort, writes := c.writes.map abort }
where
  abort {α : Type} (op : Operation α) : Operation α :=
    { op with result := some (op.result.getD false) }

/-- The handler posted by `M_queueMessage`. -/
def queueMessage (c : Client) (msg : Queued) : Client :=
  let writeInProgress := !c.messageQueue.isEmpty
  let c := { c with messageQueue := c.messageQueue ++ [msg], queued := c.queued ++ [msg] }
  if c.connected && !writeInProgress then c.doWrite else c

def connectHandler (c : Client) (ok : Bool) : Client :=
  if ok then (doRead { c with connected := true, established := c.established + 1 }).doWriteIfQueued
  else doConnect { c with connected := false }

def readHandler (c : Client) (op : Operation Unit) (ok : Bool) : Client :=
  if ok then if c.terminate then c else c.doRead
  else doConnect { c with connected := false, restarts := c.restarts ++ [op.connection] }

def writeHandler (c : Client) (op : Operation Queued) (ok : Bool) : Client :=
  if ok then
    doWriteIfQueued { c with
      messageQueue := c.messageQueue.tail
      pops := c.pops ++ [⟨op.buffer, c.messageQueue.head?⟩] }
  else (closeSocket { c with
    connected := false, restarts := c.restarts ++ [op.connection] }).doConnect

def init : Client :=
  doConnect {
    connected := false, terminate := false, messageQueue := [], posted := [], connects := [],
    reads := [], writes := []
    sent := 0, queued := [], delivered := [], pops := [], established := 0, restarts := [] }

/-- Every `pop_front` found something in the queue. -/
def Defined (c : Client) : Prop := ∀ pop ∈ c.pops, pop.popped ≠ none

instance (c : Client) : Decidable c.Defined :=
  inferInstanceAs (Decidable (∀ pop ∈ c.pops, pop.popped ≠ none))

def perform (c : Client) : Act → Option Client
  | .send msg => some { c with posted := c.posted ++ [⟨c.sent, frame msg⟩], sent := c.sent + 1 }
  | .queueMessage i => do
    let msg ← c.posted[i]?
    return { c with posted := c.posted.eraseIdx i }.queueMessage msg
  | .connectCompletes i ok => do
    let op ← c.connects[i]?
    guard (op.result = none)
    return { c with connects := c.connects.set i { op with result := some ok } }
  | .readCompletes i ok => do
    let op ← c.reads[i]?
    guard (op.result = none)
    return { c with reads := c.reads.set i { op with result := some ok } }
  | .writeCompletes i ok => do
    let op ← c.writes[i]?
    guard (op.result = none)
    return { c with
      writes := c.writes.set i { op with result := some ok }
      delivered := if ok then c.delivered ++ [op.buffer] else c.delivered }
  | .connectHandler i => do
    let op ← c.connects[i]?
    let ok ← op.result
    return { c with connects := c.connects.eraseIdx i }.connectHandler ok
  | .readHandler i => do
    let op ← c.reads[i]?
    let ok ← op.result
    return { c with reads := c.reads.eraseIdx i }.readHandler op ok
  | .writeHandler i => do
    let op ← c.writes[i]?
    let ok ← op.result
    return { c with writes := c.writes.eraseIdx i }.writeHandler op ok

def step (c : Client) (a : Act) : Option Client := do
  guard c.Defined
  c.perform a

/-! ### What a step does -/

/-- The steps, one constructor for each label, with everything the step knows about the state it is taken from. -/
inductive Move (c : Client) : Act → Client → Prop where
  | send (msg : Str) :
      Move c (.send msg) { c with posted := c.posted ++ [⟨c.sent, frame msg⟩], sent := c.sent + 1 }
  | queueMessage (i : Nat) (msg : Queued) (hposted : c.posted[i]? = some msg) :
      Move c (.queueMessage i) ({ c with posted := c.posted.eraseIdx i }.queueMessage msg)
  | connectCompletes (i : Nat) (ok : Bool) (op : Operation Unit) (hop : c.connects[i]? = some op)
      (hpending : op.result = none) :
      Move c (.connectCompletes i ok) { c with
        connects := c.connects.set i { op with result := some ok } }
  | readCompletes (i : Nat) (ok : Bool) (op : Operation Unit) (hop : c.reads[i]? = some op)
      (hpending : op.result = none) :
      Move c (.readCompletes i ok) { c with reads := c.reads.set i { op with result := some ok } }
  | writeCompletes (i : Nat) (ok : Bool) (op : Operation Queued) (hop : c.writes[i]? = some op)
      (hpending : op.result = none) :
      Move c (.writeCompletes i ok)
        { c with
          writes := c.writes.set i { op with result := some ok }
          delivered := if ok then c.delivered ++ [op.buffer] else c.delivered }
  | connectHandler (i : Nat) (ok : Bool) (op : Operation Unit) (hop : c.connects[i]? = some op)
      (hdecided : op.result = some ok) :
      Move c (.connectHandler i) ({ c with connects := c.connects.eraseIdx i }.connectHandler ok)
  | readHandler (i : Nat) (ok : Bool) (op : Operation Unit) (hop : c.reads[i]? = some op)
      (hdecided : op.result = some ok) :
      Move c (.readHandler i) ({ c with reads := c.reads.eraseIdx i }.readHandler op ok)
  | writeHandler (i : Nat) (ok : Bool) (op : Operation Queued) (hop : c.writes[i]? = some op)
      (hdecided : op.result = some ok) :
      Move c (.writeHandler i) ({ c with writes := c.writes.eraseIdx i }.writeHandler op ok)

theorem move_of_perform {c t : Client} {a : Act} (h : c.perform a = some t) : Move c a t := by
  cases a with
  | send msg => exact Option.some.inj h ▸ .send msg
  | queueMessage i =>
    obtain ⟨msg, hposted, ht⟩ := Option.bind_eq_some_iff.1 h
    exact Option.some.inj ht ▸ .queueMessage i msg hposted
  | connectCompletes i ok =>
    obtain ⟨op, hop, h⟩ := Option.bind_eq_some_iff.1 h
    obtain ⟨_, hguard, ht⟩ := Option.bind_eq_some_iff.1 h
    exact Option.some.inj ht ▸ .connectCompletes i ok op hop ((Option.guard_eq_some' _).1 hguard)
  | readCompletes i ok =>
    obtain ⟨op, hop, h⟩ := Option.bind_eq_some_iff.1 h
    obtain ⟨_, hguard, ht⟩ := Option.bind_eq_some_iff.1 h
    exact Option.some.inj ht ▸ .readCompletes i ok op hop ((Option.guard_eq_some' _).1 hguard)
  | writeCompletes i ok =>
    obtain ⟨op, hop, h⟩ := Option.bind_eq_some_iff.1 h
    obtain ⟨_, hguard, ht⟩ := Option.bind_eq_some_iff.1 h
    exact Option.some.inj ht ▸ .writeCompletes i ok op hop ((Option.guard_eq_some' _).1 hguard)
  | connectHandler i =>
    obtain ⟨op, hop, h⟩ := Option.bind_eq_some_iff.1 h
    obtain ⟨ok, hdecided, ht⟩ := Option.bind_eq_some_iff.1 h
    exact Option.some.inj ht ▸ .connectHandler i ok op hop hdecided
  | readHandler i =>
    obtain ⟨op, hop, h⟩ := Option.bind_eq_some_iff.1 h
    obtain ⟨ok, hdecided, ht⟩ := Option.bind_eq_some_iff.1 h
    exact Option.some.inj ht ▸ .readHandler i ok op hop hdecided
  | writeHandler i =>
    obtain ⟨op, hop, h⟩ := Option.bind_eq_some_iff.1 h
    obtain ⟨ok, hdecided, ht⟩ := Option.bind_eq_some_iff.1 h
    exact Option.some.inj ht ▸ .writeHandler i ok op hop hdecided

theorem move_of_step {c t : Client} {a : Act} (h : c.step a = some t) : Move c a t := by
  obtain ⟨_, _, hperform⟩ := Option.bind_eq_some_iff.1 h
  exact move_of_perform hperform

end Client

end Libesf.Log

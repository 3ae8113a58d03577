import Libesf.Base.Transition
import Libesf.Ipc.Exception

/-!
# One direction of an IPC endpoint

An endpoint pair is two `SharedBuffer`s, one for each direction. This module embeds one of them with everything that touches it: the calls of `Endpoint::send` on the sending side, the receive thread of the endpoint that reads it, and that endpoint's destructor. Endpoints on the receiving side may come and go; each construction starts a receive thread, each destruction stops it.

Every semaphore operation and every access to the buffer is one step, and threads interleave at that grain. A call of `send` is one entry of `sends`; it stays in the list after it has returned or thrown. The fields below `reported` are history: they record what was written and read and never influence a step.
-/

namespace Libesf.Ipc

open Transition

def maxMessageSize : Nat := 4096

structure SharedBuffer where
  mutex : Nat
  semEmpty : Nat
  semFull : Nat
  shutdown : Bool
  buffer : Str
  deriving DecidableEq

/-- `SharedBuffer::SharedBuffer()`, on freshly mapped memory. -/
def SharedBuffer.init : SharedBuffer where
  mutex := 1
  semEmpty := 1
  semFull := 0
  shutdown := false
  buffer := List.replicate maxMessageSize 0

/-- Where a call of `Endpoint::send` is. -/
inductive SendPc (Msg : Type) where
  | waitEmpty (msg : Msg)
  | waitMutex (msg : Msg)
  | inside (msg : Msg)
  | postMutex
  | postFull
  | returned
  | thrown (exc : Exception)
  deriving DecidableEq

/-- Where `Endpoint::M_receiveThread` is; `stop` is its local `stop_thread`. -/
inductive ReceivePc where
  | waitFull
  | waitMutex
  | checkShutdown
  | construct
  | dispatch
  | postMutex (stop : Bool)
  | postEmpty (stop : Bool)
  | finished
  deriving DecidableEq

/-- Where `Endpoint::~Endpoint` is, once it has set the shutdown flag. -/
inductive DestructorPc where
  | postFull
  | join
  | clearShutdown
  deriving DecidableEq

/-- One shared buffer with the threads that use it. -/
structure Channel (Msg : Type) where
  buf : SharedBuffer
  sends : List (SendPc Msg)
  receiver : Option ReceivePc
  destructor : Option DestructorPc
  excHandler : Bool
  reported : List RecoverableException
  written : List Str
  received : List Str
  fresh : Bool
  overwritten : Bool
  destroyed : Nat

def Channel.init (Msg : Type) (attached excHandler : Bool) : Channel Msg where
  buf := .init
  sends := []
  receiver := if attached then some .waitFull else none
  destructor := none
  excHandler := excHandler
  reported := []
  written := []
  received := []
  fresh := false
  overwritten := false
  destroyed := 0

/-- One scheduling choice. `receive` carries how the processing of a received string ended: a slot ran, or a recoverable exception came out of it. -/
inductive Act (Msg : Type) where
  | call (msg : Msg)
  | send (call : Nat)
  | receive (outcome : Except RecoverableException Unit)
  | attach (excHandler : Bool)
  | destroy
  | destructor

variable {Msg : Type} (serialize : Msg → Except Exception Str)

/-- The text `Endpoint::send` copies into the buffer, or the exception it throws instead. -/
def packet (msg : Msg) : Except Exception Str := do
  let json ← serialize msg
  if json.length + 1 > maxMessageSize then
    throw
      (.recoverable
        (.sharedMemoryException (ascii "IPC packet size (" ++ showSize (json.length + 1) ++
      ascii ") exceeds limit (" ++ showSize maxMessageSize ++ ascii ")")))
  return json

def Throws (msg : Msg) : Prop := ∃ exc, packet serialize msg = .error exc

theorem packet_eq_ok {serialize : Msg → Except Exception Str} {msg : Msg} {json : Str} :
    packet serialize msg = .ok json ↔ serialize msg = .ok json ∧
      json.length + 1 ≤ maxMessageSize := by
  cases hser : serialize msg with
  | error exc => simp [packet, hser, bind, Except.bind]
  | ok text =>
    by_cases hlong : text.length + 1 > maxMessageSize
    · simp only [packet, hser, bind, Except.bind, if_pos hlong, throw, throwThe, MonadExceptOf.throw,
        reduceCtorEq, Except.ok.injEq, false_iff, not_and]
      rintro rfl
      omega
    · simp only [packet, hser, bind, Except.bind, if_neg hlong, pure, Except.pure, Except.ok.injEq]
      exact ⟨fun h => ⟨h, h ▸ (by omega)⟩, fun h => h.1⟩

/-- The message serialises, into no more than the shared buffer holds. -/
def sendable (msg : Msg) : Bool :=
  match packet serialize msg with
  | .ok _ => true
  | .error _ => false

/-- The critical section of `Endpoint::send`: serialise, check the size, `strcpy`. -/
def Channel.writeMessage (c : Channel Msg) (call : Nat) (msg : Msg) : Channel Msg :=
  match packet serialize msg with
  | .error exc => { c with sends := c.sends.set call (.thrown exc) }
  | .ok json =>
    { c with
      buf := { c.buf with buffer := strcpy c.buf.buffer json }
      sends := c.sends.set call .postMutex
      written := c.written ++ [json]
      fresh := true
      overwritten := c.overwritten || c.fresh }

def Channel.sendStep (c : Channel Msg) (call : Nat) : Option (Channel Msg) :=
  match c.sends[call]? with
  | some (.waitEmpty msg) =>
    if 0 < c.buf.semEmpty then
      some { c with
        buf := { c.buf with semEmpty := c.buf.semEmpty - 1 }
        sends := c.sends.set call (.waitMutex msg) }
    else none
  | some (.waitMutex msg) =>
    if 0 < c.buf.mutex then
      some { c with
        buf := { c.buf with mutex := c.buf.mutex - 1 }
        sends := c.sends.set call (.inside msg) }
    else none
  | some (.inside msg) => some (c.writeMessage serialize call msg)
  | some .postMutex =>
    some { c with
      buf := { c.buf with mutex := c.buf.mutex + 1 }
      sends := c.sends.set call .postFull }
  | some .postFull =>
    some { c with
      buf := { c.buf with semFull := c.buf.semFull + 1 }
      sends := c.sends.set call .returned }
  | _ => none

/-- The `catch (core::RecoverableException const&)` of the receive thread. -/
def Channel.report (c : Channel Msg) (outcome : Except RecoverableException Unit) : Channel Msg :=
  match outcome with
  | .ok () => c
  | .error exc => if c.excHandler then { c with reported := c.reported ++ [exc] } else c

def Channel.receiveStep (c : Channel Msg) (outcome : Except RecoverableException Unit) :
    Option (Channel Msg) :=
  match c.receiver with
  | some .waitFull =>
    if 0 < c.buf.semFull then
      some { c with
        buf := { c.buf with semFull := c.buf.semFull - 1 }
        receiver := some .waitMutex }
    else none
  | some .waitMutex =>
    if 0 < c.buf.mutex then
      some { c with
        buf := { c.buf with mutex := c.buf.mutex - 1 }
        receiver := some .checkShutdown }
    else none
  | some .checkShutdown =>
    some { c with receiver := some (if c.buf.shutdown then .postMutex true else .construct) }
  | some .construct =>
    some { c with
      receiver := some .dispatch
      received := c.received ++ [cstr c.buf.buffer]
      fresh := false }
  | some .dispatch => some { c.report outcome with receiver := some (.postMutex false) }
  | some (.postMutex stop) =>
    some { c with
      buf := { c.buf with mutex := c.buf.mutex + 1 }
      receiver := some (.postEmpty stop) }
  | some (.postEmpty stop) =>
    some { c with
      buf := { c.buf with semEmpty := c.buf.semEmpty + 1 }
      receiver := some (if stop then .finished else .waitFull) }
  | _ => none

/-- The next step of `Endpoint::~Endpoint`; `destroy` is its first statement. -/
def Channel.destructorStep (c : Channel Msg) : Option (Channel Msg) :=
  match c.destructor with
  | some .postFull =>
    some { c with
      buf := { c.buf with semFull := c.buf.semFull + 1 }
      destructor := some .join }
  | some .join =>
    if c.receiver = some .finished then some { c with destructor := some .clearShutdown } else none
  | some .clearShutdown =>
    some { c with
      buf := { c.buf with shutdown := false }
      receiver := none
      destructor := none
      destroyed := c.destroyed + 1 }
  | none => none

def Channel.step (c : Channel Msg) : Act Msg → Option (Channel Msg)
  | .call msg => some { c with sends := c.sends ++ [.waitEmpty msg] }
  | .send call => c.sendStep serialize call
  | .receive outcome => c.receiveStep outcome
  | .attach excHandler =>
    if c.receiver = none ∧ c.destructor = none then
      some { c with
        receiver := some .waitFull
        excHandler := excHandler }
    else none
  | .destroy =>
    if c.receiver ≠ none ∧ c.destructor = none then
      some { c with
        buf := { c.buf with shutdown := true }
        destructor := some .postFull }
    else none
  | .destructor => c.destructorStep

end Libesf.Ipc

import Libesf.Log.Delivery

/-!
# The destructor of the log client

`~Client` waits until the queue is empty or the connection gone, and then posts the close of the socket and joins the I/O thread. The queue is filled by posted handlers: what `send` has posted and the I/O thread has not yet run is in no queue, and the wait does not see it. A client that is destroyed before its handlers have run therefore closes the socket over frames it has never started to write.

What the caller has sent is delivered when the destructor returns, in every run in which no such handler is left over when the wait ends.
-/

namespace Libesf.Log

open Transition

/-- Where the thread that owns the client is: the states after `sending` are those of `~Client`. -/
inductive Caller where
  | sending
  | waiting
  | left
  | terminated
  | joining
  | returned
  deriving DecidableEq, Repr

def Caller.waits : Caller → Bool
  | .sending | .waiting => true
  | .left | .terminated | .joining | .returned => false

structure Shutdown where
  client : Client
  caller : Caller
  /-- Whether the handler that closes the socket has run. -/
  closed : Bool
  /-- Whether the I/O thread has left its loop. -/
  ioEnded : Bool
  /-- The frames of the calls of `send` that have returned. -/
  sends : List Queued
  deriving DecidableEq, Repr

inductive ShutdownAct where
  | send (msg : Str)
  /-- A handler the I/O thread runs, or the transport deciding an operation. -/
  | io (a : Act)
  | enter
  | leave
  | terminate
  | postClose
  | closeHandler
  | runReturns
  | join
  deriving DecidableEq, Repr

namespace Shutdown

def init : Shutdown := ⟨.init, .sending, false, false, []⟩

/-- The I/O thread runs handlers until it ends, and on a socket the destructor has closed no operation succeeds. -/
def allows (s : Shutdown) : Act → Bool
  | .send _ => false
  | .queueMessage _ | .connectHandler _ | .readHandler _ | .writeHandler _ => !s.ioEnded
  | .connectCompletes _ ok | .readCompletes _ ok | .writeCompletes _ ok => !(s.closed && ok)

/-- Whether `io_context::run` still has something to wait for. -/
def hasWork (s : Shutdown) : Bool :=
  !(s.client.posted.isEmpty && s.client.connects.isEmpty && s.client.reads.isEmpty &&
    s.client.writes.isEmpty) ||
    s.caller == .joining && !s.closed

def step (s : Shutdown) : ShutdownAct → Option Shutdown
  | .send msg => do
    guard (s.caller = .sending)
    let client ← s.client.step (.send msg)
    return { s with client, sends := s.sends ++ [⟨s.client.sent, frame msg⟩] }
  | .io a => do
    guard (s.allows a = true)
    let client ← s.client.step a
    return { s with client }
  | .enter => do
    guard (s.caller = .sending)
    return { s with caller := .waiting }
  -- `while (m_connected && !m_message_queue.empty());`
  | .leave => do
    guard (s.caller = .waiting ∧ ¬ (s.client.connected = true ∧ s.client.messageQueue ≠ []))
    return { s with caller := .left }
  | .terminate => do
    guard (s.caller = .left)
    return { s with client := { s.client with terminate := true }, caller := .terminated }
  | .postClose => do
    guard (s.caller = .terminated)
    return { s with caller := .joining }
  -- the order among posted handlers is left open: this one may also run before frames posted earlier
  | .closeHandler => do
    guard (s.caller = .joining ∧ s.closed = false ∧ s.ioEnded = false)
    return { s with client := s.client.closeSocket, closed := true }
  -- without the flag, `M_ioThread` restarts the context and runs it again
  | .runReturns => do
    guard (s.hasWork = false ∧ s.ioEnded = false)
    return { s with ioEnded := s.client.terminate }
  | .join => do
    guard (s.caller = .joining ∧ s.ioEnded = true)
    return { s with caller := .returned }

/-! ### What a step does -/

inductive Move (s : Shutdown) : ShutdownAct → Shutdown → Prop where
  | send (msg : Str) (client : Client) (hsending : s.caller = .sending)
      (hclient : s.client.step (.send msg) = some client) :
      Move s (.send msg) { s with client, sends := s.sends ++ [⟨s.client.sent, frame msg⟩] }
  | io (a : Act) (client : Client) (hallowed : s.allows a = true)
      (hclient : s.client.step a = some client) :
      Move s (.io a) { s with client }
  | enter (hsending : s.caller = .sending) : Move s .enter { s with caller := .waiting }
  | leave (hwaiting : s.caller = .waiting)
      (hdone : ¬ (s.client.connected = true ∧ s.client.messageQueue ≠ [])) :
      Move s .leave { s with caller := .left }
  | terminate (hleft : s.caller = .left) :
      Move s .terminate { s with
        client := { s.client with terminate := true }, caller := .terminated }
  | postClose (hterminated : s.caller = .terminated) : Move s .postClose { s with caller := .joining }
  | closeHandler (hjoining : s.caller = .joining) :
      Move s .closeHandler { s with client := s.client.closeSocket, closed := true }
  | runReturns : Move s .runReturns { s with ioEnded := s.client.terminate }
  | join (hjoining : s.caller = .joining) : Move s .join { s with caller := .returned }

theorem move_of_step {s t : Shutdown} {a : ShutdownAct} (h : s.step a = some t) : Move s a t := by
  cases a with
  | send msg =>
    obtain ⟨_, hguard, h⟩ := Option.bind_eq_some_iff.1 h
    obtain ⟨client, hclient, ht⟩ := Option.bind_eq_some_iff.1 h
    exact Option.some.inj ht ▸ .send msg client ((Option.guard_eq_some' _).1 hguard) hclient
  | io a =>
    obtain ⟨_, hguard, h⟩ := Option.bind_eq_some_iff.1 h
    obtain ⟨client, hclient, ht⟩ := Option.bind_eq_some_iff.1 h
    exact Option.some.inj ht ▸ .io a client ((Option.guard_eq_some' _).1 hguard) hclient
  | enter =>
    obtain ⟨_, hguard, ht⟩ := Option.bind_eq_some_iff.1 h
    exact Option.some.inj ht ▸ .enter ((Option.guard_eq_some' _).1 hguard)
  | leave =>
    obtain ⟨_, hguard, ht⟩ := Option.bind_eq_some_iff.1 h
    obtain ⟨hwaiting, hdone⟩ := (Option.guard_eq_some' _).1 hguard
    exact Option.some.inj ht ▸ .leave hwaiting hdone
  | terminate =>
    obtain ⟨_, hguard, ht⟩ := Option.bind_eq_some_iff.1 h
    exact Option.some.inj ht ▸ .terminate ((Option.guard_eq_some' _).1 hguard)
  | postClose =>
    obtain ⟨_, hguard, ht⟩ := Option.bind_eq_some_iff.1 h
    exact Option.some.inj ht ▸ .postClose ((Option.guard_eq_some' _).1 hguard)
  | closeHandler =>
    obtain ⟨_, hguard, ht⟩ := Option.bind_eq_some_iff.1 h
    exact Option.some.inj ht ▸ .closeHandler ((Option.guard_eq_some' _).1 hguard).1
  | runReturns =>
    obtain ⟨_, _, ht⟩ := Option.bind_eq_some_iff.1 h
    exact Option.some.inj ht ▸ .runReturns
  | join =>
    obtain ⟨_, hguard, ht⟩ := Option.bind_eq_some_iff.1 h
    exact Option.some.inj ht ▸ .join ((Option.guard_eq_some' _).1 hguard).1

/-! ### The conditions -/

/-- The client is connected when its destructor is entered, and no operation fails before the destructor closes the socket. -/
def Undisturbed (s : Shutdown) : ShutdownAct → Prop
  | .enter => s.client.connected = true
  | .io (.connectCompletes _ ok) | .io (.readCompletes _ ok) | .io (.writeCompletes _ ok) =>
    ok = false → s.closed = true
  | _ => True

instance (s : Shutdown) : (a : ShutdownAct) → Decidable (s.Undisturbed a)
  | .enter => inferInstanceAs (Decidable (s.client.connected = true))
  | .io (.connectCompletes _ ok) | .io (.readCompletes _ ok) | .io (.writeCompletes _ ok) =>
    inferInstanceAs (Decidable (ok = false → s.closed = true))
  | .io (.send _) | .io (.queueMessage _) | .io (.connectHandler _) | .io (.readHandler _) | .io
      (.writeHandler _)
  | .send _ | .leave | .terminate | .postClose | .closeHandler | .runReturns | .join =>
    .isTrue trivial

/-- The wait of the destructor ends when the I/O thread has run every handler that `send` has posted. -/
def LeavesNothingPosted (s : Shutdown) : ShutdownAct → Prop
  | .leave => s.client.posted = []
  | _ => True

instance (s : Shutdown) : (a : ShutdownAct) → Decidable (s.LeavesNothingPosted a)
  | .leave => inferInstanceAs (Decidable (s.client.posted = []))
  | .send _ | .io _ | .enter | .terminate | .postClose | .closeHandler | .runReturns | .join =>
    .isTrue trivial

/-- When the destructor has returned, the transport has taken every frame the caller has sent. -/
def Flushed (s : Shutdown) : Prop := s.caller = .returned → ∀ msg ∈ s.sends, msg ∈ s.client.delivered

end Shutdown

/-! ### What the handlers leave alone -/

/-- Two states that differ in no list of frames but the queue. -/
structure SameFrames (c t : Client) : Prop where
  queued : t.queued = c.queued
  posted : t.posted = c.posted
  delivered : t.delivered = c.delivered

namespace SameFrames

variable {c : Client}

theorem trans {t u : Client} (h : SameFrames c t) (h' : SameFrames t u) : SameFrames c u :=
  ⟨h'.queued.trans h.queued, h'.posted.trans h.posted, h'.delivered.trans h.delivered⟩

theorem doConnect : SameFrames c c.doConnect := by
  rw [Client.doConnect]
  split <;> exact ⟨rfl, rfl, rfl⟩

theorem doWriteIfQueued : SameFrames c c.doWriteIfQueued := by
  rw [Client.doWriteIfQueued]
  split <;> exact ⟨rfl, rfl, rfl⟩

theorem connectHandler (ok : Bool) : SameFrames c (c.connectHandler ok) := by
  cases ok with
  | true =>
    have hread : SameFrames c (Client.doRead { c with
      connected := true, established := c.established + 1 }) :=
      ⟨rfl, rfl, rfl⟩
    exact hread.trans doWriteIfQueued
  | false =>
    have hlost : SameFrames c { c with connected := false } := ⟨rfl, rfl, rfl⟩
    exact hlost.trans doConnect

theorem readHandler (op : Operation Unit) (ok : Bool) : SameFrames c (c.readHandler op ok) := by
  cases ok with
  | true =>
    rw [Client.readHandler, if_pos rfl]
    split <;> exact ⟨rfl, rfl, rfl⟩
  | false =>
    have hlost : SameFrames c { c with
      connected := false, restarts := c.restarts ++ [op.connection] } := ⟨rfl, rfl, rfl⟩
    exact hlost.trans doConnect

theorem writeHandler (op : Operation Queued) (ok : Bool) : SameFrames c (c.writeHandler op ok) := by
  cases ok with
  | true =>
    have hpopped : SameFrames c { c with
        messageQueue := c.messageQueue.tail,
        pops := c.pops ++ [⟨op.buffer, c.messageQueue.head?⟩] } := ⟨rfl, rfl, rfl⟩
    exact hpopped.trans doWriteIfQueued
  | false =>
    have hclosed : SameFrames c
        (Client.closeSocket { c with
          connected := false, restarts := c.restarts ++ [op.connection] }) := ⟨rfl, rfl, rfl⟩
    exact hclosed.trans doConnect

end SameFrames

namespace Client

variable {c t : Client} {a : Act}

/-- Only `send` posts, only the posted handler queues, and only a completed write delivers. -/
theorem frames_of_step (h : c.step a = some t) :
    (∀ msg ∈ c.queued ++ c.posted, msg ∈ t.queued ++ t.posted) ∧
      ∀ msg ∈ c.delivered, msg ∈ t.delivered := by
  have hsame : ∀ {t : Client}, SameFrames c t →
      (∀ msg ∈ c.queued ++ c.posted, msg ∈ t.queued ++ t.posted) ∧
      ∀ msg ∈ c.delivered, msg ∈ t.delivered := by
    intro t h
    rw [h.queued, h.posted, h.delivered]
    exact ⟨fun _ => id, fun _ => id⟩
  cases move_of_step h with
  | send msg =>
    refine ⟨fun m hm => ?_, fun _ => id⟩
    rw [← List.append_assoc]
    exact List.mem_append_left _ hm
  | queueMessage i msg hposted =>
    obtain ⟨hi, rfl⟩ := List.getElem?_eq_some_iff.1 hposted
    have hframes : (queueMessage { c with posted := c.posted.eraseIdx i } c.posted[i]).queued =
        c.queued ++ [c.posted[i]] ∧
        (queueMessage { c with posted := c.posted.eraseIdx i } c.posted[i]).posted =
          c.posted.eraseIdx i ∧
        (queueMessage { c with posted := c.posted.eraseIdx i } c.posted[i]).delivered =
          c.delivered := by
      rw [queueMessage]
      dsimp only
      split <;> exact ⟨rfl, rfl, rfl⟩
    rw [hframes.1, hframes.2.1, hframes.2.2]
    refine ⟨fun m hm => ?_, fun _ => id⟩
    rw [List.append_assoc, List.singleton_append]
    exact (((List.getElem_cons_eraseIdx_perm hi).append_left c.queued).mem_iff).2 hm
  | connectCompletes i ok op hop hpending => exact hsame ⟨rfl, rfl, rfl⟩
  | readCompletes i ok op hop hpending => exact hsame ⟨rfl, rfl, rfl⟩
  | writeCompletes i ok op hop hpending =>
    refine ⟨fun _ => id, fun m hm => ?_⟩
    cases ok with
    | true => exact List.mem_append_left _ hm
    | false => exact hm
  | connectHandler i ok op hop hdecided =>
    have herased : SameFrames c { c with connects := c.connects.eraseIdx i } := ⟨rfl, rfl, rfl⟩
    exact hsame (herased.trans (.connectHandler ok))
  | readHandler i ok op hop hdecided =>
    have herased : SameFrames c { c with reads := c.reads.eraseIdx i } := ⟨rfl, rfl, rfl⟩
    exact hsame (herased.trans (.readHandler op ok))
  | writeHandler i ok op hop hdecided =>
    have herased : SameFrames c { c with writes := c.writes.eraseIdx i } := ⟨rfl, rfl, rfl⟩
    exact hsame (herased.trans (.writeHandler op ok))

end Client

/-! ### A client none of whose operations has failed -/

def Unfailed {α : Type} (ops : List (Operation α)) : Prop := ∀ op ∈ ops, op.result ≠ some false

namespace Unfailed

variable {α : Type} {ops : List (Operation α)}

theorem append_start (h : Unfailed ops) (c : Client) (buffer : α) :
    Unfailed (ops ++ [c.start buffer]) := by
  intro op hop
  obtain hold | rfl := List.mem_append.1 hop |>.imp_right List.mem_singleton.1
  · exact h op hold
  · exact nofun

theorem eraseIdx (h : Unfailed ops) (i : Nat) : Unfailed (ops.eraseIdx i) :=
  fun op hop => h op (List.mem_of_mem_eraseIdx hop)

theorem set (h : Unfailed ops) (i : Nat) (op : Operation α) :
    Unfailed (ops.set i { op with result := some true }) := by
  intro op' hop'
  obtain hold | rfl := List.mem_or_eq_of_mem_set hop'
  · exact h op' hold
  · exact nofun

/-- The handler of one of these operations runs with success. -/
theorem ok_of_getElem? (h : Unfailed ops) {i : Nat} {op : Operation α} {ok : Bool}
    (hop : ops[i]? = some op) (hdecided : op.result = some ok) : ok = true := by
  by_contra hfailed
  rw [Bool.not_eq_true] at hfailed
  exact h op (List.mem_of_getElem? hop) (hfailed ▸ hdecided)

end Unfailed

/-- One attempt makes one connection, which stays; before it there is nothing to write on. -/
structure Healthy (c : Client) : Prop where
  connects : Unfailed c.connects
  reads : Unfailed c.reads
  writes : Unfailed c.writes
  attempts : c.connects.length ≤ 1
  idle : c.connected = false → c.writes = []
  settled : c.connected = true → c.connects = []

/-- The label of an operation that does not fail. -/
def Act.succeeds : Act → Bool
  | .connectCompletes _ ok | .readCompletes _ ok | .writeCompletes _ ok => ok
  | _ => true

namespace Healthy

variable {c : Client}

theorem doWrite (h : Healthy c) (hconnected : c.connected = true) : Healthy c.doWrite := by
  refine ⟨h.connects, h.reads, ?_, h.attempts, fun hlost => ?_, h.settled⟩
  · rw [Client.doWrite]
    cases c.messageQueue.head? with
    | none =>
      rw [Option.map_none, Option.toList_none, List.append_nil]
      exact h.writes
    | some msg => exact h.writes.append_start c msg
  · exact absurd (hconnected.symm.trans hlost) (by decide)

theorem doWriteIfQueued (h : Healthy c) (hconnected : c.connected = true) :
    Healthy c.doWriteIfQueued := by
  rw [Client.doWriteIfQueued]
  split
  · exact h
  · exact h.doWrite hconnected

theorem doRead (h : Healthy c) : Healthy c.doRead :=
  ⟨h.connects, h.reads.append_start c (), h.writes, h.attempts, h.idle, h.settled⟩

theorem queueMessage (h : Healthy c) (i : Nat) (msg : Queued) :
    Healthy ({ c with posted := c.posted.eraseIdx i }.queueMessage msg) := by
  have hqueued : Healthy { c with
      posted := c.posted.eraseIdx i, messageQueue := c.messageQueue ++ [msg],
      queued := c.queued ++ [msg] } :=
    ⟨h.connects, h.reads, h.writes, h.attempts, h.idle, h.settled⟩
  rw [Client.queueMessage]
  dsimp only
  split
  · next hwrite => exact hqueued.doWrite (Bool.and_eq_true_iff.1 hwrite).1
  · exact hqueued

theorem connectHandler (h : Healthy c) {i : Nat} {op : Operation Unit}
    (hop : c.connects[i]? = some op) :
    Healthy ({ c with connects := c.connects.eraseIdx i }.connectHandler true) := by
  obtain ⟨hconnects, rfl⟩ := Pool.eq_singleton_of_getElem? h.attempts hop
  have hconnected : Healthy { c with
    connects := [], connected := true, established := c.established + 1 } :=
    ⟨nofun, h.reads, h.writes, Nat.zero_le 1, nofun, fun _ => rfl⟩
  rw [hconnects]
  exact hconnected.doRead.doWriteIfQueued rfl

theorem writeHandler (h : Healthy c) {i : Nat} {op : Operation Queued}
    (hop : c.writes[i]? = some op) :
    Healthy ({ c with writes := c.writes.eraseIdx i }.writeHandler op true) := by
  have hconnected : c.connected = true := by
    by_contra hlost
    rw [h.idle (Bool.not_eq_true _ ▸ hlost), List.getElem?_nil] at hop
    cases hop
  refine doWriteIfQueued ⟨h.connects, h.reads, h.writes.eraseIdx i, h.attempts, fun hlost => ?_,
    h.settled⟩ hconnected
  exact absurd (hconnected.symm.trans hlost) (by decide)

end Healthy

theorem healthy_init : Healthy .init :=
  ⟨fun op hop => by rw [List.mem_singleton.1 hop]; exact nofun, nofun, nofun, Nat.le_refl 1,
    fun _ => rfl, nofun⟩

theorem healthy_step {c t : Client} {a : Act} (h : Healthy c) (hsucceeds : a.succeeds = true)
    (hstep : c.step a = some t) : Healthy t ∧ (c.connected = true → t.connected = true) := by
  cases Client.move_of_step hstep with
  | send msg => exact ⟨⟨h.connects, h.reads, h.writes, h.attempts, h.idle, h.settled⟩, id⟩
  | queueMessage i msg hposted =>
    refine ⟨h.queueMessage i msg, fun hconnected => ?_⟩
    rw [Client.queueMessage]
    dsimp only
    split <;> exact hconnected
  | connectCompletes i ok op hop hpending =>
    obtain rfl : ok = true := hsucceeds
    refine ⟨⟨h.connects.set i op, h.reads, h.writes, ?_, h.idle, fun hconnected => ?_⟩, id⟩
    · rw [List.length_set]
      exact h.attempts
    · rw [h.settled hconnected, List.getElem?_nil] at hop
      cases hop
  | readCompletes i ok op hop hpending =>
    obtain rfl : ok = true := hsucceeds
    exact ⟨⟨h.connects, h.reads.set i op, h.writes, h.attempts, h.idle, h.settled⟩, id⟩
  | writeCompletes i ok op hop hpending =>
    obtain rfl : ok = true := hsucceeds
    refine ⟨⟨h.connects, h.reads, h.writes.set i op, h.attempts, fun hlost => ?_, h.settled⟩, id⟩
    rw [h.idle hlost, List.getElem?_nil] at hop
    cases hop
  | connectHandler i ok op hop hdecided =>
    obtain rfl := h.connects.ok_of_getElem? hop hdecided
    refine ⟨h.connectHandler hop, fun _ => ?_⟩
    rw [Client.connectHandler, if_pos rfl, Client.doWriteIfQueued]
    split <;> rfl
  | readHandler i ok op hop hdecided =>
    obtain rfl := h.reads.ok_of_getElem? hop hdecided
    have herased : Healthy { c with reads := c.reads.eraseIdx i } :=
      ⟨h.connects, h.reads.eraseIdx i, h.writes, h.attempts, h.idle, h.settled⟩
    rw [Client.readHandler, if_pos rfl]
    split
    · exact ⟨herased, id⟩
    · exact ⟨herased.doRead, id⟩
  | writeHandler i ok op hop hdecided =>
    obtain rfl := h.writes.ok_of_getElem? hop hdecided
    refine ⟨h.writeHandler hop, fun hconnected => ?_⟩
    rw [Client.writeHandler, if_pos rfl, Client.doWriteIfQueued]
    split <;> exact hconnected

/-- The connection is made before anything is written. -/
theorem Healthy.connectsIdle {c : Client} (h : Healthy c) (a : Act) : ConnectsIdle c a := by
  cases a with
  | connectHandler i =>
    intro hdecided
    obtain ⟨op, hop, _⟩ := Option.bind_eq_some_iff.1 hdecided
    refine h.idle (Bool.eq_false_iff.2 fun hconnected => ?_)
    rw [h.settled hconnected, List.getElem?_nil] at hop
    cases hop
  | _ => trivial

/-! ### Runs -/

namespace Shutdown

/-- What holds until the wait of the destructor ends. -/
structure Waiting (s : Shutdown) : Prop where
  orderly : Orderly s.client
  healthy : Healthy s.client
  opened : s.closed = false
  connected : s.caller = .waiting → s.client.connected = true
  issued : ∀ msg ∈ s.sends, msg ∈ s.client.queued ++ s.client.posted

/-- What the caller has sent is on its way until the wait ends, and delivered from then on. -/
structure Flushing (s : Shutdown) : Prop where
  waiting : s.caller.waits = true → Waiting s
  delivered : s.caller.waits = false → ∀ msg ∈ s.sends, msg ∈ s.client.delivered

variable {s t : Shutdown} {a : ShutdownAct}

theorem Flushing.flushed (h : Flushing s) : Flushed s :=
  fun hreturned => h.delivered (by rw [hreturned]; rfl)

theorem flushing_init : Flushing init :=
  ⟨fun _ => ⟨orderly_init, healthy_init, rfl, nofun, nofun⟩, nofun⟩

theorem Flushing.of_delivered (hleft : s.caller.waits = false)
    (h : ∀ msg ∈ s.sends, msg ∈ s.client.delivered) : Flushing s :=
  ⟨fun hwaits => absurd (hwaits.symm.trans hleft) (by decide), fun _ => h⟩

theorem Flushing.of_waiting (hwaits : s.caller.waits = true) (h : Waiting s) : Flushing s :=
  ⟨fun _ => h, fun hleft => absurd (hwaits.symm.trans hleft) (by decide)⟩

theorem succeeds_of_undisturbed {a : Act} (hundisturbed : s.Undisturbed (.io a))
    (hopened : s.closed = false) : a.succeeds = true := by
  have hok : ∀ ok : Bool, (ok = false → s.closed = true) → ok = true := fun ok h => by
    by_contra hfailed
    exact absurd (hopened.symm.trans (h (Bool.eq_false_iff.2 hfailed))) (by decide)
  cases a with
  | connectCompletes i ok => exact hok ok hundisturbed
  | readCompletes i ok => exact hok ok hundisturbed
  | writeCompletes i ok => exact hok ok hundisturbed
  | _ => rfl

theorem Waiting.client {client : Client} {a : Act} (h : Waiting s) (hsucceeds : a.succeeds = true)
    (hclient : s.client.step a = some client) : Waiting { s with client } := by
  obtain ⟨hhealthy, hconnected⟩ := healthy_step h.healthy hsucceeds hclient
  exact ⟨orderly_step h.orderly (h.healthy.connectsIdle a) hclient, hhealthy, h.opened,
    fun hwaiting => hconnected (h.connected hwaiting),
    fun msg hmsg => (Client.frames_of_step hclient).1 msg (h.issued msg hmsg)⟩

/-- An empty queue and no posted handler: the transport has taken everything. -/
theorem Waiting.delivered (h : Waiting s) (hqueue : s.client.messageQueue = [])
    (hposted : s.client.posted = []) : ∀ msg ∈ s.sends, msg ∈ s.client.delivered := by
  intro msg hmsg
  have hissued := h.issued msg hmsg
  have hwrites := h.orderly.writes_eq_nil hqueue
  rw [hposted, List.append_nil, h.orderly.kept, hqueue, List.append_nil] at hissued
  rw [h.orderly.taken, hwrites]
  exact List.mem_append_left _ hissued

theorem flushing_step (h : Flushing s) (hundisturbed : s.Undisturbed a)
    (hnothing : s.LeavesNothingPosted a) (hstep : s.step a = some t) : Flushing t := by
  cases move_of_step hstep with
  | send msg client hsending hclient =>
    have hwaits : s.caller.waits = true := by rw [hsending]; rfl
    have hwaiting := (h.waiting hwaits).client rfl hclient
    refine .of_waiting hwaits
      ⟨hwaiting.orderly, hwaiting.healthy, hwaiting.opened, hwaiting.connected, fun m hm => ?_⟩
    obtain hold | rfl := List.mem_append.1 hm |>.imp_right List.mem_singleton.1
    · exact hwaiting.issued m hold
    · cases Client.move_of_step hclient
      exact List.mem_append_right _ (List.mem_append_right _ (List.mem_singleton_self _))
  | io a client hallowed hclient =>
    by_cases hwaits : s.caller.waits = true
    · have hwaiting := h.waiting hwaits
      exact .of_waiting hwaits
        (hwaiting.client (succeeds_of_undisturbed hundisturbed hwaiting.opened) hclient)
    · have hleft := Bool.eq_false_iff.2 hwaits
      exact .of_delivered hleft fun msg hmsg =>
        (Client.frames_of_step hclient).2 msg (h.delivered hleft msg hmsg)
  | enter hsending =>
    have hwaiting := h.waiting (by rw [hsending]; rfl)
    exact .of_waiting rfl ⟨hwaiting.orderly, hwaiting.healthy, hwaiting.opened,
      fun _ => hundisturbed, hwaiting.issued⟩
  | leave hwaiting hdone =>
    have hwait := h.waiting (by rw [hwaiting]; rfl)
    have hqueue : s.client.messageQueue = [] := by
      by_contra hqueue
      exact hdone ⟨hwait.connected hwaiting, hqueue⟩
    exact .of_delivered rfl (hwait.delivered hqueue hnothing)
  | terminate hleft => exact .of_delivered rfl (h.delivered (by rw [hleft]; rfl))
  | postClose hterminated => exact .of_delivered rfl (h.delivered (by rw [hterminated]; rfl))
  | closeHandler hjoining =>
    have hleft : s.caller.waits = false := by rw [hjoining]; rfl
    exact .of_delivered hleft (h.delivered hleft)
  | runReturns =>
    by_cases hwaits : s.caller.waits = true
    · have hwaiting := h.waiting hwaits
      exact .of_waiting hwaits
        ⟨hwaiting.orderly, hwaiting.healthy, hwaiting.opened, hwaiting.connected, hwaiting.issued⟩
    · have hleft := Bool.eq_false_iff.2 hwaits
      exact .of_delivered hleft (h.delivered hleft)
  | join hjoining => exact .of_delivered rfl (h.delivered (by rw [hjoining]; rfl))

/-- **Flush.** In a run in which the client is connected when its destructor is entered and no operation fails before the destructor closes the socket, every frame whose `send` has returned has been taken by the transport when the destructor returns, provided that the wait of the destructor never ends over a posted handler that has not run. -/
theorem flushed_of_leavesNothingPosted {acts : List ShutdownAct}
    (hundisturbed : Along step Undisturbed init acts)
    (hnothing : Along step LeavesNothingPosted init acts) : Always step Flushed init acts :=
  always_of_along (fun _ h => h.flushed) (fun _ _ _ h hC hstep => flushing_step h hC.1 hC.2 hstep)
    flushing_init
    (hundisturbed.and hnothing)

/-- Two messages on an established connection, after which the client is destroyed. -/
def logTwice : List ShutdownAct :=
  [.io (.connectCompletes 0 true), .io (.connectHandler 0), .send (ascii "a"),
    .send (ascii "b"), .enter, .io (.queueMessage 0), .io (.queueMessage 0),
    .io (.writeCompletes 0 true), .io (.writeHandler 0), .io (.writeCompletes 0 true),
    .io (.writeHandler 0), .leave, .terminate, .postClose, .closeHandler, .io (.readHandler 0),
    .runReturns, .join]

theorem flushed_of_leavesNothingPosted_logTwice :
    ∃ s, run step init logTwice = some s ∧ s.caller = .returned ∧
      s.client.delivered = [⟨0, frame (ascii "a")⟩, ⟨1, frame (ascii "b")⟩] ∧
      Always step Flushed init logTwice := by
  obtain ⟨s, hrun, hp⟩ := exists_of_any_run step init logTwice
    (fun s => decide (s.caller = .returned ∧ s.client.delivered =
      [⟨0, frame (ascii "a")⟩, ⟨1, frame (ascii "b")⟩]))
    (by decide +kernel)
  obtain ⟨hreturned, hdelivered⟩ := of_decide_eq_true hp
  exact ⟨s, hrun, hreturned, hdelivered,
    flushed_of_leavesNothingPosted (by decide +kernel) (by decide +kernel)⟩

/-- The same two messages. The wait sees an empty queue before either handler has run; the close is posted right behind them, and runs before the handler of the first write could start the second. -/
def logTwiceAndExit : List ShutdownAct :=
  [.io (.connectCompletes 0 true), .io (.connectHandler 0), .send (ascii "a"), .send (ascii "b"),
    .enter, .leave, .terminate, .postClose, .io (.queueMessage 0), .io (.queueMessage 0),
    .io (.writeCompletes 0 true), .closeHandler, .io (.writeHandler 0),
    .io (.writeCompletes 0 false), .io (.readHandler 0), .io (.writeHandler 0), .runReturns, .join]

theorem logTwiceAndExit_loses :
    Along step Undisturbed init logTwiceAndExit ∧
      ∃ s, run step init logTwiceAndExit = some s ∧ s.caller = .returned ∧
        s.sends = [⟨0, frame (ascii "a")⟩, ⟨1, frame (ascii "b")⟩] ∧
        s.client.delivered = [⟨0, frame (ascii "a")⟩] ∧
        ¬ Flushed s := by
  obtain ⟨s, hrun, hp⟩ := exists_of_any_run step init logTwiceAndExit
    (fun s => decide (s.caller = .returned ∧
      s.sends = [⟨0, frame (ascii "a")⟩, ⟨1, frame (ascii "b")⟩] ∧
      s.client.delivered = [⟨0, frame (ascii "a")⟩])) (by decide +kernel)
  obtain ⟨hreturned, hsends, hdelivered⟩ := of_decide_eq_true hp
  refine ⟨by decide +kernel, s, hrun, hreturned, hsends, hdelivered, fun hflushed => ?_⟩
  have hlost := hflushed hreturned ⟨1, frame (ascii "b")⟩
    (by rw [hsends]; exact List.mem_cons_of_mem _ (List.mem_singleton_self _))
  rw [hdelivered, List.mem_singleton] at hlost
  cases hlost

end Shutdown

end Libesf.Log

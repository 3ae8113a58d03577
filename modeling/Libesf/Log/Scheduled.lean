import Libesf.Log.Client

/-!
# Something is always scheduled

The duty to write and to connect is spread over five handlers, and none of them sees the operations the others have started. `Scheduled` is what they keep between them, whatever the order in which the operations of old and of new connections end: each handler that takes an operation away either starts the next one or clears `m_connected` and starts a connection attempt.

What they do not keep is one write for each frame. The second of two writes of the last frame pops a queue that the first has emptied, and from then on nothing is promised.
-/

namespace Libesf.Log

open Transition

structure Scheduled (c : Client) : Prop where
  alive : c.terminate = false
  attempt : c.connected = true ∨ c.connects ≠ []
  monitor : c.connected = true → c.reads ≠ []
  write : c.connected = true → c.messageQueue ≠ [] → c.writes ≠ []

namespace Scheduled

variable {c : Client}

theorem pending (h : Scheduled c) (hqueue : c.messageQueue ≠ []) :
    c.writes ≠ [] ∨ c.connects ≠ [] := by
  obtain hconnected | hconnects := h.attempt
  · exact .inl (h.write hconnected hqueue)
  · exact .inr hconnects

/-- Between handlers the state counts for nothing else: a step that keeps the flag, drops no operation and pushes nothing to the queue keeps `Scheduled`. -/
theorem mono (h : Scheduled c) {t : Client} (halive : t.terminate = c.terminate)
    (hconnected : t.connected = c.connected) (hqueue : t.messageQueue = c.messageQueue)
    (hconnects : t.connects.length = c.connects.length) (hreads : t.reads.length = c.reads.length)
    (hwrites : t.writes.length = c.writes.length) : Scheduled t := by
  refine ⟨halive.trans h.alive, ?_, ?_, ?_⟩
  · rw [hconnected, ← List.length_pos_iff, hconnects, List.length_pos_iff]
    exact h.attempt
  · rw [hconnected, ← List.length_pos_iff, hreads, List.length_pos_iff]
    exact h.monitor
  · rw [hconnected, hqueue, ← List.length_pos_iff (l := t.writes), hwrites, List.length_pos_iff]
    exact h.write

/-! ### One lemma for each function -/

/-- Going back to `doConnect` with the flag cleared asks for nothing of the state before. -/
theorem doConnect (halive : c.terminate = false) (hconnected : c.connected = false) :
    Scheduled c.doConnect := by
  rw [Client.doConnect, if_neg (by rw [halive]; exact Bool.false_ne_true)]
  exact ⟨halive, .inr (List.append_ne_nil_of_right_ne_nil _ (List.cons_ne_nil _ _)),
    fun h => absurd (h.symm.trans hconnected) (by decide), fun h =>
    absurd (h.symm.trans hconnected) (by decide)⟩

/-- Whatever the queue holds and whatever is being written, the tail of the handlers leaves a write outstanding for it. -/
theorem doWriteIfQueued (halive : c.terminate = false)
    (hattempt : c.connected = true ∨ c.connects ≠ [])
    (hmonitor : c.connected = true → c.reads ≠ []) : Scheduled c.doWriteIfQueued := by
  cases hqueue : c.messageQueue with
  | nil =>
    rw [Client.doWriteIfQueued, if_pos (by rw [hqueue]; rfl)]
    exact ⟨halive, hattempt, hmonitor, fun _ h => absurd hqueue h⟩
  | cons msg rest =>
    rw [Client.doWriteIfQueued, if_neg (by rw [hqueue]; exact Bool.false_ne_true)]
    refine ⟨halive, hattempt, hmonitor, fun _ _ => ?_⟩
    rw [Client.doWrite, hqueue]
    exact List.append_ne_nil_of_right_ne_nil _ (List.cons_ne_nil _ _)

theorem queueMessage (h : Scheduled c) (msg : Queued) : Scheduled (c.queueMessage msg) := by
  by_cases hwrite : (c.connected && c.messageQueue.isEmpty) = true
  · rw [Client.queueMessage, if_pos (by simpa using hwrite)]
    refine ⟨h.alive, h.attempt, h.monitor, fun _ _ => ?_⟩
    rw [Client.doWrite, List.isEmpty_iff.1 (Bool.and_eq_true_iff.1 hwrite).2]
    exact List.append_ne_nil_of_right_ne_nil _ (List.cons_ne_nil _ _)
  · rw [Client.queueMessage, if_neg (by simpa using hwrite)]
    refine ⟨h.alive, h.attempt, h.monitor, fun hconnected _ =>
      h.write hconnected fun hqueue => hwrite ?_⟩
    rw [Bool.and_eq_true]
    exact ⟨hconnected, by rw [hqueue]; rfl⟩

theorem connectHandler (halive : c.terminate = false) (ok : Bool) :
    Scheduled (c.connectHandler ok) := by
  cases ok with
  | false => exact doConnect halive rfl
  | true =>
    exact doWriteIfQueued halive (.inl rfl)
      fun _ => List.append_ne_nil_of_right_ne_nil _ (List.cons_ne_nil _ _)

/-- The monitor's own entry may be gone when its handler runs; the handler starts it again or clears the flag. -/
theorem readHandler (halive : c.terminate = false) (hattempt : c.connected = true ∨ c.connects ≠ [])
    (hwrite : c.connected = true → c.messageQueue ≠ [] → c.writes ≠ []) (op : Operation Unit)
    (ok : Bool) : Scheduled (c.readHandler op ok) := by
  cases ok with
  | false => exact doConnect halive rfl
  | true =>
    rw [Client.readHandler, if_pos rfl, if_neg (by rw [halive]; exact Bool.false_ne_true)]
    exact ⟨halive, hattempt, fun _ =>
      List.append_ne_nil_of_right_ne_nil _ (List.cons_ne_nil _ _), hwrite⟩

theorem writeHandler (halive : c.terminate = false) (hattempt : c.connected = true ∨ c.connects ≠ [])
    (hmonitor : c.connected = true → c.reads ≠ []) (op : Operation Queued) (ok : Bool) :
    Scheduled (c.writeHandler op ok) := by
  cases ok with
  | false => exact doConnect halive rfl
  | true => exact doWriteIfQueued halive hattempt hmonitor

end Scheduled

theorem scheduled_init : Scheduled .init :=
  Scheduled.doConnect rfl rfl

theorem scheduled_step (c : Client) (a : Act) (t : Client) (h : Scheduled c)
    (hstep : c.step a = some t) : Scheduled t := by
  cases Client.move_of_step hstep with
  | send msg => exact h.mono rfl rfl rfl rfl rfl rfl
  | queueMessage i msg hposted =>
    apply Scheduled.queueMessage
    exact h.mono rfl rfl rfl rfl rfl rfl
  | connectCompletes i ok op hop hpending => exact h.mono rfl rfl rfl List.length_set rfl rfl
  | readCompletes i ok op hop hpending => exact h.mono rfl rfl rfl rfl List.length_set rfl
  | writeCompletes i ok op hop hpending => exact h.mono rfl rfl rfl rfl rfl List.length_set
  | connectHandler i ok op hop hdecided =>
    apply Scheduled.connectHandler
    exact h.alive
  | readHandler i ok op hop hdecided =>
    apply Scheduled.readHandler
    · exact h.alive
    · exact h.attempt
    · exact h.write
  | writeHandler i ok op hop hdecided =>
    apply Scheduled.writeHandler
    · exact h.alive
    · exact h.attempt
    · exact h.monitor

/-- What the client promises: its behaviour is defined, something is scheduled, and a queued message has a write or a connection attempt outstanding. -/
structure StrandsNothing (c : Client) : Prop where
  defined : c.Defined
  scheduled : Scheduled c
  pending : c.messageQueue ≠ [] → c.writes ≠ [] ∨ c.connects ≠ []

/-- The handler of a write that has succeeded finds something to pop. -/
def PopsQueued (c : Client) : Act → Prop
  | .writeHandler i => c.writes[i]?.bind Operation.result = some true → c.messageQueue ≠ []
  | _ => True

instance (c : Client) : (a : Act) → Decidable (PopsQueued c a)
  | .writeHandler i =>
    inferInstanceAs (Decidable (c.writes[i]?.bind Operation.result = some true → c.messageQueue ≠ []))
  | .send _ | .queueMessage _ | .connectCompletes _ _ | .readCompletes _ _ | .writeCompletes _ _
  | .connectHandler _
  | .readHandler _ => .isTrue trivial

theorem pops_writeHandler (c : Client) (op : Operation Queued) (ok : Bool) :
    (c.writeHandler op ok).pops = if ok then c.pops ++
      [⟨op.buffer, c.messageQueue.head?⟩] else c.pops := by
  rw [Client.writeHandler]
  split
  · exact Client.doWriteIfQueued_pops _
  · exact Client.doConnect_pops _

/-- A step pops nothing, unless it is the handler of a write that has succeeded. -/
theorem defined_step_iff {c t : Client} {a : Act} (hdefined : c.Defined) (hstep : c.step a = some t) :
    t.Defined ↔ PopsQueued c a := by
  have hsame : ∀ {u : Client}, u.pops = c.pops → (u.Defined ↔ True) := by
    intro u hpops
    rw [Client.Defined, hpops]
    exact iff_of_true hdefined trivial
  cases Client.move_of_step hstep with
  | send msg => exact hsame rfl
  | queueMessage i msg hposted =>
    rw [Client.queueMessage]
    dsimp only
    split <;> exact hsame rfl
  | connectCompletes i ok op hop hpending => exact hsame rfl
  | readCompletes i ok op hop hpending => exact hsame rfl
  | writeCompletes i ok op hop hpending => exact hsame rfl
  | connectHandler i ok op hop hdecided =>
    rw [Client.connectHandler]
    split
    · exact hsame (Client.doWriteIfQueued_pops _)
    · exact hsame (Client.doConnect_pops _)
  | readHandler i ok op hop hdecided =>
    rw [Client.readHandler]
    split
    · split <;> exact hsame rfl
    · exact hsame (Client.doConnect_pops _)
  | writeHandler i ok op hop hdecided =>
    rw [Client.Defined, pops_writeHandler, PopsQueued, hop, Option.bind_some, hdecided]
    cases ok with
    | false => exact iff_of_true hdefined nofun
    | true =>
      have hhead : c.messageQueue.head? ≠ none ↔ c.messageQueue ≠ [] :=
        not_congr List.head?_eq_none_iff
      rw [if_pos rfl, List.forall_mem_append, List.forall_mem_singleton]
      exact ⟨fun h _ => hhead.1 h.2, fun h => ⟨hdefined, hhead.2 (h rfl)⟩⟩

/-- **Nothing is stranded.** In a run of a client that is not told to terminate, every state is defined, is connected or trying to connect, has a connection watched, and has a write outstanding for a queue that is not empty if there is a connection, so that a queued message always has a write or a connection attempt outstanding, if and only if no handler of a successful write of the run finds the queue empty. -/
theorem strandsNothing_iff_popsQueued {acts : List Act} {c : Client}
    (hrun : run Client.step .init acts = some c) :
    Always Client.step StrandsNothing .init acts ↔ Along Client.step PopsQueued .init acts := by
  have hkeeps : ∀ c a t, Scheduled c ∧ c.Defined → PopsQueued c a → Client.step c a = some t →
      Scheduled t ∧ t.Defined :=
    fun c a t h hpops hstep => ⟨scheduled_step c a t h.1 hstep, (defined_step_iff h.2 hstep).2 hpops⟩
  have hbad : ∀ c a t, Scheduled c ∧ c.Defined → ¬ PopsQueued c a → Client.step c a = some t →
      ¬ StrandsNothing t :=
    fun c a t h hempty hstep hsafe => hempty ((defined_step_iff h.2 hstep).1 hsafe.defined)
  exact always_iff_along (fun _ h => ⟨h.2, h.1, h.1.pending⟩) hkeeps hbad ⟨scheduled_init, nofun⟩ hrun

/-- A message is queued while the client is cut off and connected again, and its first write ends late. -/
def reconnectWhileWriting : List Act :=
  [.connectCompletes 0 true, .connectHandler 0, .send (ascii "a"), .send (ascii "b"),
    .queueMessage 0, .queueMessage 0, .writeCompletes 0 true, .readCompletes 0 false,
    .readHandler 0, .connectCompletes 0 true, .connectHandler 0, .writeHandler 0]

theorem strandsNothing_iff_popsQueued_reconnectWhileWriting :
    ∃ c, run Client.step .init reconnectWhileWriting = some c ∧ c.connected = true ∧
      c.messageQueue ≠ [] ∧
      Always Client.step StrandsNothing .init reconnectWhileWriting := by
  obtain ⟨c, hrun, hp⟩ := exists_of_any_run Client.step .init reconnectWhileWriting
    (fun c => decide (c.connected = true ∧ c.messageQueue ≠ [])) (by decide +kernel)
  obtain ⟨hconnected, hqueue⟩ := of_decide_eq_true hp
  exact ⟨c, hrun, hconnected, hqueue, (strandsNothing_iff_popsQueued hrun).2 (by decide +kernel)⟩

/-- Two frames. The second is written by the handler of the first on the socket that is reconnecting, and once more by the connect handler; both writes succeed. -/
def popTwice : List Act :=
  [.send (ascii "a"), .send (ascii "b"), .queueMessage 0, .queueMessage 0, .connectCompletes 0 true,
    .connectHandler 0, .writeCompletes 0 true, .readCompletes 0 false, .readHandler 0,
    .writeHandler 0, .connectCompletes 0 true, .connectHandler 0, .writeCompletes 0 true,
    .writeCompletes 1 true, .writeHandler 0, .writeHandler 0]

/-- The handler of the second write calls `pop_front` on an empty queue. -/
theorem popTwice_undefined :
    ∃ c, run Client.step .init popTwice = some c ∧ ⟨⟨1, frame (ascii "b")⟩, none⟩ ∈ c.pops ∧
      ¬ StrandsNothing c := by
  obtain ⟨c, hrun, hp⟩ := exists_of_any_run Client.step .init popTwice
    (fun c => decide (⟨⟨1, frame (ascii "b")⟩, none⟩ ∈ c.pops)) (by decide +kernel)
  have hpop := of_decide_eq_true hp
  exact ⟨c, hrun, hpop, fun hsafe => hsafe.defined _ hpop rfl⟩

end Libesf.Log

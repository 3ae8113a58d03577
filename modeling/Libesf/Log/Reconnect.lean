import Libesf.Log.Client

/-!
# The reconnection loop of the log client

Three error handlers clear `m_connected` and go back to `M_doConnect`, and none of them knows of the others: a connection that the read monitor and a write both find broken is replaced twice, and from then on two attempts race for one socket. A run keeps a single loop exactly when each lost connection is noticed by one handler, and by the handler of an operation of that connection.
-/

namespace Libesf.Log

open Transition

/-- Connection `k` was established and is not the one in use any more. -/
def Client.Lost (c : Client) (k : Nat) : Prop :=
  1 ≤ k ∧ k ≤ c.established ∧ (c.connected = true → k ≠ c.established)

instance (c : Client) (k : Nat) : Decidable (c.Lost k) :=
  inferInstanceAs (Decidable (1 ≤ k ∧ k ≤ c.established ∧ (c.connected = true → k ≠ c.established)))

structure SingleLoop (c : Client) : Prop where
  attempt : c.connects.length ≤ 1
  trying : c.connected = false → c.connects ≠ []
  idle : c.connected = true → c.connects = []
  monitor : c.reads.length ≤ 1
  restarted : ∀ k, c.restarts.count k = if c.Lost k then 1 else 0

/-- What keeps it: an attempt is outstanding exactly when there is no connection, the monitor watches the connection in use, and no write is of a connection to come. -/
structure Looping (c : Client) : Prop where
  alive : c.terminate = false
  attempt : c.connected = false → ∃ op, c.connects = [op]
  idle : c.connected = true → c.connects = []
  monitor : c.reads.length ≤ 1
  present : c.connected = true → ∀ op ∈ c.reads, op.connection = c.established
  used : c.connected = true → 1 ≤ c.established
  started : ∀ op ∈ c.writes, 1 ≤ op.connection ∧ op.connection ≤ c.connection
  restarted : ∀ k, c.restarts.count k = if c.Lost k then 1 else 0

namespace Looping

variable {c : Client}

theorem singleLoop (h : Looping c) : SingleLoop c where
  attempt := by
    cases hconnected : c.connected with
    | false =>
      obtain ⟨op, hop⟩ := h.attempt hconnected
      rw [hop, List.length_singleton]
    | true =>
      rw [h.idle hconnected]
      exact Nat.zero_le 1
  trying hconnected := by
    obtain ⟨op, hop⟩ := h.attempt hconnected
    rw [hop]
    exact List.cons_ne_nil op []
  idle := h.idle
  monitor := h.monitor
  restarted := h.restarted

theorem connected_of_idle (h : Looping c) (hidle : c.connects = []) : c.connected = true := by
  by_contra hnot
  obtain ⟨op, hop⟩ := h.attempt (by simpa using hnot)
  rw [hidle] at hop
  cases hop

theorem one_le_connection (h : Looping c) : 1 ≤ c.connection := by
  rw [Client.connection]
  split
  · next hconnected => exact h.used hconnected
  · exact Nat.le_add_left 1 _

/-! ### One lemma for each function -/

theorem doRead (h : Looping c) (hreads : c.reads = []) : Looping c.doRead where
  alive := h.alive
  attempt := h.attempt
  idle := h.idle
  monitor := by rw [Client.doRead, hreads]; exact le_rfl
  present hconnected op hop := by
    rw [Client.doRead, hreads] at hop
    obtain rfl := List.mem_singleton.1 hop
    exact if_pos hconnected
  used := h.used
  started := h.started
  restarted := h.restarted

theorem doWrite (h : Looping c) : Looping c.doWrite where
  alive := h.alive
  attempt := h.attempt
  idle := h.idle
  monitor := h.monitor
  present := h.present
  used := h.used
  started op hop := by
    obtain hold | hnew := List.mem_append.1 hop
    · exact h.started op hold
    · obtain ⟨msg, _, rfl⟩ := Option.map_eq_some_iff.1 (Option.mem_toList.1 hnew)
      exact ⟨h.one_le_connection, le_refl _⟩
  restarted := h.restarted

theorem doWriteIfQueued (h : Looping c) : Looping c.doWriteIfQueued := by
  rw [Client.doWriteIfQueued]
  split
  · exact h
  · exact h.doWrite

theorem closeSocket (h : Looping c) : Looping c.closeSocket where
  alive := h.alive
  attempt hconnected := by
    obtain ⟨op, hop⟩ := h.attempt hconnected
    exact ⟨_, by rw [Client.closeSocket, hop]; rfl⟩
  idle hconnected := by rw [Client.closeSocket, h.idle hconnected]; rfl
  monitor := by
    rw [Client.closeSocket, List.length_map]
    exact h.monitor
  present hconnected op hop := by
    obtain ⟨op, hmem, rfl⟩ := List.mem_map.1 hop
    exact h.present hconnected op hmem
  used := h.used
  started op hop := by
    obtain ⟨op, hmem, rfl⟩ := List.mem_map.1 hop
    exact h.started op hmem
  restarted := h.restarted

/-- Giving up the connection in use, once, and going back to `doConnect`. -/
theorem restart (h : Looping c) (hconnected : c.connected = true) :
    Looping (Client.doConnect { c with
      connected := false, restarts := c.restarts ++ [c.established] }) := by
  have hused := h.used hconnected
  rw [Client.doConnect, if_neg (by simp [h.alive]), h.idle hconnected]
  have hoff : (false : Bool) ≠ true := Bool.false_ne_true
  refine ⟨h.alive, fun _ => ⟨_, rfl⟩, fun hon => absurd hon hoff, h.monitor,
    fun hon => absurd hon hoff, fun hon => absurd hon hoff, fun op hop => ?_, fun k => ?_⟩
  · have hle := h.started op hop
    simp only [Client.connection, hconnected, if_true, Bool.false_eq_true, if_false] at hle ⊢
    omega
  · have hk := h.restarted k
    rw [List.count_append, List.count_singleton, hk]
    simp only [Client.Lost, hconnected, beq_iff_eq]
    grind

theorem queueMessage (h : Looping c) (i : Nat) (msg : Queued) :
    Looping ({ c with posted := c.posted.eraseIdx i }.queueMessage msg) := by
  have hqueued : Looping { c with
      posted := c.posted.eraseIdx i, messageQueue := c.messageQueue ++ [msg],
      queued := c.queued ++ [msg] } :=
    ⟨h.alive, h.attempt, h.idle, h.monitor, h.present, h.used, h.started, h.restarted⟩
  rw [Client.queueMessage]
  dsimp only
  split
  · exact hqueued.doWrite
  · exact hqueued

theorem connectHandler (h : Looping c) {i : Nat} {ok : Bool} {op : Operation Unit}
    (hop : c.connects[i]? = some op) (hreads : ok = true → c.reads = []) :
    Looping ({ c with connects := c.connects.eraseIdx i }.connectHandler ok) := by
  have hconnected : c.connected = false := by
    by_contra hnot
    rw [h.idle (by simpa using hnot)] at hop
    cases hop
  obtain ⟨op', hop'⟩ := h.attempt hconnected
  obtain ⟨_, rfl⟩ := Pool.eq_singleton_of_getElem? (by rw [hop', List.length_singleton]) hop
  have hoff : (false : Bool) ≠ true := Bool.false_ne_true
  rw [Client.connectHandler, hop']
  split
  · next hok =>
    refine doWriteIfQueued
      (doRead ⟨h.alive, fun hnow => absurd hnow.symm hoff, fun _ => rfl, h.monitor,
        fun _ op hop => ?_,
      fun _ => Nat.le_add_left 1 _, fun op hop => ?_, fun k => ?_⟩ (hreads hok))
    · rw [hreads hok] at hop
      cases hop
    · have hle := h.started op hop
      simp only [Client.connection, hconnected, Bool.false_eq_true, if_false] at hle
      exact hle
    · rw [h.restarted k]
      simp only [Client.Lost, hconnected]
      grind
  · rw [Client.doConnect, if_neg (by simp [h.alive])]
    exact ⟨h.alive, fun _ => ⟨_, rfl⟩, fun hon => absurd hon hoff, h.monitor,
      fun hon => absurd hon hoff, fun hon => absurd hon hoff,
      fun op hop => by simpa [Client.connection, hconnected] using h.started op hop,
      fun k => by simpa [Client.Lost, hconnected] using h.restarted k⟩

theorem eraseRead (h : Looping c) (i : Nat) : Looping { c with reads := c.reads.eraseIdx i } :=
  ⟨h.alive, h.attempt, h.idle, (List.length_eraseIdx_le _ _).trans h.monitor,
    fun hconnected op hop => h.present hconnected op (List.mem_of_mem_eraseIdx hop), h.used,
    h.started, h.restarted⟩

theorem readHandler (h : Looping c) {i : Nat} {ok : Bool} {op : Operation Unit}
    (hop : c.reads[i]? = some op) (hidle : ok = false → c.connects = []) :
    Looping ({ c with reads := c.reads.eraseIdx i }.readHandler op ok) := by
  obtain ⟨hreads, rfl⟩ := Pool.eq_singleton_of_getElem? h.monitor hop
  have herased := h.eraseRead 0
  rw [Client.readHandler]
  split
  · rw [if_neg (by simp [h.alive])]
    exact herased.doRead (by rw [hreads]; rfl)
  · next hfailed =>
    have hconnected := h.connected_of_idle (hidle (by simpa using hfailed))
    rw [h.present hconnected op (List.mem_of_getElem? hop)]
    exact herased.restart hconnected

theorem writeHandler (h : Looping c) {i : Nat} {ok : Bool} {op : Operation Queued}
    (hidle : ok = false → c.connects = [] ∧ op.connection = c.established) :
    Looping ({ c with writes := c.writes.eraseIdx i }.writeHandler op ok) := by
  have herased : Looping { c with writes := c.writes.eraseIdx i } :=
    ⟨h.alive, h.attempt, h.idle, h.monitor, h.present, h.used,
      fun op' hop' => h.started op' (List.mem_of_mem_eraseIdx hop'), h.restarted⟩
  rw [Client.writeHandler]
  split
  · exact doWriteIfQueued
      ⟨herased.alive, herased.attempt, herased.idle, herased.monitor, herased.present, herased.used,
        herased.started, herased.restarted⟩
  · next hfailed =>
    obtain ⟨hconnects, hconnection⟩ := hidle (by simpa using hfailed)
    rw [hconnection]
    exact herased.closeSocket.restart (h.connected_of_idle hconnects)

end Looping

/-! ### Runs -/

/-- A connection is established only when no monitor of an earlier one is left, and a loss is acted on only by a handler that finds the lost connection in use. -/
def NoticedOnce (c : Client) : Act → Prop
  | .connectHandler i => c.connects[i]?.bind Operation.result = some true → c.reads = []
  | .readHandler i => c.reads[i]?.bind Operation.result = some false → c.connects = []
  | .writeHandler i =>
    ∀ op ∈ c.writes[i]?, op.result = some false → c.connects = [] ∧ op.connection = c.established
  | _ => True

instance (c : Client) : (a : Act) → Decidable (NoticedOnce c a)
  | .connectHandler i =>
    inferInstanceAs (Decidable (c.connects[i]?.bind Operation.result = some true → c.reads = []))
  | .readHandler i =>
    inferInstanceAs (Decidable (c.reads[i]?.bind Operation.result = some false → c.connects = []))
  | .writeHandler i => inferInstanceAs (Decidable
      (∀ op ∈ c.writes[i]?, op.result = some false → c.connects = [] ∧ op.connection = c.established))
  | .send _ | .queueMessage _ | .connectCompletes _ _ | .readCompletes _ _ | .writeCompletes _ _ =>
    .isTrue trivial

theorem looping_init : Looping .init where
  alive := rfl
  attempt _ := ⟨_, rfl⟩
  idle := nofun
  monitor := Nat.zero_le 1
  present := nofun
  used := nofun
  started := nofun
  restarted k := by
    have hnever : ¬ Client.init.Lost k := fun h => absurd (h.1.trans h.2.1) (by decide)
    rw [if_neg hnever]
    rfl

theorem looping_step {c t : Client} {a : Act} (h : Looping c) (honce : NoticedOnce c a)
    (hstep : c.step a = some t) : Looping t := by
  cases Client.move_of_step hstep with
  | send msg =>
    exact ⟨h.alive, h.attempt, h.idle, h.monitor, h.present, h.used, h.started, h.restarted⟩
  | queueMessage i msg hposted => exact h.queueMessage i msg
  | connectCompletes i ok op hop hpending =>
    refine ⟨h.alive, fun hconnected => ?_, fun hconnected => ?_, h.monitor, h.present, h.used,
      h.started, h.restarted⟩
    · obtain ⟨op', hop'⟩ := h.attempt hconnected
      obtain ⟨_, rfl⟩ := Pool.eq_singleton_of_getElem? (by rw [hop', List.length_singleton]) hop
      exact ⟨_, by rw [hop']; rfl⟩
    · rw [h.idle hconnected, List.set_nil]
  | readCompletes i ok op hop hpending =>
    obtain ⟨hreads, rfl⟩ := Pool.eq_singleton_of_getElem? h.monitor hop
    refine ⟨h.alive, h.attempt, h.idle, by rw [List.length_set]; exact h.monitor,
      fun hconnected op' hop' => ?_, h.used, h.started, h.restarted⟩
    rw [hreads] at hop'
    obtain rfl := List.mem_singleton.1 hop'
    exact h.present hconnected op (List.mem_of_getElem? hop)
  | writeCompletes i ok op hop hpending =>
    refine ⟨h.alive, h.attempt, h.idle, h.monitor, h.present, h.used, fun op' hop' => ?_, h.restarted⟩
    obtain hold | rfl := List.mem_or_eq_of_mem_set hop'
    · exact h.started op' hold
    · exact h.started op (List.mem_of_getElem? hop)
  | connectHandler i ok op hop hdecided =>
    refine h.connectHandler hop fun hok => honce ?_
    rw [hop, Option.bind_some, hdecided, hok]
  | readHandler i ok op hop hdecided =>
    refine h.readHandler hop fun hfailed => honce ?_
    rw [hop, Option.bind_some, hdecided, hfailed]
  | writeHandler i ok op hop hdecided =>
    exact h.writeHandler fun hfailed => honce op hop (hfailed ▸ hdecided)

/-- A handler that restarts while an attempt is outstanding makes it two. -/
theorem not_singleLoop_of_attempt {c t : Client} (hconnects : c.connects ≠ [])
    (ht : t.connects.length = c.connects.length + 1) : ¬ SingleLoop t := by
  intro hsafe
  have hone := hsafe.attempt
  have hpos := List.length_pos_iff.2 hconnects
  omega

/-- Outside the condition, the step itself starts a second attempt, a second monitor, or a second restart for one connection. -/
theorem not_singleLoop_of_not_noticedOnce {c t : Client} {a : Act} (h : Looping c)
    (htwice : ¬ NoticedOnce c a) (hstep : c.step a = some t) : ¬ SingleLoop t := by
  cases Client.move_of_step hstep with
  | connectHandler i ok op hop hdecided =>
    simp only [NoticedOnce, hop, Option.bind_some, hdecided, Classical.not_imp] at htwice
    obtain ⟨hok, hreads⟩ := htwice
    obtain rfl : ok = true := Option.some.inj hok
    intro hsafe
    have hone := hsafe.monitor
    have hpos := List.length_pos_iff.2 hreads
    simp only [Client.connectHandler, if_true, Client.doWriteIfQueued_reads, Client.doRead,
      List.length_append, List.length_singleton] at hone
    omega
  | readHandler i ok op hop hdecided =>
    simp only [NoticedOnce, hop, Option.bind_some, hdecided, Classical.not_imp] at htwice
    obtain ⟨hfailed, hconnects⟩ := htwice
    obtain rfl : ok = false := Option.some.inj hfailed
    exact not_singleLoop_of_attempt hconnects
      (by simp [Client.readHandler, Client.doConnect, h.alive])
  | writeHandler i ok op hop hdecided =>
    simp only [NoticedOnce, hop, Option.mem_some, forall_eq', hdecided, Option.some.injEq,
      Classical.not_imp] at htwice
    obtain ⟨rfl, hwrong⟩ := htwice
    by_cases hconnects : c.connects = []
    · have hconnected := h.connected_of_idle hconnects
      have hstarted := h.started op (List.mem_of_getElem? hop)
      rw [Client.connection, if_pos hconnected] at hstarted
      have hlost : c.Lost op.connection :=
        ⟨hstarted.1, hstarted.2, fun _ heq => hwrong ⟨hconnects, heq⟩⟩
      have hcount := h.restarted op.connection
      rw [if_pos hlost] at hcount
      intro hsafe
      have hagain := hsafe.restarted op.connection
      simp only [Client.writeHandler, Client.doConnect, Client.closeSocket, h.alive] at hagain
      simp [hcount] at hagain
      split at hagain <;> omega
    · exact not_singleLoop_of_attempt hconnects
        (by simp [Client.writeHandler, Client.doConnect, Client.closeSocket, h.alive])
  | _ => exact absurd trivial htwice

/-- **The reconnection loop.** In a run of the log client, every state has exactly one attempt while there is no connection and none while there is one, at most one monitor, and one restart for each lost connection, if and only if every loss of the run is acted on once, by a handler that finds the lost connection in use, and no connection is established over an old monitor. -/
theorem singleLoop_iff_noticedOnce {acts : List Act} {c : Client}
    (hrun : run Client.step .init acts = some c) :
    Always Client.step SingleLoop .init acts ↔ Along Client.step NoticedOnce .init acts :=
  always_iff_along (fun _ h => h.singleLoop) (fun _ _ _ => looping_step)
    (fun _ _ _ => not_singleLoop_of_not_noticedOnce) looping_init hrun

/-- The server goes away and comes back; only the monitor notices. -/
def loseAndReconnect : List Act :=
  [.connectCompletes 0 true, .connectHandler 0, .readCompletes 0 false, .readHandler 0,
    .connectCompletes 0 true, .connectHandler 0]

theorem singleLoop_iff_noticedOnce_loseAndReconnect :
    ∃ c, run Client.step .init loseAndReconnect = some c ∧ c.established = 2 ∧
      Always Client.step SingleLoop .init loseAndReconnect := by
  obtain ⟨c, hrun, htwo⟩ := exists_of_any_run Client.step .init loseAndReconnect
    (fun c => c.established == 2) (by decide +kernel)
  exact ⟨c, hrun, by simpa using htwo, (singleLoop_iff_noticedOnce hrun).2 (by decide +kernel)⟩

/-- The server goes away while a frame is being written, and both operations fail. -/
def loseWhileWriting : List Act :=
  [.connectCompletes 0 true, .connectHandler 0, .send (ascii "a"), .queueMessage 0,
    .readCompletes 0 false, .writeCompletes 0 false, .readHandler 0, .writeHandler 0]

/-- One lost connection, two attempts. -/
theorem loseWhileWriting_attempts_twice :
    ∃ c, run Client.step .init loseWhileWriting = some c ∧ c.established = 1 ∧ c.restarts = [1, 1] ∧
      c.connects.length = 2 ∧ ¬ SingleLoop c := by
  obtain ⟨c, hrun, hp⟩ := exists_of_any_run Client.step .init loseWhileWriting
    (fun c => decide (c.established = 1 ∧ c.restarts = [1, 1] ∧ c.connects.length = 2))
      (by decide +kernel)
  obtain ⟨hestablished, hrestarts, htwo⟩ := of_decide_eq_true hp
  refine ⟨c, hrun, hestablished, hrestarts, htwo, fun hsafe => ?_⟩
  have hone := hsafe.attempt
  omega

end Libesf.Log

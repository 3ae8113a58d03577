import Libesf.Log.Client

/-!
# What the log client delivers

A frame is written from the front of the queue and stays there until its write has succeeded, so nothing is lost and nothing is written twice, as long as no two writes are outstanding. `M_queueMessage` and the write handler make sure of that; the connect handler does not look. A run is safe exactly when no connection is established while a write of an earlier time is still outstanding.
-/

namespace Libesf.Log

open Transition

/-- What the queue promises in a state. -/
structure DeliversOnce (c : Client) : Prop where
  single : c.writes.length ≤ 1
  own : ∀ pop ∈ c.pops, pop.popped = some pop.written ∧ pop.written ∈ c.delivered
  once : c.delivered.Nodup
  inOrder : c.queued = c.pops.filterMap Pop.popped ++ c.messageQueue
  nonempty : ∀ pop ∈ c.pops, pop.popped ≠ none

/-- What keeps it: the outstanding write, if there is one, is of the queue's front, and the transport has taken exactly what was popped and perhaps that front. -/
structure Orderly (c : Client) : Prop where
  single : c.writes.length ≤ 1
  front : ∀ op ∈ c.writes, c.messageQueue.head? = some op.buffer
  own : ∀ pop ∈ c.pops, pop.popped = some pop.written
  kept : c.queued = c.pops.map Pop.written ++ c.messageQueue
  taken : c.delivered = c.pops.map Pop.written ++
    (c.writes.filter (·.result = some true)).map (·.buffer)
  serials : ((c.queued ++ c.posted).map Queued.serial).Nodup
  issued : ∀ msg ∈ c.queued ++ c.posted, msg.serial < c.sent

namespace Orderly

variable {c : Client}

theorem writes_cases (h : Orderly c) : c.writes = [] ∨ ∃ op rest, c.writes = [op] ∧
    c.messageQueue = op.buffer :: rest := by
  rcases hwrites : c.writes with _ | ⟨op, _ | ⟨_, _⟩⟩
  · exact .inl rfl
  · obtain ⟨rest, hqueue⟩ :=
      List.head?_eq_some_iff.1 (h.front op (by rw [hwrites]; exact List.mem_singleton_self op))
    exact .inr ⟨op, rest, rfl, hqueue⟩
  · exact absurd h.single (by rw [hwrites]; simp)

theorem writes_eq_nil (h : Orderly c) (hqueue : c.messageQueue = []) : c.writes = [] := by
  obtain hnil | ⟨op, rest, _, hcons⟩ := h.writes_cases
  · exact hnil
  · rw [hqueue] at hcons
    cases hcons

theorem delivered_prefix (h : Orderly c) : c.delivered <+: c.queued := by
  rw [h.taken, h.kept]
  refine (List.prefix_append_right_inj _).2 ?_
  obtain hnil | ⟨op, rest, hop, hqueue⟩ := h.writes_cases
  · rw [hnil]
    exact List.nil_prefix
  · rw [hop, hqueue, List.filter_cons, List.filter_nil]
    split
    · exact ⟨rest, rfl⟩
    · exact List.nil_prefix

theorem deliversOnce (h : Orderly c) : DeliversOnce c where
  single := h.single
  own pop hpop := ⟨h.own pop hpop, by
    rw [h.taken]
    exact List.mem_append_left _ (List.mem_map_of_mem hpop)⟩
  once := by
    have hserials := h.serials
    rw [List.map_append] at hserials
    exact (List.Nodup.of_map _ (List.Nodup.of_append_left hserials)).sublist
      h.delivered_prefix.sublist
  inOrder := by
    rw [h.kept]
    rw [List.filterMap_congr h.own, ← List.filterMap_eq_map]
    rfl
  nonempty pop hpop := by
    rw [h.own pop hpop]
    exact Option.some_ne_none _

/-! ### One lemma for each function -/

theorem doConnect (h : Orderly c) : Orderly c.doConnect := by
  rw [Client.doConnect]
  split
  · exact h
  · exact ⟨h.single, h.front, h.own, h.kept, h.taken, h.serials, h.issued⟩

theorem doRead (h : Orderly c) : Orderly c.doRead :=
  ⟨h.single, h.front, h.own, h.kept, h.taken, h.serials, h.issued⟩

theorem doWrite (h : Orderly c) (hwrites : c.writes = []) : Orderly c.doWrite where
  single := by
    rw [Client.doWrite, hwrites]
    cases c.messageQueue.head? <;> simp
  front := by
    intro op hop
    rw [Client.doWrite, hwrites] at hop
    cases hqueue : c.messageQueue.head? <;> simp [hqueue] at hop
    rw [hop]
    exact hqueue
  own := h.own
  kept := h.kept
  taken := by
    have htaken := h.taken
    rw [hwrites] at htaken
    simp only [Client.doWrite, hwrites, htaken]
    cases c.messageQueue.head? <;> simp [Client.start]
  serials := h.serials
  issued := h.issued

theorem doWriteIfQueued (h : Orderly c) (hwrites : c.writes = []) : Orderly c.doWriteIfQueued := by
  rw [Client.doWriteIfQueued]
  split
  · exact h
  · exact h.doWrite hwrites

theorem closeSocket (h : Orderly c) : Orderly c.closeSocket where
  single := by
    rw [Client.closeSocket, List.length_map]
    exact h.single
  front := by
    intro op hop
    obtain ⟨op, hmem, rfl⟩ := List.mem_map.1 hop
    exact h.front op hmem
  own := h.own
  kept := h.kept
  taken := by
    have hsame : ∀ op : Operation Queued,
        decide ((Client.closeSocket.abort op).result = some true) =
          decide (op.result = some true) := by
      intro op
      cases hres : op.result <;> simp [Client.closeSocket.abort, hres]
    rw [Client.closeSocket]
    simp only [List.filter_map, List.map_map, Function.comp_def, hsame]
    exact h.taken
  serials := h.serials
  issued := h.issued

theorem send (h : Orderly c) (msg : Str) :
    Orderly { c with posted := c.posted ++ [⟨c.sent, frame msg⟩], sent := c.sent + 1 } where
  single := h.single
  front := h.front
  own := h.own
  kept := h.kept
  taken := h.taken
  serials := by
    rw [← List.append_assoc, List.map_append, List.nodup_append]
    refine ⟨h.serials, List.nodup_singleton _, ?_⟩
    intro serial hserial serial' hserial'
    obtain ⟨msg', hmsg', rfl⟩ := List.mem_map.1 hserial
    have hissued := h.issued msg' hmsg'
    have : serial' = c.sent := by simpa using hserial'
    omega
  issued := by
    intro msg' hmsg'
    rw [← List.append_assoc, List.mem_append, List.mem_singleton] at hmsg'
    obtain hold | rfl := hmsg'
    · exact Nat.lt_succ_of_lt (h.issued msg' hold)
    · exact Nat.lt_succ_self c.sent

/-- A posted frame moves to the end of the queue, and its write starts only where none is outstanding. -/
theorem queueMessage (h : Orderly c) {i : Nat} {msg : Queued} (hposted : c.posted[i]? = some msg) :
    Orderly ({ c with posted := c.posted.eraseIdx i }.queueMessage msg) := by
  have hperm : (c.queued ++ [msg] ++ c.posted.eraseIdx i).Perm (c.queued ++ c.posted) := by
    obtain ⟨hi, rfl⟩ := List.getElem?_eq_some_iff.1 hposted
    rw [List.append_assoc, List.singleton_append]
    exact (List.getElem_cons_eraseIdx_perm hi).append_left c.queued
  have hqueued : Orderly { c with
      posted := c.posted.eraseIdx i, messageQueue := c.messageQueue ++ [msg],
      queued := c.queued ++ [msg] } := by
    refine ⟨h.single, ?_, h.own, ?_, h.taken, ?_, ?_⟩
    · intro op hop
      obtain ⟨rest, hqueue⟩ := List.head?_eq_some_iff.1 (h.front op hop)
      simp [hqueue]
    · simp only [h.kept, List.append_assoc]
    · exact (hperm.map Queued.serial).nodup_iff.2 h.serials
    · exact fun m hm => h.issued m (hperm.mem_iff.1 hm)
  rw [Client.queueMessage]
  dsimp only
  split
  · next hidle =>
    have hempty : c.messageQueue = [] := by
      simp only [Bool.and_eq_true, Bool.not_eq_true', Bool.not_eq_false', List.isEmpty_iff] at hidle
      exact hidle.2
    exact hqueued.doWrite (h.writes_eq_nil hempty)
  · exact hqueued

theorem writeCompletes (h : Orderly c) {i : Nat} {ok : Bool} {op : Operation Queued}
    (hop : c.writes[i]? = some op) (hpending : op.result = none) :
    Orderly { c with
      writes := c.writes.set i { op with result := some ok }
      delivered := if ok then c.delivered ++ [op.buffer] else c.delivered } := by
  obtain ⟨hwrites, rfl⟩ := Pool.eq_singleton_of_getElem? h.single hop
  have htaken := h.taken
  rw [hwrites] at htaken
  rw [hwrites]
  refine ⟨by simp, ?_, h.own, h.kept, ?_, h.serials, h.issued⟩
  · intro op' hop'
    obtain rfl : op' = { op with result := some ok } := by simpa using hop'
    exact h.front op (List.mem_of_getElem? hop)
  · cases ok <;> simp [htaken, hpending]

theorem connectHandler (h : Orderly c) {ok : Bool} (hwrites : ok = true → c.writes = []) :
    Orderly (c.connectHandler ok) := by
  rw [Client.connectHandler]
  split
  · next hok =>
    have hconnected : Orderly { c with connected := true, established := c.established + 1 } :=
      ⟨h.single, h.front, h.own, h.kept, h.taken, h.serials, h.issued⟩
    exact hconnected.doRead.doWriteIfQueued (hwrites hok)
  · have hfailed : Orderly { c with connected := false } :=
      ⟨h.single, h.front, h.own, h.kept, h.taken, h.serials, h.issued⟩
    exact hfailed.doConnect

theorem readHandler (h : Orderly c) (op : Operation Unit) (ok : Bool) :
    Orderly (c.readHandler op ok) := by
  rw [Client.readHandler]
  split
  · split
    · exact h
    · exact h.doRead
  · have hlost : Orderly { c with connected := false, restarts := c.restarts ++ [op.connection] } :=
      ⟨h.single, h.front, h.own, h.kept, h.taken, h.serials, h.issued⟩
    exact hlost.doConnect

/-- The handler of the write that is outstanding pops the very frame it wrote. -/
theorem writeHandler (h : Orderly c) {i : Nat} {ok : Bool} {op : Operation Queued}
    (hop : c.writes[i]? = some op) (hdecided : op.result = some ok) :
    Orderly ({ c with writes := c.writes.eraseIdx i }.writeHandler op ok) := by
  obtain ⟨hwrites, rfl⟩ := Pool.eq_singleton_of_getElem? h.single hop
  obtain ⟨rest, hqueue⟩ := List.head?_eq_some_iff.1 (h.front op (List.mem_of_getElem? hop))
  have htaken := h.taken
  rw [hwrites] at htaken
  rw [Client.writeHandler, hwrites]
  split
  · next hok =>
    refine doWriteIfQueued ⟨by simp, by simp, ?_, ?_, ?_, h.serials, h.issued⟩ (by simp)
    · intro pop hpop
      obtain hold | rfl := List.mem_append.1 hpop |>.imp_right List.mem_singleton.1
      · exact h.own pop hold
      · simp [hqueue]
    · simp [h.kept, hqueue]
    · simp [htaken, hdecided, hok]
  · next hfailed =>
    refine doConnect (closeSocket ⟨by simp, by simp, h.own, h.kept, ?_, h.serials, h.issued⟩)
    simp [htaken, hdecided, hfailed]

end Orderly

/-! ### Runs -/

/-- A connection is established only when no write is outstanding. -/
def ConnectsIdle (c : Client) : Act → Prop
  | .connectHandler i => c.connects[i]?.bind Operation.result = some true → c.writes = []
  | _ => True

instance (c : Client) : (a : Act) → Decidable (ConnectsIdle c a)
  | .connectHandler i =>
    inferInstanceAs (Decidable (c.connects[i]?.bind Operation.result = some true → c.writes = []))
  | .send _ | .queueMessage _ | .connectCompletes _ _ | .readCompletes _ _ | .writeCompletes _ _
  | .readHandler _
  | .writeHandler _ => .isTrue trivial

theorem orderly_init : Orderly .init := by
  constructor <;> decide

theorem orderly_step {c t : Client} {a : Act} (h : Orderly c) (hidle : ConnectsIdle c a)
    (hstep : c.step a = some t) : Orderly t := by
  cases Client.move_of_step hstep with
  | send msg => exact h.send msg
  | queueMessage i msg hposted => exact h.queueMessage hposted
  | connectCompletes i ok op hop hpending =>
    exact ⟨h.single, h.front, h.own, h.kept, h.taken, h.serials, h.issued⟩
  | readCompletes i ok op hop hpending =>
    exact ⟨h.single, h.front, h.own, h.kept, h.taken, h.serials, h.issued⟩
  | writeCompletes i ok op hop hpending => exact h.writeCompletes hop hpending
  | connectHandler i ok op hop hdecided =>
    have herased : Orderly { c with connects := c.connects.eraseIdx i } :=
      ⟨h.single, h.front, h.own, h.kept, h.taken, h.serials, h.issued⟩
    refine herased.connectHandler fun hok => hidle ?_
    rw [hop, Option.bind_some, hdecided, hok]
  | readHandler i ok op hop hdecided =>
    have herased : Orderly { c with reads := c.reads.eraseIdx i } :=
      ⟨h.single, h.front, h.own, h.kept, h.taken, h.serials, h.issued⟩
    exact herased.readHandler op ok
  | writeHandler i ok op hop hdecided => exact h.writeHandler hop hdecided

/-- A connection established over an outstanding write starts a second one. -/
theorem not_deliversOnce_of_connect {c t : Client} {a : Act} (h : Orderly c)
    (hbusy : ¬ ConnectsIdle c a) (hstep : c.step a = some t) : ¬ DeliversOnce t := by
  cases Client.move_of_step hstep with
  | connectHandler i ok op hop hdecided =>
    simp only [ConnectsIdle, hop, Option.bind_some, hdecided, Classical.not_imp] at hbusy
    obtain ⟨hok, hwrites⟩ := hbusy
    obtain rfl : ok = true := Option.some.inj hok
    obtain hnil | ⟨op', rest, hop', hqueue⟩ := h.writes_cases
    · exact absurd hnil hwrites
    · intro hsafe
      have hsingle := hsafe.single
      simp [Client.connectHandler, Client.doWriteIfQueued, Client.doWrite, Client.doRead, hqueue,
        hop'] at hsingle
  | _ => exact absurd trivial hbusy

/-- **Delivery.** In a run of the log client, every state has at most one write outstanding, has popped exactly the frames whose own write succeeded, in the order they were queued, and has handed none to the transport twice, if and only if no connection of the run is established while a write is still outstanding. -/
theorem deliversOnce_iff_connectsIdle {acts : List Act} {c : Client}
    (hrun : run Client.step .init acts = some c) :
    Always Client.step DeliversOnce .init acts ↔ Along Client.step ConnectsIdle .init acts :=
  always_iff_along (fun _ h => h.deliversOnce) (fun _ _ _ => orderly_step)
    (fun _ _ _ => not_deliversOnce_of_connect)
    orderly_init hrun

/-- Three frames. The second is torn when the connection breaks, and written again on the next one. -/
def sendThree : List Act :=
  [.send (ascii "a"), .send (ascii "b"), .send (ascii "c"), .queueMessage 0, .queueMessage 0,
    .connectCompletes 0 true, .connectHandler 0, .writeCompletes 0 true, .writeHandler 0,
    .writeCompletes 0 false, .writeHandler 0, .readHandler 0, .queueMessage 0,
    .connectCompletes 0 true, .connectHandler 0, .writeCompletes 0 true, .writeHandler 0,
    .writeCompletes 0 true, .writeHandler 0]

theorem deliversOnce_iff_connectsIdle_sendThree :
    ∃ c, run Client.step .init sendThree = some c ∧ c.established = 2 ∧
      c.delivered = [⟨0, frame (ascii "a")⟩, ⟨1, frame (ascii "b")⟩, ⟨2, frame (ascii "c")⟩] ∧
      Always Client.step DeliversOnce .init sendThree := by
  obtain ⟨c, hrun, hp⟩ := exists_of_any_run Client.step .init sendThree
    (fun c => decide (c.established = 2 ∧
      c.delivered = [⟨0, frame (ascii "a")⟩, ⟨1, frame (ascii "b")⟩, ⟨2, frame (ascii "c")⟩])) (by
        decide +kernel)
  obtain ⟨hestablished, hdelivered⟩ := of_decide_eq_true hp
  exact ⟨c, hrun, hestablished, hdelivered,
    (deliversOnce_iff_connectsIdle hrun).2 (by decide +kernel)⟩

/-- Three frames. The first write has succeeded when the read notices that the connection is gone; its handler then starts the second write on the socket that is reconnecting, and the connect handler starts it once more. -/
def writeTwice : List Act :=
  [.send (ascii "a"), .send (ascii "b"), .send (ascii "c"), .queueMessage 0, .queueMessage 0,
    .queueMessage 0, .connectCompletes 0 true, .connectHandler 0, .writeCompletes 0 true,
    .readCompletes 0 false, .readHandler 0, .writeHandler 0, .connectCompletes 0 true,
    .connectHandler 0, .writeCompletes 0 true, .writeCompletes 1 true, .writeHandler 0,
    .writeHandler 0]

/-- The second frame reaches the transport twice, and the third leaves the queue without a write. -/
theorem writeTwice_loses :
    ∃ c, run Client.step .init writeTwice = some c ∧
      c.delivered = [⟨0, frame (ascii "a")⟩, ⟨1, frame (ascii "b")⟩, ⟨1, frame (ascii "b")⟩] ∧
      ⟨⟨1, frame (ascii "b")⟩, some ⟨2, frame (ascii "c")⟩⟩ ∈ c.pops ∧ c.messageQueue = [] ∧
      ¬ DeliversOnce c := by
  obtain ⟨c, hrun, hp⟩ := exists_of_any_run Client.step .init writeTwice
    (fun c => decide (c.delivered =
      [⟨0, frame (ascii "a")⟩, ⟨1, frame (ascii "b")⟩, ⟨1, frame (ascii "b")⟩] ∧
      ⟨⟨1, frame (ascii "b")⟩, some ⟨2, frame (ascii "c")⟩⟩ ∈ c.pops ∧ c.messageQueue = [])) (by
        decide +kernel)
  obtain ⟨hdelivered, hpop, hqueue⟩ := of_decide_eq_true hp
  refine ⟨c, hrun, hdelivered, hpop, hqueue, fun hsafe => ?_⟩
  have honce := hsafe.once
  rw [hdelivered] at honce
  simp at honce

end Libesf.Log

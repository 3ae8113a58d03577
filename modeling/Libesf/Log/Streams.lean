import Libesf.Log.Delivery

/-!
# What the log client puts on its connections

Every successful write puts a whole frame on the connection it was started on, and a write that fails may put a part of one there. What the server reads on a connection depends on both, so the bytes are followed here connection by connection. As long as no connection is established over an outstanding write, a connection carries whole frames and at most one torn frame behind them, and the connections, one after the other, carry the frames in the order of the queue.
-/

namespace Libesf.Log

open Transition

/-- The message inside a frame. -/
def Queued.message (q : Queued) : Str := q.frame.drop headerSize

/-- The client, and what the transport has taken from it. -/
structure Sender where
  client : Client
  /-- The bytes taken on each connection. -/
  stream : Nat → Str
  /-- The frames taken as a whole, with the connection each was written on. -/
  written : List (Nat × Queued)

namespace Sender

def init : Sender := ⟨.init, fun _ => [], []⟩

/-- The bytes that go out with a write: the whole buffer if it succeeds, `taken` of them but not all if it fails. -/
def carried (buffer : Str) (ok : Bool) (taken : Nat) : Str :=
  if ok then buffer else buffer.take (min taken (buffer.length - 1))

/-- The transport decides a write. -/
def carry (s : Sender) (op : Operation Queued) (ok : Bool) (taken : Nat) : Sender :=
  { s with
    stream := Function.update s.stream op.connection
      (s.stream op.connection ++ carried op.buffer.frame ok taken)
    written := if ok then s.written ++ [(op.connection, op.buffer)] else s.written }

/-- The write a step of the client decides. -/
def decided (c : Client) : Act → Option (Operation Queued × Bool)
  | .writeCompletes i ok => c.writes[i]?.map (·, ok)
  | _ => none

/-- A step of the client. The transport takes nothing for a connection that is not established. -/
def step (s : Sender) (a : Act) (taken : Nat) : Option Sender := do
  let client ← s.client.step a
  match decided s.client a with
  | some (op, ok) =>
    guard (op.connection ≤ s.client.established ∨ ok = false ∧ taken = 0)
    return { s.carry op ok taken with client }
  | none => return { s with client }

/-- The messages written on a connection, in order. -/
def writtenOn (s : Sender) (k : Nat) : List Str := (s.written.filter (·.1 = k)).map (·.2.message)

end Sender

/-- The message a step hands to the client. -/
def Act.sends : Act → List Str
  | .send msg => [msg]
  | _ => []

theorem filter_lt_append_filter_eq {α : Type} {key : α → Nat} {l : List α}
    (hl : l.Pairwise (key · ≤ key ·)) (n : Nat) :
    l.filter (key · < n) ++ l.filter (key · = n) = l.filter (key · < n + 1) := by
  induction hl with
  | nil => rfl
  | @cons a l hall _ ih =>
    simp only [List.filter_cons, decide_eq_true_eq]
    obtain hlt | heq | hgt := lt_trichotomy (key a) n
    · rw [if_pos hlt, if_neg (by omega), if_pos (by omega), List.cons_append, ih]
    · have hnone : l.filter (key · < n) = [] := by
        simp only [List.filter_eq_nil_iff, decide_eq_true_eq]
        intro b hb
        have hle := hall b hb
        omega
      rw [hnone, List.nil_append] at ih
      rw [if_neg (by omega), if_pos heq, if_pos (by omega), hnone, List.nil_append, ih]
    · rw [if_neg (by omega), if_neg (by omega), if_neg (by omega), ih]

/-- A list in the order of its keys is what it has for each key, one key after the other. -/
theorem flatMap_range_filter {α : Type} {key : α → Nat} {l : List α}
    (hl : l.Pairwise (key · ≤ key ·)) (n : Nat) :
    (List.range n).flatMap (fun k => l.filter (key · = k)) = l.filter (key · < n) := by
  induction n with
  | zero => simp
  | succ n ih =>
    rw [List.range_succ, List.flatMap_append, List.flatMap_singleton, ih,
      filter_lt_append_filter_eq hl]

/-- In whatever order a list is, it is what it has for each key, up to the order. -/
theorem perm_flatMap_filter {α : Type} (key : α → Nat) (l : List α) (n : Nat) :
    ((List.range n).flatMap fun k => l.filter (key · = k)).Perm (l.filter (key · < n)) := by
  induction n with
  | zero => simp
  | succ n ih =>
    rw [List.range_succ, List.flatMap_append, List.flatMap_singleton]
    have hsplit := List.filter_append_perm (key · < n) (l.filter (key · < n + 1))
    rw [List.filter_filter, List.filter_filter] at hsplit
    refine (ih.append_right _).trans (List.Perm.trans (.of_eq ?_) hsplit)
    congr 1 <;> refine List.filter_congr fun a _ => ?_ <;> rw [Bool.eq_iff_iff] <;> simp <;> omega

/-! ### What a step does to the writes -/

namespace Client

variable {c t : Client}

@[simp] theorem doConnect_writes (c : Client) : c.doConnect.writes = c.writes := by
  rw [doConnect]
  split <;> rfl

@[simp] theorem doConnect_connection (c : Client) : c.doConnect.connection = c.connection := by
  rw [doConnect]
  split <;> rfl

@[simp] theorem doConnect_established (c : Client) : c.doConnect.established = c.established := by
  rw [doConnect]
  split <;> rfl

@[simp] theorem doConnect_queued (c : Client) : c.doConnect.queued = c.queued := by
  rw [doConnect]
  split <;> rfl

@[simp] theorem doConnect_posted (c : Client) : c.doConnect.posted = c.posted := by
  rw [doConnect]
  split <;> rfl

@[simp] theorem doWriteIfQueued_connection (c : Client) :
    c.doWriteIfQueued.connection = c.connection := by
  rw [doWriteIfQueued]
  split <;> rfl

@[simp] theorem doWriteIfQueued_queued (c : Client) : c.doWriteIfQueued.queued = c.queued := by
  rw [doWriteIfQueued]
  split <;> rfl

@[simp] theorem doWriteIfQueued_posted (c : Client) : c.doWriteIfQueued.posted = c.posted := by
  rw [doWriteIfQueued]
  split <;> rfl

theorem mem_writes_doWrite {op : Operation Queued} (h : op ∈ c.doWrite.writes) :
    op ∈ c.writes ∨ op.connection = c.connection := by
  obtain hold | hnew := List.mem_append.1 h
  · exact .inl hold
  · obtain ⟨msg, _, rfl⟩ := Option.map_eq_some_iff.1 (Option.mem_toList.1 hnew)
    exact .inr rfl

theorem mem_writes_doWriteIfQueued {op : Operation Queued} (h : op ∈ c.doWriteIfQueued.writes) :
    op ∈ c.writes ∨ op.connection = c.connection := by
  rw [doWriteIfQueued] at h
  split at h
  · exact .inl h
  · exact mem_writes_doWrite h

theorem connection_le (c : Client) : c.connection ≤ c.established + 1 := by
  rw [connection]
  split <;> omega

/-- Nothing is written on connection `k` any more: the write that is outstanding has failed on it, or all writes are for later ones. -/
def Closed (c : Client) (k : Nat) : Prop :=
  (∃ op ∈ c.writes, op.connection = k ∧ op.result = some false) ∧ k ≤ c.established ∨
    k < c.connection ∧ ∀ op ∈ c.writes, k < op.connection

/-- What a step does to the writes: new ones are for the connection of the moment, and a failed one stays or closes its connection. -/
structure WritesMove (c t : Client) : Prop where
  connection : c.connection ≤ t.connection
  started : ∀ op ∈ t.writes, op.connection = t.connection ∨
    ∃ op' ∈ c.writes, op'.connection = op.connection
  failed : ∀ op ∈ c.writes, op.result = some false → op.connection ≤ c.established →
    t.Closed op.connection

theorem WritesMove.of_eq (hconnection : c.connection ≤ t.connection)
    (hestablished : t.established = c.established) (hwrites : t.writes = c.writes) :
    WritesMove c t where
  connection := hconnection
  started op hop := .inr ⟨op, hwrites ▸ hop, rfl⟩
  failed op hop hfailed hle := .inl ⟨⟨op, hwrites.symm ▸ hop, rfl, hfailed⟩, hestablished.symm ▸ hle⟩

theorem WritesMove.closed (h : WritesMove c t) {k : Nat} (hclosed : c.Closed k) : t.Closed k := by
  obtain ⟨⟨op, hop, rfl, hfailed⟩, hle⟩ | ⟨hk, hwrites⟩ := hclosed
  · exact h.failed op hop hfailed hle
  · refine .inr ⟨lt_of_lt_of_le hk h.connection, fun op hop => ?_⟩
    obtain heq | ⟨op', hop', heq⟩ := h.started op hop
    · rw [heq]
      exact lt_of_lt_of_le hk h.connection
    · rw [← heq]
      exact hwrites op' hop'

theorem writesMove_of_step (h : Orderly c) {a : Act} (hidle : ConnectsIdle c a)
    (hstep : c.step a = some t) : WritesMove c t := by
  cases Client.move_of_step hstep with
  | send msg => exact .of_eq le_rfl rfl rfl
  | queueMessage i msg hposted =>
    rw [queueMessage]
    dsimp only
    split
    · refine ⟨le_rfl, fun op hop => ?_, fun op hop hfailed hle =>
        .inl ⟨⟨op, List.mem_append_left _ hop, rfl, hfailed⟩, hle⟩⟩
      obtain hold | hnew := mem_writes_doWrite hop
      · exact .inr ⟨op, hold, rfl⟩
      · exact .inl hnew
    · exact .of_eq le_rfl rfl rfl
  | connectCompletes i ok op hop hpending => exact .of_eq le_rfl rfl rfl
  | readCompletes i ok op hop hpending => exact .of_eq le_rfl rfl rfl
  | writeCompletes i ok op hop hpending =>
    refine ⟨le_rfl, fun op' hop' => ?_, fun op' hop' hfailed hle =>
      .inl ⟨⟨op', ?_, rfl, hfailed⟩, hle⟩⟩
    · obtain hold | rfl := List.mem_or_eq_of_mem_set hop'
      · exact .inr ⟨op', hold, rfl⟩
      · exact .inr ⟨op, List.mem_of_getElem? hop, rfl⟩
    · refine Pool.mem_set_of_ne hop hop' ?_
      rintro rfl
      rw [hpending] at hfailed
      cases hfailed
  | connectHandler i ok op hop hdecided =>
    rw [connectHandler]
    split
    · next hok =>
      have hwrites : c.writes = [] := hidle (by rw [hop, Option.bind_some, hdecided, hok])
      refine ⟨?_, fun op' hop' => ?_, fun op' hop' => ?_⟩
      · rw [doWriteIfQueued_connection]
        exact c.connection_le
      · obtain hold | hnew := mem_writes_doWriteIfQueued hop'
        · exact .inr ⟨op', hold, rfl⟩
        · exact .inl (by rw [hnew, doWriteIfQueued_connection])
      · rw [hwrites] at hop'
        cases hop'
    · refine .of_eq ?_ (by rw [doConnect_established]) (by rw [doConnect_writes])
      rw [doConnect_connection]
      exact c.connection_le
  | readHandler i ok op hop hdecided =>
    rw [readHandler]
    split
    · split <;> exact .of_eq le_rfl rfl rfl
    · refine .of_eq ?_ (by rw [doConnect_established]) (by rw [doConnect_writes])
      rw [doConnect_connection]
      exact c.connection_le
  | writeHandler i ok op hop hdecided =>
    obtain ⟨hwrites, rfl⟩ := Pool.eq_singleton_of_getElem? h.single hop
    have herased : c.writes.eraseIdx 0 = [] := by rw [hwrites]; rfl
    rw [writeHandler]
    split
    · next hok =>
      refine ⟨?_, fun op' hop' => ?_, fun op' hop' hfailed => ?_⟩
      · rw [doWriteIfQueued_connection]
        exact le_rfl
      · obtain hold | hnew := mem_writes_doWriteIfQueued hop'
        · rw [herased] at hold
          cases hold
        · exact .inl (by rw [hnew, doWriteIfQueued_connection])
      · rw [hwrites] at hop'
        rw [List.mem_singleton.1 hop', hdecided, hok] at hfailed
        cases hfailed
    · have hnone : (closeSocket { c with
          writes := c.writes.eraseIdx 0, connected := false,
          restarts := c.restarts ++ [op.connection] }).doConnect.writes = [] := by
        rw [doConnect_writes, closeSocket, herased]
        rfl
      have hnext : (closeSocket { c with
          writes := c.writes.eraseIdx 0, connected := false,
          restarts := c.restarts ++ [op.connection] }).doConnect.connection =
          c.established + 1 := by
        rw [doConnect_connection]
        rfl
      refine ⟨?_, fun op' hop' => ?_, fun op' hop' _ hle => .inr ⟨?_, fun op'' hop'' => ?_⟩⟩
      · rw [hnext]
        exact c.connection_le
      · rw [hnone] at hop'
        cases hop'
      · rw [hnext]
        exact Nat.lt_succ_of_le hle
      · rw [hnone] at hop''
        cases hop''

/-- The frames in the queue's history and those still posted are those of the calls of `send`. -/
theorem perm_of_step {a : Act} (hstep : c.step a = some t) :
    ((t.queued ++ t.posted).map Queued.frame).Perm
      ((c.queued ++ c.posted).map Queued.frame ++ a.sends.map frame) := by
  cases Client.move_of_step hstep with
  | send msg => simp [Act.sends]
  | queueMessage i msg hposted =>
    obtain ⟨hi, rfl⟩ := List.getElem?_eq_some_iff.1 hposted
    have hperm : (c.queued ++ [c.posted[i]] ++ c.posted.eraseIdx i).Perm (c.queued ++ c.posted) := by
      rw [List.append_assoc, List.singleton_append]
      exact (List.getElem_cons_eraseIdx_perm hi).append_left c.queued
    refine List.Perm.trans ?_ (.of_eq (List.append_nil _).symm)
    rw [queueMessage]
    dsimp only
    split <;> exact hperm.map Queued.frame
  | connectHandler i ok op hop hdecided =>
    refine List.Perm.trans (.of_eq ?_) (.of_eq (List.append_nil _).symm)
    rw [connectHandler]
    split <;> simp [doRead]
  | readHandler i ok op hop hdecided =>
    refine List.Perm.trans (.of_eq ?_) (.of_eq (List.append_nil _).symm)
    rw [readHandler]
    split
    · split <;> rfl
    · simp
  | writeHandler i ok op hop hdecided =>
    refine List.Perm.trans (.of_eq ?_) (.of_eq (List.append_nil _).symm)
    rw [writeHandler]
    split <;> simp [closeSocket]
  | _ => exact .of_eq (List.append_nil _).symm

end Client

theorem Orderly.delivered_eq_queued {c : Client} (h : Orderly c) (hqueue : c.messageQueue = []) :
    c.delivered = c.queued := by
  have hwrites : c.writes = [] := by
    obtain hwrites | ⟨op, rest, _, hfront⟩ := h.writes_cases
    · exact hwrites
    · rw [hqueue] at hfront
      cases hfront
  rw [h.taken, h.kept, hqueue, hwrites]
  rfl

/-! ### What is on a connection -/

/-- The condition on a step: a message has a size of eight digits, and no connection is established over an outstanding write. -/
structure Steady (c : Client) (a : Act) : Prop where
  fits : ∀ msg ∈ a.sends, FitsHeader msg
  idle : ConnectsIdle c a

instance (c : Client) (a : Act) : Decidable (Steady c a) :=
  have : Decidable (∀ msg ∈ a.sends, FitsHeader msg) :=
    inferInstanceAs (Decidable (∀ msg ∈ a.sends, msg.length < 10 ^ headerSize))
  decidable_of_iff ((∀ msg ∈ a.sends, FitsHeader msg) ∧ ConnectsIdle c a)
    ⟨fun h => ⟨h.1, h.2⟩, fun h => ⟨h.fits, h.idle⟩⟩

theorem drop_frame {msg : Str} (hfits : FitsHeader msg) : (frame msg).drop headerSize = msg := by
  rw [frame, List.drop_left' (length_decimalPadded (by decide) hfits)]

theorem message_of_frame {q : Queued} {msg : Str} (hfits : FitsHeader msg)
    (hframe : q.frame = frame msg) : q.message = msg := by
  rw [Queued.message, hframe, drop_frame hfits]

/-- The client's connections carry whole frames, and a torn one behind them where nothing is written any more; they come in the order of the queue. -/
structure Streaming (s : Sender) : Prop where
  orderly : Orderly s.client
  framed : ∀ q ∈ s.client.queued ++ s.client.posted, FitsHeader q.message ∧ q.frame = frame q.message
  delivered : s.client.delivered = s.written.map Prod.snd
  ascending : s.written.Pairwise (·.1 ≤ ·.1)
  past : ∀ entry ∈ s.written, entry.1 ≤ s.client.connection ∧
    ∀ op ∈ s.client.writes, entry.1 ≤ op.connection
  started : ∀ op ∈ s.client.writes, op.connection ≤ s.client.connection
  stream : ∀ k, ∃ part, s.stream k = (s.writtenOn k).flatMap frame ++ part ∧
    (part = [] ∨ Reader.Torn frame FitsHeader part ∧ s.client.Closed k)

namespace Streaming

variable {s t : Sender}

theorem init : Streaming .init where
  orderly := orderly_init
  framed := nofun
  delivered := rfl
  ascending := List.Pairwise.nil
  past := nofun
  started := nofun
  stream _ := ⟨[], rfl, .inl rfl⟩

theorem mem_queued (h : Streaming s) {op : Operation Queued} (hop : op ∈ s.client.writes) :
    op.buffer ∈ s.client.queued := by
  obtain ⟨rest, hqueue⟩ := List.head?_eq_some_iff.1 (h.orderly.front op hop)
  rw [h.orderly.kept, hqueue]
  exact List.mem_append_right _ List.mem_cons_self

theorem framed_of_step (h : Streaming s) {a : Act} {client : Client}
    (hfits : ∀ msg ∈ a.sends, FitsHeader msg) (hstep : s.client.step a = some client) :
    ∀ q ∈ client.queued ++ client.posted, FitsHeader q.message ∧ q.frame = frame q.message := by
  intro q hq
  have hmem := (Client.perm_of_step hstep).mem_iff.1 (List.mem_map_of_mem hq)
  obtain hold | hnew := List.mem_append.1 hmem
  · obtain ⟨q', hq', heq⟩ := List.mem_map.1 hold
    have hsame : q.message = q'.message := by rw [Queued.message, Queued.message, heq]
    rw [hsame, ← heq]
    exact h.framed q' hq'
  · obtain ⟨msg, hmsg, heq⟩ := List.mem_map.1 hnew
    rw [message_of_frame (hfits msg hmsg) heq.symm]
    exact ⟨hfits msg hmsg, heq.symm⟩

/-- An outstanding write finds no torn frame on its connection. -/
theorem stream_of_pending (h : Streaming s) {op : Operation Queued} (hwrites : s.client.writes = [op])
    (hpending : op.result = none) :
    s.stream op.connection = (s.writtenOn op.connection).flatMap frame := by
  obtain ⟨part, hstream, rfl | ⟨_, hclosed⟩⟩ := h.stream op.connection
  · rw [hstream, List.append_nil]
  · exfalso
    rw [Client.Closed, hwrites] at hclosed
    obtain ⟨⟨op', hop', _, hfailed⟩, _⟩ | ⟨_, hlater⟩ := hclosed
    · rw [List.mem_singleton.1 hop', hpending] at hfailed
      cases hfailed
    · exact absurd (hlater op (List.mem_singleton_self op)) (lt_irrefl _)

/-- A step that decides no write leaves the streams alone. -/
theorem frame_step (h : Streaming s) {a : Act} {client : Client} (hsteady : Steady s.client a)
    (hstep : s.client.step a = some client) (hdelivered : client.delivered = s.client.delivered) :
    Streaming { s with client } := by
  have hmove := Client.writesMove_of_step h.orderly hsteady.idle hstep
  refine ⟨orderly_step h.orderly hsteady.idle hstep, h.framed_of_step hsteady.fits hstep,
    hdelivered.trans h.delivered, h.ascending, fun entry hentry => ?_, fun op hop => ?_, fun k => ?_⟩
  · obtain ⟨hle, hwrites⟩ := h.past entry hentry
    refine ⟨hle.trans hmove.connection, fun op hop => ?_⟩
    obtain heq | ⟨op', hop', heq⟩ := hmove.started op hop
    · rw [heq]
      exact hle.trans hmove.connection
    · rw [← heq]
      exact hwrites op' hop'
  · obtain heq | ⟨op', hop', heq⟩ := hmove.started op hop
    · exact heq.le
    · rw [← heq]
      exact (h.started op' hop').trans hmove.connection
  · obtain ⟨part, hstream, hpart⟩ := h.stream k
    exact ⟨part, hstream, hpart.imp_right fun ⟨htorn, hclosed⟩ => ⟨htorn, hmove.closed hclosed⟩⟩

theorem torn_carried {msg : Str} (hfits : FitsHeader msg) (taken : Nat) :
    Reader.Torn frame FitsHeader (Sender.carried (frame msg) false taken) := by
  have hpos : 0 < (frame msg).length := by
    rw [frame, List.length_append, length_decimalPadded (by decide) hfits]
    exact Nat.add_pos_left (by decide) _
  exact ⟨msg, _, hfits, by omega, rfl⟩

/-- The transport decides the outstanding write: a whole frame goes on its connection, or a torn one that closes it. -/
theorem carry (h : Streaming s) {i : Nat} {ok : Bool} {op : Operation Queued} {client : Client}
    {taken : Nat} (hestablished : op.connection ≤ s.client.established ∨ ok = false ∧ taken = 0)
    (hsteady : Steady s.client (.writeCompletes i ok)) (hop : s.client.writes[i]? = some op)
    (hpending : op.result = none) (hstep : s.client.step (.writeCompletes i ok) = some client)
    (hclient : client = { s.client with
      writes := s.client.writes.set i { op with result := some ok }
      delivered := if ok then s.client.delivered ++ [op.buffer] else s.client.delivered }) :
    Streaming { s.carry op ok taken with client } := by
  obtain ⟨hwrites, rfl⟩ := Pool.eq_singleton_of_getElem? h.orderly.single hop
  have hmove := Client.writesMove_of_step h.orderly hsteady.idle hstep
  have hnow : client.writes = [{ op with result := some ok }] := by rw [hclient, hwrites]; rfl
  have hconnection : client.connection = s.client.connection := by rw [hclient]; rfl
  have hmem : op ∈ s.client.writes := List.mem_of_getElem? hop
  obtain ⟨hfits, hframe⟩ := h.framed op.buffer (List.mem_append_left _ (h.mem_queued hmem))
  have hpast : ∀ entry ∈ s.written, entry.1 ≤ op.connection :=
    fun entry hentry => (h.past entry hentry).2 op hmem
  have hle : op.connection ≤ client.connection := hconnection ▸ h.started op hmem
  refine ⟨orderly_step h.orderly hsteady.idle hstep, h.framed_of_step hsteady.fits hstep, ?_, ?_,
    fun entry hentry => ?_, fun op' hop' => ?_, fun k => ?_⟩
  · rw [hclient]
    cases ok <;> simp [Sender.carry, h.delivered]
  · cases ok with
    | false => exact h.ascending
    | true =>
      exact List.pairwise_append.2 ⟨h.ascending, List.pairwise_singleton _ _,
        fun entry hentry entry' hentry' =>
        List.mem_singleton.1 hentry' ▸ hpast entry hentry⟩
  · have hentry' : entry.1 ≤ op.connection := by
      cases ok with
      | false => exact hpast entry hentry
      | true =>
        obtain hold | hnew := List.mem_append.1 hentry
        · exact hpast entry hold
        · rw [List.mem_singleton.1 hnew]
    refine ⟨hentry'.trans hle, fun op' hop' => ?_⟩
    rw [hnow] at hop'
    rw [List.mem_singleton.1 hop']
    exact hentry'
  · rw [hnow] at hop'
    rw [List.mem_singleton.1 hop']
    exact hle
  · by_cases hk : k = op.connection
    · subst hk
      have hstream := h.stream_of_pending hwrites hpending
      cases ok with
      | false =>
        refine ⟨Sender.carried op.buffer.frame false taken, ?_, ?_⟩
        · change Function.update s.stream _ _ _ = _
          rw [Function.update_self, hstream]
          rfl
        · obtain hopen | ⟨_, rfl⟩ := hestablished
          · refine .inr ⟨hframe ▸ torn_carried hfits taken,
              .inl ⟨⟨{ op with result := some false }, ?_, rfl, rfl⟩, ?_⟩⟩
            · rw [hnow]
              exact List.mem_singleton_self _
            · rw [hclient]
              exact hopen
          · exact .inl (by simp [Sender.carried])
      | true =>
        refine ⟨[], ?_, .inl rfl⟩
        change Function.update s.stream _ _ _ =
          (((s.written ++ [_]).filter _).map _).flatMap frame ++ []
        rw [Function.update_self, hstream, List.filter_append, List.map_append, List.flatMap_append,
          List.append_nil]
        have hlast : [(op.connection, op.buffer)].filter
            (fun entry => decide (entry.1 = op.connection)) =
          [(op.connection, op.buffer)] := by simp
        rw [hlast, List.map_singleton, List.flatMap_singleton, ← hframe]
        rfl
    · obtain ⟨part, hstream, hpart⟩ := h.stream k
      refine ⟨part, ?_, hpart.imp_right fun ⟨htorn, hclosed⟩ => ⟨htorn, hmove.closed hclosed⟩⟩
      have hsame : Sender.writtenOn { s.carry op ok taken with client } k = s.writtenOn k := by
        cases ok with
        | false => rfl
        | true =>
          change ((s.written ++ [_]).filter _).map _ = _
          rw [List.filter_append, List.filter_singleton, decide_eq_false (Ne.symm hk)]
          simp [Sender.writtenOn]
      rw [hsame, ← hstream]
      exact Function.update_of_ne hk _ _

theorem step {a : Act} {taken : Nat} (h : Streaming s) (hsteady : Steady s.client a)
    (hstep : s.step a taken = some t) : Streaming t := by
  obtain ⟨client, hclient, hstep⟩ := Option.bind_eq_some_iff.1 hstep
  cases Client.move_of_step hclient with
  | writeCompletes i ok op hop hpending =>
    simp only [Sender.decided, hop, Option.map_some] at hstep
    obtain ⟨_, hguard, hstep⟩ := Option.bind_eq_some_iff.1 hstep
    rw [← Option.some.inj hstep]
    exact h.carry ((Option.guard_eq_some' _).1 hguard) hsteady hop hpending hclient rfl
  | send msg => exact Option.some.inj hstep ▸ h.frame_step hsteady hclient rfl
  | queueMessage i msg hposted =>
    refine Option.some.inj hstep ▸ h.frame_step hsteady hclient ?_
    rw [Client.queueMessage]
    dsimp only
    split <;> rfl
  | connectCompletes i ok op hop hpending =>
    exact Option.some.inj hstep ▸ h.frame_step hsteady hclient rfl
  | readCompletes i ok op hop hpending =>
    exact Option.some.inj hstep ▸ h.frame_step hsteady hclient rfl
  | connectHandler i ok op hop hdecided =>
    refine Option.some.inj hstep ▸ h.frame_step hsteady hclient ?_
    rw [Client.connectHandler]
    split
    · rw [Client.doWriteIfQueued]
      split <;> rfl
    · rw [Client.doConnect]
      split <;> rfl
  | readHandler i ok op hop hdecided =>
    refine Option.some.inj hstep ▸ h.frame_step hsteady hclient ?_
    rw [Client.readHandler]
    split
    · split <;> rfl
    · rw [Client.doConnect]
      split <;> rfl
  | writeHandler i ok op hop hdecided =>
    refine Option.some.inj hstep ▸ h.frame_step hsteady hclient ?_
    rw [Client.writeHandler]
    split
    · rw [Client.doWriteIfQueued]
      split <;> rfl
    · rw [Client.doConnect]
      split <;> rfl

/-- Connection by connection, what was written is a part of the queue's history, in its order, and all that was taken once every connection is counted. -/
theorem flatMap_writtenOn (h : Streaming s) (n : Nat) :
    ((List.range n).flatMap s.writtenOn).Sublist (s.client.queued.map Queued.message) ∧
      (s.client.connection < n → (List.range n).flatMap s.writtenOn =
        s.client.delivered.map Queued.message) := by
  have hflat : (List.range n).flatMap s.writtenOn =
      (s.written.filter (·.1 < n)).map (·.2.message) := by
    rw [← flatMap_range_filter h.ascending, List.map_flatMap]
    rfl
  have hdelivered : s.client.delivered.map Queued.message = s.written.map (·.2.message) := by
    rw [h.delivered, List.map_map]
    rfl
  rw [hflat]
  constructor
  · have hpre := (h.orderly.delivered_prefix.map Queued.message).sublist
    rw [hdelivered] at hpre
    exact (List.filter_sublist.map _).trans hpre
  · intro hn
    rw [hdelivered, List.filter_eq_self.2]
    intro entry hentry
    exact decide_eq_true (lt_of_le_of_lt (h.past entry hentry).1 hn)

end Streaming

end Libesf.Log

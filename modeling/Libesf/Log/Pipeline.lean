import Libesf.Log.Streams
import Libesf.Log.Isolation

/-!
# From the log client to the server's callback

A client and the server it logs to, joined by TCP: what the client puts on one of its connections arrives on the other end in order, in pieces of any size, and perhaps not to the end. Other clients may be connected to the server and send what they like, as long as it does not end the server. A connection that breaks tears a frame, and the client writes that frame again on the next one.

A message gets to the callback at most once all the same, since a session gives nothing away of a frame it has not read to the end, and a write that fails has not put the end of its frame on the connection.
-/

namespace Libesf.Log

open Transition

structure Pipeline where
  sender : Sender
  server : Server

/-- A step of the client, with the number of bytes that go out with a write that fails, or a step of the server. -/
inductive PipelineAct where
  | client (a : Act) (taken : Nat)
  | server (a : ServerAct)

def PipelineAct.sends : PipelineAct → List Str
  | .client a _ => a.sends
  | .server _ => []

/-- The bytes that arrive with a step. -/
def SessionAct.bytes : SessionAct → Str
  | .arrive bytes => bytes
  | .disconnect | .reset | .completes _ | .handler _ => []

namespace Pipeline

-- `origin i` is the connection of the client whose other end is the server's connection `i`
variable (origin : Nat → Option Nat) (p : Pipeline)

def init (returns : List Str → Bool) : Pipeline := ⟨.init, .init returns⟩

/-- What arrives on a connection of the client continues what arrived on it before. -/
def arrives : ServerAct → Bool
  | .arrive i bytes =>
    (origin i).all fun k => p.server.connections[i]?.all fun c =>
      (c.received ++ bytes).isPrefixOf (p.sender.stream k)
  | _ => true

def step (p : Pipeline) : PipelineAct → Option Pipeline
  | .client a taken => do
    let sender ← p.sender.step a taken
    return { p with sender }
  | .server a => do
    guard (p.arrives origin a = true)
    let server ← p.server.step a
    return { p with server }

/-- The messages the server was notified of on connection `k` of the client. -/
def notifiedFrom (k : Nat) : List Str := (p.server.notified.filter (origin ·.1 = some k)).map Prod.snd

/-- The client is steady, and no other client sends what ends the server. -/
def Regular (p : Pipeline) : PipelineAct → Prop
  | .client a _ => Steady p.sender.client a
  | .server a => ∀ i ∈ a.session, origin i = none → Harmless p.server a

instance : (p : Pipeline) → (a : PipelineAct) → Decidable (Regular origin p a)
  | p, .client a _ => inferInstanceAs (Decidable (Steady p.sender.client a))
  | p, .server a =>
    inferInstanceAs (Decidable (∀ i ∈ a.session, origin i = none → Harmless p.server a))

end Pipeline

/-- Whatever the server was notified of before, the notification of the message returns. -/
def Accepts (returns : List Str → Bool) (msg : Str) : Prop :=
  ∀ before, returns (before ++ [msg]) = true

/-! ### A session that reads a client's stream -/

/-- Whole frames, and perhaps a torn one. -/
def Framed (stream : Str) : Prop :=
  ∃ (msgs : List Str) (part : Str), (∀ msg ∈ msgs, FitsHeader msg) ∧
    (part = [] ∨ Reader.Torn frame FitsHeader part) ∧
    stream = msgs.flatMap frame ++ part

/-- Where a session stands that has handled these bytes: between two frames, or behind a header. -/
def Stands (handled : Str) : Awaiting → Prop
  | .header => ∃ msgs : List Str, (∀ msg ∈ msgs, FitsHeader msg) ∧ handled = msgs.flatMap frame
  | .message n =>
    ∃ msgs : List Str, (∀ msg ∈ msgs, FitsHeader msg) ∧ n < 10 ^ headerSize ∧
      handled = msgs.flatMap frame ++ decimalPadded headerSize n

structure FedBy (stream : Str) (v : View) : Prop where
  received : v.session.received <+: stream
  stands : ∀ op ∈ v.session.reads, Stands v.session.handled op.awaiting

theorem negativeHeader_decimalPadded {n : Nat} :
    negativeHeader (decimalPadded headerSize n) = false := by
  have hdigits : ∀ b ∈ decimalPadded headerSize n, isDigit b = true :=
    fun b hb => isDigit_of_mem_decimalPadded hb
  rw [Bool.eq_false_iff, Ne, ← atoi_lt_zero_iff, cstr_eq_self (nul_not_mem_digits hdigits),
    atoi_of_digits hdigits]
  exact not_lt.2 (Int.natCast_nonneg _)

/-- Behind whole frames, the next eight bytes of a stream are the size of a message. -/
theorem header_of_isPrefix {stream handled header rest : Str} (hframed : Framed stream)
    (hstands : Stands handled .header) (hlength : header.length = headerSize)
    (hpre : handled ++ header ++ rest <+: stream) :
    ∃ n, n < 10 ^ headerSize ∧ header = decimalPadded headerSize n := by
  obtain ⟨msgs, part, hfits, hpart, rfl⟩ := hframed
  obtain ⟨read, hread, rfl⟩ := hstands
  rw [List.append_assoc] at hpre
  obtain ⟨msgs', rfl, hrest⟩ := readLoop_undoes_frame.isPrefix_of_flatMap hfits hread hpart hpre
  have hheader : header <+: msgs'.flatMap frame ++ part :=
    (List.prefix_append header rest).trans hrest
  have hframe : ∀ {msg tail : Str}, FitsHeader msg → header <+: frame msg ++ tail →
      ∃ n, n < 10 ^ headerSize ∧ header = decimalPadded headerSize n := by
    intro msg tail hmsg hmsgPrefix
    refine ⟨msg.length, hmsg, ?_⟩
    rw [frame, List.append_assoc] at hmsgPrefix
    have hlen : (decimalPadded headerSize msg.length).length = headerSize :=
      length_decimalPadded (by decide) hmsg
    obtain ⟨tail', htail⟩ := hmsgPrefix
    exact (List.append_inj htail (by rw [hlength, hlen])).1
  cases msgs' with
  | nil =>
    obtain rfl | ⟨msg, k, hmsg, _, rfl⟩ := hpart
    · rw [List.prefix_nil.1 hheader] at hlength
      cases hlength
    · have htake : header <+: frame msg ++ [] := by
        rw [List.append_nil]
        exact hheader.trans (List.take_prefix k _)
      exact hframe hmsg htake
  | cons msg msgs' =>
    rw [List.flatMap_cons, List.append_assoc] at hheader
    exact hframe (hfits msg (by simp)) hheader

theorem reads_handle {v : View} (h : Decodes v) {k : Nat} {op : Read}
    (hop : v.session.reads[k]? = some op) (data : Option Str) :
    (v.session.handle k data).reads = [] := h.eraseIdx_eq_nil hop

/-- Nothing is received but what arrives. -/
theorem received_move {v w : View} {act : SessionAct} (h : Decodes v) (hmove : v.Move act w) :
    w.session.received <+: v.session.received ++ act.bytes := by
  have hone : ∀ {k : Nat} {op : Read}, v.session.reads[k]? = some op →
      v.session.received = v.session.handled ++ op.data ++ v.session.inbox := by
    intro k op hop
    rw [Session.received, (h.eq_singleton hop).1, List.flatMap_singleton]
  cases hmove with
  | arrive bytes hconnected =>
    rw [Session.received, Session.received, SessionAct.bytes, ← List.append_assoc]
  | disconnect =>
    rw [SessionAct.bytes, List.append_nil]
    exact List.prefix_rfl
  | reset hreads =>
    rw [SessionAct.bytes, List.append_nil, Session.received, Session.received, List.append_nil]
    exact List.prefix_append _ _
  | readSucceeds k op hop hpending hsize =>
    rw [SessionAct.bytes, List.append_nil, hone hop, Session.received, h.set_eq_singleton hop,
      List.flatMap_singleton]
    simp only [Read.data, hpending, Option.getD_some, Option.getD_none, List.append_nil,
      List.append_assoc, List.take_append_drop]
    exact List.prefix_rfl
  | readFails k op hop hpending hsize hconnected =>
    rw [SessionAct.bytes, List.append_nil, hone hop, Session.received, h.set_eq_singleton hop,
      List.flatMap_singleton]
    simp only [Read.data, hpending, Option.getD_some, Option.getD_none, List.append_nil]
    exact List.prefix_rfl
  | header k op header hop hawaiting hdecided hsize =>
    rw [SessionAct.bytes, List.append_nil, hone hop, Session.received, Session.doReadMessage,
      reads_handle h hop]
    simp only [Read.data, hdecided, Session.handle, Option.getD_some, Option.getD_none,
      List.nil_append, List.flatMap_singleton, List.append_nil]
    exact List.prefix_rfl
  | message k n op msg hop hawaiting hdecided =>
    rw [SessionAct.bytes, List.append_nil, hone hop, Session.received, Session.doReadHeader,
      reads_handle h hop]
    simp only [Read.data, hdecided, Session.handle, Option.getD_some, Option.getD_none,
      List.nil_append, List.flatMap_singleton, List.append_nil]
    exact List.prefix_rfl
  | failed k op hop hdecided =>
    rw [SessionAct.bytes, List.append_nil, hone hop, Session.received, reads_handle h hop]
    simp only [Read.data, hdecided, Session.handle, Option.getD_some, Option.getD_none,
      List.flatMap_nil, List.append_nil]
    exact List.prefix_rfl

namespace FedBy

variable {stream : Str} {v w : View} {act : SessionAct}

theorem fresh : FedBy stream .fresh where
  received := List.nil_prefix
  stands op hop := by
    rw [List.mem_singleton.1 hop]
    exact ⟨[], nofun, rfl⟩

theorem mono (h : FedBy stream v) {stream' : Str} (hstream : stream <+: stream') : FedBy stream' v :=
  ⟨h.received.trans hstream, h.stands⟩

/-- The header a session is about to handle was made by the client. -/
theorem exists_header (h : FedBy stream v) (hframed : Framed stream) (hdecodes : Decodes v)
    {k : Nat} {op : Read} {header : Str} (hop : v.session.reads[k]? = some op)
    (hawaiting : op.awaiting = .header) (hdecided : op.result = some (some header)) :
    ∃ n, n < 10 ^ headerSize ∧ header = decimalPadded headerSize n := by
  have hmem := List.mem_of_getElem? hop
  have hstands := h.stands op hmem
  have hreceived := h.received
  rw [hawaiting] at hstands
  rw [Session.received, (hdecodes.eq_singleton hop).1, List.flatMap_singleton, Read.data,
    hdecided] at hreceived
  refine header_of_isPrefix hframed hstands ?_ hreceived
  rw [hdecodes.sized.filled op hmem header hdecided, hawaiting]
  rfl

theorem move (h : FedBy stream v) (hframed : Framed stream) (hdecodes : Decodes v)
    (hmove : v.Move act w) (harrives : v.session.received ++ act.bytes <+: stream) :
    FedBy stream w := by
  refine ⟨(received_move hdecodes hmove).trans harrives, ?_⟩
  cases hmove with
  | arrive bytes hconnected => exact h.stands
  | disconnect => exact h.stands
  | reset hreads => exact h.stands
  | readSucceeds k op hop hpending hsize =>
    intro op' hop'
    obtain hold | rfl := List.mem_or_eq_of_mem_set hop'
    · exact h.stands op' hold
    · exact h.stands op (List.mem_of_getElem? hop)
  | readFails k op hop hpending hsize hconnected =>
    intro op' hop'
    obtain hold | rfl := List.mem_or_eq_of_mem_set hop'
    · exact h.stands op' hold
    · exact h.stands op (List.mem_of_getElem? hop)
  | header k op header hop hawaiting hdecided hsize =>
    obtain ⟨n, hn, rfl⟩ := h.exists_header hframed hdecodes hop hawaiting hdecided
    have hstands := h.stands op (List.mem_of_getElem? hop)
    rw [hawaiting] at hstands
    obtain ⟨msgs, hfits, hhandled⟩ := hstands
    intro op' hop'
    rw [Session.doReadMessage, reads_handle hdecodes hop] at hop'
    have hsize : Server.sizeOfHeader (decimalPadded headerSize n) = n := by
      have hread := doReadHeader_frame hn []
      rw [List.append_nil] at hread
      have hok := doReadHeader_eq_ok hread
      rw [List.take_of_length_le (le_of_eq (length_decimalPadded (by decide) hn))] at hok
      exact hok.2.1.symm
    rw [List.mem_singleton.1 hop', hsize]
    refine ⟨msgs, hfits, hn, ?_⟩
    change v.session.handled ++ _ = _
    rw [hhandled]
    rfl
  | message k n op msg hop hawaiting hdecided =>
    have hstands := h.stands op (List.mem_of_getElem? hop)
    rw [hawaiting] at hstands
    obtain ⟨msgs, hfits, hn, hhandled⟩ := hstands
    have hlength : msg.length = n := by
      rw [hdecodes.sized.filled op (List.mem_of_getElem? hop) msg hdecided, hawaiting]
      rfl
    intro op' hop'
    rw [Session.doReadHeader, reads_handle hdecodes hop] at hop'
    rw [List.mem_singleton.1 hop']
    refine ⟨msgs ++ [msg], ?_, ?_⟩
    · intro m hm
      obtain hold | hnew := List.mem_append.1 hm
      · exact hfits m hold
      · rw [List.mem_singleton.1 hnew, FitsHeader, hlength]
        exact hn
    · change v.session.handled ++ _ = _
      rw [hhandled, List.flatMap_append, List.flatMap_singleton, frame, hlength, List.append_assoc]
      rfl
  | failed k op hop hdecided =>
    intro op' hop'
    rw [reads_handle hdecodes hop] at hop'
    cases hop'

end FedBy

/-! ### Runs of the two together -/

theorem map_message (l : List Queued) :
    l.map Queued.message = (l.map Queued.frame).map (List.drop headerSize) := by
  rw [List.map_map]
  rfl

theorem Sender.client_of_step {s t : Sender} {a : Act} {taken : Nat} (h : s.step a taken = some t) :
    s.client.step a = some t.client := by
  obtain ⟨client, hclient, h⟩ := Option.bind_eq_some_iff.1 h
  rw [hclient]
  split at h
  · obtain ⟨_, _, h⟩ := Option.bind_eq_some_iff.1 h
    rw [← Option.some.inj h]
  · rw [← Option.some.inj h]

theorem Pipeline.perm_of_step {origin : Nat → Option Nat} (p : Pipeline) (a : PipelineAct)
    (q : Pipeline) (hregular : p.Regular origin a) (hstep : p.step origin a = some q) :
    ((q.sender.client.queued ++ q.sender.client.posted).map Queued.message).Perm
      ((p.sender.client.queued ++ p.sender.client.posted).map Queued.message ++ a.sends) := by
  cases a with
  | client a taken =>
    obtain ⟨sender, hsender, hstep⟩ := Option.bind_eq_some_iff.1 hstep
    obtain rfl := Option.some.inj hstep
    have hsent : a.sends = (a.sends.map frame).map (List.drop headerSize) := by
      have hdrop : ∀ msg ∈ a.sends, (List.drop headerSize ∘ frame) msg = id msg := fun msg hmsg => by
        rw [Function.comp_apply, drop_frame (hregular.fits msg hmsg), id]
      rw [List.map_map, List.map_congr_left hdrop, List.map_id]
    have hperm := (Client.perm_of_step (Sender.client_of_step hsender)).map (List.drop headerSize)
    rw [List.map_append (f := List.drop headerSize), ← map_message, ← map_message, ← hsent] at hperm
    exact hperm
  | server a =>
    obtain ⟨_, _, hstep⟩ := Option.bind_eq_some_iff.1 hstep
    obtain ⟨server, _, hstep⟩ := Option.bind_eq_some_iff.1 hstep
    rw [← Option.some.inj hstep]
    exact .of_eq (List.append_nil _).symm

/-- What is between the client and the server: the client's connections, the sessions, and the bytes from the one to the other. -/
structure Relayed (origin : Nat → Option Nat) (returns : List Str → Bool) (p : Pipeline) : Prop where
  streaming : Streaming p.sender
  decoding : Decoding p.server
  fed : ∀ i k v, origin i = some k → p.server.view i = some v → FedBy (p.sender.stream k) v
  notifies : p.server.returns = returns
  accepted : ∀ msg ∈ (p.sender.client.queued ++ p.sender.client.posted).map Queued.message,
    Accepts returns msg

theorem Streaming.fits_of_mem_writtenOn {s : Sender} (h : Streaming s) (k : Nat) :
    ∀ msg ∈ s.writtenOn k, FitsHeader msg := by
  intro msg hmsg
  obtain ⟨entry, hentry, rfl⟩ := List.mem_map.1 hmsg
  have hdelivered : entry.2 ∈ s.client.delivered := by
    rw [h.delivered]
    exact List.mem_map_of_mem (List.mem_filter.1 hentry).1
  exact (h.framed entry.2 (List.mem_append_left _ (h.orderly.delivered_prefix.subset hdelivered))).1

theorem Streaming.framed_stream {s : Sender} (h : Streaming s) (k : Nat) : Framed (s.stream k) := by
  obtain ⟨part, hstream, hpart⟩ := h.stream k
  exact ⟨s.writtenOn k, part, h.fits_of_mem_writtenOn k, hpart.imp_right And.left, hstream⟩

theorem Sender.stream_isPrefix {s t : Sender} {a : Act} {taken : Nat}
    (h : s.step a taken = some t) (k : Nat) : s.stream k <+: t.stream k := by
  obtain ⟨client, _, h⟩ := Option.bind_eq_some_iff.1 h
  split at h
  · next op ok _ =>
    obtain ⟨_, _, h⟩ := Option.bind_eq_some_iff.1 h
    rw [← Option.some.inj h]
    change _ <+: Function.update s.stream _ _ k
    by_cases hk : k = op.connection
    · rw [hk, Function.update_self]
      exact List.prefix_append _ _
    · rw [Function.update_of_ne hk]
  · rw [← Option.some.inj h]

namespace Relayed

variable {origin : Nat → Option Nat} {returns : List Str → Bool} {p q : Pipeline}

theorem init : Relayed origin returns (.init returns) := ⟨.init, .init returns, nofun, rfl, nofun⟩

/-- What a session decodes of what it has received was written on its connection, and is all of it once all has arrived. -/
theorem decode_received (h : Relayed origin returns p) {i k : Nat} {v : View}
    (hview : p.server.view i = some v) (horigin : origin i = some k) :
    decode v.session.received <+: p.sender.writtenOn k ∧
      (v.session.received = p.sender.stream k →
        decode v.session.received = p.sender.writtenOn k) := by
  obtain ⟨part, hstream, hpart⟩ := h.streaming.stream k
  have hreceived := (h.fed i k v horigin hview).received
  rw [hstream] at hreceived ⊢
  exact Reader.readAll_isPrefix readLoop_undoes_frame (h.streaming.fits_of_mem_writtenOn k)
    (hpart.imp_right And.left) hreceived

theorem notifiedFrom_eq (hinj : ∀ i j k, origin i = some k → origin j = some k → i = j) {i k : Nat}
    (horigin : origin i = some k) : p.notifiedFrom origin k = p.server.deliveredOf i := by
  rw [Pipeline.notifiedFrom, Server.deliveredOf]
  refine congrArg (List.map Prod.snd)
    (List.filter_congr fun entry _ => decide_eq_decide.2 ⟨fun heq => ?_, fun heq => ?_⟩)
  · exact hinj entry.1 i k heq horigin
  · rw [heq, horigin]

/-- What was written on a connection was handed to `send`. -/
theorem accepts_of_mem_writtenOn (h : Relayed origin returns p) {k : Nat} {msg : Str}
    (hmsg : msg ∈ p.sender.writtenOn k) : Accepts returns msg := by
  have hmem : msg ∈ (List.range (k + 1)).flatMap p.sender.writtenOn :=
    List.mem_flatMap.2 ⟨k, List.mem_range.2 (Nat.lt_succ_self k), hmsg⟩
  refine h.accepted msg ?_
  rw [List.map_append]
  exact List.mem_append_left _ ((h.streaming.flatMap_writtenOn (k + 1)).1.subset hmem)

/-- The client's own headers are not negative, and the notifications of its messages return. -/
theorem harmless (h : Relayed origin returns p) {a : ServerAct}
    (hforeign : ∀ i ∈ a.session, origin i = none → Harmless p.server a) : Harmless p.server a := by
  constructor
  · intro header hheader
    obtain ⟨i, k, c, op, rfl, hc, hop, hawaiting, hdecided⟩ := Server.exists_of_mem_handed hheader
    cases horigin : origin i with
    | none => exact (hforeign i rfl horigin).1 header hheader
    | some k' =>
      have hview := Server.view_of_getElem? hc
      obtain ⟨n, _, rfl⟩ := (h.fed i k' _ horigin hview).exists_header (h.streaming.framed_stream k')
        (h.decoding.decodes i _ hview) hop (Server.eq_header hawaiting) hdecided
      exact negativeHeader_decimalPadded
  · intro msg hmsg
    obtain ⟨i, k, c, op, rfl, hc, hop, hawaiting, hdecided⟩ := Server.exists_of_mem_handed hmsg
    cases horigin : origin i with
    | none => exact (hforeign i rfl horigin).2 msg hmsg
    | some k' =>
      have hview := Server.view_of_getElem? hc
      have hdecoded := (h.decoding.decodes i _ hview).mem_decode_received hop hawaiting hdecided
      have hwritten := (h.decode_received hview horigin).1.subset hdecoded
      rw [Server.notificationReturns, h.notifies]
      exact h.accepts_of_mem_writtenOn hwritten _

theorem step (p : Pipeline) (a : PipelineAct) (q : Pipeline) (h : Relayed origin returns p)
    (hregular : p.Regular origin a ∧ ∀ msg ∈ a.sends, Accepts returns msg)
    (hstep : p.step origin a = some q) : Relayed origin returns q := by
  have hperm := Pipeline.perm_of_step p a q hregular.1 hstep
  have haccepted : ∀ msg ∈ (q.sender.client.queued ++ q.sender.client.posted).map Queued.message,
      Accepts returns msg := by
    intro msg hmsg
    obtain hold | hnew := List.mem_append.1 (hperm.subset hmsg)
    · exact h.accepted msg hold
    · exact hregular.2 msg hnew
  cases a with
  | client a taken =>
    obtain ⟨sender, hsender, hstep⟩ := Option.bind_eq_some_iff.1 hstep
    obtain rfl := Option.some.inj hstep
    exact ⟨h.streaming.step hregular.1 hsender, h.decoding,
      fun i k v horigin hv => (h.fed i k v horigin hv).mono (Sender.stream_isPrefix hsender k),
      h.notifies, haccepted⟩
  | server a =>
    obtain ⟨_, hguard, hstep⟩ := Option.bind_eq_some_iff.1 hstep
    obtain ⟨server, hserver, hstep⟩ := Option.bind_eq_some_iff.1 hstep
    obtain rfl := Option.some.inj hstep
    have harrives := (Option.guard_eq_some' _).1 hguard
    have hdecoding := Decoding.step _ _ _ h.decoding (h.harmless hregular.1) hserver
    refine ⟨h.streaming, hdecoding, fun i k v horigin hv => ?_,
      (Server.returns_of_step hserver).trans h.notifies, haccepted⟩
    have hevolves := Server.evolves_of_step h.decoding.unharmed.numbered hserver
      hdecoding.unharmed.alive i
    cases hact : a.ofSession i with
    | none =>
      rw [hact] at hevolves
      obtain hsame | ⟨-, hstart⟩ := hevolves
      · exact h.fed i k v horigin (hsame ▸ hv)
      · rw [Option.some.inj (hv.symm.trans hstart)]
        exact .fresh
    | some act =>
      rw [hact] at hevolves
      obtain ⟨v', w', hv', hw', hmove⟩ := hevolves
      obtain rfl := Option.some.inj (hv.symm.trans hw')
      have hfed := h.fed i k v' horigin hv'
      refine hfed.move (h.streaming.framed_stream k) (h.decoding.decodes i v' hv') hmove ?_
      cases act with
      | arrive bytes =>
        obtain ⟨c, hc, rfl⟩ := Option.map_eq_some_iff.1 hv'
        have ha : a = .arrive i bytes := by
          cases a with
          | arrive j bytes' =>
            rw [ServerAct.ofSession] at hact
            split at hact
            · next hj => rw [hj, SessionAct.arrive.inj (Option.some.inj hact)]
            · cases hact
          | disconnect j | reset j | readCompletes j k | readHandler j k =>
            rw [ServerAct.ofSession] at hact
            split at hact <;> cases hact
          | _ => cases hact
        rw [ha, Pipeline.arrives, horigin, hc] at harrives
        exact List.isPrefixOf_iff_prefix.1 harrives
      | _ =>
        rw [SessionAct.bytes, List.append_nil]
        exact hfed.received

/-- The messages notified from one connection are a prefix of those written on it. -/
theorem notifiedFrom_isPrefix (h : Relayed origin returns p)
    (hinj : ∀ i j k, origin i = some k → origin j = some k → i = j) (k : Nat) :
    p.notifiedFrom origin k <+: p.sender.writtenOn k := by
  by_cases hex : ∃ i, origin i = some k
  · obtain ⟨i, horigin⟩ := hex
    rw [notifiedFrom_eq hinj horigin]
    cases hc : p.server.connections[i]? with
    | none =>
      rw [h.decoding.deliveredOf_eq_nil (List.getElem?_eq_none_iff.1 hc)]
      exact List.nil_prefix
    | some c =>
      have hview := Server.view_of_getElem? hc
      exact (h.decoding.decodes i _ hview).delivered_isPrefix.trans
        (h.decode_received hview horigin).1
  · have hnone : p.notifiedFrom origin k = [] := by
      rw [Pipeline.notifiedFrom, List.map_eq_nil_iff, List.filter_eq_nil_iff]
      intro entry _ heq
      exact hex ⟨entry.1, of_decide_eq_true heq⟩
    rw [hnone]
    exact List.nil_prefix

/-- All that was written on a connection is notified once all of it has arrived and been read. -/
theorem notifiedFrom_eq_writtenOn (h : Relayed origin returns p)
    (hinj : ∀ i j k, origin i = some k → origin j = some k → i = j) {i k : Nat} {c : Session}
    (horigin : origin i = some k) (hc : p.server.connections[i]? = some c) (hsettled : c.Settled)
    (hreceived : c.received = p.sender.stream k) :
    p.notifiedFrom origin k = p.sender.writtenOn k := by
  have hview := Server.view_of_getElem? hc
  rw [notifiedFrom_eq hinj horigin]
  exact ((h.decoding.decodesSession hc).delivered_eq hsettled).trans
    ((h.decode_received hview horigin).2 hreceived)

end Relayed

/-- The client has nothing left to write, and everything on its connections has arrived and been read. -/
structure Drained (origin : Nat → Option Nat) (p : Pipeline) : Prop where
  posted : p.sender.client.posted = []
  queue : p.sender.client.messageQueue = []
  received : ∀ k < p.sender.client.connection + 1, p.sender.stream k = [] ∨
    ∃ i < p.server.connections.length,
    origin i = some k ∧ ∃ c ∈ p.server.connections[i]?, c.Settled ∧ c.received = p.sender.stream k

instance (c : Session) : Decidable c.Settled :=
  inferInstanceAs (Decidable (∀ op ∈ c.reads, op.result = none ∧ c.inbox.length < op.awaiting.size))

instance (origin : Nat → Option Nat) (p : Pipeline) : Decidable (Drained origin p) :=
  decidable_of_iff (p.sender.client.posted = [] ∧ p.sender.client.messageQueue = [] ∧
      ∀ k < p.sender.client.connection + 1, p.sender.stream k = [] ∨
      ∃ i < p.server.connections.length,
        origin i = some k ∧ ∃ c ∈ p.server.connections[i]?, c.Settled ∧
        c.received = p.sender.stream k)
    ⟨fun h => ⟨h.1, h.2.1, h.2.2⟩, fun h => ⟨h.posted, h.queue, h.received⟩⟩

theorem Sender.writtenOn_eq_nil {s : Sender} (h : Streaming s) {k : Nat}
    (hstream : s.stream k = []) : s.writtenOn k = [] := by
  obtain ⟨part, heq, _⟩ := h.stream k
  rw [hstream] at heq
  have hframes := List.flatMap_eq_nil_iff.1 (List.append_eq_nil_iff.1 heq.symm).1
  refine List.eq_nil_iff_forall_not_mem.2 fun msg hmsg => ?_
  have hlength := length_decimalPadded (n := msg.length) (by decide)
    (h.fits_of_mem_writtenOn k msg hmsg)
  rw [(List.append_eq_nil_iff.1 (hframes msg hmsg)).1] at hlength
  cases hlength

theorem Sender.writtenOn_eq_nil_of_lt {s : Sender} (h : Streaming s) {k : Nat}
    (hk : s.client.connection < k) : s.writtenOn k = [] := by
  rw [Sender.writtenOn, List.map_eq_nil_iff, List.filter_eq_nil_iff]
  intro entry hentry heq
  have hle := (h.past entry hentry).1
  rw [of_decide_eq_true heq] at hle
  exact absurd hk (not_lt.2 hle)

namespace Relayed

variable {origin : Nat → Option Nat} {returns : List Str → Bool} {p : Pipeline}

theorem sublist_notifiedFrom (h : Relayed origin returns p)
    (hinj : ∀ i j k, origin i = some k → origin j = some k → i = j) (n : Nat) :
    ((List.range n).flatMap (p.notifiedFrom origin)).Sublist
      (p.sender.client.queued.map Queued.message) :=
  (List.Sublist.flatMap_right (List.range n) fun k _ =>
    (h.notifiedFrom_isPrefix hinj k).sublist).trans
    (h.streaming.flatMap_writtenOn n).1

theorem flatMap_notifiedFrom (h : Relayed origin returns p)
    (hinj : ∀ i j k, origin i = some k → origin j = some k → i = j) (hdrained : Drained origin p)
    {n : Nat} (hn : p.sender.client.connection < n) :
    (List.range n).flatMap (p.notifiedFrom origin) = p.sender.client.queued.map Queued.message := by
  calc (List.range n).flatMap (p.notifiedFrom origin)
      = (List.range n).flatMap p.sender.writtenOn := List.flatMap_congr fun k _ => ?_
    _ = p.sender.client.delivered.map Queued.message := (h.streaming.flatMap_writtenOn n).2 hn
    _ = p.sender.client.queued.map Queued.message := ?_
  · by_cases hk : k < p.sender.client.connection + 1
    · obtain hstream | ⟨i, _, horigin, c, hc, hsettled, hreceived⟩ := hdrained.received k hk
      · have hwritten := Sender.writtenOn_eq_nil h.streaming hstream
        rw [hwritten]
        exact List.prefix_nil.1 (hwritten ▸ h.notifiedFrom_isPrefix hinj k)
      · exact h.notifiedFrom_eq_writtenOn hinj horigin hc hsettled hreceived
    · have hwritten := Sender.writtenOn_eq_nil_of_lt h.streaming (Nat.lt_of_succ_le (not_lt.1 hk))
      rw [hwritten]
      exact List.prefix_nil.1 (hwritten ▸ h.notifiedFrom_isPrefix hinj k)
  · rw [h.streaming.orderly.delivered_eq_queued hdrained.queue]

/-- If no one else logs, the server is notified of what it is notified of from the client's connections. -/
theorem perm_notified (h : Relayed origin returns p)
    (hinj : ∀ i j k, origin i = some k → origin j = some k → i = j)
    (hown : ∀ entry ∈ p.server.notified, (origin entry.1).isSome = true) {n : Nat}
    (hn : p.sender.client.connection < n) :
    ((List.range n).flatMap (p.notifiedFrom origin)).Perm (p.server.notified.map Prod.snd) := by
  have hkey : ∀ entry ∈ p.server.notified, origin entry.1 = some ((origin entry.1).getD 0) := by
    intro entry hentry
    obtain ⟨k, hk⟩ := Option.isSome_iff_exists.1 (hown entry hentry)
    rw [hk, Option.getD_some]
  have hflat : (List.range n).flatMap (p.notifiedFrom origin) =
      ((List.range n).flatMap fun k => p.server.notified.filter fun entry =>
        (origin entry.1).getD 0 = k).map Prod.snd := by
    rw [List.map_flatMap]
    refine List.flatMap_congr fun k _ =>
      congrArg (List.map Prod.snd) (List.filter_congr fun entry hentry => ?_)
    rw [decide_eq_decide, hkey entry hentry, Option.some.injEq, Option.getD_some]
  have hall : p.server.notified.filter (fun entry => (origin entry.1).getD 0 < n) =
      p.server.notified := by
    refine List.filter_eq_self.2 fun entry hentry =>
      decide_eq_true (lt_of_le_of_lt (not_lt.1 fun hlt => ?_) hn)
    have hnone := h.notifiedFrom_isPrefix hinj ((origin entry.1).getD 0)
    rw [Sender.writtenOn_eq_nil_of_lt h.streaming hlt, List.prefix_nil, Pipeline.notifiedFrom,
      List.map_eq_nil_iff, List.filter_eq_nil_iff] at hnone
    exact hnone entry hentry (decide_eq_true (hkey entry hentry))
  have hperm := perm_flatMap_filter (fun entry : Nat × Str => (origin entry.1).getD 0)
    p.server.notified n
  rw [hall] at hperm
  rw [hflat]
  exact hperm.map Prod.snd

end Relayed

/-- What is queued or posted was handed to `send`, and the other way round. -/
theorem Pipeline.perm_of_run {origin : Nat → Option Nat} {returns : List Str → Bool}
    {acts : List PipelineAct} {p : Pipeline}
    (hregular : Along (Pipeline.step origin) (Pipeline.Regular origin) (.init returns) acts)
    (hrun : run (Pipeline.step origin) (.init returns) acts = some p) :
    ((p.sender.client.queued ++ p.sender.client.posted).map Queued.message).Perm
      (acts.flatMap PipelineAct.sends) := by
  have hperm := Transition.perm_of_run
    (f := fun p : Pipeline => (p.sender.client.queued ++ p.sender.client.posted).map Queued.message)
    Pipeline.perm_of_step hregular hrun
  exact hperm

theorem Relayed.of_run {origin : Nat → Option Nat} {returns : List Str → Bool}
    {acts : List PipelineAct} {p : Pipeline}
    (hregular : Along (Pipeline.step origin) (Pipeline.Regular origin) (.init returns) acts)
    (haccepts : ∀ msg ∈ acts.flatMap PipelineAct.sends, Accepts returns msg)
    (hrun : run (Pipeline.step origin) (.init returns) acts = some p) : Relayed origin returns p := by
  have hsends : Along (Pipeline.step origin) (fun _ a => ∀ msg ∈ a.sends, Accepts returns msg)
      (.init returns) acts :=
    along_of_forall_mem (fun a ha _ msg hmsg => haccepts msg (List.mem_flatMap.2 ⟨a, ha, hmsg⟩)) _
  exact invariant_along (Relayed origin returns) _ Relayed.step .init (hregular.and hsends) hrun

/-- What reaches the server's callback of the messages logged. -/
structure RelaysInOrder (origin : Nat → Option Nat) (p : Pipeline) (sent : List Str) : Prop where
  isPrefix : ∀ k, p.notifiedFrom origin k <+: p.sender.writtenOn k
  sublist : ∀ n, ((List.range n).flatMap (p.notifiedFrom origin)).Sublist
    (p.sender.client.queued.map Queued.message)
  perm : ((p.sender.client.queued ++ p.sender.client.posted).map Queued.message).Perm sent
  alive : p.server.ioThread ≠ .terminated

/-- **At most once, and in order, from the client to the callback.** In every run of a steady client and a server that accepts its messages, no other client ending the server, the messages notified, connection by connection, are messages logged, none of them twice, in the order they were queued in; a frame torn by a broken connection is never one of them, and the server does not end of it. -/
theorem relaysInOrder_of_regular {origin : Nat → Option Nat} {returns : List Str → Bool}
    (hinj : ∀ i j k, origin i = some k → origin j = some k → i = j) {acts : List PipelineAct}
    {p : Pipeline}
    (hregular : Along (Pipeline.step origin) (Pipeline.Regular origin) (.init returns) acts)
    (haccepts : ∀ msg ∈ acts.flatMap PipelineAct.sends, Accepts returns msg)
    (hrun : run (Pipeline.step origin) (.init returns) acts = some p) :
    RelaysInOrder origin p (acts.flatMap PipelineAct.sends) := by
  have h := Relayed.of_run hregular haccepts hrun
  exact ⟨h.notifiedFrom_isPrefix hinj, h.sublist_notifiedFrom hinj,
    Pipeline.perm_of_run hregular hrun, h.decoding.unharmed.alive⟩

/-- The server's first and third sessions are the client's first and second connections, its fourth the third. -/
def throughThree : Nat → Option Nat
  | 0 => some 1
  | 2 => some 2
  | 3 => some 3
  | _ => none

/-- The second message is torn and written again; the loss starts two attempts to connect, and both succeed. Another client logs something of its own. -/
def tearAndRewrite : List PipelineAct :=
  [.server .startThread, .server .doAccept, .server .enterRun, .client (.send (ascii "a")) 0,
    .client (.send (ascii "b")) 0, .client (.queueMessage 0) 0,
    .client (.connectCompletes 0 true) 0, .client (.connectHandler 0) 0,
    .server (.acceptCompletes 0 true), .server (.acceptHandler 0), .client (.queueMessage 0) 0,
    .client (.writeCompletes 0 true) 0, .client (.writeHandler 0) 0,
    .client (.writeCompletes 0 false) 5, .client (.writeHandler 0) 0, .client (.readHandler 0) 0,
    .server (.acceptCompletes 0 true), .server (.acceptHandler 0),
    .server (.arrive 0 (ascii "0000")), .server (.arrive 0 (ascii "0001a00000")),
    .server (.disconnect 0), .server (.arrive 1 (ascii "00000001x")), .server (.readCompletes 1 0),
    .server (.readHandler 1 0), .client (.connectCompletes 0 true) 0, .client (.connectHandler 0) 0,
    .server (.acceptCompletes 0 true), .server (.acceptHandler 0),
    .client (.writeCompletes 0 true) 0, .client (.writeHandler 0) 0,
    .client (.connectCompletes 0 true) 0, .client (.connectHandler 0) 0,
    .server (.acceptCompletes 0 true), .server (.acceptHandler 0), .client (.send (ascii "c")) 0,
    .client (.queueMessage 0) 0, .client (.writeCompletes 0 true) 0, .client (.writeHandler 0) 0,
    .server (.arrive 3 (ascii "00000001c")), .server (.readCompletes 3 0),
    .server (.readHandler 3 0), .server (.readCompletes 3 0), .server (.readHandler 3 0),
    .server (.arrive 2 (ascii "00000001b")), .server (.readCompletes 0 0), .server (.readHandler 0 0),
    .server (.readCompletes 0 0), .server (.readHandler 0 0), .server (.readCompletes 0 0),
    .server (.readHandler 0 0), .server (.readCompletes 1 0), .server (.readHandler 1 0),
    .server (.readCompletes 2 0), .server (.readHandler 2 0), .server (.readCompletes 2 0),
    .server (.readHandler 2 0)]

theorem throughThree_injective : ∀ i j k, throughThree i = some k →
    throughThree j = some k → i = j := by
  intro i j k hi hj
  unfold throughThree at hi hj
  split at hi <;> split at hj <;> grind

/-- A server with a subscriber that throws at the empty message. -/
def notEmpty (texts : List Str) : Bool := texts.getLast?.all (· ≠ [])

theorem accepts_notEmpty {msg : Str} (hmsg : msg ≠ []) : Accepts notEmpty msg := by
  intro before
  rw [notEmpty, List.getLast?_concat, Option.all_some]
  exact decide_eq_true hmsg

theorem accepts_tearAndRewrite :
    ∀ msg ∈ tearAndRewrite.flatMap PipelineAct.sends, Accepts notEmpty msg := by
  have hsends : tearAndRewrite.flatMap PipelineAct.sends = [ascii "a", ascii "b", ascii "c"] := by
    decide +kernel
  rw [hsends]
  simp only [List.forall_mem_cons, List.not_mem_nil, false_implies, implies_true, and_true]
  exact ⟨accepts_notEmpty (by decide), accepts_notEmpty (by decide), accepts_notEmpty (by decide)⟩

theorem relaysInOrder_of_regular_tearAndRewrite :
    ∃ p, run (Pipeline.step throughThree) (.init notEmpty) tearAndRewrite = some p ∧
      p.server.notified = [(3, ascii "c"), (0, ascii "a"), (1, ascii "x"), (2, ascii "b")] ∧
      p.sender.stream 1 = ascii "00000001a00000" ∧
      RelaysInOrder throughThree p [ascii "a", ascii "b", ascii "c"] := by
  obtain ⟨p, hrun, hp⟩ := exists_of_any_run (Pipeline.step throughThree) (.init notEmpty)
    tearAndRewrite
    (fun p => decide (p.server.notified =
      [(3, ascii "c"), (0, ascii "a"), (1, ascii "x"), (2, ascii "b")] ∧
      p.sender.stream 1 = ascii "00000001a00000")) (by decide +kernel)
  obtain ⟨hnotified, hstream⟩ := of_decide_eq_true hp
  exact ⟨p, hrun, hnotified, hstream,
    relaysInOrder_of_regular throughThree_injective (by decide +kernel) accepts_tearAndRewrite hrun⟩

/-- **Exactly once.** When the client has nothing left to write and what it wrote has arrived and been read, the messages notified, connection by connection, are the messages logged, each once and in the order they were queued in, whichever writes failed on the way. -/
theorem relaysAll_of_drained {origin : Nat → Option Nat} {returns : List Str → Bool}
    (hinj : ∀ i j k, origin i = some k → origin j = some k → i = j) {acts : List PipelineAct}
    {p : Pipeline}
    (hregular : Along (Pipeline.step origin) (Pipeline.Regular origin) (.init returns) acts)
    (haccepts : ∀ msg ∈ acts.flatMap PipelineAct.sends, Accepts returns msg)
    (hrun : run (Pipeline.step origin) (.init returns) acts = some p)
    (hdrained : Drained origin p) {n : Nat} (hn : p.sender.client.connection < n) :
    (List.range n).flatMap (p.notifiedFrom origin) = p.sender.client.queued.map Queued.message ∧
      ((List.range n).flatMap (p.notifiedFrom origin)).Perm (acts.flatMap PipelineAct.sends) := by
  have h := Relayed.of_run hregular haccepts hrun
  have hall := h.flatMap_notifiedFrom hinj hdrained hn
  have hperm := Pipeline.perm_of_run hregular hrun
  rw [hdrained.posted, List.append_nil, ← hall] at hperm
  exact ⟨hall, hperm⟩

theorem relaysAll_of_drained_tearAndRewrite :
    ∃ p, run (Pipeline.step throughThree) (.init notEmpty) tearAndRewrite = some p ∧
      Drained throughThree p ∧
      (List.range 4).flatMap (p.notifiedFrom throughThree) = [ascii "a", ascii "b", ascii "c"] := by
  obtain ⟨p, hrun, hp⟩ := exists_of_any_run (Pipeline.step throughThree) (.init notEmpty)
    tearAndRewrite
    (fun p => decide (Drained throughThree p ∧ p.sender.client.connection < 4 ∧
      p.sender.client.queued.map Queued.message = [ascii "a", ascii "b", ascii "c"])) (by
        decide +kernel)
  obtain ⟨hdrained, hn, hqueued⟩ := of_decide_eq_true hp
  exact ⟨p, hrun, hdrained,
    (relaysAll_of_drained throughThree_injective (by decide +kernel) accepts_tearAndRewrite hrun
    hdrained hn).1.trans hqueued⟩

end Libesf.Log

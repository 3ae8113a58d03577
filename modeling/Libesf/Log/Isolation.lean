import Libesf.Log.Formatter
import Libesf.Log.HeaderRange

/-!
# When sessions do not interfere

What a session delivers is the decoding of the bytes that were received on its own connection. The sessions are interleaved on one event loop, but a run of the server, seen from one session, is a run of that session, and what a session does next is determined by what is its own. So the same steps of a session make the same view of it, whatever stands between them.

They share the loop all the same. A message whose notification does not return takes it from the others, and what has been received on their connections is never delivered.
-/

namespace Libesf.Log

open Json Transition

/-- The session decoding of a byte string. -/
def decode (bytes : Str) : List Str := (readLoop.readAll bytes).1

/-- The decoding of what follows, for a session that is in the middle of a frame. -/
def decodeFrom (awaiting : Awaiting) (bytes : Str) : List Str :=
  match awaiting with
  | .header => decode bytes
  | .message n => if bytes.length < n then [] else bytes.take n :: decode (bytes.drop n)

theorem decodeFrom_of_short {awaiting : Awaiting} {bytes : Str}
    (hshort : bytes.length < awaiting.size) : decodeFrom awaiting bytes = [] := by
  cases awaiting with
  | header =>
    have hstop : readMessage bytes = .error .erased := by
      change bytes.length < headerSize at hshort
      rw [readMessage, doReadHeader, if_pos hshort]
      rfl
    rw [decodeFrom, decode, Reader.readAll_of_error (r := readLoop) hstop]
  | message n => exact if_pos hshort

theorem decodeFrom_header_append {header : Str} (hlength : header.length = headerSize)
    (hsize : Server.sizeOfHeader header ≤ maxSize) (tail : Str) :
    decodeFrom .header (header ++ tail) =
      decodeFrom (.message (Server.sizeOfHeader header)) tail := by
  have hheader : doReadHeader (header ++ tail) = .ok (Server.sizeOfHeader header, tail) := by
    rw [doReadHeader, if_neg (by rw [List.length_append]; omega), List.take_left' hlength,
      List.drop_left' hlength]
    exact if_neg (not_lt.2 hsize)
  have hread : readMessage (header ++ tail) = doReadMessage (Server.sizeOfHeader header) tail := by
    rw [readMessage, hheader]
    rfl
  rw [decodeFrom, decodeFrom, decode]
  split
  · next hshort =>
    rw [doReadMessage, if_pos hshort] at hread
    rw [Reader.readAll_of_error (r := readLoop) hread]
  · next hlong =>
    rw [doReadMessage, if_neg hlong] at hread
    rw [Reader.readAll_of_ok (r := readLoop) hread]
    rfl

theorem decodeFrom_message_append (msg tail : Str) :
    decodeFrom (.message msg.length) (msg ++ tail) = msg :: decode tail := by
  rw [decodeFrom, if_neg (by rw [List.length_append]; omega), List.take_left' rfl,
    List.drop_left' rfl]

/-- What a session has delivered, and what it will make of the bytes to come, is the decoding of all its bytes. -/
structure Decodes (v : View) : Prop where
  sized : Sized v
  live : ∀ op ∈ v.session.reads, v.session.reads = [op] ∧
    ∀ tail, decode (v.session.handled ++ tail) = v.delivered ++ decodeFrom op.awaiting tail
  failed : ∀ op ∈ v.session.reads, op.result = some none →
    v.session.connected = false ∧ v.session.inbox.length < op.awaiting.size
  ended : v.session.reads = [] →
    v.session.connected = false ∧ decode (v.session.handled ++ v.session.inbox) = v.delivered

namespace Decodes

variable {v w : View} {act : SessionAct}

theorem fresh : Decodes .fresh where
  sized := .fresh
  live op hop := by
    rw [List.mem_singleton.1 hop]
    exact ⟨rfl, fun _ => rfl⟩
  failed op hop hresult := by
    rw [List.mem_singleton.1 hop] at hresult
    cases hresult
  ended := nofun

theorem eq_singleton (h : Decodes v) {k : Nat} {op : Read} (hop : v.session.reads[k]? = some op) :
    v.session.reads = [op] ∧ k = 0 := by
  have hone := (h.live op (List.mem_of_getElem? hop)).1
  have hk := (List.getElem?_eq_some_iff.1 hop).1
  rw [hone, List.length_singleton] at hk
  exact ⟨hone, Nat.lt_one_iff.1 hk⟩

theorem eraseIdx_eq_nil (h : Decodes v) {k : Nat} {op : Read} (hop : v.session.reads[k]? = some op) :
    v.session.reads.eraseIdx k = [] := by
  obtain ⟨hone, rfl⟩ := h.eq_singleton hop
  rw [hone]
  rfl

theorem set_eq_singleton (h : Decodes v) {k : Nat} {op : Read} (hop : v.session.reads[k]? = some op)
    (op' : Read) : v.session.reads.set k op' = [op'] := by
  obtain ⟨hone, rfl⟩ := h.eq_singleton hop
  rw [hone]
  rfl

/-- A session that goes on with one read. -/
theorem of_singleton {op : Read} (hsized : Sized w) (hreads : w.session.reads = [op])
    (htail : ∀ tail, decode (w.session.handled ++ tail) = w.delivered ++ decodeFrom op.awaiting tail)
    (hfailed : op.result = some none → w.session.connected = false ∧
      w.session.inbox.length < op.awaiting.size) :
    Decodes w where
  sized := hsized
  live op' hop' := by
    rw [hreads] at hop' ⊢
    rw [List.mem_singleton.1 hop']
    exact ⟨rfl, htail⟩
  failed op' hop' hresult := by
    rw [hreads] at hop'
    rw [List.mem_singleton.1 hop'] at hresult ⊢
    exact hfailed hresult
  ended hnil := by
    rw [hreads] at hnil
    cases hnil

theorem move (h : Decodes v) (hmove : v.Move act w) : Decodes w := by
  have hsized := h.sized.move hmove
  cases hmove with
  | arrive bytes hconnected =>
    refine ⟨hsized, h.live, fun op hop hresult => ?_, fun hnil => ?_⟩
    · rw [(h.failed op hop hresult).1] at hconnected
      cases hconnected
    · rw [(h.ended hnil).1] at hconnected
      cases hconnected
  | disconnect =>
    exact ⟨hsized, h.live, fun op hop hresult => ⟨rfl, (h.failed op hop hresult).2⟩,
      fun hnil => ⟨rfl, (h.ended hnil).2⟩⟩
  | reset hreads =>
    refine ⟨hsized, h.live, fun op hop hresult => ⟨rfl, ?_⟩, fun hnil => absurd hnil hreads⟩
    exact lt_of_le_of_lt (Nat.zero_le _) (h.failed op hop hresult).2
  | readSucceeds k op hop hpending hsize =>
    exact of_singleton hsized (h.set_eq_singleton hop _)
      (h.live op (List.mem_of_getElem? hop)).2 nofun
  | readFails k op hop hpending hsize hconnected =>
    exact of_singleton hsized (h.set_eq_singleton hop _) (h.live op (List.mem_of_getElem? hop)).2
      fun _ => ⟨hconnected, hsize⟩
  | header k op header hop hawaiting hdecided hsize =>
    have hmem := List.mem_of_getElem? hop
    have hlength : header.length = headerSize := by
      rw [h.sized.filled op hmem header hdecided, hawaiting]
      rfl
    have hreads : v.session.reads.eraseIdx k ++ [⟨.message (Server.sizeOfHeader header), none⟩] =
        [⟨.message (Server.sizeOfHeader header), none⟩] := by
      rw [h.eraseIdx_eq_nil hop]
      rfl
    refine of_singleton hsized hreads (fun tail => ?_) nofun
    have htail := (h.live op hmem).2 (header ++ tail)
    rw [hawaiting, decodeFrom_header_append hlength hsize, ← List.append_assoc] at htail
    exact htail
  | message k n op msg hop hawaiting hdecided =>
    have hmem := List.mem_of_getElem? hop
    obtain rfl : msg.length = n := by
      rw [h.sized.filled op hmem msg hdecided, hawaiting]
      rfl
    have hreads : v.session.reads.eraseIdx k ++ [⟨.header, none⟩] = [⟨.header, none⟩] := by
      rw [h.eraseIdx_eq_nil hop]
      rfl
    refine of_singleton hsized hreads (fun tail => ?_) nofun
    have htail := (h.live op hmem).2 (msg ++ tail)
    rw [hawaiting, decodeFrom_message_append, ← List.append_assoc] at htail
    change decode (v.session.handled ++ msg ++ tail) = v.delivered ++ [msg] ++ decode tail
    rw [htail, List.append_assoc, List.singleton_append]
  | failed k op hop hdecided =>
    have hmem := List.mem_of_getElem? hop
    obtain ⟨hconnected, hshort⟩ := h.failed op hmem hdecided
    have hnil : (v.session.handle k none).reads = [] := h.eraseIdx_eq_nil hop
    refine ⟨hsized, fun op hop => ?_, fun op hop => ?_, fun _ => ⟨hconnected, ?_⟩⟩
    · rw [hnil] at hop
      cases hop
    · rw [hnil] at hop
      cases hop
    · change decode (v.session.handled ++ [] ++ v.session.inbox) = v.delivered
      rw [List.append_nil, (h.live op hmem).2, decodeFrom_of_short hshort, List.append_nil]

end Decodes

/-! ### Runs of the server -/

/-- Nothing is left for the handlers of the session to do: its reads wait for bytes that have not arrived. -/
def Session.Settled (c : Session) : Prop :=
  ∀ op ∈ c.reads, op.result = none ∧ c.inbox.length < op.awaiting.size

/-- Nothing of what has been received will be handled any more: the session's reads wait for more, or there is no event loop. -/
def Server.Done (s : Server) (c : Session) : Prop :=
  c.Settled ∨ s.ioThread = .returned ∨ s.ioThread = .terminated

namespace Decodes

variable {v : View}

theorem delivered_isPrefix (h : Decodes v) : v.delivered <+: decode v.session.received := by
  cases hreads : v.session.reads with
  | nil =>
    rw [Session.received, hreads, List.flatMap_nil, List.append_nil, (h.ended hreads).2]
  | cons op rest =>
    obtain ⟨hone, htail⟩ := h.live op (by rw [hreads]; exact List.mem_cons_self)
    rw [Session.received, List.append_assoc, htail]
    exact List.prefix_append _ _

theorem delivered_eq (h : Decodes v) (hsettled : v.session.Settled) :
    v.delivered = decode v.session.received := by
  cases hreads : v.session.reads with
  | nil =>
    rw [Session.received, hreads, List.flatMap_nil, List.append_nil, (h.ended hreads).2]
  | cons op rest =>
    have hmem : op ∈ v.session.reads := by rw [hreads]; exact List.mem_cons_self
    obtain ⟨hone, htail⟩ := h.live op hmem
    obtain ⟨hpending, hshort⟩ := hsettled op hmem
    rw [Session.received, hone, List.flatMap_singleton, Read.data, hpending]
    change v.delivered = decode (v.session.handled ++ [] ++ v.session.inbox)
    rw [List.append_nil, htail, decodeFrom_of_short hshort, List.append_nil]

/-- A message that a handler is about to deliver is one of those decoded. -/
theorem mem_decode_received (h : Decodes v) {k : Nat} {op : Read} {msg : Str}
    (hop : v.session.reads[k]? = some op) (hawaiting : op.awaiting.isHeader = false)
    (hdecided : op.result = some (some msg)) : msg ∈ decode v.session.received := by
  have hmem := List.mem_of_getElem? hop
  obtain ⟨hone, htail⟩ := h.live op hmem
  have hlength := h.sized.filled op hmem msg hdecided
  rw [Session.received, hone, List.flatMap_singleton, Read.data, hdecided, List.append_assoc,
    Option.getD_some, Option.getD_some, htail]
  cases hmessage : op.awaiting with
  | header =>
    rw [hmessage] at hawaiting
    cases hawaiting
  | message n =>
    rw [hmessage] at hlength
    obtain rfl : msg.length = n := hlength
    rw [decodeFrom_message_append]
    exact List.mem_append_right _ List.mem_cons_self

end Decodes

/-- The list is made of the parts, each in its own order. -/
def Interleaving {ι β : Type} [DecidableEq ι] (list : List β) (parts : ι → List β) : Prop :=
  ∃ tagged : List (ι × β), tagged.map Prod.snd = list ∧
    ∀ i, (tagged.filter (·.1 = i)).map Prod.snd = parts i

/-- The session whose failed read the step hands to its handler. -/
def Server.errorHanded (s : Server) : ServerAct → Option Nat
  | .readHandler i k => do
    let c ← s.connections[i]?
    let op ← c.reads[k]?
    guard (op.result = some none)
    return i
  | _ => none

/-- An error on a connection removes its session from the set, and nothing else removes one. -/
def RemovesFailed (s : Server) (a : ServerAct) : Prop :=
  ∀ t, s.step a = some t → ∀ j ∈ s.sessions, (j ∉ t.sessions ↔ s.errorHanded a = some j)

theorem sessions_readHandler (s : Server) (i : Nat) (c : Session) (awaiting : Awaiting)
    (data : Option Str) :
    (s.readHandler i c awaiting data).sessions =
      if data = none then s.sessions.erase i else s.sessions := by
  refine s.readHandler_cases i c awaiting data (fun hdata => ?_) (fun header _ hdata _ => ?_)
    (fun header _ hdata _ => ?_)
    (fun n msg _ hdata _ => ?_) (fun n msg _ hdata _ => ?_)
  · rw [if_pos hdata]
    rfl
  all_goals
    rw [if_neg (by rw [hdata]; exact Option.some_ne_none _)]
    rfl

theorem errorHanded_readHandler {s : Server} {i k : Nat} {c : Session} {op : Read} {data : Option Str}
    (hc : s.connections[i]? = some c) (hop : c.reads[k]? = some op)
    (hdecided : op.result = some data) :
    s.errorHanded (.readHandler i k) = if data = none then some i else none := by
  simp only [Server.errorHanded, hc, hop, hdecided, Option.bind_eq_bind, Option.bind_some, guard,
    Option.some.injEq]
  split <;> rfl

theorem removesFailed {s : Server} (h : s.Numbered) (a : ServerAct) : RemovesFailed s a := by
  intro t hstep j hj
  cases Server.move_of_step hstep with
  | readHandler i k c op data hio hc hop hdecided =>
    rw [Server.sessions_checkWork, sessions_readHandler, errorHanded_readHandler hc hop hdecided]
    by_cases hfailed : data = none
    · rw [if_pos hfailed, if_pos hfailed, h.nodup.mem_erase_iff, not_and', not_not, Option.some.injEq]
      exact ⟨fun hij => (hij hj).symm, fun hij _ => hij.symm⟩
    · rw [if_neg hfailed, if_neg hfailed]
      exact iff_of_false (not_not.2 hj) (Option.some_ne_none j).symm
  | enterRun hio =>
    rw [Server.sessions_checkWork]
    exact iff_of_false (not_not.2 hj) (Option.some_ne_none j).symm
  | acceptHandler k ok hio hdecided =>
    have hkept : j ∈
        (Server.acceptHandler { s with accepts := s.accepts.eraseIdx k } ok).sessions := by
      rw [Server.acceptHandler]
      split
      · exact List.mem_append_left _ hj
      · exact hj
    rw [Server.sessions_checkWork]
    exact iff_of_false (not_not.2 hkept) (Option.some_ne_none j).symm
  | _ => exact iff_of_false (not_not.2 hj) (Option.some_ne_none j).symm

/-- The decoding of what was received on connection `i`. -/
def Server.decoded (s : Server) (i : Nat) : List Str :=
  (s.connections[i]?.map (decode ·.received)).getD []

/-- What is delivered, in terms of the bytes received on each connection alone. -/
structure Isolated (s : Server) : Prop where
  delivered_isPrefix : ∀ i, s.deliveredOf i <+: s.decoded i
  delivered_eq : ∀ i c, s.connections[i]? = some c → s.Done c → s.deliveredOf i = s.decoded i
  interleaving : Interleaving (s.notified.map Prod.snd) s.deliveredOf
  interleaving_decoded : (∀ c ∈ s.connections, s.Done c) →
    Interleaving (s.notified.map Prod.snd) s.decoded

/-- `run` is left only when nothing is read from. -/
def LeftIdle (s : Server) : Prop := s.ioThread = .returned → ∀ c ∈ s.connections, c.reads = []

namespace LeftIdle

variable {s t : Server}

theorem checkWork (hnot : s.ioThread ≠ .returned) : LeftIdle s.checkWork := by
  rw [LeftIdle, Server.checkWork]
  split
  · next hidle =>
    intro _ c hc
    have hreads := List.all_eq_true.1 (Bool.and_eq_true _ _ ▸ hidle.2).2 c hc
    exact List.isEmpty_iff.1 hreads
  · exact fun hreturned => absurd hreturned hnot

theorem setSession (h : LeftIdle s) {i : Nat} {c : Session} (hc : s.connections[i]? = some c)
    (c' : Session) (hreads : c.reads = [] → c'.reads = []) : LeftIdle (s.setSession i c') := by
  intro hreturned d hd
  obtain hold | rfl := List.mem_or_eq_of_mem_set hd
  · exact h hreturned d hold
  · exact hreads (h hreturned c (List.mem_of_getElem? hc))

theorem ne_nil_of_getElem? {c : Session} {k : Nat} {op : Read} (hop : c.reads[k]? = some op) :
    c.reads ≠ [] := by
  rintro hnil
  rw [hnil] at hop
  cases hop

theorem step (h : LeftIdle s) {a : ServerAct} (hstep : s.step a = some t) : LeftIdle t := by
  have hcreated : IoThread.created ≠ .returned := by decide
  have hrunning : IoThread.running ≠ .returned := by decide
  have hterminated : IoThread.terminated ≠ .returned := by decide
  cases Server.move_of_step hstep with
  | startThread hconstruction => exact fun hreturned => absurd hreturned hcreated
  | doAccept hconstruction => exact h
  | enterRun hio => exact .checkWork hrunning
  | acceptCompletes k ok hpending => exact h
  | acceptHandler k ok hio hdecided =>
    refine .checkWork ?_
    rw [Server.acceptHandler]
    split
    · exact fun hreturned => hrunning (hio.symm.trans hreturned)
    · exact fun hreturned => hrunning (hio.symm.trans hreturned)
  | arrive i bytes c hc hconnected => exact h.setSession hc _ id
  | disconnect i c hc => exact h.setSession hc _ id
  | reset i c hc hreads => exact h.setSession hc _ id
  | readSucceeds i k c op hc hop hpending hsize =>
    exact h.setSession hc _ fun hnil => absurd hnil (ne_nil_of_getElem? hop)
  | readFails i k c op hc hop hpending hsize hconnected =>
    exact h.setSession hc _ fun hnil => absurd hnil (ne_nil_of_getElem? hop)
  | readHandler i k c op data hio hc hop hdecided =>
    refine .checkWork ?_
    have hstays : s.ioThread ≠ .returned := fun hreturned => hrunning (hio.symm.trans hreturned)
    exact s.readHandler_cases i _ op.awaiting data (fun _ => hstays) (fun _ _ _ _ => hterminated)
      (fun _ _ _ _ => hstays) (fun _ _ _ _ _ => hstays) (fun _ _ _ _ _ => hterminated)

end LeftIdle

/-- What every run keeps that nothing harms. -/
structure Decoding (s : Server) : Prop where
  unharmed : Unharmed s
  decodes : ∀ i v, s.view i = some v → Decodes v
  leftIdle : LeftIdle s

namespace Decoding

variable {s t : Server}

theorem init (returns : List Str → Bool) : Decoding (.init returns) := ⟨.init returns, nofun, nofun⟩

theorem step (s : Server) (a : ServerAct) (t : Server) (h : Decoding s) (hharmless : Harmless s a)
    (hstep : s.step a = some t) : Decoding t := by
  have hunharmed := Unharmed.step s a t h.unharmed hharmless hstep
  exact ⟨hunharmed, Server.view_invariant Decodes.fresh
    (fun _ _ _ hv hmove => hv.move hmove) h.decodes
    h.unharmed.numbered hstep hunharmed.alive, h.leftIdle.step hstep⟩

theorem settled_of_done (h : Decoding s) {c : Session} (hc : c ∈ s.connections) (hdone : s.Done c) :
    c.Settled := by
  obtain hsettled | hreturned | hterminated := hdone
  · exact hsettled
  · intro op hop
    rw [h.leftIdle hreturned c hc] at hop
    cases hop
  · exact absurd hterminated h.unharmed.alive

theorem decodesSession (h : Decoding s) {i : Nat} {c : Session} (hc : s.connections[i]? = some c) :
    Decodes ⟨c, s.deliveredOf i, decide (i ∈ s.sessions)⟩ :=
  h.decodes i _ (Server.view_of_getElem? hc)

theorem deliveredOf_eq_nil (h : Decoding s) {i : Nat} (hi : s.connections.length ≤ i) :
    s.deliveredOf i = [] := by
  rw [Server.deliveredOf, List.map_eq_nil_iff, List.filter_eq_nil_iff]
  intro entry hentry heq
  have hlt := h.unharmed.numbered.notified entry hentry
  rw [of_decide_eq_true heq] at hlt
  omega

theorem delivered_eq (h : Decoding s) {i : Nat} {c : Session} (hc : s.connections[i]? = some c)
    (hsettled : c.Settled) : s.deliveredOf i = s.decoded i := by
  rw [Server.decoded, hc]
  exact (h.decodesSession hc).delivered_eq hsettled

theorem isolated (h : Decoding s) : Isolated s where
  delivered_isPrefix i := by
    rcases lt_or_ge i s.connections.length with hlt | hge
    · rw [Server.decoded, List.getElem?_eq_getElem hlt]
      exact (h.decodesSession (List.getElem?_eq_getElem hlt)).delivered_isPrefix
    · rw [h.deliveredOf_eq_nil hge]
      exact List.nil_prefix
  delivered_eq i c hc hdone := h.delivered_eq hc (h.settled_of_done (List.mem_of_getElem? hc) hdone)
  interleaving := ⟨s.notified, rfl, fun _ => rfl⟩
  interleaving_decoded hdone := by
    refine ⟨s.notified, rfl, fun i => ?_⟩
    change s.deliveredOf i = s.decoded i
    rcases lt_or_ge i s.connections.length with hlt | hge
    · have hmem := List.getElem_mem hlt
      exact h.delivered_eq (List.getElem?_eq_getElem hlt) (h.settled_of_done hmem (hdone _ hmem))
    · rw [h.deliveredOf_eq_nil hge, Server.decoded, List.getElem?_eq_none hge]
      rfl

/-- Seen from one session, a run of the server is a run of that session. -/
theorem follows {acts : List ServerAct} (i : Nat) : ∀ {s : Server}, Decoding s →
    Along Server.step Harmless s acts → run Server.step s acts = some t →
      (∀ v, s.view i = some v → ∃ w, t.view i = some w ∧
        v.Follows (acts.filterMap (·.ofSession i)) w) ∧
        (s.view i = none → ∀ w, t.view i = some w →
          View.fresh.Follows (acts.filterMap (·.ofSession i)) w) := by
  induction acts with
  | nil =>
    intro s _ _ hrun
    obtain rfl := Option.some.inj hrun
    exact ⟨fun v hv => ⟨v, hv, rfl⟩, fun hnone w hw => by rw [hnone] at hw; cases hw⟩
  | cons a rest ih =>
    intro s h hharmless hrun
    obtain ⟨u, hu, hrest⟩ := run_cons_eq_some.1 hrun
    have hnext := step s a u h hharmless.1 hu
    have hevolves := Server.evolves_of_step h.unharmed.numbered hu hnext.unharmed.alive i
    obtain ⟨hsome, hnone⟩ := ih hnext (hharmless.2 u hu) hrest
    cases hact : a.ofSession i with
    | some act =>
      rw [List.filterMap_cons_some hact]
      rw [hact] at hevolves
      obtain ⟨v', w', hv', hw', hmove⟩ := hevolves
      refine ⟨fun v hv => ?_, fun hv => absurd (hv.symm.trans hv') nofun⟩
      obtain ⟨w, hw, hfollows⟩ := hsome w' hw'
      obtain rfl := Option.some.inj (hv.symm.trans hv')
      exact ⟨w, hw, w', hmove, hfollows⟩
    | none =>
      rw [List.filterMap_cons_none hact]
      rw [hact] at hevolves
      obtain hsame | ⟨hbefore, hstart⟩ := hevolves
      · rw [hsame] at hsome hnone
        exact ⟨hsome, hnone⟩
      · refine ⟨fun v hv => absurd (hbefore.symm.trans hv) nofun, fun _ w hw => ?_⟩
        obtain ⟨w', hw', hfollows⟩ := hsome _ hstart
        exact Option.some.inj (hw'.symm.trans hw) ▸ hfollows

end Decoding

/-- Two runs in which the same things happen to a connection, or in which the same bytes have been received on it and are dealt with, have delivered the same sequence for it. -/
def SameDelivery (acts acts' : List ServerAct) (s s' : Server) : Prop :=
  ∀ i j c c', s.connections[i]? = some c → s'.connections[j]? = some c' →
    (acts.filterMap (·.ofSession i) = acts'.filterMap (·.ofSession j) ∨ s.Done c ∧ s'.Done c' ∧
      c.received = c'.received) →
    s.deliveredOf i = s'.deliveredOf j

/-- **When sessions do not interfere.** In every run whose headers are not negative and whose notifications return, each connection delivers the decoding of its own bytes, all of them once nothing will be handled any more, and the server is notified of an interleaving of these; an error removes the session it belongs to and no other; and two such runs deliver the same for a connection to which the same happens, however the connections are interleaved. -/
theorem isolated_of_harmless {returns : List Str → Bool} {acts : List ServerAct} {s : Server}
    (hharmless : Along Server.step Harmless (.init returns) acts)
    (hrun : run Server.step (.init returns) acts = some s) :
    Isolated s ∧ Along Server.step RemovesFailed (.init returns) acts ∧
      ∀ returns' acts' s', Along Server.step Harmless (.init returns') acts' →
        run Server.step (.init returns') acts' = some s' → SameDelivery acts acts' s s' := by
  have h : Decoding s := invariant_along Decoding Harmless Decoding.step (.init returns)
    hharmless hrun
  refine ⟨h.isolated, hharmless.imp (fun s a h _ => removesFailed h.unharmed.numbered a)
    Decoding.step (.init returns), fun returns' acts' s' hharmless' hrun' i j c c' hc hc' hsame => ?_⟩
  have h' : Decoding s' := invariant_along Decoding Harmless Decoding.step (.init returns')
    hharmless' hrun'
  obtain hacts | ⟨hdone, hdone', hreceived⟩ := hsame
  · have hfollows := (Decoding.follows i (.init returns) hharmless hrun).2
      rfl _ (Server.view_of_getElem? hc)
    have hfollows' := (Decoding.follows j (.init returns') hharmless' hrun').2
      rfl _ (Server.view_of_getElem? hc')
    rw [hacts] at hfollows
    exact congrArg View.delivered (hfollows.unique hfollows')
  · rw [h.delivered_eq hc (h.settled_of_done (List.mem_of_getElem? hc) hdone),
      h'.delivered_eq hc' (h'.settled_of_done (List.mem_of_getElem? hc') hdone'), Server.decoded,
      Server.decoded, hc, hc']
    exact congrArg decode hreceived

/-- Two connections whose frames arrive in turns; the first breaks in the middle of its second frame. -/
def inTurns : List ServerAct :=
  [.startThread, .doAccept, .enterRun, .acceptCompletes 0 true, .acceptHandler 0,
    .acceptCompletes 0 true, .acceptHandler 0, .arrive 0 (ascii "0000"),
    .arrive 1 (ascii "00000001b"), .readCompletes 1 0, .arrive 0 (ascii "0001a000"),
    .readCompletes 0 0, .readHandler 1 0, .readHandler 0 0, .readCompletes 0 0, .readCompletes 1 0,
    .readHandler 1 0, .readHandler 0 0, .reset 0, .readCompletes 0 0, .readHandler 0 0]

theorem isolated_of_harmless_inTurns :
    ∃ s, run Server.step (.init receptive) inTurns = some s ∧
      s.notified = [(1, ascii "b"), (0, ascii "a")] ∧
      s.sessions = [1] ∧ Isolated s := by
  obtain ⟨s, hrun, hp⟩ := exists_of_any_run Server.step (.init receptive) inTurns
    (fun s => decide (s.notified = [(1, ascii "b"), (0, ascii "a")] ∧ s.sessions = [1]))
      (by decide +kernel)
  obtain ⟨hnotified, hsessions⟩ := of_decide_eq_true hp
  exact ⟨s, hrun, hnotified, hsessions, (isolated_of_harmless (by decide +kernel) hrun).1⟩

/-- A server with one subscriber that prints. -/
def printing : List Str → Bool := notifies (Tree.library (.int 3) three) utc 0 false [[]]

/-- Two connections, the one with the text `3`, the other with the text `b`. -/
def twoSenders : List ServerAct :=
  [.startThread, .doAccept, .enterRun, .acceptCompletes 0 true, .acceptHandler 0,
    .acceptCompletes 0 true, .acceptHandler 0, .arrive 0 (ascii "000000013"),
    .arrive 1 (ascii "00000001b")]

/-- The reads of a frame on a connection, with their handlers. -/
def readFrame (i : Nat) : List ServerAct :=
  [.readCompletes i 0, .readHandler i 0, .readCompletes i 0, .readHandler i 0]

/-- What the one connection has sent is handled before the other's, and the other way round. -/
def threeFirst : List ServerAct := twoSenders ++ readFrame 0 ++ [.readCompletes 1 0]

def threeLast : List ServerAct := twoSenders ++ readFrame 1 ++ readFrame 0

/-- No header is negative, and what the one connection delivers depends on the other. -/
theorem three_stops_other_session :
    ∃ s s', run Server.step (.init printing) threeFirst = some s ∧
      run Server.step (.init printing) threeLast = some s' ∧
      Along Server.step NonNegativeHeader (.init printing) threeFirst ∧
      Along Server.step NonNegativeHeader (.init printing) threeLast ∧ s.deliveredOf 1 = [] ∧
      s'.deliveredOf 1 = [ascii "b"] ∧ ¬ Isolated s ∧ ¬ SameDelivery threeFirst threeLast s s' := by
  obtain ⟨s, hrun, hp⟩ := exists_of_any_run Server.step (.init printing) threeFirst
    (fun s => decide (s.ioThread = .terminated ∧ s.deliveredOf 1 = [] ∧ s.decoded 1 = [ascii "b"] ∧
      s.connections[1]?.map Session.received = some (ascii "00000001b"))) (by decide +kernel)
  obtain ⟨s', hrun', hp'⟩ := exists_of_any_run Server.step (.init printing) threeLast
    (fun s => decide (s.ioThread = .terminated ∧ s.deliveredOf 1 = [ascii "b"] ∧
      s.connections[1]?.map Session.received = some (ascii "00000001b"))) (by decide +kernel)
  obtain ⟨hio, hdelivered, hdecoded, hreceived⟩ := of_decide_eq_true hp
  obtain ⟨hio', hdelivered', hreceived'⟩ := of_decide_eq_true hp'
  obtain ⟨c, hc, hbytes⟩ := Option.map_eq_some_iff.1 hreceived
  obtain ⟨c', hc', hbytes'⟩ := Option.map_eq_some_iff.1 hreceived'
  refine ⟨s, s', hrun, hrun', by decide +kernel, by decide +kernel, hdelivered, hdelivered',
    fun hisolated => ?_, fun hsame => ?_⟩
  · have heq := hisolated.delivered_eq 1 c hc (.inr (.inr hio))
    rw [hdelivered, hdecoded] at heq
    cases heq
  · have heq := hsame 1 1 c c' hc hc'
      (.inr ⟨.inr (.inr hio), .inr (.inr hio'), hbytes.trans hbytes'.symm⟩)
    rw [hdelivered, hdelivered'] at heq
    cases heq

end Libesf.Log

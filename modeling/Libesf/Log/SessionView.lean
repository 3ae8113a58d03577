import Libesf.Log.Server

/-!
# What the server does to one session

A session shares the event loop, the set of sessions and the server's callback with the others. Seen from one session, a run of the server is a run of that session alone: every step is one of its own, or does not concern it. An invariant of a session on its own is therefore one of every session of every server, as long as nothing ends the process.
-/

namespace Libesf.Log

open Transition

/-- The steps of the server that are about one session. -/
inductive SessionAct where
  | arrive (bytes : Str)
  | disconnect
  | reset
  | completes (k : Nat)
  | handler (k : Nat)
  deriving DecidableEq, Repr

/-- The step, if it is one of session `i`. -/
def ServerAct.ofSession (i : Nat) : ServerAct → Option SessionAct
  | arrive j bytes => if j = i then some (.arrive bytes) else none
  | disconnect j => if j = i then some .disconnect else none
  | reset j => if j = i then some .reset else none
  | readCompletes j k => if j = i then some (.completes k) else none
  | readHandler j k => if j = i then some (.handler k) else none
  | _ => none

/-- A session as seen from outside: its state, what its handlers have passed to the server, and whether it is in the set. -/
structure View where
  session : Session
  delivered : List Str
  member : Bool

namespace View

/-- A session that has just been started. -/
def fresh : View := ⟨Session.doReadHeader ⟨true, [], [], []⟩, [], true⟩

/-- What can happen to a session. -/
inductive Move (v : View) : SessionAct → View → Prop where
  | arrive (bytes : Str) (hconnected : v.session.connected = true) :
      Move v (.arrive bytes) { v with
        session := { v.session with inbox := v.session.inbox ++ bytes } }
  | disconnect : Move v .disconnect { v with session := { v.session with connected := false } }
  | reset (hreads : v.session.reads ≠ []) :
      Move v .reset { v with session := { v.session with connected := false, inbox := [] } }
  | readSucceeds (k : Nat) (op : Read) (hop : v.session.reads[k]? = some op)
      (hpending : op.result = none)
      (hsize : op.awaiting.size ≤ v.session.inbox.length) :
      Move v (.completes k) { v with
        session := { v.session with
          reads := v.session.reads.set k { op with
            result := some (some (v.session.inbox.take op.awaiting.size)) }
          inbox := v.session.inbox.drop op.awaiting.size } }
  | readFails (k : Nat) (op : Read) (hop : v.session.reads[k]? = some op)
      (hpending : op.result = none)
      (hsize : v.session.inbox.length < op.awaiting.size) (hconnected : v.session.connected = false) :
      Move v (.completes k)
        { v with
          session := { v.session with
            reads := v.session.reads.set k { op with result := some none } } }
  | header (k : Nat) (op : Read) (header : Str) (hop : v.session.reads[k]? = some op)
      (hawaiting : op.awaiting = .header)
      (hdecided : op.result = some (some header)) (hsize : Server.sizeOfHeader header ≤ maxSize) :
      Move v (.handler k)
        { v with
          session := (v.session.handle k (some header)).doReadMessage (Server.sizeOfHeader header) }
  | message (k n : Nat) (op : Read) (msg : Str) (hop : v.session.reads[k]? = some op)
      (hawaiting : op.awaiting = .message n)
      (hdecided : op.result = some (some msg)) :
      Move v (.handler k)
        { v with
          session := (v.session.handle k (some msg)).doReadHeader, delivered := v.delivered ++ [msg] }
  | failed (k : Nat) (op : Read) (hop : v.session.reads[k]? = some op)
      (hdecided : op.result = some none) :
      Move v (.handler k) { v with session := v.session.handle k none, member := false }

/-- What happens to a session determines what becomes of it. -/
theorem Move.unique {v w w' : View} {act : SessionAct} (h : v.Move act w) (h' : v.Move act w') :
    w = w' := by
  cases h with
  | arrive bytes hconnected => cases h'; rfl
  | disconnect => cases h'; rfl
  | reset hreads => cases h'; rfl
  | readSucceeds k op hop hpending hsize =>
    cases h' with
    | readSucceeds _ op' hop' _ _ => rw [Option.some.inj (hop.symm.trans hop')]
    | readFails _ op' hop' _ hsize' _ =>
      rw [Option.some.inj (hop.symm.trans hop')] at hsize
      omega
  | readFails k op hop hpending hsize hconnected =>
    cases h' with
    | readSucceeds _ op' hop' _ hsize' =>
      rw [Option.some.inj (hop.symm.trans hop')] at hsize
      omega
    | readFails _ op' hop' _ _ _ => rw [Option.some.inj (hop.symm.trans hop')]
  | header k op header hop hawaiting hdecided hsize =>
    cases h' with
    | header _ op' header' hop' _ hdecided' _ =>
      rw [Option.some.inj (hop.symm.trans hop'), hdecided'] at hdecided
      rw [Option.some.inj (Option.some.inj hdecided)]
    | message _ n op' msg hop' hawaiting' _ =>
      rw [Option.some.inj (hop.symm.trans hop'), hawaiting'] at hawaiting
      cases hawaiting
    | failed _ op' hop' hdecided' =>
      rw [Option.some.inj (hop.symm.trans hop'), hdecided'] at hdecided
      cases hdecided
  | message k n op msg hop hawaiting hdecided =>
    cases h' with
    | header _ op' header hop' hawaiting' _ _ =>
      rw [Option.some.inj (hop.symm.trans hop'), hawaiting'] at hawaiting
      cases hawaiting
    | message _ n' op' msg' hop' _ hdecided' =>
      rw [Option.some.inj (hop.symm.trans hop'), hdecided'] at hdecided
      rw [Option.some.inj (Option.some.inj hdecided)]
    | failed _ op' hop' hdecided' =>
      rw [Option.some.inj (hop.symm.trans hop'), hdecided'] at hdecided
      cases hdecided
  | failed k op hop hdecided =>
    cases h' with
    | header _ op' header hop' _ hdecided' _ =>
      rw [Option.some.inj (hop.symm.trans hop'), hdecided'] at hdecided
      cases hdecided
    | message _ n op' msg hop' _ hdecided' =>
      rw [Option.some.inj (hop.symm.trans hop'), hdecided'] at hdecided
      cases hdecided
    | failed _ op' hop' _ => rfl

/-- A run of a session. -/
def Follows : View → List SessionAct → View → Prop
  | v, [], w => v = w
  | v, act :: rest, w => ∃ u, v.Move act u ∧ Follows u rest w

theorem Follows.unique {v w w' : View} {acts : List SessionAct} (h : Follows v acts w)
    (h' : Follows v acts w') : w = w' := by
  induction acts generalizing v with
  | nil => exact h.symm.trans h'
  | cons act rest ih =>
    obtain ⟨u, hu, hrest⟩ := h
    obtain ⟨u', hu', hrest'⟩ := h'
    rw [hu.unique hu'] at hrest
    exact ih hrest hrest'

end View

namespace Server

variable {s t : Server}

/-- The data strings session `i` has passed to `M_notifyMessageReceived`. -/
def deliveredOf (s : Server) (i : Nat) : List Str := (s.notified.filter (·.1 = i)).map Prod.snd

def view (s : Server) (i : Nat) : Option View :=
  s.connections[i]?.map fun c => ⟨c, s.deliveredOf i, decide (i ∈ s.sessions)⟩

/-- Sessions are known by their numbers. -/
structure Numbered (s : Server) : Prop where
  sessions : ∀ i ∈ s.sessions, i < s.connections.length
  nodup : s.sessions.Nodup
  notified : ∀ entry ∈ s.notified, entry.1 < s.connections.length

@[simp] theorem view_checkWork (s : Server) (i : Nat) : s.checkWork.view i = s.view i := by
  rw [checkWork]
  split <;> rfl

theorem view_eq {i : Nat} {c : Session} {member : Bool} (hc : s.connections[i]? = some c)
    (hmember : i ∈ s.sessions ↔ member = true) : s.view i = some ⟨c, s.deliveredOf i, member⟩ := by
  rw [view, hc, Option.map_some, Bool.decide_congr hmember, Bool.decide_coe]

theorem view_of_getElem? {i : Nat} {c : Session} (hc : s.connections[i]? = some c) :
    s.view i = some ⟨c, s.deliveredOf i, decide (i ∈ s.sessions)⟩ :=
  view_eq hc decide_eq_true_iff.symm

theorem view_setSession_self {i : Nat} {c : Session} (hc : s.connections[i]? = some c)
    (c' : Session) :
    (s.setSession i c').view i = some ⟨c', s.deliveredOf i, decide (i ∈ s.sessions)⟩ :=
  view_of_getElem? (List.getElem?_set_self (List.getElem?_eq_some_iff.1 hc).1)

theorem view_setSession_of_ne {i j : Nat} (hne : j ≠ i) (c' : Session) :
    (s.setSession i c').view j = s.view j := by
  rw [view, setSession, List.getElem?_set_ne hne.symm]
  rfl

theorem view_erase_self (hs : s.sessions.Nodup) {i : Nat} {c : Session}
    (hc : s.connections[i]? = some c) : (s.erase i).view i = some ⟨c, s.deliveredOf i, false⟩ :=
  view_eq hc ⟨fun h => absurd rfl (hs.mem_erase_iff.1 h).1, nofun⟩

theorem view_erase_of_ne {i j : Nat} (hne : j ≠ i) : (s.erase i).view j = s.view j := by
  have hmem : j ∈ s.sessions.erase i ↔ j ∈ s.sessions := List.mem_erase_of_ne hne
  simp only [view, erase, deliveredOf, hmem]

/-- The handler of a read that has failed. -/
theorem view_erase_setSession (hs : s.sessions.Nodup) {i : Nat} {c : Session}
    (hc : s.connections[i]? = some c) (c' : Session) :
    ((s.setSession i c').erase i).view i = some ⟨c', s.deliveredOf i, false⟩ :=
  view_erase_self (s := s.setSession i c') hs
    (List.getElem?_set_self (List.getElem?_eq_some_iff.1 hc).1)

theorem view_start_self (h : Numbered s) : s.start.view s.connections.length = some .fresh := by
  have hnone : s.start.deliveredOf s.connections.length = [] := by
    rw [deliveredOf, List.map_eq_nil_iff, List.filter_eq_nil_iff]
    intro entry hentry heq
    exact absurd (h.notified entry hentry) (by rw [of_decide_eq_true heq]; exact lt_irrefl _)
  have hmember : s.connections.length ∈ s.start.sessions :=
    List.mem_append_right _ (List.mem_singleton_self _)
  rw [view_eq (s := s.start) List.getElem?_concat_length (iff_of_true hmember rfl), hnone]
  rfl

theorem view_start_of_ne {i : Nat} (hne : i ≠ s.connections.length) : s.start.view i = s.view i := by
  have hmem : i ∈ s.sessions ++ [s.connections.length] ↔ i ∈ s.sessions := by
    rw [List.mem_append, List.mem_singleton, or_iff_left hne]
  have hget : (s.connections ++ [Session.doReadHeader ⟨true, [], [], []⟩])[i]? =
      s.connections[i]? := by
    rcases lt_or_ge i s.connections.length with hlt | hge
    · exact List.getElem?_append_left hlt
    · rw [List.getElem?_eq_none (by rw [List.length_append, List.length_singleton]; omega),
        List.getElem?_eq_none hge]
  simp only [view, start, deliveredOf, hmem, hget]

theorem view_notify_of_ne {i j : Nat} (hne : j ≠ i) (msg : Str) :
    (s.notify i msg).view j = s.view j := by
  simp only [view, notify, deliveredOf, List.filter_append, List.filter_singleton, hne.symm,
    decide_false, cond_false, List.append_nil]
  rfl

theorem deliveredOf_notify (i : Nat) (msg : Str) :
    (s.notify i msg).deliveredOf i = s.deliveredOf i ++ [msg] := by
  rw [deliveredOf, notify, List.filter_append, List.map_append]
  simp [deliveredOf]

/-! ### Projection -/

@[simp] theorem connections_checkWork (s : Server) : s.checkWork.connections = s.connections := by
  rw [checkWork]
  split <;> rfl

@[simp] theorem sessions_checkWork (s : Server) : s.checkWork.sessions = s.sessions := by
  rw [checkWork]
  split <;> rfl

@[simp] theorem accepts_checkWork (s : Server) : s.checkWork.accepts = s.accepts := by
  rw [checkWork]
  split <;> rfl

/-- As long as an accept is outstanding, `run` does not return. -/
theorem checkWork_eq_self (haccepts : s.accepts ≠ []) : s.checkWork = s := by
  have hbusy : ¬ (s.ioThread = .running ∧ s.idle = true) := by
    rintro ⟨-, hidle⟩
    rw [idle, Bool.and_eq_true, List.isEmpty_iff] at hidle
    exact haccepts hidle.1
  rw [checkWork, if_neg hbusy]

theorem ioThread_checkWork_ne_terminated :
    s.checkWork.ioThread ≠ .terminated ↔ s.ioThread ≠ .terminated := by
  rw [checkWork]
  split
  · next hidle =>
      exact iff_of_true (show IoThread.returned ≠ .terminated by decide) (hidle.1 ▸ by decide)
  · exact Iff.rfl

/-- A handler of session `i` moves its view. -/
theorem view_readHandler_self (hs : s.sessions.Nodup) {i k : Nat} {c : Session} {op : Read}
    {data : Option Str} (hc : s.connections[i]? = some c) (hop : c.reads[k]? = some op)
    (hdecided : op.result = some data)
    (halive : (s.readHandler i (c.handle k data) op.awaiting data).ioThread ≠ .terminated) :
    ∃ w, (s.readHandler i (c.handle k data) op.awaiting data).view i = some w ∧
      View.Move ⟨c, s.deliveredOf i, decide (i ∈ s.sessions)⟩ (.handler k) w := by
  cases hawaiting : op.awaiting with
  | header =>
    cases data with
    | none => exact ⟨_, view_erase_setSession hs hc _, .failed k op hop hdecided⟩
    | some header =>
      rw [hawaiting] at halive
      change (s.headerHandler i _ (some header)).ioThread ≠ _ at halive
      change ∃ w, (s.headerHandler i _ (some header)).view i = some w ∧ _
      rw [headerHandler] at halive ⊢
      by_cases hsize : maxSize < sizeOfHeader header
      · rw [if_pos hsize] at halive
        exact absurd rfl halive
      · rw [if_neg hsize]
        exact ⟨_, view_setSession_self hc _,
          .header k op header hop hawaiting hdecided (not_lt.1 hsize)⟩
  | message n =>
    cases data with
    | none => exact ⟨_, view_erase_setSession hs hc _, .failed k op hop hdecided⟩
    | some msg =>
      rw [hawaiting] at halive
      change (s.messageHandler i _ (some msg)).ioThread ≠ _ at halive
      change ∃ w, (s.messageHandler i _ (some msg)).view i = some w ∧ _
      rw [messageHandler] at halive ⊢
      by_cases hreturns : s.notificationReturns msg = true
      · rw [if_pos hreturns]
        have hget :
            ((s.setSession i (c.handle k (some msg)).doReadHeader).notify i msg).connections[i]? =
              some (c.handle k (some msg)).doReadHeader :=
          List.getElem?_set_self (List.getElem?_eq_some_iff.1 hc).1
        refine ⟨_, view_of_getElem? hget, ?_⟩
        rw [deliveredOf_notify]
        exact .message k n op msg hop hawaiting hdecided
      · rw [if_neg hreturns] at halive
        exact absurd rfl halive

theorem view_readHandler_of_ne {i j : Nat} (hne : j ≠ i) (c : Session) (awaiting : Awaiting)
    (data : Option Str) : (s.readHandler i c awaiting data).view j = s.view j := by
  refine s.readHandler_cases i c awaiting data (fun _ => ?_) (fun header _ _ _ => ?_)
    (fun header _ _ _ => ?_)
    (fun n msg _ _ _ => ?_) (fun n msg _ _ _ => ?_)
  · exact (view_erase_of_ne hne).trans (view_setSession_of_ne hne c)
  · exact view_setSession_of_ne hne c
  · exact view_setSession_of_ne hne _
  · exact (view_notify_of_ne hne msg).trans (view_setSession_of_ne hne _)
  · exact (view_notify_of_ne (s := s.setSession i c) hne msg).trans (view_setSession_of_ne hne _)

/-- A step of the session moves its view, any other leaves it alone or starts it. -/
def Evolves (act : Option SessionAct) (v w : Option View) : Prop :=
  match act with
  | some act => ∃ v' w', v = some v' ∧ w = some w' ∧ v'.Move act w'
  | none => w = v ∨ v = none ∧ w = some .fresh

/-- A step of session `i` that changes nothing but that session. -/
theorem evolves_setSession {i : Nat} {c c' : Session} {a : ServerAct} {act : SessionAct}
    (hc : s.connections[i]? = some c) (ha : ∀ j, a.ofSession j = if i = j then some act else none)
    (hmove : View.Move ⟨c, s.deliveredOf i, decide (i ∈ s.sessions)⟩ act
      ⟨c', s.deliveredOf i, decide (i ∈ s.sessions)⟩)
    (j : Nat) : Evolves (a.ofSession j) (s.view j) ((s.setSession i c').view j) := by
  rw [ha]
  by_cases hj : i = j
  · subst hj
    rw [if_pos rfl]
    exact ⟨_, _, view_of_getElem? hc, view_setSession_self hc c', hmove⟩
  · rw [if_neg hj]
    exact .inl (view_setSession_of_ne (Ne.symm hj) c')

theorem evolves_of_step (h : Numbered s) {a : ServerAct} (hstep : s.step a = some t)
    (halive : t.ioThread ≠ .terminated) (j : Nat) :
    Evolves (a.ofSession j) (s.view j) (t.view j) := by
  cases move_of_step hstep with
  | startThread hconstruction => exact .inl rfl
  | doAccept hconstruction => exact .inl rfl
  | enterRun hio => exact .inl (view_checkWork _ j)
  | acceptCompletes k ok hpending => exact .inl rfl
  | acceptHandler k ok hio hdecided =>
    rw [view_checkWork, acceptHandler]
    split
    · by_cases hj : j = s.connections.length
      · have hnone : s.view j = none := by
          rw [view, List.getElem?_eq_none (by rw [hj])]
          rfl
        subst hj
        exact .inr ⟨hnone, view_start_self (s := { s with accepts := _ })
          ⟨h.sessions, h.nodup, h.notified⟩⟩
      · exact .inl (view_start_of_ne (s := { s with accepts := _ }) hj)
    · exact .inl rfl
  | arrive i bytes c hc hconnected =>
    exact evolves_setSession hc (fun _ => rfl) (.arrive bytes hconnected) j
  | disconnect i c hc => exact evolves_setSession hc (fun _ => rfl) .disconnect j
  | reset i c hc hreads => exact evolves_setSession hc (fun _ => rfl) (.reset hreads) j
  | readSucceeds i k c op hc hop hpending hsize =>
    exact evolves_setSession hc (fun _ => rfl) (.readSucceeds k op hop hpending hsize) j
  | readFails i k c op hc hop hpending hsize hconnected =>
    exact evolves_setSession hc (fun _ => rfl) (.readFails k op hop hpending hsize hconnected) j
  | readHandler i k c op data hio hc hop hdecided =>
    rw [ioThread_checkWork_ne_terminated] at halive
    rw [view_checkWork, ServerAct.ofSession]
    by_cases hj : i = j
    · subst hj
      rw [if_pos rfl]
      obtain ⟨w, hw, hmove⟩ := view_readHandler_self h.nodup hc hop hdecided halive
      exact ⟨_, w, view_of_getElem? hc, hw, hmove⟩
    · rw [if_neg hj]
      exact .inl (view_readHandler_of_ne (Ne.symm hj) _ _ _)

/-! ### Invariants of a session -/

namespace Numbered

theorem setSession (h : Numbered s) (i : Nat) (c : Session) : Numbered (s.setSession i c) where
  sessions j hj := by
    rw [Server.setSession, List.length_set]
    exact h.sessions j hj
  nodup := h.nodup
  notified entry hentry := by
    rw [Server.setSession, List.length_set]
    exact h.notified entry hentry

theorem erase (h : Numbered s) (i : Nat) : Numbered (s.erase i) where
  sessions j hj := h.sessions j (List.mem_of_mem_erase hj)
  nodup := h.nodup.erase i
  notified := h.notified

theorem start (h : Numbered s) : Numbered s.start where
  sessions i hi := by
    rw [Server.start, List.length_append, List.length_singleton]
    obtain hold | hnew := List.mem_append.1 hi
    · exact Nat.lt_succ_of_lt (h.sessions i hold)
    · rw [List.mem_singleton.1 hnew]
      exact Nat.lt_succ_self _
  nodup := by
    rw [Server.start, List.nodup_append]
    refine ⟨h.nodup, List.nodup_singleton _, fun i hi j hj heq => ?_⟩
    rw [heq, List.mem_singleton.1 hj] at hi
    exact absurd (h.sessions _ hi) (lt_irrefl _)
  notified entry hentry := by
    rw [Server.start, List.length_append, List.length_singleton]
    exact Nat.lt_succ_of_lt (h.notified entry hentry)

theorem checkWork (h : Numbered s) : Numbered s.checkWork := by
  rw [Server.checkWork]
  split
  · exact ⟨h.sessions, h.nodup, h.notified⟩
  · exact h

theorem notify (h : Numbered s) {i : Nat} (hi : i < s.connections.length) (msg : Str) :
    Numbered (s.notify i msg) := by
  refine ⟨h.sessions, h.nodup, fun entry hentry => ?_⟩
  obtain hold | hnew := List.mem_append.1 hentry
  · exact h.notified entry hold
  · rw [List.mem_singleton.1 hnew]
    exact hi

theorem readHandler (h : Numbered s) {i : Nat} (hi : i < s.connections.length) (c : Session)
    (awaiting : Awaiting) (data : Option Str) : Numbered (s.readHandler i c awaiting data) := by
  refine s.readHandler_cases i c awaiting data (fun _ => ?_) (fun header _ _ _ => ?_)
    (fun header _ _ _ => ?_)
    (fun n msg _ _ _ => ?_) (fun n msg _ _ _ => ?_)
  · exact (h.setSession i c).erase i
  · exact ⟨(h.setSession i c).sessions, h.nodup, (h.setSession i c).notified⟩
  · exact h.setSession i _
  · exact (h.setSession i c.doReadHeader).notify (lt_of_lt_of_eq hi List.length_set.symm) msg
  · have hnotify := (h.setSession i c).notify (lt_of_lt_of_eq hi List.length_set.symm) msg
    exact ⟨hnotify.sessions, hnotify.nodup, hnotify.notified⟩

end Numbered

theorem numbered_init (returns : List Str → Bool) : Numbered (init returns) :=
  ⟨nofun, List.nodup_nil, nofun⟩

theorem numbered_step (s : Server) (a : ServerAct) (t : Server) (h : Numbered s)
    (hstep : s.step a = some t) : Numbered t := by
  cases move_of_step hstep with
  | startThread hconstruction => exact ⟨h.sessions, h.nodup, h.notified⟩
  | doAccept hconstruction => exact ⟨h.sessions, h.nodup, h.notified⟩
  | enterRun hio =>
    apply Numbered.checkWork
    exact ⟨h.sessions, h.nodup, h.notified⟩
  | acceptCompletes k ok hpending => exact ⟨h.sessions, h.nodup, h.notified⟩
  | acceptHandler k ok hio hdecided =>
    have herased : Numbered { s with accepts := s.accepts.eraseIdx k } :=
      ⟨h.sessions, h.nodup, h.notified⟩
    apply Numbered.checkWork
    rw [acceptHandler]
    split
    · exact ⟨herased.start.sessions, herased.start.nodup, herased.start.notified⟩
    · exact herased
  | arrive i bytes c hc hconnected => exact h.setSession i _
  | disconnect i c hc => exact h.setSession i _
  | reset i c hc hreads => exact h.setSession i _
  | readSucceeds i k c op hc hop hpending hsize => exact h.setSession i _
  | readFails i k c op hc hop hpending hsize hconnected => exact h.setSession i _
  | readHandler i k c op data hio hc hop hdecided =>
    exact (h.readHandler (List.getElem?_eq_some_iff.1 hc).1 _ _ _).checkWork

/-- What a session keeps on its own, every session of the server keeps, as long as nothing ends the process. -/
theorem view_invariant {I : View → Prop} (hfresh : I .fresh)
    (hmove : ∀ v act w, I v → v.Move act w → I w) (hI : ∀ i v, s.view i = some v → I v)
    (h : Numbered s) {a : ServerAct} (hstep : s.step a = some t)
    (halive : t.ioThread ≠ .terminated) : ∀ i v, t.view i = some v → I v := by
  intro i v hv
  have hevolves := evolves_of_step h hstep halive i
  cases hact : a.ofSession i with
  | some act =>
    rw [hact] at hevolves
    obtain ⟨v', w', hv', hw', hvw⟩ := hevolves
    rw [Option.some.inj (hv.symm.trans hw')]
    exact hmove v' act w' (hI i v' hv') hvw
  | none =>
    rw [hact] at hevolves
    obtain hsame | ⟨-, hstart⟩ := hevolves
    · exact hI i v (hsame ▸ hv)
    · rw [Option.some.inj (hv.symm.trans hstart)]
      exact hfresh

end Server

end Libesf.Log

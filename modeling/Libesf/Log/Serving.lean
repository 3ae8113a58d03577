import Libesf.Log.HeaderRange

/-!
# The server keeps serving

`run` goes on as long as something is outstanding, so that the server lives on one `async_accept` that is always asked for again and on sessions that read or leave. Four things can stop it: the I/O thread enters `run` before the constructor has asked for the first connection, an accept fails and its handler does not ask again, the exception of a negative header, and a message whose notification does not return.
-/

namespace Libesf.Log

open Transition

/-- What clients rely on once the constructor has returned: the I/O thread has not left `run`, the next connection is being waited for, and exactly the sessions in the set are read from. -/
structure Serves (s : Server) : Prop where
  running : s.ioThread = .created ∨ s.ioThread = .running
  accept : s.accepts.length = 1
  session : ∀ i ∈ s.sessions, ∃ c, s.connections[i]? = some c ∧ c.reads.length = 1
  other : ∀ i c, s.connections[i]? = some c → i ∉ s.sessions → c.reads = []

/-- An accept that fails. -/
def ServerAct.acceptError : ServerAct → Bool
  | acceptCompletes _ ok => !ok
  | _ => false

/-- The step does not stop the server. -/
def Sustains (s : Server) (a : ServerAct) : Prop :=
  (a = .enterRun → s.construction = .returned) ∧ a.acceptError = false ∧ Harmless s a

instance (s : Server) (a : ServerAct) : Decidable (Sustains s a) :=
  inferInstanceAs
    (Decidable ((a = .enterRun → s.construction = .returned) ∧ a.acceptError = false ∧ Harmless s a))

/-- A session in the set has one read outstanding, any other none. -/
def OneRead (v : View) : Prop := v.session.reads.length = if v.member then 1 else 0

namespace OneRead

variable {v w : View}

theorem length_eraseIdx (h : OneRead v) {k : Nat} {op : Read} (hop : v.session.reads[k]? = some op) :
    v.member = true ∧ (v.session.reads.eraseIdx k).length = 0 := by
  have hlt := (List.getElem?_eq_some_iff.1 hop).1
  rw [OneRead] at h
  rw [List.length_eraseIdx_of_lt hlt]
  split at h
  · next hmember => exact ⟨hmember, by omega⟩
  · omega

theorem move (h : OneRead v) {act : SessionAct} (hmove : v.Move act w) : OneRead w := by
  cases hmove with
  | readSucceeds k op hop hpending hsize => exact List.length_set.trans h
  | readFails k op hop hpending hsize hconnected => exact List.length_set.trans h
  | header k op header hop hawaiting hdecided hsize =>
    obtain ⟨hmember, hlength⟩ := h.length_eraseIdx hop
    change (v.session.reads.eraseIdx k ++ [_]).length = if v.member then 1 else 0
    rw [List.length_append, hlength, hmember]
    rfl
  | message k n op msg hop hawaiting hdecided =>
    obtain ⟨hmember, hlength⟩ := h.length_eraseIdx hop
    change (v.session.reads.eraseIdx k ++ [_]).length = if v.member then 1 else 0
    rw [List.length_append, hlength, hmember]
    rfl
  | failed k op hop hdecided => exact (h.length_eraseIdx hop).2
  | _ => exact h

end OneRead

/-- What a server keeps that nothing stops. -/
structure Attending (s : Server) : Prop where
  unharmed : Unharmed s
  oneRead : ∀ i v, s.view i = some v → OneRead v
  before : s.construction ≠ .returned → s.accepts = [] ∧ s.ioThread ≠ .running
  created : s.construction ≠ .entered → s.ioThread ≠ .none
  looping : s.ioThread ≠ .returned
  accept : s.construction = .returned → s.accepts.length = 1
  accepted : some false ∉ s.accepts

namespace Attending

variable {s t : Server}

theorem serves (h : Attending s) (hreturned : s.construction = .returned) : Serves s where
  running := by
    have hcreated := h.created (by rw [hreturned]; nofun)
    have hlooping := h.looping
    have halive := h.unharmed.alive
    cases hio : s.ioThread with
    | created => exact .inl rfl
    | running => exact .inr rfl
    | none => exact absurd hio hcreated
    | returned => exact absurd hio hlooping
    | terminated => exact absurd hio halive
  accept := h.accept hreturned
  session i hi := by
    have hlt := h.unharmed.numbered.sessions i hi
    refine ⟨_, List.getElem?_eq_getElem hlt, ?_⟩
    have hone := h.oneRead i _ (Server.view_eq (List.getElem?_eq_getElem hlt) (iff_of_true hi rfl))
    exact hone
  other i c hc hi := List.eq_nil_of_length_eq_zero
    (h.oneRead i _ (Server.view_eq hc (iff_of_false hi Bool.false_ne_true)))

theorem init (returns : List Str → Bool) : Attending (.init returns) :=
  ⟨.init returns, nofun, fun _ => ⟨rfl, nofun⟩, fun hnot => absurd rfl hnot, nofun, nofun,
    List.not_mem_nil⟩

theorem accepts_ne_nil (h : Attending s) (hreturned : s.construction = .returned) : s.accepts ≠ [] :=
  List.ne_nil_of_length_pos (by rw [h.accept hreturned]; exact Nat.one_pos)

theorem returned_of_running (h : Attending s) (hio : s.ioThread = .running) :
    s.construction = .returned := by
  by_contra hnot
  exact (h.before hnot).2 hio

/-- What neither the constructor nor the accept loop does leaves the rest to the sessions. -/
theorem of_session (h : Attending s) (hunharmed : Unharmed t)
    (honeRead : ∀ i v, t.view i = some v → OneRead v)
    (hconstruction : t.construction = s.construction) (haccepts : t.accepts = s.accepts)
    (hio : t.ioThread = s.ioThread) : Attending t where
  unharmed := hunharmed
  oneRead := honeRead
  before := by
    rw [hconstruction, haccepts, hio]
    exact h.before
  created := by
    rw [hconstruction, hio]
    exact h.created
  looping := by
    rw [hio]
    exact h.looping
  accept := by
    rw [hconstruction, haccepts]
    exact h.accept
  accepted := by
    rw [haccepts]
    exact h.accepted

theorem construction_readHandler (i : Nat) (c : Session) (awaiting : Awaiting) (data : Option Str) :
    (s.readHandler i c awaiting data).construction = s.construction :=
  s.readHandler_cases i c awaiting data (fun _ => rfl) (fun _ _ _ _ => rfl) (fun _ _ _ _ => rfl)
    (fun _ _ _ _ _ => rfl) (fun _ _ _ _ _ => rfl)

theorem accepts_readHandler (i : Nat) (c : Session) (awaiting : Awaiting) (data : Option Str) :
    (s.readHandler i c awaiting data).accepts = s.accepts :=
  s.readHandler_cases i c awaiting data (fun _ => rfl) (fun _ _ _ _ => rfl) (fun _ _ _ _ => rfl)
    (fun _ _ _ _ _ => rfl) (fun _ _ _ _ _ => rfl)

theorem step (s : Server) (a : ServerAct) (t : Server) (h : Attending s) (hsustains : Sustains s a)
    (hstep : s.step a = some t) : Attending t := by
  obtain ⟨henter, haccept, hharmless⟩ := hsustains
  have hunharmed := Unharmed.step s a t h.unharmed hharmless hstep
  have honeRead : ∀ i v, t.view i = some v → OneRead v :=
    Server.view_invariant (s := s) rfl
      (fun _ _ _ hv hmove => hv.move hmove) h.oneRead h.unharmed.numbered hstep
      hunharmed.alive
  cases Server.move_of_step hstep with
  | startThread hconstruction =>
    have haccepts := (h.before (by rw [hconstruction]; nofun)).1
    refine ⟨hunharmed, honeRead, fun _ => ⟨haccepts, nofun⟩, nofun, nofun, nofun, ?_⟩
    exact haccepts ▸ List.not_mem_nil
  | doAccept hconstruction =>
    have haccepts := (h.before (by rw [hconstruction]; nofun)).1
    have hcreated := h.created (by rw [hconstruction]; nofun)
    refine ⟨hunharmed, honeRead, fun hnot => absurd rfl hnot, fun _ => hcreated, h.looping,
      fun _ => ?_, ?_⟩
    · change (s.accepts ++ [none]).length = 1
      rw [haccepts]
      rfl
    · change some false ∉ s.accepts ++ [none]
      rw [haccepts]
      decide
  | enterRun hio =>
    have hreturned := henter rfl
    rw [Server.checkWork_eq_self (s := { s with ioThread := .running })
      (h.accepts_ne_nil hreturned)] at hunharmed honeRead ⊢
    exact ⟨hunharmed, honeRead, fun hnot => absurd hreturned hnot, nofun, nofun, h.accept, h.accepted⟩
  | acceptCompletes k ok hpending =>
    refine ⟨hunharmed, honeRead, fun hnot => ?_, h.created,
      h.looping, fun hreturned => ?_, fun hmem => ?_⟩
    · have hbefore := h.before hnot
      rw [hbefore.1] at hpending
      cases hpending
    · exact List.length_set.trans (h.accept hreturned)
    · obtain hold | hnew := List.mem_or_eq_of_mem_set hmem
      · exact h.accepted hold
      · rw [← Option.some.inj hnew] at haccept
        cases haccept
  | acceptHandler k ok hio hdecided =>
    have hreturned := h.returned_of_running hio
    have hrest : s.accepts.eraseIdx k = [] := by
      have hlength := List.length_eraseIdx_of_lt (List.getElem?_eq_some_iff.1 hdecided).1
      rw [h.accept hreturned] at hlength
      exact List.eq_nil_of_length_eq_zero hlength
    obtain rfl : ok = true := by
      by_contra hfailed
      rw [Bool.not_eq_true] at hfailed
      exact h.accepted (hfailed ▸ List.mem_of_getElem? hdecided)
    have haccepts : (Server.acceptHandler { s with accepts := s.accepts.eraseIdx k } true).accepts =
        [none] := by
      change s.accepts.eraseIdx k ++ [none] = [none]
      rw [hrest]
      rfl
    rw [Server.checkWork_eq_self
      (by rw [haccepts]; exact List.cons_ne_nil _ _)] at hunharmed honeRead ⊢
    refine ⟨hunharmed, honeRead, fun hnot => absurd hreturned hnot,
      h.created, h.looping, fun _ => ?_, ?_⟩
    · rw [haccepts]
      rfl
    · rw [haccepts]
      decide
  | readHandler i k c op data hio hc hop hdecided =>
    have hreturned := h.returned_of_running hio
    have haccepts : (s.readHandler i (c.handle k data) op.awaiting data).accepts = s.accepts :=
      accepts_readHandler i _ _ _
    rw [Server.checkWork_eq_self
      (by rw [haccepts]; exact h.accepts_ne_nil hreturned)] at hunharmed honeRead ⊢
    exact h.of_session hunharmed honeRead (construction_readHandler i _ _ _) haccepts
      (h.unharmed.ioThread_readHandler hc hop hdecided hharmless)
  | _ => exact h.of_session hunharmed honeRead rfl rfl rfl

end Attending

/-- **The server keeps serving.** In every run in which the I/O thread enters `run` after the constructor has asked for the first connection, no accept fails, no session is given a negative header and every notification returns, each state after the constructor's return has the loop running, one accept outstanding, one read for each session of the set and none for any other. -/
theorem serves_of_sustained {returns : List Str → Bool} {acts : List ServerAct}
    (hsustained : Along Server.step Sustains (.init returns) acts) :
    Always Server.step (fun s => s.construction = .returned → Serves s) (.init returns) acts :=
  always_of_along (fun _ h => h.serves) Attending.step (Attending.init returns) hsustained

/-- Two clients; the first is read from while the second connects, and leaves. -/
def twoClients : List ServerAct :=
  [.startThread, .doAccept, .enterRun, .acceptCompletes 0 true, .acceptHandler 0,
    .acceptCompletes 0 true, .arrive 0 (ascii "00000001"), .readCompletes 0 0, .acceptHandler 0,
    .readHandler 0 0, .arrive 0 (ascii "a"), .readCompletes 0 0, .readHandler 0 0, .disconnect 0,
    .readCompletes 0 0, .readHandler 0 0]

theorem serves_of_sustained_twoClients :
    ∃ s, run Server.step (.init receptive) twoClients = some s ∧ s.sessions = [1] ∧
      Always Server.step (fun s => s.construction = .returned → Serves s) (.init receptive)
        twoClients := by
  obtain ⟨s, hrun, hone⟩ :=
    exists_of_any_run Server.step (.init receptive) twoClients (fun s => s.sessions == [1])
    (by decide +kernel)
  exact ⟨s, hrun, by simpa using hone, serves_of_sustained (by decide +kernel)⟩

/-- The new thread is faster than the constructor, and finds nothing to wait for. -/
def threadFirst : List ServerAct := [.startThread, .enterRun, .doAccept, .acceptCompletes 0 true]

theorem threadFirst_stops_serving :
    ∃ s, run Server.step (.init receptive) threadFirst = some s ∧ s.construction = .returned ∧
      s.ioThread = .returned ∧
      ¬ Serves s := by
  obtain ⟨s, hrun, hp⟩ := exists_of_any_run Server.step (.init receptive) threadFirst
    (fun s => decide (s.construction = .returned ∧ s.ioThread = .returned)) (by decide +kernel)
  obtain ⟨hreturned, hio⟩ := of_decide_eq_true hp
  refine ⟨s, hrun, hreturned, hio, fun hserves => ?_⟩
  rcases hserves.running with h | h <;> rw [hio] at h <;> cases h

end Libesf.Log

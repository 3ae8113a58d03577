import Libesf.Ipc.HandOff

/-!
# The accounts of a buffer over endpoint lifetimes

When nothing is in progress on a shared buffer, one slot should be either free or filled. The conservation law of `Conservation` says what the two counters really add up to: one slot, and one more for every receiving endpoint that was destroyed, since the destructor's `sem_full.post()` stands for no message and the receive thread answers it with a `sem_empty.post()` all the same. So the accounts are right exactly as long as no receiving endpoint has been destroyed.
-/

namespace Libesf.Ipc

open Transition

variable {Msg : Type} {serialize : Msg → Except Exception Str}

/-- No send, no receive iteration and no destructor is in progress, and every send has succeeded. -/
structure Quiescent (c : Channel Msg) : Prop where
  sends : ∀ pc ∈ c.sends, pc = .returned
  receiver : c.receiver = none ∨ c.receiver = some .waitFull
  destructor : c.destructor = none

/-- The counters of the buffer at rest: the mutex is free, one slot exists, and it is filled exactly when the buffer holds an unread message. -/
def Balanced (c : Channel Msg) : Prop :=
  c.buf.mutex = 1 ∧ c.buf.semEmpty + c.buf.semFull = 1 ∧ (c.buf.semFull = 1 ↔ c.fresh = true)

/-- Each message written was read once and in order, but for the one still in the buffer, and none was written over an unread one. -/
def DeliversOnce (c : Channel Msg) : Prop :=
  c.overwritten = false ∧ c.written.map cstr = c.received ++
    (if c.fresh then [cstr c.buf.buffer] else [])

theorem Quiescent.countP_eq_zero {c : Channel Msg} (hq : Quiescent c) (p : SendPc Msg → Bool)
    (hp : p .returned = false) : c.sends.countP p = 0 := by
  rw [List.countP_eq_zero]
  intro pc hpc h
  rw [hq.sends pc hpc, hp] at h
  cases h

theorem Quiescent.receiver_owns {c : Channel Msg} (hq : Quiescent c) (p : ReceivePc → Bool)
    (hp : p .waitFull = false) : (c.receiver.any p).toNat = 0 := by
  rcases hq.receiver with h | h <;> simp [h, hp]

/-- At rest the counters add up to one slot and the wake-ups of the destroyed endpoints. -/
theorem Quiescent.slots {c : Channel Msg} (hq : Quiescent c) (hc : Conserved c) :
    c.buf.mutex = 1 ∧ c.buf.semEmpty + c.buf.semFull = 1 + c.destroyed := by
  have hslot := hc.slot
  have hmutex := hc.mutex
  rw [hq.countP_eq_zero _ rfl, hq.receiver_owns _ rfl] at hslot hmutex
  simp only [Channel.wakeups, hq.destructor, Option.any_none, Bool.toNat_false] at hslot
  omega

/-- The destructions of receiving endpoints that were begun. -/
def Channel.destructions (c : Channel Msg) : Nat := c.destroyed + c.destructor.isSome.toNat

theorem destructions_move {c t : Channel Msg} {a : Act Msg} (h : Move serialize c a t) :
    c.destructions ≤ t.destructions := by
  cases h with
  | receiveDispatches outcome hpc =>
    cases outcome with
    | ok _ => exact le_rfl
    | error exc =>
      simp only [Channel.report]
      split <;> exact le_rfl
  | destroy hreceiver hdestructor => simp [Channel.destructions, hdestructor]
  | destructorPostFull hpc => simp [Channel.destructions, hpc]
  | destructorJoins hpc hreceiver => simp [Channel.destructions, hpc]
  | destructorClears hpc => simp [Channel.destructions, hpc]
  | _ => exact le_rfl

theorem destructions_pos {c t : Channel Msg} {acts : List (Act Msg)}
    (hrun : run (Channel.step serialize) c acts = some t) (hdestroy : .destroy ∈ acts) :
    0 < t.destructions := by
  obtain ⟨before, rest, rfl⟩ := List.append_of_mem hdestroy
  obtain ⟨u, _, hrest⟩ := run_append_eq_some.1 hrun
  obtain ⟨v, hstep, hafter⟩ := run_cons_eq_some.1 hrest
  have hmono : v.destructions ≤ t.destructions :=
    le_of_run (fun _ _ _ h => destructions_move (move_of_step h)) hafter
  have hpos : 0 < v.destructions := by
    cases move_of_step hstep with
    | destroy hreceiver hdestructor => simp [Channel.destructions]
  omega

/-- **The accounts.** At rest, the counters are right and every message has come through exactly once, precisely when no receiving endpoint has been destroyed in the run. -/
theorem balanced_iff_no_destroy {attached excHandler : Bool} {acts : List (Act Msg)} {c : Channel Msg}
    (hrun : run (Channel.step serialize) (.init Msg attached excHandler) acts = some c)
    (hq : Quiescent c) : (Balanced c ∧ DeliversOnce c) ↔ ∀ a ∈ acts, a ≠ .destroy := by
  have hslots := hq.slots (conserved_run hrun)
  constructor
  · rintro ⟨⟨_, hone, _⟩, _⟩ a ha rfl
    have hpos := destructions_pos hrun ha
    simp only [Channel.destructions, hq.destructor, Option.isSome_none, Bool.toNat_false] at hpos
    omega
  · intro hlive
    obtain ⟨_, hu, hoff, _, _⟩ := written_eq_received hrun hlive
    have hfresh := hu.fresh
    rw [hq.countP_eq_zero _ rfl, hq.receiver_owns _ rfl] at hfresh
    rw [hu.destroyed] at hslots
    refine ⟨⟨hslots.1, hslots.2, ?_⟩, hu.overwritten, ?_⟩
    · cases hf : c.fresh <;> rw [hf] at hfresh <;> simp at hfresh ⊢ <;> omega
    · simp only [OnePlaceBuffer.HandsOff, Channel.abstract] at hoff
      cases hf : c.fresh <;> simpa [hf] using hoff

def Channel.atRest (c : Channel Str) : Bool :=
  c.sends.all (fun pc => decide (pc = .returned)) && decide (c.receiver = some .waitFull) &&
    decide (c.destructor = none)

theorem quiescent_of_atRest {c : Channel Str} (h : c.atRest = true) : Quiescent c := by
  simp only [Channel.atRest, Bool.and_eq_true, List.all_eq_true, decide_eq_true_eq] at h
  exact ⟨h.1.1, .inr h.1.2, h.2⟩

/-- A call of `send` with all its steps, then one iteration of the receive thread that ends in an exception. -/
def sendThenReject (msg : Str) : List (Act Str) :=
  .call msg :: List.replicate 5 (.send 0) ++
    List.replicate 7 (.receive (.error (.dataFormatException (ascii "invalid IPC JSON data"))))

theorem balanced_iff_no_destroy_sendThenReject :
    ∃ c, run (Channel.step Except.ok) (.init Str true true) (sendThenReject (ascii "{}")) = some c ∧
      Balanced c ∧ DeliversOnce c := by
  obtain ⟨c, hrun, hrest⟩ := exists_of_any_run (Channel.step Except.ok) (.init Str true true)
    (sendThenReject (ascii "{}")) Channel.atRest (by decide +kernel)
  exact ⟨c, hrun, (balanced_iff_no_destroy hrun (quiescent_of_atRest hrest)).2
    (by simp [sendThenReject])⟩

/-- A first client comes and goes, a second one attaches, and the server sends two messages before the second client's receive thread runs. -/
def reattachThenSend (first second : Str) : List (Act Str) :=
  List.flatten [[.destroy, .destructor], List.replicate 5 (.receive (.ok ())),
    [.destructor, .destructor, .attach true, .call first], List.replicate 5 (.send 0),
    [.call second], List.replicate 5 (.send 1), List.replicate 14 (.receive (.ok ()))]

def Channel.readTwice (first second : Str) (c : Channel Str) : Bool :=
  c.atRest && decide (c.buf.semEmpty + c.buf.semFull = 2) && c.overwritten &&
    decide (c.written = [first, second]) && decide (c.received = [second, second])

/-- After one client has been destroyed there are two slots: the second message overwrites the first, and the next client reads it twice. -/
theorem reattach_unbalances :
    ∃ c, run (Channel.step Except.ok) (.init Str true true)
      (reattachThenSend (ascii "1") (ascii "2")) = some c ∧
      Quiescent c ∧ c.buf.semEmpty + c.buf.semFull = 2 ∧ c.overwritten = true ∧
      c.written = [ascii "1", ascii "2"] ∧ c.received = [ascii "2", ascii "2"] ∧
      ¬ (Balanced c ∧ DeliversOnce c) := by
  obtain ⟨c, hrun, hp⟩ := exists_of_any_run (Channel.step Except.ok) (.init Str true true)
    (reattachThenSend (ascii "1") (ascii "2")) (Channel.readTwice (ascii "1") (ascii "2"))
      (by decide +kernel)
  simp only [Channel.readTwice, Bool.and_eq_true, decide_eq_true_eq] at hp
  obtain ⟨⟨⟨⟨hrest, hsum⟩, hover⟩, hwritten⟩, hreceived⟩ := hp
  refine ⟨c, hrun, quiescent_of_atRest hrest, hsum, hover, hwritten, hreceived, ?_⟩
  rintro ⟨⟨_, hone, _⟩, _⟩
  omega

end Libesf.Ipc

import Libesf.Ipc.Conservation

/-!
# What a throwing `send` leaves behind

`Endpoint::send` takes a free slot and the mutex before it serialises the message, and every one of its exceptions leaves between the two acquisitions and the two releases. The call is gone, but in the books of `Conservation` it still owns both. Since the mutex has a single unit, nobody enters the critical section again: no later call of `send` gets through, the receive thread reads nothing more, and a destructor that is entered afterwards waits for it forever.
-/

namespace Libesf.Ipc

open Transition

variable {Msg : Type} {serialize : Msg → Except Exception Str}

/-! ### One failing call, alone on the channel -/

/-- A call of `send`, from its start to the end of its critical section, while no other thread runs. -/
def Channel.sendAlone (serialize : Msg → Except Exception Str) (c : Channel Msg) (msg : Msg) :
    Option (Channel Msg) :=
  run (Channel.step serialize) c (.call msg :: List.replicate 3 (.send c.sends.length))

/-- The semaphores and the unread message of a channel are those of another one. -/
def LeftAsBefore (c t : Channel Msg) : Prop :=
  t.buf.mutex = c.buf.mutex ∧ t.buf.semEmpty = c.buf.semEmpty ∧ t.buf.semFull = c.buf.semFull ∧
    t.fresh = c.fresh

theorem sendAlone_of_packet_error {c : Channel Msg} {msg : Msg} {exc : Exception}
    (hpacket : packet serialize msg = .error exc) (hempty : 0 < c.buf.semEmpty)
    (hmutex : 0 < c.buf.mutex) :
    c.sendAlone serialize msg =
      some { c with
        buf := { c.buf with semEmpty := c.buf.semEmpty - 1, mutex := c.buf.mutex - 1 }
        sends := c.sends ++ [.thrown exc] } := by
  simp [Channel.sendAlone, run, Channel.step, Channel.sendStep, Channel.writeMessage, hpacket,
    hempty, hmutex]

theorem throws_of_long {msg : Msg} {json : Str} (hser : serialize msg = .ok json)
    (hlong : maxMessageSize ≤ json.length) : Throws serialize msg := by
  cases hpacket : packet serialize msg with
  | error exc => exact ⟨exc, hpacket⟩
  | ok text =>
    obtain ⟨htext, hfits⟩ := packet_eq_ok.1 hpacket
    obtain rfl : json = text := Except.ok.inj (hser.symm.trans htext)
    omega

/-! ### A channel with a thrown call on it -/

def Jammed (c : Channel Msg) : Prop := ∃ (i : Nat) (exc : Exception), c.sends[i]? = some (.thrown exc)

/-- A call that has not entered the critical section, or has not been made yet. -/
def Outside : Option (SendPc Msg) → Prop
  | none | some (.waitEmpty _) | some (.waitMutex _) => True
  | _ => False

/-- The receive thread has passed the shutdown check on its way out. -/
def Leaving : Option ReceivePc → Prop
  | some (.postMutex true) | some (.postEmpty true) | some .finished => True
  | _ => False

theorem Jammed.move {c t : Channel Msg} {a : Act Msg} (hj : Jammed c) (h : Move serialize c a t) :
    Jammed t := by
  obtain ⟨i, exc, hi⟩ := hj
  refine ⟨i, exc, ?_⟩
  have hkeep : ∀ {j : Nat} {x : SendPc Msg} (y : SendPc Msg), c.sends[j]? = some x → x ≠ .thrown exc →
      (c.sends.set j y)[i]? = some (.thrown exc) := by
    intro j x y hj hx
    rw [List.getElem?_set_ne, hi]
    rintro rfl
    exact hx (Option.some.inj (hj.symm.trans hi))
  cases h with
  | call msg =>
    obtain ⟨hlt, _⟩ := List.getElem?_eq_some_iff.1 hi
    simpa [List.getElem?_append_left hlt] using hi
  | sendWaitEmpty j msg hpc hsem => exact hkeep _ hpc (by simp)
  | sendWaitMutex j msg hpc hsem => exact hkeep _ hpc (by simp)
  | sendThrows j msg exc' hpc hpacket => exact hkeep _ hpc (by simp)
  | sendWrites j msg json hpc hpacket => exact hkeep _ hpc (by simp)
  | sendPostMutex j hpc => exact hkeep _ hpc (by simp)
  | sendPostFull j hpc => exact hkeep _ hpc (by simp)
  | receiveDispatches outcome hpc =>
    cases outcome with
    | ok _ => exact hi
    | error exc =>
      simp only [Channel.report]
      split <;> exact hi
  | _ => exact hi

/-- The thrown call owns the only unit of the mutex. -/
theorem Jammed.mutex {c : Channel Msg} (hj : Jammed c) (hc : Conserved c) :
    c.buf.mutex = 0 ∧ c.receiver.any ReceivePc.ownsMutex = false ∧
      ∀ (j : Nat) (msg : Msg), c.sends[j]? ≠ some (.inside msg) := by
  obtain ⟨i, exc, hi⟩ := hj
  have hmutex := hc.mutex
  have hpos := Pool.countP_pos_of_getElem? SendPc.ownsMutex hi rfl
  refine ⟨by omega, ?_, ?_⟩
  · cases hr : c.receiver.any ReceivePc.ownsMutex with
    | false => rfl
    | true =>
      rw [hr, Bool.toNat_true] at hmutex
      omega
  · intro j msg hj
    obtain rfl := Pool.eq_of_countP_le_one SendPc.ownsMutex (by omega) hi hj rfl rfl
    rw [hi] at hj
    cases hj

/-- What a channel with a thrown call on it never changes again. -/
structure Stuck (c t : Channel Msg) : Prop where
  written : t.written = c.written
  received : t.received = c.received
  outside : ∀ j : Nat, Outside c.sends[j]? → Outside t.sends[j]?
  leaving : ¬ Leaving c.receiver → ¬ Leaving t.receiver
  destroyed : ¬ Leaving c.receiver → t.destroyed = c.destroyed

theorem Stuck.refl (c : Channel Msg) : Stuck c c :=
  ⟨rfl, rfl, fun _ h => h, fun h => h, fun _ => rfl⟩

theorem Stuck.trans {c t u : Channel Msg} (hct : Stuck c t) (htu : Stuck t u) : Stuck c u where
  written := htu.written.trans hct.written
  received := htu.received.trans hct.received
  outside j h := htu.outside j (hct.outside j h)
  leaving h := htu.leaving (hct.leaving h)
  destroyed h := (htu.destroyed (hct.leaving h)).trans (hct.destroyed h)

private theorem Stuck.of_set {c : Channel Msg} {i : Nat} {x : SendPc Msg} (hpc : c.sends[i]? = some x)
    (y : SendPc Msg) (hxy : Outside (some x) → Outside (some y)) (buf : SharedBuffer) :
    Stuck c { c with buf := buf, sends := c.sends.set i y } := by
  refine ⟨rfl, rfl, fun j hj => ?_, fun h => h, fun _ => rfl⟩
  by_cases hij : i = j
  · subst hij
    rw [hpc] at hj
    obtain ⟨hlt, _⟩ := List.getElem?_eq_some_iff.1 hpc
    simpa [hlt] using hxy hj
  · simpa only [List.getElem?_set_ne hij] using hj

private theorem Stuck.of_receiver {c : Channel Msg} (buf : SharedBuffer) (pc : ReceivePc)
    (h : ¬ Leaving c.receiver → ¬ Leaving (some pc)) :
    Stuck c { c with buf := buf, receiver := some pc } :=
  ⟨rfl, rfl, fun _ h => h, h, fun _ => rfl⟩

theorem stuck_move {c t : Channel Msg} {a : Act Msg} (hc : Conserved c) (hj : Jammed c)
    (h : Move serialize c a t) : Stuck c t := by
  obtain ⟨hzero, hreceiver, hinside⟩ := hj.mutex hc
  cases h with
  | call msg =>
    refine ⟨rfl, rfl, fun j hj => ?_, fun h => h, fun _ => rfl⟩
    rcases Nat.lt_or_ge j c.sends.length with hlt | hge
    · simpa only [List.getElem?_append_left hlt] using hj
    · rw [List.getElem?_append_right hge]
      cases j - c.sends.length <;> simp [Outside]
  | sendWaitEmpty i msg hpc hsem => exact .of_set hpc (.waitMutex msg) (fun _ => trivial) _
  | sendWaitMutex i msg hpc hsem => omega
  | sendThrows i msg exc hpc hpacket => exact absurd hpc (hinside i msg)
  | sendWrites i msg json hpc hpacket => exact absurd hpc (hinside i msg)
  | sendPostMutex i hpc => exact .of_set hpc .postFull False.elim _
  | sendPostFull i hpc => exact .of_set hpc .returned False.elim _
  | receiveWaitFull outcome hpc hsem => exact .of_receiver _ _ fun _ => id
  | receiveWaitMutex outcome hpc hsem => omega
  | receiveStops outcome hpc hshutdown => simp [hpc, ReceivePc.ownsMutex] at hreceiver
  | receiveProceeds outcome hpc hshutdown => simp [hpc, ReceivePc.ownsMutex] at hreceiver
  | receiveConstructs outcome hpc => simp [hpc, ReceivePc.ownsMutex] at hreceiver
  | receiveDispatches outcome hpc => simp [hpc, ReceivePc.ownsMutex] at hreceiver
  | receivePostMutex outcome stop hpc => simp [hpc, ReceivePc.ownsMutex] at hreceiver
  | receivePostEmpty outcome stop hpc =>
    refine .of_receiver _ _ fun hstay => ?_
    cases stop with
    | true => exact absurd (by rw [hpc]; trivial) hstay
    | false => exact id
  | attach excHandler hreceiver hdestructor =>
    exact ⟨rfl, rfl, fun _ h => h, fun _ => id, fun _ => rfl⟩
  | destroy hreceiver hdestructor => exact ⟨rfl, rfl, fun _ h => h, fun h => h, fun _ => rfl⟩
  | destructorPostFull hpc => exact ⟨rfl, rfl, fun _ h => h, fun h => h, fun _ => rfl⟩
  | destructorJoins hpc hfinished => exact ⟨rfl, rfl, fun _ h => h, fun h => h, fun _ => rfl⟩
  | destructorClears hpc =>
    have hfinished := hc.joined hpc
    refine ⟨rfl, rfl, fun _ h => h, fun _ => id, fun hstay => ?_⟩
    exact absurd (by rw [hfinished]; trivial) hstay

theorem stuck_run {c t : Channel Msg} {acts : List (Act Msg)} (hc : Conserved c) (hj : Jammed c)
    (h : run (Channel.step serialize) c acts = some t) : Stuck c t ∧ Conserved t ∧ Jammed t := by
  refine invariant_run (fun u => Stuck c u ∧ Conserved u ∧ Jammed u) ?_ ⟨.refl c, hc, hj⟩ h
  rintro u a v ⟨hcu, hconserved, hjammed⟩ hstep
  have hmove := move_of_step hstep
  exact ⟨hcu.trans (stuck_move hconserved hjammed hmove), conserved_move hconserved hmove,
    hjammed.move hmove⟩

/-- **A throwing `send`.** Whatever state the channel is in, a call that throws takes a unit of the mutex and a free slot with it; and from then on, in every run, nothing is written or delivered, no call that was still outside the critical section gets in, and no receiving endpoint is destroyed unless its receive thread was already leaving. -/
theorem send_throws_jams {msg : Msg} (hthrows : Throws serialize msg) :
    (∀ c : Channel Msg, 0 < c.buf.semEmpty → 0 < c.buf.mutex →
      ∃ t exc, c.sendAlone serialize msg = some t ∧ t.sends[c.sends.length]? = some (.thrown exc) ∧
        t.buf.mutex + 1 = c.buf.mutex ∧ t.buf.semEmpty + 1 = c.buf.semEmpty ∧ ¬ LeftAsBefore c t) ∧
    ∀ {attached excHandler : Bool} {acts later : List (Act Msg)} {c t : Channel Msg},
      run (Channel.step serialize) (.init Msg attached excHandler) acts = some c → Jammed c →
      run (Channel.step serialize) c later = some t → Stuck c t ∧ t.buf.mutex = 0 := by
  constructor
  · intro c hempty hmutex
    obtain ⟨exc, hpacket⟩ := hthrows
    refine ⟨_, exc, sendAlone_of_packet_error hpacket hempty hmutex, ?_, ?_, ?_, ?_⟩
    · simp
    · exact Nat.sub_add_cancel hmutex
    · exact Nat.sub_add_cancel hempty
    · rintro ⟨hsame, _⟩
      have : c.buf.mutex - 1 = c.buf.mutex := hsame
      omega
  · intro attached excHandler acts later c t hrun hjammed hlater
    obtain ⟨hstuck, hc, hj⟩ := stuck_run (conserved_run hrun) hjammed hlater
    exact ⟨hstuck, (hj.mutex hc).1⟩

/-- A text one byte too long for the buffer. -/
def oversized : Str := List.replicate maxMessageSize 97

theorem throws_oversized : Throws Except.ok oversized :=
  throws_of_long rfl (by rw [oversized, List.length_replicate])

theorem send_throws_jams_oversized :
    ∃ t exc, (Channel.init Str true true).sendAlone Except.ok oversized = some t ∧
      t.sends[0]? = some (.thrown exc) ∧ t.buf.mutex = 0 := by
  obtain ⟨t, exc, hrun, hthrown, hmutex, _⟩ :=
    (send_throws_jams throws_oversized).1 (.init Str true true) (by decide) (by decide)
  have hone : (Channel.init Str true true).buf.mutex = 1 := rfl
  exact ⟨t, exc, hrun, hthrown, by omega⟩

/-- One oversized message on a fresh channel: the semaphores are not what they were, and whatever happens next, no call ever returns, nothing is delivered and the receiving endpoint is never destroyed. -/
theorem oversized_jams_channel :
    ∃ t, (Channel.init Str true true).sendAlone Except.ok oversized = some t ∧
      ¬ LeftAsBefore (Channel.init Str true true) t ∧
      ∀ later u, run (Channel.step Except.ok) t later = some u →
        (∀ j : Nat, u.sends[j]? ≠ some .returned) ∧ u.received = [] ∧ u.destroyed = 0 := by
  obtain ⟨exc, hpacket⟩ := throws_oversized
  have hrun := sendAlone_of_packet_error (c := Channel.init Str true true) hpacket
    (by decide) (by decide)
  refine ⟨_, hrun, fun h => absurd h.1 Nat.zero_ne_one, fun later u hlater => ?_⟩
  have hjam : Jammed ({ Channel.init Str true true with
      buf := { (Channel.init Str true true).buf with semEmpty := 0, mutex := 0 }
      sends := [.thrown exc] } : Channel Str) := ⟨0, exc, rfl⟩
  have hconserved := @conserved_run _ _ true true _ _ hrun
  obtain ⟨hstuck, _, hjammed⟩ := stuck_run hconserved hjam hlater
  have houtside : ∀ j : Nat, j ≠ 0 → Outside u.sends[j]? := by
    intro j hj
    refine hstuck.outside j ?_
    obtain ⟨k, rfl⟩ := Nat.exists_eq_succ_of_ne_zero hj
    exact trivial
  refine ⟨fun j hreturned => ?_, hstuck.received, hstuck.destroyed (by simp [Leaving, Channel.init])⟩
  have hzero : ∀ (k : Nat) (pc : SendPc Str), u.sends[k]? = some pc →
      ¬ Outside (some pc) → k = 0 := by
    intro k pc hpc hin
    by_contra hk
    exact hin (hpc ▸ houtside k hk)
  obtain ⟨i, exc', hi⟩ := hjammed
  obtain rfl := hzero i _ hi id
  obtain rfl := hzero j _ hreturned id
  rw [hi] at hreturned
  cases hreturned

end Libesf.Ipc

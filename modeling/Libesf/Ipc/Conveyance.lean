import Libesf.Base.Pool
import Libesf.Ipc.Operating

/-!
# The messages on a channel

`HandOff` follows the texts through the shared buffer. Here the messages are followed that the texts stand for. For the sender they are in the order in which they were written. For the system they are a bag: what has been passed to `send` is on its way until the receive thread takes it up, and a message whose `send` throws stays on its way.
-/

namespace Libesf.Ipc

open Transition

/-! ### In the order written -/

variable {Msg : Type} {serialize : Msg → Except Exception Str}

/-- The message a step writes into the shared buffer. -/
def Channel.writes (serialize : Msg → Except Exception Str) (c : Channel Msg) : Act Msg → List Msg
  | .send i =>
    match c.sends[i]? with
    | some (.inside msg) => if sendable serialize msg then [msg] else []
    | _ => []
  | _ => []

/-- The texts written are those of the messages, and are handed over in this order. -/
structure Conveys (serialize : Msg → Except Exception Str) (c : Channel Msg)
    (sent : List Msg) : Prop where
  conserved : Conserved c
  undisturbed : Undisturbed c
  handsOff : OnePlaceBuffer.HandsOff c.abstract
  texts : List.Forall₂ (fun msg json => packet serialize msg = .ok json) sent c.written

theorem sendable_of_packet {msg : Msg} {json : Str} (h : packet serialize msg = .ok json) :
    sendable serialize msg = true := by
  rw [sendable, h]

theorem Channel.writes_of_packet {c : Channel Msg} {i : Nat} {msg : Msg} {json : Str}
    (hpc : c.sends[i]? = some (.inside msg)) (hpacket : packet serialize msg = .ok json) :
    c.writes serialize (.send i) = [msg] := by
  simp only [writes, hpc, sendable_of_packet hpacket, if_true]

namespace Conveys

variable {c t : Channel Msg} {sent : List Msg}

theorem init (attached excHandler : Bool) : Conveys serialize (.init Msg attached excHandler) [] :=
  ⟨conserved_init attached excHandler, undisturbed_init attached excHandler, rfl, .nil⟩

theorem step (h : Conveys serialize c sent) {a : Act Msg} (hlive : a ≠ .destroy)
    (hstep : c.step serialize a = some t) : Conveys serialize t (sent ++ c.writes serialize a) := by
  have hsame : ∀ {written : List Str}, written = c.written → c.writes serialize a = [] →
      List.Forall₂ (fun msg json => packet serialize msg = .ok json) (sent ++ c.writes serialize a)
        written := by
    intro written hwritten hnone
    rw [hwritten, hnone, List.append_nil]
    exact h.texts
  obtain ⟨v, ⟨acts, hacts⟩, hconserved, hundisturbed, rfl⟩ :=
    simulates_onePlaceBuffer c a t c.abstract ⟨h.conserved, h.undisturbed, rfl⟩ hlive hstep
  refine ⟨hconserved, hundisturbed, invariant_run _ OnePlaceBuffer.handsOff_step h.handsOff hacts, ?_⟩
  cases move_of_step hstep with
  | sendWrites i msg json hpc hpacket =>
    rw [Channel.writes_of_packet hpc hpacket]
    exact List.rel_append h.texts (.cons hpacket .nil)
  | sendThrows i msg exc hpc hpacket =>
    refine hsame rfl ?_
    simp only [Channel.writes, hpc, sendable, hpacket, Bool.false_eq_true, if_false]
  | sendWaitEmpty i msg hpc hsem | sendWaitMutex i msg hpc hsem | sendPostMutex i hpc
  | sendPostFull i hpc =>
    exact hsame rfl (by simp only [Channel.writes, hpc])
  | receiveDispatches outcome hpc =>
    refine hsame ?_ rfl
    cases outcome with
    | ok _ => rfl
    | error exc =>
      rw [Channel.report]
      split <;> rfl
  | _ => exact hsame rfl rfl

/-- While a slot is called, everything written has been read. -/
theorem fresh_of_dispatch (h : Conveys serialize c sent) (hpc : c.receiver = some .dispatch) :
    c.fresh = false := by
  have hslot := h.conserved.slot
  have hfresh := h.undisturbed.fresh
  have hle : c.sends.countP SendPc.hasWritten ≤ c.sends.countP SendPc.ownsSlot :=
    List.countP_mono_left fun pc _ hpc' => pc.ownsSlot_of_hasWritten hpc'
  rw [h.undisturbed.wakeups] at hslot
  simp only [hpc, Option.any_some, ReceivePc.ownsSlot, ReceivePc.hasToRead, Bool.toNat_true,
    Bool.toNat_false] at hslot hfresh
  cases hf : c.fresh with
  | false => rfl
  | true =>
    rw [hf, Bool.toNat_true] at hfresh
    omega

theorem length_sent (h : Conveys serialize c sent) :
    sent.length = c.received.length + c.fresh.toNat := by
  have hlength := congrArg List.length h.handsOff
  simp only [Channel.abstract, List.length_map, List.length_append] at hlength
  rw [h.texts.length_eq, hlength]
  cases c.fresh <;> rfl

/-- The text whose slot is called is that of the last message sent. -/
theorem last_of_dispatch (h : Conveys serialize c sent) (hpc : c.receiver = some .dispatch)
    (hne : c.received ≠ []) :
    ∃ before msg json, sent = before ++ [msg] ∧ packet serialize msg = .ok json ∧
      c.received.getLast? = some (cstr json) := by
  have hread : c.written.map cstr = c.received := by
    have hoff := h.handsOff
    rw [OnePlaceBuffer.HandsOff, Channel.abstract, h.fresh_of_dispatch hpc] at hoff
    simpa using hoff
  obtain hnil | ⟨texts, json, hwritten⟩ := List.eq_nil_or_concat c.written
  · rw [← hread, hnil] at hne
    exact absurd rfl hne
  · rw [List.concat_eq_append] at hwritten
    have htexts := h.texts
    rw [hwritten] at htexts
    have hlast := List.forall₂_drop_append sent texts [json] htexts
    obtain ⟨msg, rest, hpacket, hnil, hdrop⟩ := List.forall₂_cons_right_iff.1 hlast
    obtain rfl := List.forall₂_nil_right_iff.1 hnil
    refine ⟨sent.take texts.length, msg, json, ?_, hpacket, ?_⟩
    · rw [← hdrop, List.take_append_drop]
    · rw [← hread, hwritten, List.map_append, List.map_singleton, List.getLast?_concat]

end Conveys

/-- A text has been read and not yet dispatched. -/
def Channel.undispatched (c : Channel Msg) : Bool := decide (c.receiver = some .dispatch)

theorem Channel.length_received {c t : Channel Msg} {a : Act Msg} (hundisturbed : Undisturbed c)
    (hlive : a ≠ .destroy) (hpc : ∀ outcome, a = .receive outcome → c.receiver ≠ some .dispatch)
    (hstep : c.step serialize a = some t) :
    t.received.length + c.undispatched.toNat = c.received.length + t.undispatched.toNat := by
  cases move_of_step hstep with
  | call msg | sendWaitEmpty i msg hsend hsem | sendWaitMutex i msg hsend hsem
  | sendThrows i msg exc hsend hpacket
  | sendWrites i msg json hsend hpacket | sendPostMutex i hsend | sendPostFull i hsend => rfl
  | receiveWaitFull outcome hreceiver hsem | receiveWaitMutex outcome hreceiver hsem
  | receiveProceeds outcome hreceiver hshutdown | receivePostMutex outcome stop hreceiver =>
    simp [undispatched, hreceiver]
  | receiveConstructs outcome hreceiver => simp [undispatched, hreceiver]
  | receiveDispatches outcome hreceiver => exact absurd hreceiver (hpc outcome rfl)
  | receiveStops outcome hreceiver hshutdown =>
    rw [hundisturbed.shutdown] at hshutdown
    cases hshutdown
  | receivePostEmpty outcome stop hreceiver => cases stop <;> simp [undispatched, hreceiver]
  | attach excHandler hreceiver hdestructor => simp [undispatched, hreceiver]
  | destroy hreceiver hdestructor => exact absurd rfl hlive
  | destructorPostFull hdestructor | destructorJoins hdestructor hreceiver
  | destructorClears hdestructor =>
    rw [hundisturbed.destructor] at hdestructor
    cases hdestructor

theorem Channel.received_of_dispatch {c t : Channel Msg} {outcome : Except RecoverableException Unit}
    (hpc : c.receiver = some .dispatch) (hstep : c.step serialize (.receive outcome) = some t) :
    t.received = c.received ∧ t.undispatched = false := by
  simp only [step, receiveStep, hpc, Option.some.injEq] at hstep
  rw [← hstep]
  refine ⟨?_, rfl⟩
  cases outcome with
  | ok _ => rfl
  | error exc =>
    show (c.report _).received = _
    rw [report]
    split <;> rfl

/-! ### As a bag -/

/-- The messages on their way: in a call of `send`, in the buffer, or stuck in a `send` that threw. With `held`, the one that was read last is still among them. -/
def InTransit (serialize : Msg → Except Exception Str) (c : Channel Msg) (held : Bool)
    (msgs : List Msg) : Prop :=
  ∃ sent lost, Conveys serialize c sent ∧ c.undispatched.toNat ≤ c.received.length ∧
    lost.length = c.sends.countP SendPc.hasThrown ∧
    msgs.Perm (c.sends.filterMap SendPc.msg? ++ (sent.drop (c.received.length - held.toNat) ++ lost))

namespace InTransit

variable {c t : Channel Msg} {held : Bool} {msgs : List Msg}

theorem init (attached excHandler : Bool) :
    InTransit serialize (.init Msg attached excHandler) false [] := by
  refine ⟨[], [], .init attached excHandler, ?_, rfl, .refl _⟩
  cases attached <;> exact le_rfl

theorem call (h : InTransit serialize c held msgs) {msg : Msg}
    (hstep : c.step serialize (.call msg) = some t) :
    InTransit serialize t held (msgs ++ [msg]) := by
  obtain ⟨sent, lost, hconveys, hread, hlost, hperm⟩ := h
  have ht := hconveys.step (a := .call msg) nofun hstep
  rw [show c.writes serialize (.call msg) = [] from rfl, List.append_nil] at ht
  refine ⟨sent, lost, ht, ?_, ?_, ?_⟩
  · rw [← Option.some.inj hstep]
    exact hread
  · rw [← Option.some.inj hstep, Pool.countP_append_single]
    exact hlost
  · rw [← Option.some.inj hstep, List.filterMap_append, List.append_assoc]
    refine (hperm.append_right [msg]).trans ?_
    rw [List.append_assoc]
    exact List.perm_append_comm.append_left _

/-- Where a call of `send` gets to does not change what is on its way. -/
theorem send (h : InTransit serialize c held msgs) {i : Nat}
    (hstep : c.step serialize (.send i) = some t) : InTransit serialize t held msgs := by
  obtain ⟨sent, lost, hconveys, hread, hlost, hperm⟩ := h
  have ht := hconveys.step (a := .send i) nofun hstep
  have hlength := hconveys.length_sent
  have hgoesOn : ∀ {x y : SendPc Msg} {buf : SharedBuffer}, c.sends[i]? = some x → y.msg? = x.msg? →
      y.hasThrown = x.hasThrown →
      t = { c with buf := buf, sends := c.sends.set i y } → c.writes serialize (.send i) = [] →
      InTransit serialize t held msgs := by
    rintro x y buf hx hmsg hthrown rfl hnone
    rw [hnone, List.append_nil] at ht
    refine ⟨sent, lost, ht, hread, hlost.trans (Pool.countP_set_of_eq _ hx hthrown).symm,
      hperm.trans (.append_right _ ?_)⟩
    have hset := Pool.filterMap_set_perm SendPc.msg? hx y
    rw [hmsg] at hset
    exact (List.perm_append_left_iff _).1 hset.symm
  have htaken : ∀ {msg : Msg} {y : SendPc Msg}, c.sends[i]? = some (.inside msg) → y.msg? = none →
      (c.sends.filterMap SendPc.msg?).Perm (msg :: (c.sends.set i y).filterMap SendPc.msg?) := by
    intro msg y hx hy
    have hset := Pool.filterMap_set_perm SendPc.msg? hx y
    rw [hy] at hset
    exact hset.symm
  cases move_of_step hstep with
  | sendWaitEmpty _ msg hpc hsem =>
    exact hgoesOn (y := .waitMutex msg) hpc rfl rfl rfl (by simp only [Channel.writes, hpc])
  | sendWaitMutex _ msg hpc hsem =>
    exact hgoesOn (y := .inside msg) hpc rfl rfl rfl (by simp only [Channel.writes, hpc])
  | sendPostMutex _ hpc =>
    exact hgoesOn (y := .postFull) hpc rfl rfl rfl (by simp only [Channel.writes, hpc])
  | sendPostFull _ hpc =>
    exact hgoesOn (y := .returned) hpc rfl rfl rfl (by simp only [Channel.writes, hpc])
  | sendThrows _ msg exc hpc hpacket =>
    have hnone : c.writes serialize (.send i) = [] := by
      simp only [Channel.writes, hpc, sendable, hpacket, Bool.false_eq_true, if_false]
    rw [hnone, List.append_nil] at ht
    have hcount := Pool.countP_set_add SendPc.hasThrown hpc (.thrown exc)
    refine ⟨sent, msg :: lost, ht, hread, (congrArg (· + 1) hlost).trans hcount.symm,
      hperm.trans (((htaken (y := .thrown exc) hpc rfl).append_right _).trans ?_)⟩
    rw [List.cons_append, ← List.append_assoc, ← List.append_assoc]
    exact List.perm_middle.symm
  | sendWrites _ msg json hpc hpacket =>
    rw [Channel.writes_of_packet hpc hpacket] at ht
    refine ⟨sent ++ [msg], lost, ht, hread,
      hlost.trans (Pool.countP_set_of_eq SendPc.hasThrown hpc (y := .postMutex) rfl).symm,
      hperm.trans (((htaken (y := .postMutex) hpc rfl).append_right _).trans ?_)⟩
    rw [List.drop_append_of_le_length (by simp only; omega), List.cons_append, List.append_assoc]
    refine List.perm_middle.symm.trans (.append_left _ ?_)
    exact List.perm_middle.symm

theorem sends_of_receive {outcome : Except RecoverableException Unit}
    (hstep : c.step serialize (.receive outcome) = some t) : t.sends = c.sends := by
  cases move_of_step hstep with
  | receiveDispatches _ hpc =>
    cases outcome with
    | ok _ => rfl
    | error exc =>
      show (c.report _).sends = _
      rw [Channel.report]
      split <;> rfl
  | _ => rfl

/-- The receive thread reads a text or goes on without one. -/
theorem receive (h : InTransit serialize c false msgs) (hpc : c.receiver ≠ some .dispatch)
    {outcome : Except RecoverableException Unit}
    (hstep : c.step serialize (.receive outcome) = some t) :
    InTransit serialize t t.undispatched msgs := by
  obtain ⟨sent, lost, hconveys, hread, hlost, hperm⟩ := h
  have ht := hconveys.step (a := .receive outcome) nofun hstep
  rw [show c.writes serialize (.receive outcome) = [] from rfl, List.append_nil] at ht
  have hlength := Channel.length_received hconveys.undisturbed (a := .receive outcome)
    nofun (fun _ _ => hpc) hstep
  have hnone : c.undispatched = false := decide_eq_false hpc
  rw [hnone, Bool.toNat_false, Nat.add_zero] at hlength
  refine ⟨sent, lost, ht, by omega, by rw [sends_of_receive hstep]; exact hlost, ?_⟩
  rw [sends_of_receive hstep,
    show t.received.length - t.undispatched.toNat = c.received.length by omega]
  exact hperm

/-- What the receive thread has read is the text of a message on its way, which it takes up. -/
theorem take (h : InTransit serialize c true msgs) (hpc : c.receiver = some .dispatch) :
    ∃ msg json, packet serialize msg = .ok json ∧ c.received.getLast? = some (cstr json) ∧
      ∃ i, msgs[i]? = some msg ∧ InTransit serialize c false (msgs.eraseIdx i) := by
  obtain ⟨sent, lost, hconveys, hread, hlost, hperm⟩ := h
  have hone : c.undispatched = true := decide_eq_true hpc
  rw [hone, Bool.toNat_true] at hread
  obtain ⟨before, msg, json, hsent, hpacket, hlast⟩ :=
    hconveys.last_of_dispatch hpc (List.ne_nil_of_length_pos hread)
  have hlength := hconveys.length_sent
  rw [hconveys.fresh_of_dispatch hpc, hsent, List.length_append, List.length_singleton,
    Bool.toNat_false, Nat.add_zero] at hlength
  have htake : sent.drop (c.received.length - true.toNat) = [msg] := by
    rw [hsent, List.drop_left' (by rw [Bool.toNat_true]; omega)]
  have hrest : sent.drop (c.received.length - false.toNat) = [] := by
    rw [hsent, List.drop_eq_nil_iff, List.length_append, List.length_singleton, hlength,
      Bool.toNat_false, Nat.sub_zero]
    exact le_rfl
  rw [htake] at hperm
  obtain ⟨i, hi, hperm⟩ := Pool.exists_of_perm_cons (hperm.trans List.perm_middle)
  refine ⟨msg, json, hpacket, hlast, i, hi, sent, lost, hconveys,
    by rw [hone]; exact hread, hlost, ?_⟩
  rw [hrest]
  exact hperm

theorem dispatched (h : InTransit serialize c false msgs) (hpc : c.receiver = some .dispatch)
    {outcome : Except RecoverableException Unit}
    (hstep : c.step serialize (.receive outcome) = some t) :
    InTransit serialize t false msgs ∧ t.undispatched = false := by
  obtain ⟨sent, lost, hconveys, hread, hlost, hperm⟩ := h
  have ht := hconveys.step (a := .receive outcome) nofun hstep
  rw [show c.writes serialize (.receive outcome) = [] from rfl, List.append_nil] at ht
  obtain ⟨hreceived, hundispatched⟩ := Channel.received_of_dispatch hpc hstep
  refine ⟨⟨sent, lost, ht, by rw [hundispatched]; exact Nat.zero_le _,
    by rw [sends_of_receive hstep]; exact hlost, ?_⟩, hundispatched⟩
  rw [sends_of_receive hstep, hreceived]
  exact hperm

/-- Nothing is on its way on a channel at rest. -/
theorem eq_nil_of_quiescent (h : InTransit serialize c false msgs) (hquiescent : Quiescent c)
    (hread : c.fresh = false) : msgs = [] := by
  obtain ⟨sent, lost, hconveys, -, hlost, hperm⟩ := h
  have hlength := hconveys.length_sent
  rw [hread, Bool.toNat_false, Nat.add_zero] at hlength
  rw [hquiescent.countP_eq_zero _ rfl] at hlost
  have hdrop : sent.drop (c.received.length - false.toNat) = [] := by
    rw [List.drop_eq_nil_iff, hlength]
    exact le_rfl
  have hsends : c.sends.filterMap SendPc.msg? = [] := by
    rw [List.filterMap_eq_nil_iff]
    intro pc hpc
    rw [hquiescent.sends pc hpc]
    rfl
  rw [hsends, hdrop, List.length_eq_zero_iff.1 hlost] at hperm
  exact hperm.eq_nil

end InTransit

end Libesf.Ipc

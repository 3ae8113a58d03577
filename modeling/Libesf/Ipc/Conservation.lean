import Libesf.Base.Pool
import Libesf.Ipc.Endpoint

/-!
# What the semaphores of a shared buffer count

Three semaphores and a buffer are conserved quantities. `semEmpty` and `semFull` count the free and the filled slot, and a thread between its two slot operations carries the slot in between; `mutex` and the threads in the critical section add up to one. `Move` says once what every step can do, and both laws are read off it, for every run: any number of senders, failing sends, and receiving endpoints that are created and destroyed.

Two entries of the books are not threads at work. A call of `send` that threw keeps what it had acquired. The destructor of a receiving endpoint posts `semFull` without a message, which adds a slot.
-/

namespace Libesf.Ipc

open Transition

variable {Msg : Type} {serialize : Msg → Except Exception Str}

/-! ### The steps of the channel, one by one -/

inductive Move (serialize : Msg → Except Exception Str) (c : Channel Msg) :
    Act Msg → Channel Msg → Prop where
  | call (msg : Msg) : Move serialize c (.call msg) { c with sends := c.sends ++ [.waitEmpty msg] }
  | sendWaitEmpty (i : Nat) (msg : Msg) (hpc : c.sends[i]? = some (.waitEmpty msg))
      (hsem : 0 < c.buf.semEmpty) :
      Move serialize c (.send i)
        { c with
          buf := { c.buf with semEmpty := c.buf.semEmpty - 1 }
          sends := c.sends.set i (.waitMutex msg) }
  | sendWaitMutex (i : Nat) (msg : Msg) (hpc : c.sends[i]? = some (.waitMutex msg))
      (hsem : 0 < c.buf.mutex) :
      Move serialize c (.send i)
        { c with
          buf := { c.buf with mutex := c.buf.mutex - 1 }
          sends := c.sends.set i (.inside msg) }
  | sendThrows (i : Nat) (msg : Msg) (exc : Exception) (hpc : c.sends[i]? = some (.inside msg))
      (hpacket : packet serialize msg = .error exc) :
      Move serialize c (.send i) { c with sends := c.sends.set i (.thrown exc) }
  | sendWrites (i : Nat) (msg : Msg) (json : Str) (hpc : c.sends[i]? = some (.inside msg))
      (hpacket : packet serialize msg = .ok json) :
      Move serialize c (.send i)
        { c with
          buf := { c.buf with buffer := strcpy c.buf.buffer json }
          sends := c.sends.set i .postMutex
          written := c.written ++ [json]
          fresh := true
          overwritten := c.overwritten || c.fresh }
  | sendPostMutex (i : Nat) (hpc : c.sends[i]? = some .postMutex) :
      Move serialize c (.send i)
        { c with
          buf := { c.buf with mutex := c.buf.mutex + 1 }
          sends := c.sends.set i .postFull }
  | sendPostFull (i : Nat) (hpc : c.sends[i]? = some .postFull) :
      Move serialize c (.send i)
        { c with
          buf := { c.buf with semFull := c.buf.semFull + 1 }
          sends := c.sends.set i .returned }
  | receiveWaitFull (outcome : Except RecoverableException Unit) (hpc : c.receiver = some .waitFull)
      (hsem : 0 < c.buf.semFull) :
      Move serialize c (.receive outcome)
        { c with
          buf := { c.buf with semFull := c.buf.semFull - 1 }
          receiver := some .waitMutex }
  | receiveWaitMutex (outcome : Except RecoverableException Unit) (hpc : c.receiver = some .waitMutex)
      (hsem : 0 < c.buf.mutex) :
      Move serialize c (.receive outcome)
        { c with
          buf := { c.buf with mutex := c.buf.mutex - 1 }
          receiver := some .checkShutdown }
  | receiveStops (outcome : Except RecoverableException Unit) (hpc : c.receiver = some .checkShutdown)
      (hshutdown : c.buf.shutdown = true) :
      Move serialize c (.receive outcome) { c with receiver := some (.postMutex true) }
  | receiveProceeds (outcome : Except RecoverableException Unit)
      (hpc : c.receiver = some .checkShutdown)
      (hshutdown : c.buf.shutdown = false) :
      Move serialize c (.receive outcome) { c with receiver := some .construct }
  | receiveConstructs (outcome : Except RecoverableException Unit)
      (hpc : c.receiver = some .construct) :
      Move serialize c (.receive outcome)
        { c with
          receiver := some .dispatch
          received := c.received ++ [cstr c.buf.buffer]
          fresh := false }
  | receiveDispatches (outcome : Except RecoverableException Unit)
      (hpc : c.receiver = some .dispatch) :
      Move serialize c (.receive outcome)
        { c.report outcome with receiver := some (.postMutex false) }
  | receivePostMutex (outcome : Except RecoverableException Unit) (stop : Bool)
      (hpc : c.receiver = some (.postMutex stop)) :
      Move serialize c (.receive outcome)
        { c with
          buf := { c.buf with mutex := c.buf.mutex + 1 }
          receiver := some (.postEmpty stop) }
  | receivePostEmpty (outcome : Except RecoverableException Unit) (stop : Bool)
      (hpc : c.receiver = some (.postEmpty stop)) :
      Move serialize c (.receive outcome)
        { c with
          buf := { c.buf with semEmpty := c.buf.semEmpty + 1 }
          receiver := some (if stop then .finished else .waitFull) }
  | attach (excHandler : Bool) (hreceiver : c.receiver = none) (hdestructor : c.destructor = none) :
      Move serialize c (.attach excHandler)
        { c with
          receiver := some .waitFull
          excHandler := excHandler }
  | destroy (hreceiver : c.receiver ≠ none) (hdestructor : c.destructor = none) :
      Move serialize c .destroy
        { c with
          buf := { c.buf with shutdown := true }
          destructor := some .postFull }
  | destructorPostFull (hpc : c.destructor = some .postFull) :
      Move serialize c .destructor
        { c with
          buf := { c.buf with semFull := c.buf.semFull + 1 }
          destructor := some .join }
  | destructorJoins (hpc : c.destructor = some .join) (hreceiver : c.receiver = some .finished) :
      Move serialize c .destructor { c with destructor := some .clearShutdown }
  | destructorClears (hpc : c.destructor = some .clearShutdown) :
      Move serialize c .destructor
        { c with
          buf := { c.buf with shutdown := false }
          receiver := none
          destructor := none
          destroyed := c.destroyed + 1 }

private theorem move_of_sendStep {c t : Channel Msg} {i : Nat} (h : c.sendStep serialize i = some t) :
    Move serialize c (.send i) t := by
  unfold Channel.sendStep at h
  split at h
  · next msg hpc =>
    split at h
    · next hsem => exact Option.some.inj h ▸ .sendWaitEmpty i msg hpc hsem
    · cases h
  · next msg hpc =>
    split at h
    · next hsem => exact Option.some.inj h ▸ .sendWaitMutex i msg hpc hsem
    · cases h
  · next msg hpc =>
    rw [← Option.some.inj h, Channel.writeMessage]
    cases hpacket : packet serialize msg with
    | error exc => exact .sendThrows i msg exc hpc hpacket
    | ok json => exact .sendWrites i msg json hpc hpacket
  · next hpc => exact Option.some.inj h ▸ .sendPostMutex i hpc
  · next hpc => exact Option.some.inj h ▸ .sendPostFull i hpc
  · cases h

private theorem move_of_receiveStep {c t : Channel Msg} {outcome : Except RecoverableException Unit}
    (h : c.receiveStep outcome = some t) : Move serialize c (.receive outcome) t := by
  unfold Channel.receiveStep at h
  split at h
  · next hpc =>
    split at h
    · next hsem => exact Option.some.inj h ▸ .receiveWaitFull outcome hpc hsem
    · cases h
  · next hpc =>
    split at h
    · next hsem => exact Option.some.inj h ▸ .receiveWaitMutex outcome hpc hsem
    · cases h
  · next hpc =>
    rw [← Option.some.inj h]
    cases hshutdown : c.buf.shutdown with
    | true => exact .receiveStops outcome hpc hshutdown
    | false => exact .receiveProceeds outcome hpc hshutdown
  · next hpc => exact Option.some.inj h ▸ .receiveConstructs outcome hpc
  · next hpc => exact Option.some.inj h ▸ .receiveDispatches outcome hpc
  · next stop hpc => exact Option.some.inj h ▸ .receivePostMutex outcome stop hpc
  · next stop hpc => exact Option.some.inj h ▸ .receivePostEmpty outcome stop hpc
  · cases h

private theorem move_of_destructorStep {c t : Channel Msg} (h : c.destructorStep = some t) :
    Move serialize c .destructor t := by
  unfold Channel.destructorStep at h
  split at h
  · next hpc => exact Option.some.inj h ▸ .destructorPostFull hpc
  · next hpc =>
    split at h
    · next hreceiver => exact Option.some.inj h ▸ .destructorJoins hpc hreceiver
    · cases h
  · next hpc => exact Option.some.inj h ▸ .destructorClears hpc
  · cases h

theorem move_of_step {c t : Channel Msg} {a : Act Msg} (h : c.step serialize a = some t) :
    Move serialize c a t := by
  cases a with
  | call msg => exact Option.some.inj h ▸ .call msg
  | send i => exact move_of_sendStep h
  | receive outcome => exact move_of_receiveStep h
  | attach excHandler =>
    simp only [Channel.step] at h
    split at h
    · next hfree => exact Option.some.inj h ▸ .attach excHandler hfree.1 hfree.2
    · cases h
  | destroy =>
    simp only [Channel.step] at h
    split at h
    · next halive => exact Option.some.inj h ▸ .destroy halive.1 halive.2
    · cases h
  | destructor => exact move_of_destructorStep h

/-! ### Who owns the slot and the mutex -/

/-- The call has taken a free slot and has not announced it as filled. -/
def SendPc.ownsSlot : SendPc Msg → Bool
  | .waitMutex _ | .inside _ | .postMutex | .postFull | .thrown _ => true
  | .waitEmpty _ | .returned => false

/-- The call has taken the mutex and not given it back. -/
def SendPc.ownsMutex : SendPc Msg → Bool
  | .inside _ | .postMutex | .thrown _ => true
  | .waitEmpty _ | .waitMutex _ | .postFull | .returned => false

/-- The receive thread has taken a filled slot and has not given it back as free. -/
def ReceivePc.ownsSlot : ReceivePc → Bool
  | .waitFull | .finished => false
  | .waitMutex | .checkShutdown | .construct | .dispatch | .postMutex _ | .postEmpty _ => true

/-- The receive thread has taken the mutex and not given it back. -/
def ReceivePc.ownsMutex : ReceivePc → Bool
  | .checkShutdown | .construct | .dispatch | .postMutex _ => true
  | .waitFull | .waitMutex | .postEmpty _ | .finished => false

/-- The destructor has posted `semFull` to wake the receive thread. -/
def DestructorPc.hasPosted : DestructorPc → Bool
  | .join | .clearShutdown => true
  | .postFull => false

/-- How often a destructor has posted `semFull` so far. -/
def Channel.wakeups (c : Channel Msg) : Nat :=
  c.destroyed + (c.destructor.any DestructorPc.hasPosted).toNat

structure Conserved (c : Channel Msg) : Prop where
  slot : c.buf.semEmpty + c.buf.semFull + c.sends.countP SendPc.ownsSlot +
    (c.receiver.any ReceivePc.ownsSlot).toNat = 1 + c.wakeups
  mutex : c.buf.mutex + c.sends.countP SendPc.ownsMutex +
    (c.receiver.any ReceivePc.ownsMutex).toNat = 1
  joined : c.destructor = some .clearShutdown → c.receiver = some .finished

theorem conserved_init (attached excHandler : Bool) :
    Conserved (Channel.init Msg attached excHandler) where
  slot := by cases attached <;> rfl
  mutex := by cases attached <;> rfl
  joined := by simp [Channel.init]

/-- A step of one call keeps the laws when the semaphores move by what the call comes to own. -/
private theorem Conserved.set_send {c : Channel Msg} (hc : Conserved c) {i : Nat} {x : SendPc Msg}
    (hpc : c.sends[i]? = some x) (y : SendPc Msg) (buf : SharedBuffer)
    (hslot : buf.semEmpty + buf.semFull + y.ownsSlot.toNat =
      c.buf.semEmpty + c.buf.semFull + x.ownsSlot.toNat)
    (hmutex : buf.mutex + y.ownsMutex.toNat = c.buf.mutex + x.ownsMutex.toNat) :
    Conserved { c with buf := buf, sends := c.sends.set i y } := by
  have hs := Pool.countP_set_add SendPc.ownsSlot hpc y
  have hm := Pool.countP_set_add SendPc.ownsMutex hpc y
  have hcs := hc.slot
  have hcm := hc.mutex
  refine ⟨?_, ?_, hc.joined⟩ <;> simp only [Channel.wakeups] at * <;> omega

private theorem Conserved.set_receiver {c : Channel Msg} (hc : Conserved c) {x : ReceivePc}
    (hpc : c.receiver = some x) (y : ReceivePc) (buf : SharedBuffer)
    (hslot : buf.semEmpty + buf.semFull + y.ownsSlot.toNat =
      c.buf.semEmpty + c.buf.semFull + x.ownsSlot.toNat)
    (hmutex : buf.mutex + y.ownsMutex.toNat = c.buf.mutex + x.ownsMutex.toNat)
    (hrunning : x ≠ .finished) : Conserved { c with buf := buf, receiver := some y } := by
  have hcs := hc.slot
  have hcm := hc.mutex
  have hjoined := hc.joined
  simp only [hpc, Option.any_some, Channel.wakeups, Option.some.injEq] at hcs hcm hjoined
  refine ⟨?_, ?_, fun hclear => absurd (hjoined hclear) hrunning⟩ <;>
    simp only [Option.any_some, Channel.wakeups] <;> omega

theorem conserved_move {c t : Channel Msg} {a : Act Msg} (hc : Conserved c)
    (h : Move serialize c a t) : Conserved t := by
  cases h with
  | call msg =>
    refine ⟨?_, ?_, hc.joined⟩
    · simpa [Pool.countP_append_single, SendPc.ownsSlot, Channel.wakeups] using hc.slot
    · simpa [Pool.countP_append_single, SendPc.ownsMutex] using hc.mutex
  | sendWaitEmpty i msg hpc hsem =>
    refine hc.set_send hpc _ _ ?_ rfl
    simp only [SendPc.ownsSlot, Bool.toNat_true, Bool.toNat_false]
    omega
  | sendWaitMutex i msg hpc hsem =>
    refine hc.set_send hpc _ _ rfl ?_
    simp only [SendPc.ownsMutex, Bool.toNat_true, Bool.toNat_false]
    omega
  | sendThrows i msg exc hpc hpacket => exact hc.set_send hpc _ _ rfl rfl
  | sendWrites i msg json hpc hpacket =>
    have h := hc.set_send hpc .postMutex { c.buf with buffer := strcpy c.buf.buffer json } rfl rfl
    exact ⟨h.slot, h.mutex, h.joined⟩
  | sendPostMutex i hpc => exact hc.set_send hpc _ _ rfl rfl
  | sendPostFull i hpc => exact hc.set_send hpc _ _ rfl rfl
  | receiveWaitFull outcome hpc hsem =>
    refine hc.set_receiver hpc _ _ ?_ rfl (by decide)
    simp only [ReceivePc.ownsSlot, Bool.toNat_true, Bool.toNat_false]
    omega
  | receiveWaitMutex outcome hpc hsem =>
    refine hc.set_receiver hpc _ _ rfl ?_ (by decide)
    simp only [ReceivePc.ownsMutex, Bool.toNat_true, Bool.toNat_false]
    omega
  | receiveStops outcome hpc hshutdown => exact hc.set_receiver hpc _ _ rfl rfl (by decide)
  | receiveProceeds outcome hpc hshutdown => exact hc.set_receiver hpc _ _ rfl rfl (by decide)
  | receiveConstructs outcome hpc =>
    have h := hc.set_receiver hpc .dispatch c.buf rfl rfl (by decide)
    exact ⟨h.slot, h.mutex, h.joined⟩
  | receiveDispatches outcome hpc =>
    have h := hc.set_receiver hpc (.postMutex false) c.buf rfl rfl (by decide)
    cases outcome with
    | ok _ => exact ⟨h.slot, h.mutex, h.joined⟩
    | error exc =>
      simp only [Channel.report]
      split <;> exact ⟨h.slot, h.mutex, h.joined⟩
  | receivePostMutex outcome stop hpc => exact hc.set_receiver hpc _ _ rfl rfl (by simp)
  | receivePostEmpty outcome stop hpc =>
    refine hc.set_receiver hpc _ _ ?_ ?_ (by simp) <;> cases stop <;>
      simp only [if_true, if_false, Bool.false_eq_true, ReceivePc.ownsSlot, ReceivePc.ownsMutex,
        Bool.toNat_true, Bool.toNat_false] <;> omega
  | attach excHandler hreceiver hdestructor =>
    have hslot := hc.slot
    have hmutex := hc.mutex
    simp only [hreceiver, Option.any_none, Channel.wakeups] at hslot hmutex
    exact ⟨hslot, hmutex, by simp [hdestructor]⟩
  | destroy hreceiver hdestructor =>
    have hslot := hc.slot
    simp only [Channel.wakeups, hdestructor, Option.any_none] at hslot
    exact ⟨hslot, hc.mutex, by simp⟩
  | destructorPostFull hpc =>
    have hslot := hc.slot
    simp only [Channel.wakeups, hpc, Option.any_some, DestructorPc.hasPosted,
      Bool.toNat_false] at hslot
    refine ⟨?_, hc.mutex, by simp⟩
    simp only [Channel.wakeups, Option.any_some, DestructorPc.hasPosted, Bool.toNat_true]
    omega
  | destructorJoins hpc hreceiver =>
    have hslot := hc.slot
    simp only [Channel.wakeups, hpc, Option.any_some, DestructorPc.hasPosted] at hslot
    exact ⟨hslot, hc.mutex, fun _ => hreceiver⟩
  | destructorClears hpc =>
    have hfinished := hc.joined hpc
    have hslot := hc.slot
    have hmutex := hc.mutex
    simp only [hfinished, Channel.wakeups, hpc, Option.any_some, DestructorPc.hasPosted,
      ReceivePc.ownsSlot, ReceivePc.ownsMutex, Bool.toNat_true, Bool.toNat_false] at hslot hmutex
    refine ⟨?_, hmutex, by simp⟩
    simp only [Channel.wakeups, Option.any_none, Bool.toNat_false]
    omega

theorem conserved_step (c : Channel Msg) (a : Act Msg) (t : Channel Msg) (hc : Conserved c)
    (h : c.step serialize a = some t) : Conserved t :=
  conserved_move hc (move_of_step h)

theorem conserved_run {attached excHandler : Bool} {acts : List (Act Msg)} {c : Channel Msg}
    (h : run (Channel.step serialize) (.init Msg attached excHandler) acts = some c) : Conserved c :=
  invariant_run Conserved conserved_step (conserved_init attached excHandler) h

end Libesf.Ipc

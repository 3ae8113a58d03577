import Libesf.Ipc.Accounting

/-!
# A channel in operation

While the receiving endpoint lives and no send throws, nobody on a channel waits for nothing: the slot and the mutex are each with one thread, and that thread can take its next step. So a channel on which no step is possible is at rest, or its receive thread is in the middle of a slot call.
-/

namespace Libesf.Ipc

variable {Msg : Type} {serialize : Msg → Except Exception Str}

/-- The receive thread is on its round, and not on its way out. -/
def ReceivePc.runs : ReceivePc → Bool
  | .waitFull | .waitMutex | .checkShutdown | .construct | .dispatch => true
  | .postMutex stop | .postEmpty stop => !stop
  | .finished => false

def SendPc.hasThrown : SendPc Msg → Bool
  | .thrown _ => true
  | .waitEmpty _ | .waitMutex _ | .inside _ | .postMutex | .postFull | .returned => false

theorem SendPc.ownsSlot_of_ownsMutex {pc : SendPc Msg} (h : pc.ownsMutex = true) :
    pc.ownsSlot = true := by
  cases pc <;> first | rfl | cases h

/-- The labels of the calls of `send` and of the receive thread: no endpoint comes or goes. -/
def Act.operates : Act Msg → Bool
  | .call _ | .send _ | .receive _ => true
  | .attach _ | .destroy | .destructor => false

/-- The next step of a call is not the throw of an exception. -/
def Channel.completes (serialize : Msg → Except Exception Str) (c : Channel Msg) : Act Msg → Bool
  | .send i =>
    match c.sends[i]? with
    | some (.inside msg) => sendable serialize msg
    | _ => true
  | _ => true

structure Operating (c : Channel Msg) : Prop where
  conserved : Conserved c
  undisturbed : Undisturbed c
  running : ∃ pc, c.receiver = some pc ∧ pc.runs = true
  unthrown : ∀ pc ∈ c.sends, pc.hasThrown = false

namespace Operating

variable {c t : Channel Msg}

theorem init (excHandler : Bool) : Operating (Channel.init Msg true excHandler) :=
  ⟨conserved_init true excHandler, undisturbed_init true excHandler, ⟨.waitFull, rfl, rfl⟩, nofun⟩

theorem unthrown_set (h : Operating c) (i : Nat) {pc : SendPc Msg} (hpc : pc.hasThrown = false) :
    ∀ pc' ∈ c.sends.set i pc, pc'.hasThrown = false := by
  intro pc' hmem
  obtain hold | rfl := List.mem_or_eq_of_mem_set hmem
  · exact h.unthrown pc' hold
  · exact hpc

theorem step (h : Operating c) {a : Act Msg} (hoperates : a.operates = true)
    (hsends : c.completes serialize a = true) (hstep : c.step serialize a = some t) :
    Operating t := by
  have hmove := move_of_step hstep
  have hlive : a ≠ .destroy := by
    rintro rfl
    cases hoperates
  have hconserved := conserved_move h.conserved hmove
  have hundisturbed := undisturbed_move h.conserved h.undisturbed hlive hmove
  cases hmove with
  | call msg =>
    refine ⟨hconserved, hundisturbed, h.running, fun pc hpc => ?_⟩
    obtain hold | rfl := List.mem_append.1 hpc |>.imp_right List.mem_singleton.1
    · exact h.unthrown pc hold
    · rfl
  | sendThrows i msg exc hpc hpacket =>
    simp only [Channel.completes, hpc, sendable, hpacket] at hsends
    cases hsends
  | sendWaitEmpty i msg hpc hsem | sendWaitMutex i msg hpc hsem | sendWrites i msg json hpc hpacket
  | sendPostMutex i hpc | sendPostFull i hpc =>
    exact ⟨hconserved, hundisturbed, h.running, h.unthrown_set i rfl⟩
  | receiveStops outcome hpc hshutdown =>
    rw [h.undisturbed.shutdown] at hshutdown
    cases hshutdown
  | receiveDispatches outcome hpc =>
    have hsame : (c.report outcome).sends = c.sends := by
      cases outcome with
      | ok _ => rfl
      | error exc =>
        rw [Channel.report]
        split <;> rfl
    refine ⟨hconserved, hundisturbed, ⟨_, rfl, rfl⟩, ?_⟩
    rw [hsame]
    exact h.unthrown
  | receiveWaitFull outcome hpc hsem | receiveWaitMutex outcome hpc hsem
  | receiveProceeds outcome hpc hshutdown
  | receiveConstructs outcome hpc =>
    exact ⟨hconserved, hundisturbed, ⟨_, rfl, rfl⟩, h.unthrown⟩
  | receivePostMutex outcome stop hpc =>
    obtain ⟨pc, hpc', hruns⟩ := h.running
    obtain rfl := Option.some.inj (hpc.symm.trans hpc')
    exact ⟨hconserved, hundisturbed, ⟨_, rfl, hruns⟩, h.unthrown⟩
  | receivePostEmpty outcome stop hpc =>
    obtain ⟨pc, hpc', hruns⟩ := h.running
    obtain rfl := Option.some.inj (hpc.symm.trans hpc')
    obtain rfl : stop = false := Bool.not_eq_true' stop ▸ hruns
    exact ⟨hconserved, hundisturbed, ⟨_, rfl, rfl⟩, h.unthrown⟩
  | attach | destroy | destructorPostFull | destructorJoins | destructorClears => cases hoperates

end Operating

theorem length_sends_le_of_step {c t : Channel Msg} {a : Act Msg} (h : c.step serialize a = some t) :
    c.sends.length ≤ t.sends.length := by
  cases move_of_step h with
  | call msg =>
    rw [List.length_append]
    exact Nat.le_add_right _ _
  | sendWaitEmpty i msg hpc hsem | sendWaitMutex i msg hpc hsem | sendThrows i msg exc hpc hpacket
  | sendWrites i msg json hpc hpacket | sendPostMutex i hpc | sendPostFull i hpc =>
    rw [List.length_set]
  | receiveDispatches outcome hpc =>
    cases outcome with
    | ok _ => exact le_rfl
    | error exc =>
      rw [Channel.report]
      split <;> exact le_rfl
  | _ => exact le_rfl

theorem receiver_eq_of_send {c t : Channel Msg} {i : Nat} (h : c.step serialize (.send i) = some t) :
    t.receiver = c.receiver := by
  cases move_of_step h <;> rfl

namespace Operating

variable {c : Channel Msg}

/-! ### Who can wait -/

/-- A call whose next step is not enabled waits for one of the two semaphores, or is over. -/
theorem send_blocked (h : Operating c) {i : Nat} {pc : SendPc Msg} (hpc : c.sends[i]? = some pc)
    (hblocked : c.sendStep serialize i = none) :
    (pc.ownsSlot = false ∧ c.buf.semEmpty = 0) ∨ (pc.ownsMutex = false ∧ c.buf.mutex = 0) ∨
      pc = .returned := by
  have hunthrown := h.unthrown pc (List.mem_of_getElem? hpc)
  cases pc with
  | waitEmpty msg =>
    refine .inl ⟨rfl, ?_⟩
    simpa [Channel.sendStep, hpc] using hblocked
  | waitMutex msg =>
    refine .inr (.inl ⟨rfl, ?_⟩)
    simpa [Channel.sendStep, hpc] using hblocked
  | returned => exact .inr (.inr rfl)
  | thrown exc => cases hunthrown
  | inside msg | postMutex | postFull => simp [Channel.sendStep, hpc] at hblocked

/-- The receive thread, outside of the slot it calls, waits for one of its two semaphores. -/
theorem receive_blocked (h : Operating c) (hdispatch : c.receiver ≠ some .dispatch)
    (hblocked : c.receiveStep (.ok ()) = none) :
    (c.receiver = some .waitFull ∧ c.buf.semFull = 0) ∨
      (c.receiver = some .waitMutex ∧ c.buf.mutex = 0) := by
  obtain ⟨pc, hpc, hruns⟩ := h.running
  cases pc with
  | waitFull =>
    refine .inl ⟨hpc, ?_⟩
    simpa [Channel.receiveStep, hpc] using hblocked
  | waitMutex =>
    refine .inr ⟨hpc, ?_⟩
    simpa [Channel.receiveStep, hpc] using hblocked
  | dispatch => exact absurd hpc hdispatch
  | finished => cases hruns
  | checkShutdown | construct | postMutex | postEmpty => simp [Channel.receiveStep, hpc] at hblocked

/-- With every call blocked, the mutex is free unless the receive thread has it. -/
theorem countP_ownsMutex_eq_zero (h : Operating c) (hblocked : ∀ i, c.sendStep serialize i = none) :
    c.sends.countP SendPc.ownsMutex = 0 := by
  rw [List.countP_eq_zero]
  intro pc hmem howns
  obtain ⟨i, hpc⟩ := List.mem_iff_getElem?.1 hmem
  obtain ⟨hslot, _⟩ | ⟨hmutex, _⟩ | rfl := h.send_blocked hpc (hblocked i)
  · rw [pc.ownsSlot_of_ownsMutex howns] at hslot
    cases hslot
  · rw [howns] at hmutex
    cases hmutex
  · cases howns

/-- A channel on which no step is possible is at rest. -/
theorem quiescent (h : Operating c) (hsends : ∀ i, c.sendStep serialize i = none)
    (hdispatch : c.receiver ≠ some .dispatch) (hreceive : c.receiveStep (.ok ()) = none) :
    Quiescent c ∧ c.fresh = false := by
  have hconserved := h.conserved.mutex
  rw [h.countP_ownsMutex_eq_zero hsends] at hconserved
  have hwaiting : c.receiver = some .waitFull ∧ c.buf.semFull = 0 ∧ c.buf.mutex = 1 := by
    obtain ⟨hpc, hfull⟩ | ⟨hpc, hmutex⟩ := h.receive_blocked hdispatch hreceive
    · refine ⟨hpc, hfull, ?_⟩
      simpa [hpc, ReceivePc.ownsMutex] using hconserved
    · rw [hpc, hmutex] at hconserved
      simp [ReceivePc.ownsMutex] at hconserved
  obtain ⟨hpc, hfull, hmutex⟩ := hwaiting
  have howns : c.sends.countP SendPc.ownsSlot = 0 := by
    rw [List.countP_eq_zero]
    intro pc hmem howns
    obtain ⟨i, hi⟩ := List.mem_iff_getElem?.1 hmem
    obtain ⟨hslot, _⟩ | ⟨_, htaken⟩ | rfl := h.send_blocked hi (hsends i)
    · rw [howns] at hslot
      cases hslot
    · rw [hmutex] at htaken
      cases htaken
    · cases howns
  have hslots := h.conserved.slot
  rw [h.undisturbed.wakeups, howns, hfull, hpc] at hslots
  have hreturned : ∀ pc ∈ c.sends, pc = .returned := by
    intro pc hmem
    obtain ⟨i, hi⟩ := List.mem_iff_getElem?.1 hmem
    obtain ⟨_, hempty⟩ | ⟨_, htaken⟩ | hreturned := h.send_blocked hi (hsends i)
    · rw [hempty] at hslots
      simp [ReceivePc.ownsSlot] at hslots
    · rw [hmutex] at htaken
      cases htaken
    · exact hreturned
  have hquiescent : Quiescent c := ⟨hreturned, .inr hpc, h.undisturbed.destructor⟩
  refine ⟨hquiescent, ?_⟩
  have hfresh := h.undisturbed.fresh
  rw [hfull, hquiescent.countP_eq_zero _ rfl, hquiescent.receiver_owns _ rfl] at hfresh
  cases hread : c.fresh with
  | false => rfl
  | true =>
    rw [hread] at hfresh
    cases hfresh

end Operating

end Libesf.Ipc

import Libesf.Base.OnePlaceBuffer
import Libesf.Ipc.Conservation

/-!
# The hand-off over one shared buffer

As long as no receiving endpoint is destroyed there is one slot, so the books of `Conservation` leave room for at most one owner, and the state of the buffer can be read off where the slot is. With that, one direction of an endpoint pair is a one-place buffer: the `strcpy` of a sender is its `put` and the read of the receive thread its `take`.
-/

namespace Libesf.Ipc

open Transition

variable {Msg : Type} {serialize : Msg → Except Exception Str}

/-! ### Where the message is -/

/-- The call has copied its text and not yet announced it. -/
def SendPc.hasWritten : SendPc Msg → Bool
  | .postMutex | .postFull => true
  | .waitEmpty _ | .waitMutex _ | .inside _ | .returned | .thrown _ => false

/-- The receive thread has been told of a text it has not read yet. -/
def ReceivePc.hasToRead : ReceivePc → Bool
  | .waitMutex | .checkShutdown | .construct => true
  | .waitFull | .dispatch | .postMutex _ | .postEmpty _ | .finished => false

/-- What holds of a channel on which no endpoint was destroyed: the places that stand for an unread message are occupied exactly when the buffer holds one. -/
structure Undisturbed (c : Channel Msg) : Prop where
  fresh : c.buf.semFull + c.sends.countP SendPc.hasWritten +
    (c.receiver.any ReceivePc.hasToRead).toNat =
    c.fresh.toNat
  overwritten : c.overwritten = false
  shutdown : c.buf.shutdown = false
  destructor : c.destructor = none
  destroyed : c.destroyed = 0

theorem undisturbed_init (attached excHandler : Bool) :
    Undisturbed (Channel.init Msg attached excHandler) :=
  ⟨by cases attached <;> rfl, rfl, rfl, rfl, rfl⟩

theorem SendPc.ownsSlot_of_hasWritten {pc : SendPc Msg} (h : pc.hasWritten = true) :
    pc.ownsSlot = true := by
  cases pc <;> first | rfl | cases h

theorem Undisturbed.wakeups {c : Channel Msg} (hu : Undisturbed c) : c.wakeups = 0 := by
  simp [Channel.wakeups, hu.destroyed, hu.destructor]

theorem countP_hasWritten_lt {sends : List (SendPc Msg)} {i : Nat} {msg : Msg}
    (hpc : sends[i]? = some (.inside msg)) :
    sends.countP SendPc.hasWritten + 1 ≤ sends.countP SendPc.ownsSlot := by
  have hslot := Pool.countP_set_add SendPc.ownsSlot hpc .returned
  have hwritten := Pool.countP_set_add SendPc.hasWritten hpc .returned
  have hle : (sends.set i .returned).countP SendPc.hasWritten ≤
      (sends.set i .returned).countP SendPc.ownsSlot :=
    List.countP_mono_left fun pc _ hpc' => pc.ownsSlot_of_hasWritten hpc'
  simp only [SendPc.ownsSlot, SendPc.hasWritten, Bool.toNat_true, Bool.toNat_false] at hslot hwritten
  omega

/-- A sender in front of its `strcpy` finds no unread message in the buffer. -/
theorem fresh_of_inside {c : Channel Msg} (hc : Conserved c) (hu : Undisturbed c)
    {i : Nat} {msg : Msg} (hpc : c.sends[i]? = some (.inside msg)) : c.fresh = false := by
  have hslot := hc.slot
  have hfresh := hu.fresh
  have hlt := countP_hasWritten_lt hpc
  rw [hu.wakeups] at hslot
  have hread : (c.receiver.any ReceivePc.hasToRead).toNat ≤
      (c.receiver.any ReceivePc.ownsSlot).toNat := by
    cases hr : c.receiver with
    | none => simp
    | some pc => cases pc <;> simp [ReceivePc.hasToRead, ReceivePc.ownsSlot]
  cases hf : c.fresh with
  | false => rfl
  | true =>
    rw [hf, Bool.toNat_true] at hfresh
    omega

/-- The receive thread in front of its read finds an unread message. -/
theorem fresh_of_construct {c : Channel Msg} (hu : Undisturbed c)
    (hpc : c.receiver = some .construct) : c.fresh = true := by
  have hfresh := hu.fresh
  simp only [hpc, Option.any_some, ReceivePc.hasToRead, Bool.toNat_true] at hfresh
  cases hf : c.fresh with
  | true => rfl
  | false =>
    rw [hf, Bool.toNat_false] at hfresh
    omega

private theorem Undisturbed.set_send {c : Channel Msg} (hu : Undisturbed c) {i : Nat} {x : SendPc Msg}
    (hpc : c.sends[i]? = some x) (y : SendPc Msg) (buf : SharedBuffer)
    (hfull : buf.semFull + y.hasWritten.toNat = c.buf.semFull + x.hasWritten.toNat)
    (hshutdown : buf.shutdown = c.buf.shutdown) :
    Undisturbed { c with buf := buf, sends := c.sends.set i y } := by
  have hw := Pool.countP_set_add SendPc.hasWritten hpc y
  have hfresh := hu.fresh
  refine ⟨?_, hu.overwritten, hshutdown.trans hu.shutdown, hu.destructor, hu.destroyed⟩
  simp only
  omega

private theorem Undisturbed.set_receiver {c : Channel Msg} (hu : Undisturbed c) {x : ReceivePc}
    (hpc : c.receiver = some x) (y : ReceivePc) (buf : SharedBuffer)
    (hfull : buf.semFull + y.hasToRead.toNat = c.buf.semFull + x.hasToRead.toNat)
    (hshutdown : buf.shutdown = c.buf.shutdown) :
    Undisturbed { c with buf := buf, receiver := some y } := by
  have hfresh := hu.fresh
  simp only [hpc, Option.any_some] at hfresh
  refine ⟨?_, hu.overwritten, hshutdown.trans hu.shutdown, hu.destructor, hu.destroyed⟩
  simp only [Option.any_some]
  omega

theorem undisturbed_move {c t : Channel Msg} {a : Act Msg} (hc : Conserved c) (hu : Undisturbed c)
    (hlive : a ≠ .destroy) (h : Move serialize c a t) : Undisturbed t := by
  cases h with
  | call msg =>
    refine ⟨?_, hu.overwritten, hu.shutdown, hu.destructor, hu.destroyed⟩
    simpa [Pool.countP_append_single, SendPc.hasWritten] using hu.fresh
  | sendWaitEmpty i msg hpc hsem => exact hu.set_send hpc _ _ rfl rfl
  | sendWaitMutex i msg hpc hsem => exact hu.set_send hpc _ _ rfl rfl
  | sendThrows i msg exc hpc hpacket => exact hu.set_send hpc _ _ rfl rfl
  | sendWrites i msg json hpc hpacket =>
    have hempty := fresh_of_inside hc hu hpc
    have hw := Pool.countP_set_add SendPc.hasWritten hpc .postMutex
    have hfresh := hu.fresh
    simp only [hempty, SendPc.hasWritten, Bool.toNat_true, Bool.toNat_false] at hw hfresh
    refine ⟨?_, by simp [hu.overwritten, hempty], hu.shutdown, hu.destructor, hu.destroyed⟩
    simp only [Bool.toNat_true]
    omega
  | sendPostMutex i hpc => exact hu.set_send hpc _ _ rfl rfl
  | sendPostFull i hpc => exact hu.set_send hpc _ _ rfl rfl
  | receiveWaitFull outcome hpc hsem =>
    refine hu.set_receiver hpc _ _ ?_ rfl
    simp only [ReceivePc.hasToRead, Bool.toNat_true, Bool.toNat_false]
    omega
  | receiveWaitMutex outcome hpc hsem => exact hu.set_receiver hpc _ _ rfl rfl
  | receiveStops outcome hpc hshutdown =>
    rw [hu.shutdown] at hshutdown
    cases hshutdown
  | receiveProceeds outcome hpc hshutdown => exact hu.set_receiver hpc _ _ rfl rfl
  | receiveConstructs outcome hpc =>
    have hfull := fresh_of_construct hu hpc
    have hfresh := hu.fresh
    simp only [hpc, hfull, Option.any_some, ReceivePc.hasToRead, Bool.toNat_true] at hfresh
    refine ⟨?_, hu.overwritten, hu.shutdown, hu.destructor, hu.destroyed⟩
    simp only [Option.any_some, ReceivePc.hasToRead, Bool.toNat_false]
    omega
  | receiveDispatches outcome hpc =>
    have h := hu.set_receiver hpc (.postMutex false) c.buf rfl rfl
    cases outcome with
    | ok _ => exact ⟨h.fresh, h.overwritten, h.shutdown, h.destructor, h.destroyed⟩
    | error exc =>
      simp only [Channel.report]
      split <;> exact ⟨h.fresh, h.overwritten, h.shutdown, h.destructor, h.destroyed⟩
  | receivePostMutex outcome stop hpc => exact hu.set_receiver hpc _ _ rfl rfl
  | receivePostEmpty outcome stop hpc =>
    refine hu.set_receiver hpc _ _ ?_ rfl
    cases stop <;> rfl
  | attach excHandler hreceiver hdestructor =>
    refine ⟨?_, hu.overwritten, hu.shutdown, hu.destructor, hu.destroyed⟩
    simpa [hreceiver, ReceivePc.hasToRead] using hu.fresh
  | destroy hreceiver hdestructor => exact absurd rfl hlive
  | destructorPostFull hpc => simp [hu.destructor] at hpc
  | destructorJoins hpc hreceiver => simp [hu.destructor] at hpc
  | destructorClears hpc => simp [hu.destructor] at hpc

/-! ### The channel is a one-place buffer -/

def Channel.abstract (c : Channel Msg) : OnePlaceBuffer.State Str where
  slot := if c.fresh then some (cstr c.buf.buffer) else none
  put := c.written.map cstr
  taken := c.received

/-- The relation between a channel and the buffer it implements, with what the proof needs to know of the channel. -/
def Implements (c : Channel Msg) (u : OnePlaceBuffer.State Str) : Prop :=
  Conserved c ∧ Undisturbed c ∧ u = c.abstract

theorem implements_init (attached excHandler : Bool) :
    Implements (Channel.init Msg attached excHandler) OnePlaceBuffer.init :=
  ⟨conserved_init attached excHandler, undisturbed_init attached excHandler, rfl⟩

/-- The move a sender makes with its `strcpy` puts its text into the abstract buffer. -/
theorem abstract_write {c : Channel Msg} (hempty : c.fresh = false) (json : Str) :
    OnePlaceBuffer.step c.abstract (.put (cstr json)) =
      some ⟨some (cstr json), c.written.map cstr ++ [cstr json], c.received⟩ := by
  simp [Channel.abstract, OnePlaceBuffer.step, hempty]

/-- The move the receive thread makes with its read takes the text out of the abstract buffer. -/
theorem abstract_read {c : Channel Msg} (hfull : c.fresh = true) :
    OnePlaceBuffer.step c.abstract .take =
      some ⟨none, c.written.map cstr, c.received ++ [cstr c.buf.buffer]⟩ := by
  simp [Channel.abstract, OnePlaceBuffer.step, hfull]

theorem simulates_onePlaceBuffer :
    Simulates (Channel.step serialize) (fun _ a => a ≠ .destroy) OnePlaceBuffer.step
      (@Implements Msg) := by
  rintro c a t u ⟨hc, hu, rfl⟩ hlive hstep
  have hmove := move_of_step hstep
  have hct := conserved_move hc hmove
  have hut := undisturbed_move hc hu hlive hmove
  refine ⟨t.abstract, ?_, hct, hut, rfl⟩
  cases hmove with
  | sendWrites i msg json hpc hpacket =>
    refine .single (a := .put (cstr json)) ?_
    rw [abstract_write (fresh_of_inside hc hu hpc)]
    simp [Channel.abstract]
  | receiveConstructs outcome hpc =>
    refine .single (a := .take) ?_
    rw [abstract_read (fresh_of_construct hu hpc)]
    simp [Channel.abstract]
  | receiveDispatches outcome hpc =>
    cases outcome with
    | ok _ => exact .refl _
    | error exc =>
      simp only [Channel.report]
      split <;> exact .refl _
  | _ => exact .refl _

/-- Everything written was read, in order, but for the text the buffer still holds. -/
theorem written_eq_received {attached excHandler : Bool} {acts : List (Act Msg)} {c : Channel Msg}
    (hrun : run (Channel.step serialize) (.init Msg attached excHandler) acts = some c)
    (hlive : ∀ a ∈ acts, a ≠ .destroy) :
    Conserved c ∧ Undisturbed c ∧ OnePlaceBuffer.HandsOff c.abstract ∧
      c.received <+: c.written.map cstr ∧ c.written.length ≤ c.received.length + 1 := by
  obtain ⟨u, hreach, hc, hu, rfl⟩ :=
    simulates_onePlaceBuffer.run (implements_init attached excHandler)
    (along_of_forall_mem (fun a ha _ => hlive a ha) _) hrun
  have hprefix := OnePlaceBuffer.taken_prefix_put hreach
  simp only [Channel.abstract, List.length_map] at hprefix
  exact ⟨hc, hu, OnePlaceBuffer.handsOff_of_reaches hreach, hprefix⟩

/-! ### What is written -/

def SendPc.msg? : SendPc Msg → Option Msg
  | .waitEmpty msg | .waitMutex msg | .inside msg => some msg
  | .postMutex | .postFull | .returned | .thrown _ => none

/-- Every message under way, and every text written, comes from a message that satisfies `P`. -/
structure Carries (serialize : Msg → Except Exception Str) (P : Msg → Prop)
    (c : Channel Msg) : Prop where
  calls : ∀ pc ∈ c.sends, ∀ msg, pc.msg? = some msg → P msg
  texts : ∀ json ∈ c.written, ∃ msg, P msg ∧ packet serialize msg = .ok json

private theorem Carries.set_send {P : Msg → Prop} {c : Channel Msg}
    (hcar : Carries serialize P c) {i : Nat} {y : SendPc Msg}
    (hy : ∀ msg, y.msg? = some msg → P msg) :
    ∀ pc ∈ c.sends.set i y, ∀ msg, pc.msg? = some msg → P msg := by
  intro pc hpc
  rcases List.mem_or_eq_of_mem_set hpc with hold | rfl
  · exact hcar.calls pc hold
  · exact hy

theorem carries_move {P : Msg → Prop} {c t : Channel Msg} {a : Act Msg} (hcar : Carries serialize P c)
    (hcall : ∀ msg, a = .call msg → P msg) (h : Move serialize c a t) : Carries serialize P t := by
  have hmsg : ∀ {i : Nat} {pc : SendPc Msg} {msg : Msg}, c.sends[i]? = some pc →
      pc.msg? = some msg → P msg :=
    fun hpc => hcar.calls _ (List.mem_of_getElem? hpc) _
  cases h with
  | call msg =>
    refine ⟨fun pc hpc msg' hmsg' => ?_, hcar.texts⟩
    rcases List.mem_append.1 hpc with hold | hnew
    · exact hcar.calls pc hold msg' hmsg'
    · rw [List.mem_singleton] at hnew
      subst hnew
      exact hcall msg' (by simpa [SendPc.msg?] using hmsg')
  | sendWaitEmpty i msg hpc hsem =>
    refine ⟨hcar.set_send fun msg' h => ?_, hcar.texts⟩
    exact hmsg hpc h
  | sendWaitMutex i msg hpc hsem =>
    refine ⟨hcar.set_send fun msg' h => ?_, hcar.texts⟩
    exact hmsg hpc h
  | sendThrows i msg exc hpc hpacket => exact ⟨hcar.set_send (by simp [SendPc.msg?]), hcar.texts⟩
  | sendWrites i msg json hpc hpacket =>
    refine ⟨hcar.set_send (by simp [SendPc.msg?]), fun text htext => ?_⟩
    rcases List.mem_append.1 htext with hold | hnew
    · exact hcar.texts text hold
    · rw [List.mem_singleton] at hnew
      subst hnew
      exact ⟨msg, hmsg hpc rfl, hpacket⟩
  | sendPostMutex i hpc => exact ⟨hcar.set_send (by simp [SendPc.msg?]), hcar.texts⟩
  | sendPostFull i hpc => exact ⟨hcar.set_send (by simp [SendPc.msg?]), hcar.texts⟩
  | receiveDispatches outcome hpc =>
    cases outcome with
    | ok _ => exact ⟨hcar.calls, hcar.texts⟩
    | error exc =>
      simp only [Channel.report]
      split <;> exact ⟨hcar.calls, hcar.texts⟩
  | _ => exact ⟨hcar.calls, hcar.texts⟩

/-- The texts of a run are the serialised messages of its calls. -/
theorem carries_run {attached excHandler : Bool} {acts : List (Act Msg)} {c : Channel Msg}
    (hrun : run (Channel.step serialize) (.init Msg attached excHandler) acts = some c) :
    Carries serialize (fun msg => .call msg ∈ acts) c := by
  refine invariant_along _ (fun _ a => a ∈ acts)
    (fun s a t hs ha hstep => carries_move hs (fun msg hmsg => hmsg ▸ ha) (move_of_step hstep)) ?_
    (along_of_forall_mem (fun a ha _ => ha) _) hrun
  exact ⟨by simp [Channel.init], by simp [Channel.init]⟩

/-! ### Exactly-once, in order -/

/-- The call is between `mutex.wait` and `mutex.post`. -/
def SendPc.inCritical : SendPc Msg → Bool
  | .inside _ | .postMutex => true
  | .waitEmpty _ | .waitMutex _ | .postFull | .returned | .thrown _ => false

theorem countP_inCritical_le (sends : List (SendPc Msg)) :
    sends.countP SendPc.inCritical ≤ sends.countP SendPc.ownsMutex :=
  List.countP_mono_left fun pc _ h => by cases pc <;> first | rfl | cases h

/-- **The hand-off.** Any number of concurrent calls of `send`, one receive thread, any interleaving of their semaphore operations and buffer accesses, any outcome of the processing of a received string: the critical section is exclusive, no sender writes over an unread message, and the strings handed to `MessageFactory::construct` are the serialised messages in the order they were written, with at most one still to come. -/
theorem handOff_exactly_once {attached excHandler : Bool} {acts : List (Act Msg)} {c : Channel Msg}
    (hrun : run (Channel.step serialize) (.init Msg attached excHandler) acts = some c)
    (hlive : ∀ a ∈ acts, a ≠ .destroy)
    (hmsgs : ∀ msg, .call msg ∈ acts → ∃ json, serialize msg = .ok json ∧
      json.length ≤ 4095 ∧ 0 ∉ json) :
    c.sends.countP SendPc.inCritical + (c.receiver.any ReceivePc.ownsMutex).toNat ≤ 1 ∧
      (∀ (i : Nat) (msg : Msg), c.sends[i]? = some (.inside msg) → c.fresh = false) ∧
      c.overwritten = false ∧
      c.received <+: c.written ∧
      c.written.length ≤ c.received.length + 1 ∧
      ∀ json ∈ c.written, ∃ msg, .call msg ∈ acts ∧ serialize msg = .ok json := by
  obtain ⟨hc, hu, _, hprefix, hlen⟩ := written_eq_received hrun hlive
  have hcar := carries_run hrun
  have hsame : c.written.map cstr = c.written := by
    refine List.map_congr_left (fun json hjson => ?_) |>.trans (List.map_id _)
    obtain ⟨msg, hcall, hpacket⟩ := hcar.texts json hjson
    obtain ⟨text, htext, _, hnul⟩ := hmsgs msg hcall
    obtain rfl : text = json := Except.ok.inj (htext.symm.trans (packet_eq_ok.1 hpacket).1)
    exact cstr_eq_self hnul
  rw [hsame] at hprefix
  refine ⟨?_, fun i msg hpc => fresh_of_inside hc hu hpc, hu.overwritten, hprefix, hlen,
    fun json hjson => ?_⟩
  · have hmutex := hc.mutex
    have hle := countP_inCritical_le c.sends
    omega
  · obtain ⟨msg, hcall, hpacket⟩ := hcar.texts json hjson
    exact ⟨msg, hcall, (packet_eq_ok.1 hpacket).1⟩

/-- Two threads call `send`. The second one is served first, and when the receive thread has rejected its message, the first one writes. -/
def sendTwo (first second : Str) : List (Act Str) :=
  [.call first, .call second] ++ List.replicate 5 (.send 1) ++
    List.replicate 7 (.receive (.error (.dataFormatException (ascii "invalid IPC JSON data")))) ++
      List.replicate 3 (.send 0)

theorem handOff_exactly_once_sendTwo :
    ∃ c, run (Channel.step Except.ok) (.init Str true true)
      (sendTwo (ascii "{}") (ascii "[]")) = some c ∧
      c.written = [ascii "[]", ascii "{}"] ∧ c.received = [ascii "[]"] ∧
      c.sends.countP SendPc.inCritical + (c.receiver.any ReceivePc.ownsMutex).toNat ≤ 1 ∧
      c.overwritten = false ∧
      c.received <+: c.written ∧ c.written.length ≤ c.received.length + 1 := by
  obtain ⟨c, hrun, htexts⟩ := exists_of_any_run (Channel.step Except.ok) (.init Str true true)
    (sendTwo (ascii "{}") (ascii "[]"))
    (fun c => decide (c.written = [ascii "[]", ascii "{}"] ∧ c.received = [ascii "[]"]))
      (by decide +kernel)
  obtain ⟨hwritten, hreceived⟩ := of_decide_eq_true htexts
  obtain ⟨hmutex, -, hkept, hprefix, hlen, -⟩ := handOff_exactly_once hrun
    (by simp [sendTwo])
    (by
      intro msg hmsg
      obtain rfl | rfl : msg = ascii "{}" ∨ msg = ascii "[]" := by
        simpa [sendTwo, List.mem_replicate] using hmsg
      · exact ⟨_, rfl, by decide, by decide⟩
      · exact ⟨_, rfl, by decide, by decide⟩)
  exact ⟨c, hrun, hwritten, hreceived, hmutex, hkept, hprefix, hlen⟩

end Libesf.Ipc

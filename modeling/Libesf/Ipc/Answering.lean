import Libesf.Ipc.Progress
import Libesf.Ipc.Session

/-!
# Every call is answered

The threads do what the action protocol does, so what holds of the protocol holds of what can be seen of them: identifiers tell requests apart, and a response handler is called with what the handler of the server returned for that request.

What a session does not show by itself is that it goes on. A potential bounds the steps that one call of `async` can cause, and in a state in which no thread can take a step nothing is on its way any more. There every request that was passed to `send` has been answered, or was of a type the server did not know.
-/

namespace Libesf.Ipc

open Transition

variable {A Params Result : Type}

/-! ### What can be seen of a session -/

theorem Event.mem_asked {seen : List (Event A Params Result)} {req : Request A Params} :
    req ∈ seen.filterMap asked? ↔ .asked req ∈ seen :=
  Pool.mem_filterMap_iff fun e => by cases e <;> simp [asked?]

theorem Event.mem_handled {seen : List (Event A Params Result)} {req : Request A Params}
    {result : ResponseOrError Result} :
    (req, result) ∈ seen.filterMap handled? ↔ .handled req result ∈ seen :=
  Pool.mem_filterMap_iff fun e => by cases e <;> simp [handled?]

theorem Event.mem_invoked {seen : List (Event A Params Result)} {action : A} {id : Str}
    {result : ResponseOrError Result} :
    (action, id, result) ∈ seen.filterMap invoked? ↔ .invoked action id result ∈ seen :=
  Pool.mem_filterMap_iff fun e => by cases e <;> simp [invoked?]

variable [DecidableEq A] [Inhabited Result]

namespace Actions

variable {s t : Actions A Params Result} {a : ActionsAct A Params Result}

theorem handled_asked_step (h : Wf s) (hasked : ∀ entry ∈ s.handled, s.Asked entry.1)
    (hstep : s.step a = some t) : ∀ entry ∈ t.handled, t.Asked entry.1 := by
  have hmove := move_of_step hstep
  have hkept : ∀ entry ∈ s.handled, t.Asked entry.1 := fun entry hmem =>
    asked_mono hmove (hasked entry hmem)
  cases hmove with
  | handlerReturns i result req hw =>
    intro entry hmem
    obtain hold | rfl := List.mem_append.1 hmem |>.imp_right List.mem_singleton.1
    · exact hkept entry hold
    · exact asked_mono (.handlerReturns i result req hw)
        (h.provenance.workers _ (List.mem_of_getElem? hw)).1
  | _ => exact hkept

/-- No handler of the server is called for a request nobody sent. -/
theorem handled_asked (hreach : Reaches step (.init A Params Result) s) :
    ∀ entry ∈ s.handled, s.Asked entry.1 := by
  obtain ⟨acts, hrun⟩ := hreach
  exact (invariant_run (fun s => Wf s ∧ ∀ entry ∈ s.handled, s.Asked entry.1)
    (fun _ _ _ h hstep => ⟨wf_step h.1 hstep, handled_asked_step h.1 h.2 hstep⟩)
      ⟨wf_init, nofun⟩ hrun).2

omit [Inhabited Result] in
theorem count_asked (calls : List (Call A Params)) (k : Key A) :
    ((calls.filterMap Call.asked?).map Request.key).count k = calls.countP (Call.sentAs k) := by
  rw [List.count, List.countP_map, List.countP_filterMap]
  refine List.countP_congr fun call _ => ?_
  rw [Call.asked?, Call.sentAs]
  cases call.pc.sentId with
  | none => simp
  | some id => simp [Request.key, Prod.ext_iff]

omit [Inhabited Result] in
/-- The requests that were sent have a key each. -/
theorem Placed.nodup_asked (h : Placed s) :
    ((s.calls.filterMap Call.asked?).map Request.key).Nodup := by
  rw [List.nodup_iff_count_le_one]
  intro k
  rw [count_asked]
  exact h.countP_sentAs_le_one k

end Actions

/-- What can be seen of a session: no identifier is asked, handled or answered twice, what is handled was asked, a response handler is called with the result for its own identifier and type, and a response that is looked up is found. -/
structure Conversation (s : ActionThreads A Params Result)
    (seen : List (Event A Params Result)) : Prop where
  askedOnce : ((seen.filterMap Event.asked?).map Request.key).Nodup
  handledOnce : ((seen.filterMap Event.handled?).map fun entry => entry.1.key).Nodup
  handled : ∀ req result, .handled req result ∈ seen → .asked req ∈ seen
  invokedOnce : ((seen.filterMap Event.invoked?).map fun entry => (entry.1, entry.2.1)).Nodup
  invoked : ∀ action id result, .invoked action id result ∈ seen → ∃ params result',
    .handled ⟨action, id, params⟩ result' ∈ seen ∧ result = (ResponseData.ofResult id result').result
  found : ∀ resp, s.slotPc = .find resp → s.activeHandlers resp.key = true

namespace Refines

variable {codec : Codec A Params Result} {s : ActionThreads A Params Result}
    {callers : Option Nat → Option (CallThread A Params)}
  {seen : List (Event A Params Result)} {u : Actions A Params Result}

theorem asked_of_handled (h : Refines codec s callers seen u)
    (hreach : Reaches Actions.step (.init A Params Result) u) {req : Request A Params}
    {result : ResponseOrError Result} (hmem : .handled req result ∈ seen) : .asked req ∈ seen := by
  rw [← Event.mem_handled, ← h.handled] at hmem
  obtain ⟨i, call, hcall, haction, hparams, hsent⟩ := Actions.handled_asked hreach _ hmem
  refine Event.mem_asked.1
    (h.asked.mem_iff.1 (List.mem_filterMap.2 ⟨call, List.mem_of_getElem? hcall, ?_⟩))
  rw [Call.asked?, hsent, haction, hparams]
  rfl

theorem keys_invoked (h : Refines codec s callers seen u) :
    ((seen.filterMap Event.invoked?).map fun entry => (entry.1, entry.2.1)) =
      u.invoked.map Invocation.key := by
  rw [← h.invoked, List.map_map]
  rfl

theorem conversation (h : Refines codec s callers seen u)
    (hreach : Reaches Actions.step (.init A Params Result) u) : Conversation s seen where
  askedOnce := (h.asked.map Request.key).nodup_iff.1 h.wf.placed.nodup_asked
  handledOnce := h.handled ▸ h.wf.correlated.handledOnce
  handled _ _ hmem := h.asked_of_handled hreach hmem
  invokedOnce := by
    rw [h.keys_invoked]
    refine Pool.nodup_map_of_countP_le_one fun k => le_trans ?_ (h.wf.placed.sent_le_one k)
    rw [Actions.settled, Nat.add_assoc, Nat.add_assoc]
    exact le_trans (Nat.le_add_right _ _) (Nat.le_add_left _ _)
  invoked action id result hmem := by
    rw [← Event.mem_invoked, ← h.invoked] at hmem
    obtain ⟨inv, hinv, heq⟩ := List.mem_map.1 hmem
    obtain ⟨call, result', hcall, haction, hpc, hhandled, hresult⟩ := h.wf.provenance.invoked inv hinv
    obtain ⟨rfl, hrest⟩ := Prod.mk.inj heq
    obtain ⟨rfl, rfl⟩ := Prod.mk.inj hrest
    refine ⟨call.params, result', ?_, hresult⟩
    rw [← Event.mem_handled, ← h.handled, ← haction]
    exact hhandled
  found resp hpc := by
    have hhandler : u.handlerPc = .find resp := by rw [h.handlerPc, hpc]; rfl
    exact h.activeHandlers _ (h.wf.registered.awaited resp.key
      (Actions.inFlight_pos_of_holding (by rw [hhandler]; rfl)))

end Refines

/-- What the threads do without meeting at a map, the protocol does. -/
theorem exists_refines_of_defined {codec : Codec A Params Result} (hcodec : codec.Restores)
    {serverExcHandler clientExcHandler : Bool} {acts : List (ThreadsAct A Params Result)}
    {s : ActionThreads A Params Result}
    (hfresh :
      ((trace (ActionThreads.definedStep codec) (ActionThreads.emits codec)
        (.init A Params Result serverExcHandler clientExcHandler) acts).filterMap
          Event.generatedId?).Nodup)
    (hrun : run (ActionThreads.definedStep codec)
      (.init A Params Result serverExcHandler clientExcHandler) acts = some s) :
    ∃ u, Reaches Actions.step (.init A Params Result) u ∧ Refines codec s s.caller?
      (trace (ActionThreads.definedStep codec) (ActionThreads.emits codec)
        (.init A Params Result serverExcHandler clientExcHandler) acts) u := by
  have hle := ActionThreads.step_of_definedStep codec
  rw [trace_of_le hle _ hrun] at hfresh ⊢
  exact exists_refines hcodec hfresh (run_of_le hle hrun)

/-- **The threads keep the protocol.** In a run of the threads of one client and one server endpoint that do not meet at an unlocked map, with any number of calls of `async` from outside and from response handlers, of any number of action types, with handlers that return in any order and response handlers that may throw, and with sends that may throw: if `generateId` does not repeat itself, the action protocol has a run that stands where the threads stand and has the same record, and so no identifier is asked, handled or answered twice and each response handler is called with the result of its own request. -/
theorem conversation_run {codec : Codec A Params Result} (hcodec : codec.Restores)
    {serverExcHandler clientExcHandler : Bool} {acts : List (ThreadsAct A Params Result)}
    {s : ActionThreads A Params Result}
    (hfresh :
      ((trace (ActionThreads.definedStep codec) (ActionThreads.emits codec)
        (.init A Params Result serverExcHandler clientExcHandler) acts).filterMap
          Event.generatedId?).Nodup)
    (hrun : run (ActionThreads.definedStep codec)
      (.init A Params Result serverExcHandler clientExcHandler) acts = some s) :
    (∃ u, Reaches Actions.step (.init A Params Result) u ∧ Refines codec s s.caller?
      (trace (ActionThreads.definedStep codec) (ActionThreads.emits codec)
        (.init A Params Result serverExcHandler clientExcHandler) acts) u) ∧
    Conversation s (trace (ActionThreads.definedStep codec) (ActionThreads.emits codec)
      (.init A Params Result serverExcHandler clientExcHandler) acts) := by
  obtain ⟨u, hreach, h⟩ := exists_refines_of_defined hcodec hfresh hrun
  exact ⟨⟨u, hreach, h⟩, h.conversation hreach⟩

/-- `MessageFactory` on the messages of `askOther`, and throwing on all others. -/
def Codec.askOther : Codec Nat Str Str :=
  { Codec.sample with
    serializeRequest := fun req =>
      if req ∈ [Request.mk 0 (ascii "1") (ascii "a"), Request.mk 1 (ascii "2") (ascii "b")] then
        .ok (Codec.requestText req)
      else .error (.json (ascii "not encodable"))
    serializeResponse := fun resp =>
      if resp ∈ [Response.mk 0 (.ofResponse (ascii "1") (ascii "c")),
        Response.mk 1 (.ofResponse (ascii "2") (ascii "d"))] then
        .ok (Codec.responseText resp)
      else .error (.json (ascii "not encodable")) }

theorem Codec.restores_askOther : Codec.askOther.Restores where
  request req json h := by
    have hjson := (packet_eq_ok.1 h).1
    simp only [Codec.askOther] at hjson
    split at hjson
    · next hmem =>
      obtain rfl := Except.ok.inj hjson
      simp only [List.mem_cons, List.not_mem_nil, or_false] at hmem
      obtain rfl | rfl := hmem <;> decide +kernel
    · cases hjson
  response resp json h := by
    have hjson := (packet_eq_ok.1 h).1
    simp only [Codec.askOther] at hjson
    split at hjson
    · next hmem =>
      obtain rfl := Except.ok.inj hjson
      simp only [List.mem_cons, List.not_mem_nil, or_false] at hmem
      obtain rfl | rfl := hmem <;> decide +kernel
    · cases hjson

/-- A response handler asks for another action type. -/
theorem conversation_run_askOther :
    ∃ s, run (ActionThreads.definedStep Codec.askOther) (.init Nat Str Str true true)
      ActionThreads.askOther = some s ∧
      s.down.received.length = 2 ∧ Conversation s (trace (ActionThreads.definedStep Codec.askOther)
        (ActionThreads.emits Codec.askOther)
        (.init Nat Str Str true true) ActionThreads.askOther) := by
  obtain ⟨s, hrun, hreceived⟩ :=
    exists_of_any_run (ActionThreads.definedStep Codec.askOther) (.init Nat Str Str true true)
    ActionThreads.askOther (fun s => decide (s.down.received.length = 2)) (by decide +kernel)
  exact ⟨s, hrun, of_decide_eq_true hreceived,
    (conversation_run Codec.restores_askOther (by decide +kernel) hrun).2⟩

/-! ### At rest -/

omit [DecidableEq A] [Inhabited Result] in
/-- A receive thread that waits is in no slot. -/
theorem Quiescent.receiver_ne_dispatch {Msg : Type} {c : Channel Msg} (h : Quiescent c) :
    c.receiver ≠ some .dispatch := by
  intro hdispatch
  obtain hnone | hwait := h.receiver
  · exact absurd (hnone.symm.trans hdispatch) nofun
  · exact ReceivePc.noConfusion (Option.some.inj (hwait.symm.trans hdispatch))

/-- Nothing is left: every call of `async` has returned, no mutex is held, the buffers hold nothing that was not read and nobody is at them, the server has no thread and the client's receive thread is in no slot. -/
structure ActionThreads.Idle (s : ActionThreads A Params Result) : Prop where
  returned : ∀ call ∈ s.calls, call.pc = .finished
  unlocked : ∀ action, s.locked action = false
  up : Quiescent s.up
  upRead : s.up.fresh = false
  down : Quiescent s.down
  downRead : s.down.fresh = false
  workers : s.workers = []
  slotPc : s.slotPc = .idle

/-- When no thread can take a step, nothing is left. -/
theorem ActionThreads.Ordered.idle {codec : Codec A Params Result}
    {s : ActionThreads A Params Result} (h : s.Ordered) (hstuck : ¬ s.Enabled codec) : s.Idle where
  returned _ hcall := h.finished hstuck hcall
  unlocked action := by
    refine Bool.eq_false_iff.2 fun hlocked => ?_
    have hholds := h.slot_holds hstuck hlocked
    rw [h.slot_idle hstuck] at hholds
    exact hholds
  up := (h.up_quiescent hstuck).1
  upRead := (h.up_quiescent hstuck).2.1
  down := (h.down_quiescent hstuck).1
  downRead := (h.down_quiescent hstuck).2.1
  workers := List.eq_nil_iff_forall_not_mem.2 (h.no_worker hstuck)
  slotPc := h.slot_idle hstuck

namespace Refines

variable {codec : Codec A Params Result} {s : ActionThreads A Params Result}
    {seen : List (Event A Params Result)}
  {u : Actions A Params Result}

/-- Where nothing is under way, no request is either. -/
theorem inFlight_eq_zero (h : Refines codec s s.caller? seen u) (hidle : s.Idle) (k : Key A) :
    u.inFlight k = 0 := by
  have hrequests := h.requests
  rw [Channel.undispatched, decide_eq_false hidle.up.receiver_ne_dispatch] at hrequests
  have hresponses := h.responses
  rw [Channel.undispatched, decide_eq_false hidle.down.receiver_ne_dispatch,
    Bool.false_and] at hresponses
  have hworkers := h.workers
  rw [hidle.workers, List.filterMap_nil] at hworkers
  rw [Actions.inFlight, hrequests.eq_nil_of_quiescent hidle.up hidle.upRead,
    hresponses.eq_nil_of_quiescent hidle.down hidle.downRead, hworkers.eq_nil, h.handlerPc,
    hidle.slotPc]
  rfl

/-- Every request is where it was answered or refused. -/
theorem settled_perm (h : Refines codec s s.caller? seen u) (hrest : ∀ k, u.inFlight k = 0) :
    ((seen.filterMap Event.asked?).map Request.key).Perm
      (((seen.filterMap Event.invoked?).map fun entry => (entry.1, entry.2.1)) ++
        (seen.filterMap Event.unserved?).map Request.key) := by
  refine ((h.asked.map Request.key).symm.trans ?_)
  rw [h.keys_invoked, ← h.unserved, List.perm_iff_count]
  intro k
  have hplaced := h.wf.placed.placed k
  rw [hrest k, Actions.settled, h.wf.registered.routed, h.wf.registered.noBadActionId, Nat.zero_add,
    List.countP_nil, Nat.add_zero] at hplaced
  rw [Actions.count_asked, ← hplaced, List.count_append, List.count_eq_countP, List.count_eq_countP,
    List.countP_map, List.countP_map]
  refine congrArg₂ (· + ·) (List.countP_congr fun inv _ => ?_) (List.countP_congr fun req _ => ?_)
  · simp [Invocation.is]
  · simp [Request.is]

end Refines

def SendPc.isReturned {Msg : Type} : SendPc Msg → Bool
  | .returned => true
  | _ => false

/-- No call is under way, and both receive threads wait for a text. -/
def ActionThreads.resting (s : ActionThreads A Params Result) : Bool :=
  s.calls.all (·.pc = .finished) && s.up.sends.all SendPc.isReturned &&
    s.up.receiver = some .waitFull && s.up.buf.semFull = 0 &&
    s.workers.isEmpty && s.down.sends.all SendPc.isReturned && s.down.receiver = some .waitFull &&
    s.down.buf.semFull = 0 &&
    s.slotPc.isIdle

omit [DecidableEq A] [Inhabited Result] in
theorem eq_returned_of_isReturned {Msg : Type} {pc : SendPc Msg} (h : pc.isReturned = true) :
    pc = .returned := by
  cases pc with
  | returned => rfl
  | _ => cases h

/-- There no thread can take a step. -/
theorem ActionThreads.not_enabled_of_resting (codec : Codec A Params Result)
    {s : ActionThreads A Params Result} (h : s.resting = true) : ¬ s.Enabled codec := by
  simp only [resting, Bool.and_eq_true, List.all_eq_true, decide_eq_true_eq, List.isEmpty_iff] at h
  obtain ⟨⟨⟨⟨⟨⟨⟨⟨hcalls, hup⟩, hserver⟩, hupEmpty⟩, hworkers⟩, hdown⟩, hclient⟩, hdownEmpty⟩,
      hslot⟩ := h
  have hidle : s.slotPc = .idle := by
    cases hpc : s.slotPc with
    | idle => rfl
    | _ =>
      rw [hpc] at hslot
      cases hslot
  rintro ⟨a, t, ha, ht⟩
  cases a with
  | async | registerAction | handlerCalls => cases ha
  | call i id =>
    obtain ⟨call, hcall, hstep⟩ := Option.bind_eq_some_iff.1 ht
    simp [callStep, hcalls call (List.mem_of_getElem? hcall)] at hstep
  | sendRequest entry =>
    simp [ActionThreads.step, Channel.step, sendStep_eq_none fun pc hpc =>
      eq_returned_of_isReturned (hup pc hpc)] at ht
  | serverReceive =>
    simp [ActionThreads.step, serverReceive, receiveUp, Channel.step, Channel.receiveStep, hserver,
      hupEmpty] at ht
  | serverHandlerReturns i result => simp [ActionThreads.step, hworkers] at ht
  | respond i => simp [ActionThreads.step, workerStep, hworkers] at ht
  | sendResponse entry =>
    simp [ActionThreads.step, Channel.step, sendStep_eq_none fun pc hpc =>
      eq_returned_of_isReturned (hdown pc hpc)] at ht
  | clientReceive =>
    simp [ActionThreads.step, clientReceive, hidle, receiveDown, Channel.step, Channel.receiveStep,
      hclient, hdownEmpty] at ht
  | handle => simp [ActionThreads.step, handle, hidle] at ht
  | nestedCall id => simp [ActionThreads.step, hidle] at ht
  | handlerReturns throws => simp [ActionThreads.step, hidle] at ht

/-- A run in which every `send` completes and no response handler waits for itself leaves nothing behind where it stops. -/
theorem idle_of_rest {codec : Codec A Params Result} {serverExcHandler clientExcHandler : Bool}
    {acts : List (ThreadsAct A Params Result)} {s : ActionThreads A Params Result}
    (hsends : Along (ActionThreads.definedStep codec) (fun s a => s.completes codec a = true)
      (.init A Params Result serverExcHandler clientExcHandler) acts)
    (hforeign : Along (ActionThreads.definedStep codec) (fun s a => s.callsForeign a = true)
      (.init A Params Result serverExcHandler clientExcHandler) acts)
    (hrun : run (ActionThreads.definedStep codec)
      (.init A Params Result serverExcHandler clientExcHandler) acts = some s)
    (hrest : ¬ s.Enabled codec) : s.Idle := by
  have hle := ActionThreads.step_of_definedStep codec
  have hordered : s.Ordered :=
    invariant_along ActionThreads.Ordered _ (fun s a t h hC => h.step s a t hC.1 hC.2)
    (ActionThreads.ordered_init serverExcHandler clientExcHandler)
    ((along_of_le hle hrun hsends).and (along_of_le hle hrun hforeign)) (run_of_le hle hrun)
  exact hordered.idle hrest

/-- **At rest every request is settled.** In a run of threads that do not meet at an unlocked map, in which no `send` throws and no response handler calls `async` of its own action type: when no thread can take a step any more, every call of `async` has returned, nothing is left in a buffer, a server thread or a slot, and each request that was sent has either had its response handler called, once, or was refused because the server did not know its type. -/
theorem settled_at_rest {codec : Codec A Params Result} (hcodec : codec.Restores)
    {serverExcHandler clientExcHandler : Bool} {acts : List (ThreadsAct A Params Result)}
    {s : ActionThreads A Params Result}
    (hsends : Along (ActionThreads.definedStep codec) (fun s a => s.completes codec a = true)
      (.init A Params Result serverExcHandler clientExcHandler) acts)
    (hforeign : Along (ActionThreads.definedStep codec) (fun s a => s.callsForeign a = true)
      (.init A Params Result serverExcHandler clientExcHandler) acts)
    (hfresh :
      ((trace (ActionThreads.definedStep codec) (ActionThreads.emits codec)
        (.init A Params Result serverExcHandler clientExcHandler) acts).filterMap
          Event.generatedId?).Nodup)
    (hrun : run (ActionThreads.definedStep codec)
      (.init A Params Result serverExcHandler clientExcHandler) acts = some s)
    (hrest : ¬ s.Enabled codec) {seen : List (Event A Params Result)}
    (hseen : trace (ActionThreads.definedStep codec) (ActionThreads.emits codec)
      (.init A Params Result serverExcHandler clientExcHandler) acts = seen) :
    s.Idle ∧ ((seen.filterMap Event.asked?).map Request.key).Perm
      (((seen.filterMap Event.invoked?).map fun entry => (entry.1, entry.2.1)) ++
        (seen.filterMap Event.unserved?).map Request.key) := by
  have hidle := idle_of_rest hsends hforeign hrun hrest
  obtain ⟨u, -, h⟩ := exists_refines_of_defined hcodec hfresh hrun
  rw [hseen] at h
  exact ⟨hidle, h.settled_perm (h.inFlight_eq_zero hidle)⟩

/-- Both requests of the session are answered. -/
theorem settled_at_rest_askOther :
    ∃ s, run (ActionThreads.definedStep Codec.askOther) (.init Nat Str Str true true)
        ActionThreads.askOther = some s ∧
      ¬ s.Enabled Codec.askOther ∧ s.Idle ∧ ∃ seen,
        trace (ActionThreads.definedStep Codec.askOther) (ActionThreads.emits Codec.askOther)
          (.init Nat Str Str true true) ActionThreads.askOther = seen ∧
        (seen.filterMap Event.asked?).map Request.key = [(0, ascii "1"), (1, ascii "2")] ∧
        ((seen.filterMap Event.asked?).map Request.key).Perm
          (((seen.filterMap Event.invoked?).map fun entry => (entry.1, entry.2.1)) ++
            (seen.filterMap Event.unserved?).map Request.key) := by
  obtain ⟨s, hrun, hrest⟩ :=
    exists_of_any_run (ActionThreads.definedStep Codec.askOther) (.init Nat Str Str true true)
    ActionThreads.askOther (fun s => s.resting) (by decide +kernel)
  have hstuck := ActionThreads.not_enabled_of_resting Codec.askOther hrest
  obtain ⟨hidle, hperm⟩ := settled_at_rest Codec.restores_askOther (by decide +kernel)
    (by decide +kernel) (by decide +kernel) hrun hstuck rfl
  exact ⟨s, hrun, hstuck, hidle, _, rfl, by decide +kernel, hperm⟩

/-! ### How long it takes -/

/-- The steps a call of `send` and what comes after it can still take, with `m` of them behind the receive thread. -/
def SendPc.work {Msg : Type} (m : Nat) : SendPc Msg → Nat
  | .waitEmpty _ => m + 12
  | .waitMutex _ => m + 11
  | .inside _ => m + 10
  | .postMutex => m + 9
  | .postFull => m + 8
  | .returned | .thrown _ => 0

/-- The steps the receive thread can take before it waits again, with `d` of them in the slot it calls. -/
def ReceivePc.work (m d : Nat) : ReceivePc → Nat
  | .waitFull | .finished => 0
  | .waitMutex => m + 6
  | .checkShutdown => m + 5
  | .construct => m + 4
  | .dispatch => d + 3
  | .postMutex _ => 2
  | .postEmpty _ => 1

def Channel.work {Msg : Type} (m d : Nat) (c : Channel Msg) : Nat :=
  (c.sends.map (SendPc.work m)).sum + c.buf.semFull * (m + 7) +
    (c.receiver.map (ReceivePc.work m d)).getD 0

section

variable {Msg : Type} {serialize : Msg → Except Exception Str} {c t : Channel Msg} {m d : Nat}

theorem Channel.work_call {msg : Msg} (h : c.step serialize (.call msg) = some t) :
    t.work m d = c.work m d + (m + 12) := by
  rw [← Option.some.inj h, work, work, List.map_append, List.sum_append]
  simp only [List.map_cons, List.map_nil, List.sum_cons, List.sum_nil, SendPc.work]
  omega

theorem Channel.work_send {i : Nat} (h : c.step serialize (.send i) = some t) :
    t.work m d + 1 ≤ c.work m d := by
  have hset : ∀ {x y : SendPc Msg}, c.sends[i]? = some x →
      ((c.sends.set i y).map (SendPc.work m)).sum + x.work m =
        (c.sends.map (SendPc.work m)).sum + y.work m :=
    fun hx => Pool.sum_map_set_add (SendPc.work m) hx _
  cases move_of_step h with
  | sendWaitEmpty _ msg hpc hsem =>
    have hsum := hset (y := .waitMutex msg) hpc
    simp only [work, SendPc.work] at hsum ⊢
    omega
  | sendWaitMutex _ msg hpc hsem =>
    have hsum := hset (y := .inside msg) hpc
    simp only [work, SendPc.work] at hsum ⊢
    omega
  | sendThrows _ msg exc hpc hpacket =>
    have hsum := hset (y := .thrown exc) hpc
    simp only [work, SendPc.work] at hsum ⊢
    omega
  | sendWrites _ msg json hpc hpacket =>
    have hsum := hset (y := .postMutex) hpc
    simp only [work, SendPc.work] at hsum ⊢
    omega
  | sendPostMutex _ hpc =>
    have hsum := hset (y := .postFull) hpc
    simp only [work, SendPc.work] at hsum ⊢
    omega
  | sendPostFull _ hpc =>
    have hsum := hset (y := .returned) hpc
    simp only [work, SendPc.work, Nat.add_mul] at hsum ⊢
    omega

/-- A step of the receive thread between two slots. -/
theorem Channel.work_receive {outcome : Except RecoverableException Unit}
    (hpc : c.receiver ≠ some .dispatch) (h : c.step serialize (.receive outcome) = some t) :
    t.work m m + 1 ≤ c.work m m := by
  cases move_of_step h with
  | receiveWaitFull _ hreceiver hsem =>
    obtain ⟨n, hn⟩ := Nat.exists_eq_add_one.2 hsem
    simp only [work, hreceiver, Option.map_some, Option.getD_some, ReceivePc.work, hn,
      Nat.add_sub_cancel, Nat.add_mul]
    omega
  | receiveDispatches _ hreceiver => exact absurd hreceiver hpc
  | receivePostEmpty _ stop hreceiver =>
    simp only [work, hreceiver, Option.map_some, Option.getD_some, ReceivePc.work]
    cases stop <;> simp only [if_true, if_false, Bool.false_eq_true] <;> omega
  | receiveWaitMutex _ hreceiver hsem | receiveStops _ hreceiver hshutdown
  | receiveProceeds _ hreceiver hshutdown
  | receiveConstructs _ hreceiver | receivePostMutex _ stop hreceiver =>
    simp only [work, hreceiver, Option.map_some, Option.getD_some, ReceivePc.work]
    omega

/-- The slot that was called is left. -/
theorem Channel.work_dispatch {outcome : Except RecoverableException Unit}
    (hpc : c.receiver = some .dispatch) (h : c.step serialize (.receive outcome) = some t)
    (d' : Nat) : t.work m d' + d + 1 ≤ c.work m d := by
  have hsame : (c.report outcome).sends = c.sends ∧ (c.report outcome).buf = c.buf := by
    cases outcome with
    | ok _ => exact ⟨rfl, rfl⟩
    | error exc =>
      rw [report]
      split <;> exact ⟨rfl, rfl⟩
  simp only [step, receiveStep, hpc, Option.some.injEq] at h
  rw [← h, work, work, hsame.1, hsame.2, hpc]
  simp only [Option.map_some, Option.getD_some, ReceivePc.work]
  omega

/-- In the slot that is called, what is left of it is left to the receive thread. -/
theorem Channel.work_of_dispatch (hpc : c.receiver = some .dispatch) (d d' : Nat) :
    c.work m d + d' = c.work m d' + d := by
  rw [work, work, hpc]
  simp only [Option.map_some, Option.getD_some, ReceivePc.work]
  omega

end

/-- The steps a call of `async` can cause, on both sides. -/
def CallPc.work : CallPc → Nat
  | .lock => 40
  | .generateId => 39
  | .registerSlot _ => 38
  | .insertHandler _ => 37
  | .send _ => 36
  | .sending _ => 2
  | .unlock => 1
  | .finished => 0

def ServerPc.work : ServerPc Result → Nat
  | .handling => 21
  | .send _ => 20
  | .sending _ => 1

def SlotPc.work : SlotPc A Params Result → Nat
  | .idle => 6
  | .lock _ => 5
  | .find _ => 4
  | .running _ => 3
  | .nested _ call => 3 + call.pc.work
  | .erase _ => 2
  | .unlock _ => 1

/-- A call from outside or from a response handler. -/
def ThreadsAct.asks : ThreadsAct A Params Result → Bool
  | .async _ _ | .handlerCalls _ _ => true
  | _ => false

namespace ActionThreads

variable {codec : Codec A Params Result} {s t : ActionThreads A Params Result}

/-- What is left to do. A request leaves 21 steps behind the server's receive thread and a response 6 behind the client's. -/
def work (s : ActionThreads A Params Result) : Nat :=
  (s.calls.map fun call => call.pc.work).sum + s.up.work 21 21 +
    (s.workers.map fun w => w.pc.work).sum +
    s.down.work 6 s.slotPc.work

omit [DecidableEq A] [Inhabited Result] in
theorem work_init (serverExcHandler clientExcHandler : Bool) :
    (init A Params Result serverExcHandler clientExcHandler).work = 0 := rfl

omit [Inhabited Result] in
theorem callStep_work {call call' : CallThread A Params} {id : Str}
    (h : s.callStep codec call id = some (t, call')) :
    call'.pc.work + t.up.work 21 21 + 1 ≤ call.pc.work + s.up.work 21 21 := by
  unfold callStep at h
  cases hpc : call.pc with
  | send newId =>
    simp only [hpc] at h
    obtain ⟨up, hup, h⟩ := Option.bind_eq_some_iff.1 h
    obtain ⟨rfl, rfl⟩ := Prod.mk.inj (Option.some.inj h)
    have hcall : up.work 21 21 = s.up.work 21 21 + (21 + 12) := Channel.work_call hup
    simp only [CallPc.work]
    omega
  | lock =>
    simp only [hpc] at h
    split at h
    · cases h
    · obtain ⟨rfl, rfl⟩ := Prod.mk.inj (Option.some.inj h)
      simp only [CallPc.work]
      omega
  | sending entry =>
    simp only [hpc] at h
    split at h
    · obtain ⟨rfl, rfl⟩ := Prod.mk.inj (Option.some.inj h)
      simp only [CallPc.work]
      omega
    · obtain ⟨rfl, rfl⟩ := Prod.mk.inj (Option.some.inj h)
      simp only [CallPc.work]
      omega
    · cases h
  | finished =>
    simp only [hpc] at h
    cases h
  | generateId | registerSlot newId | insertHandler newId | unlock =>
    simp only [hpc] at h
    obtain ⟨rfl, rfl⟩ := Prod.mk.inj (Option.some.inj h)
    simp only [CallPc.work]
    omega

omit [Inhabited Result] in
theorem callStep_keeps {call call' : CallThread A Params} {id : Str}
    (h : s.callStep codec call id = some (t, call')) :
    t.calls = s.calls ∧ t.workers = s.workers ∧ t.down = s.down ∧ t.slotPc = s.slotPc :=
  have hmove := callMove_of_callStep h
  ⟨hmove.calls, hmove.workers, hmove.down, hmove.slotPc⟩

omit [DecidableEq A] [Inhabited Result] in
/-- The server's receive thread leaves its slot. -/
theorem receiveUp_work {outcome : Except RecoverableException Unit}
    (hpc : s.up.receiver = some .dispatch) (h : s.receiveUp codec outcome = some t) :
    t.work + 22 ≤ s.work := by
  obtain ⟨up, hup, ht⟩ := Option.bind_eq_some_iff.1 h
  obtain rfl := Option.some.inj ht
  have hup := Channel.work_dispatch (m := 21) (d := 21) hpc hup 21
  simp only [work]
  omega

omit [DecidableEq A] [Inhabited Result] in
theorem work_serves (req : Request A Params) :
    ({ s with workers := s.workers ++ [⟨req, .handling⟩] } : ActionThreads A Params Result).work =
      s.work + 21 := by
  simp only [work, List.map_append, List.map_cons, List.map_nil, List.sum_append, List.sum_cons,
    List.sum_nil, ServerPc.work]
  omega

omit [DecidableEq A] [Inhabited Result] in
theorem serverReceive_work (h : s.serverReceive codec = some t) : t.work + 1 ≤ s.work := by
  rw [serverReceive] at h
  split at h
  · next hpc =>
    split at h
    · exact le_trans (Nat.add_le_add_left (by decide) _) (receiveUp_work hpc h)
    · next req _ =>
      split at h
      · have hleft :=
          receiveUp_work (s := { s with workers := s.workers ++ [⟨req, .handling⟩] }) hpc h
        rw [work_serves] at hleft
        exact Nat.le_of_add_le_add_right (b := 21) hleft
      · exact le_trans (Nat.add_le_add_left (by decide) _) (receiveUp_work hpc h)
  · next hpc =>
    obtain ⟨up, hup, ht⟩ := Option.bind_eq_some_iff.1 h
    obtain rfl := Option.some.inj ht
    have hup := Channel.work_receive (m := 21) hpc hup
    simp only [work]
    omega

omit [DecidableEq A] in
theorem workerStep_work {i : Nat} (h : s.workerStep codec i = some t) : t.work + 1 ≤ s.work := by
  obtain ⟨w, hw, h⟩ := Option.bind_eq_some_iff.1 h
  obtain ⟨req, pc⟩ := w
  cases pc with
  | handling => cases h
  | send result =>
    obtain ⟨down, hdown, ht⟩ := Option.bind_eq_some_iff.1 h
    obtain rfl := Option.some.inj ht
    have hcall : down.work 6 s.slotPc.work = s.down.work 6 s.slotPc.work + (6 + 12) :=
      Channel.work_call hdown
    have hsum := Pool.sum_map_set_add (fun w => w.pc.work) hw ⟨req, .sending s.down.sends.length⟩
    simp only [work, ServerPc.work] at hsum ⊢
    omega
  | sending entry =>
    dsimp only at h
    split at h
    · obtain rfl := Option.some.inj h
      have hsum := ((Pool.perm_cons_eraseIdx hw).map fun w => w.pc.work).sum_eq
      rw [List.map_cons, List.sum_cons] at hsum
      change _ = 1 + _ at hsum
      simp only [work]
      omega
    · cases h

omit [DecidableEq A] [Inhabited Result] in
/-- The client's receive thread leaves its slot, with something of it left. -/
theorem receiveDown_work {outcome : Except RecoverableException Unit}
    (hpc : s.down.receiver = some .dispatch) (h : s.receiveDown codec outcome = some t) :
    t.work + s.slotPc.work + 1 ≤ s.work := by
  obtain ⟨down, hdown, ht⟩ := Option.bind_eq_some_iff.1 h
  obtain rfl := Option.some.inj ht
  have hdown := Channel.work_dispatch (m := 6) (d := s.slotPc.work) hpc hdown 6
  change _ + _ + _ + down.work 6 6 + _ + 1 ≤ _ + _ + _ + s.down.work 6 s.slotPc.work
  dsimp only
  omega

omit [DecidableEq A] [Inhabited Result] in
theorem clientReceive_work (h : s.clientReceive codec = some t) : t.work + 1 ≤ s.work := by
  rw [clientReceive] at h
  split at h
  · next hidle =>
    split at h
    · next hpc =>
      split at h
      · exact le_trans (Nat.add_le_add_right (Nat.le_add_right _ _) 1) (receiveDown_work hpc h)
      · split at h
        · obtain rfl := Option.some.inj h
          have hslot := Channel.work_of_dispatch (m := 6) hpc 6 5
          simp only [work, hidle, SlotPc.work]
          omega
        · exact le_trans (Nat.add_le_add_right (Nat.le_add_right _ _) 1) (receiveDown_work hpc h)
    · next hpc =>
      obtain ⟨down, hdown, ht⟩ := Option.bind_eq_some_iff.1 h
      obtain rfl := Option.some.inj ht
      have hdown := Channel.work_receive (m := 6) hpc hdown
      simp only [work, hidle, SlotPc.work]
      omega
  · cases h

omit [DecidableEq A] [Inhabited Result] in
/-- The slot gets on. -/
theorem work_slot (hpc : s.down.receiver = some .dispatch) (slotPc : SlotPc A Params Result) :
    ({ s with slotPc } : ActionThreads A Params Result).work + s.slotPc.work =
      s.work + slotPc.work := by
  have hslot := Channel.work_of_dispatch (m := 6) hpc slotPc.work s.slotPc.work
  simp only [work]
  omega

omit [Inhabited Result] in
theorem handle_work (hpc : s.down.receiver = some .dispatch) (h : s.handle codec = some t) :
    t.work + 1 ≤ s.work := by
  rw [handle] at h
  split at h
  · next resp hslot =>
    split at h
    · cases h
    · obtain rfl := Option.some.inj h
      have hwork := work_slot hpc (.find resp)
      rw [hslot] at hwork
      simp only [SlotPc.work] at hwork
      exact Nat.le_of_add_le_add_right (b := 4) (le_of_eq hwork)
  · next resp hslot =>
    split at h
    · obtain rfl := Option.some.inj h
      have hwork := work_slot hpc (.running resp)
      rw [hslot] at hwork
      simp only [SlotPc.work] at hwork
      omega
    · exact le_trans (Nat.add_le_add_right (Nat.le_add_right _ _) 1)
        (receiveDown_work (s := s.release resp.action) hpc h)
  · next resp hslot =>
    obtain rfl := Option.some.inj h
    have hwork := work_slot hpc (.unlock resp)
    rw [hslot] at hwork
    simp only [SlotPc.work] at hwork
    exact Nat.le_of_add_le_add_right (b := 1) (le_of_eq hwork)
  · next resp hslot =>
    exact le_trans (Nat.add_le_add_right (Nat.le_add_right _ _) 1)
      (receiveDown_work (s := s.release resp.action) hpc h)
  all_goals cases h

/-- Between two calls of a slot, the receive thread is not in one. -/
def Dispatching (s : ActionThreads A Params Result) : Prop :=
  s.slotPc ≠ .idle → s.down.receiver = some .dispatch

theorem dispatching_step {a : ThreadsAct A Params Result} (h : s.Dispatching)
    (hstep : s.step codec a = some t) : t.Dispatching := by
  cases move_of_step hstep with
  | call i id call call' u hcall hmove =>
    intro hslot
    dsimp only at hslot ⊢
    rw [hmove.slotPc] at hslot
    rw [hmove.down]
    exact h hslot
  | workerSends i req result down hw hdown =>
    intro hslot
    have hreceiver : down.receiver = s.down.receiver := by rw [← Option.some.inj hdown]
    exact hreceiver.trans (h hslot)
  | sendResponse entry down hdown => exact fun hslot => (receiver_eq_of_send hdown).trans (h hslot)
  | clientReceive | slotLeft => exact fun hslot => absurd rfl hslot
  | slotCalled resp hidle hdispatch => exact fun _ => hdispatch
  | nestedCall id resp call call' u hpc hmove =>
    intro _
    dsimp only
    rw [hmove.down]
    exact h (by rw [hpc]; exact nofun)
  | slotLocks resp hpc | slotFinds resp hpc | slotErases resp hpc | handlerCalls _ _ resp hpc
  | handlerReturns resp hpc =>
    exact fun _ => h (by rw [hpc]; exact nofun)
  | _ => exact h

theorem work_step {a : ThreadsAct A Params Result} (h : s.Dispatching)
    (hstep : s.step codec a = some t) : t.work + a.internal.toNat ≤ s.work + 40 * a.asks.toNat := by
  cases a with
  | async action params =>
    obtain rfl := Option.some.inj hstep
    simp only [work, List.map_append, List.map_cons, List.map_nil, List.sum_append, List.sum_cons,
      List.sum_nil, CallPc.work, ThreadsAct.internal, ThreadsAct.asks, Bool.toNat_true,
      Bool.toNat_false]
    omega
  | registerAction action =>
    obtain rfl := Option.some.inj hstep
    exact le_rfl
  | call i id =>
    obtain ⟨call, hcall, hstep⟩ := Option.bind_eq_some_iff.1 hstep
    obtain ⟨⟨u, call'⟩, hcallStep, hstep⟩ := Option.bind_eq_some_iff.1 hstep
    obtain rfl := Option.some.inj hstep
    have hwork := callStep_work hcallStep
    obtain ⟨hcalls, hworkers, hdown, hslot⟩ := callStep_keeps hcallStep
    have hsum := Pool.sum_map_set_add (fun call => call.pc.work) hcall call'
    simp only [work, hcalls, hworkers, hdown, hslot, ThreadsAct.internal, ThreadsAct.asks,
      Bool.toNat_true, Bool.toNat_false] at hsum ⊢
    omega
  | sendRequest entry =>
    obtain ⟨up, hup, hstep⟩ := Option.bind_eq_some_iff.1 hstep
    obtain rfl := Option.some.inj hstep
    have hup := Channel.work_send (m := 21) (d := 21) hup
    simp only [work, ThreadsAct.internal, ThreadsAct.asks, Bool.toNat_true, Bool.toNat_false]
    omega
  | serverReceive => exact serverReceive_work hstep
  | serverHandlerReturns i result =>
    simp only [step] at hstep
    split at hstep
    · next req hw =>
      obtain rfl := Option.some.inj hstep
      have hsum := Pool.sum_map_set_add (fun w => w.pc.work) hw ⟨req, .send result⟩
      change _ + 21 = _ + 20 at hsum
      simp only [work, ThreadsAct.internal, ThreadsAct.asks, Bool.toNat_true, Bool.toNat_false]
      omega
    · cases hstep
  | respond i => exact workerStep_work hstep
  | sendResponse entry =>
    obtain ⟨down, hdown, hstep⟩ := Option.bind_eq_some_iff.1 hstep
    obtain rfl := Option.some.inj hstep
    have hdown := Channel.work_send (m := 6) (d := s.slotPc.work) hdown
    simp only [work, ThreadsAct.internal, ThreadsAct.asks, Bool.toNat_true, Bool.toNat_false]
    omega
  | clientReceive => exact clientReceive_work hstep
  | handle =>
    by_cases hidle : s.slotPc = .idle
    · rw [step, handle, hidle] at hstep
      cases hstep
    · exact handle_work (h hidle) hstep
  | handlerCalls action params =>
    simp only [step] at hstep
    split at hstep
    · next resp hslot =>
      obtain rfl := Option.some.inj hstep
      have hwork := work_slot (h (by simp [hslot])) (.nested resp ⟨action, params, .lock⟩)
      rw [hslot] at hwork
      simp only [SlotPc.work, CallPc.work] at hwork
      exact Nat.le_of_add_le_add_right (b := 3) (le_of_eq hwork)
    · cases hstep
  | nestedCall id =>
    simp only [step] at hstep
    split at hstep
    · next resp call hslot =>
      obtain ⟨⟨u, call'⟩, hcallStep, hstep⟩ := Option.bind_eq_some_iff.1 hstep
      have hwork := callStep_work hcallStep
      obtain ⟨hcalls, hworkers, hdown, hsame⟩ := callStep_keeps hcallStep
      have hdispatch : u.down.receiver = some .dispatch := hdown ▸ h (by simp [hslot])
      have hleft := work_slot hdispatch
        (if call'.pc = .finished then .running resp else .nested resp call')
      have hslotWork :
          (if call'.pc = .finished then SlotPc.running resp else .nested resp call').work =
            3 + call'.pc.work := by
        split
        · next hfinished => rw [hfinished]; rfl
        · rfl
      rw [hslotWork, hsame, hslot, Option.some.inj hstep] at hleft
      change _ + (3 + _) = _ at hleft
      have hu : u.work + s.up.work 21 21 = s.work + u.up.work 21 21 := by
        simp only [work, hcalls, hworkers, hdown, hsame]
        omega
      change t.work + 1 ≤ s.work
      omega
    · cases hstep
  | handlerReturns throws =>
    simp only [step] at hstep
    split at hstep
    · next resp hslot =>
      have hdispatch := h (by simp [hslot])
      cases throws with
      | none =>
        obtain rfl := Option.some.inj hstep
        have hwork := work_slot hdispatch (.erase resp)
        rw [hslot] at hwork
        exact Nat.le_of_add_le_add_right (b := 2) (le_of_eq hwork)
      | some exc =>
        exact le_trans (Nat.add_le_add_right (Nat.le_add_right _ _) 1)
          (receiveDown_work (s := s.release resp.action) hdispatch hstep)
    · cases hstep

/-- **The threads come to rest.** A call of `async` is good for at most 40 steps, on both sides together: in every run, whoever is scheduled and whatever the handlers and `MessageFactory` do, the threads have taken at most 40 steps for each call from outside or from a response handler, and so they always get to where no thread can take a step. -/
theorem internal_le_asks_run {serverExcHandler clientExcHandler : Bool}
    {acts : List (ThreadsAct A Params Result)}
    (hrun : run (step codec) (init A Params Result serverExcHandler clientExcHandler) acts = some s) :
    acts.countP ThreadsAct.internal ≤ 40 * acts.countP ThreadsAct.asks ∧
      ∃ rest t, (∀ a ∈ rest, a.internal = true) ∧ run (step codec) s rest = some t ∧
      ¬ t.Enabled codec := by
  have hinit : (init A Params Result serverExcHandler clientExcHandler).Dispatching :=
    fun hslot => absurd rfl hslot
  have hstep : ∀ (s : ActionThreads A Params Result) a t, Dispatching s → step codec s a = some t →
      Dispatching t ∧ work t + (ThreadsAct.internal a).toNat ≤
        work s + 40 * (ThreadsAct.asks a).toNat :=
    fun _ _ _ h hstep => ⟨dispatching_step h hstep, work_step h hstep⟩
  have hlower : ∀ (s : ActionThreads A Params Result) a t, Dispatching s →
      ThreadsAct.internal a = true → step codec s a = some t →
      Dispatching t ∧ work t < work s := by
    intro s a t h ha hst
    obtain ⟨ht, hwork⟩ := hstep s a t h hst
    have hasks : a.asks = false := by
      cases a with
      | async | handlerCalls => cases ha
      | _ => rfl
    rw [ha, hasks] at hwork
    exact ⟨ht, hwork⟩
  constructor
  · have hbound := countP_add_le_of_run hstep hinit hrun
    rw [work_init, Nat.zero_add] at hbound
    exact le_trans (Nat.le_add_left _ _) hbound
  · obtain ⟨rest, t, hrest, hrun', hdone⟩ :=
      exists_rest hlower (invariant_run Dispatching (fun _ _ _ => dispatching_step) hinit hrun)
    refine ⟨rest, t, hrest, hrun', ?_⟩
    rintro ⟨a, v, ha, hv⟩
    rw [hdone a ha] at hv
    cases hv

theorem internal_le_asks_run_askAgain :
    ∃ s, run (step Codec.sample) (init Nat Str Str true true) askAgain = some s ∧
      askAgain.countP ThreadsAct.internal ≤ 40 * askAgain.countP ThreadsAct.asks := by
  obtain ⟨s, hrun, -⟩ := exists_of_any_run (step Codec.sample) (init Nat Str Str true true) askAgain
    (fun _ => true) (by decide +kernel)
  exact ⟨s, hrun, (internal_le_asks_run hrun).1⟩

end ActionThreads

end Libesf.Ipc

import Libesf.Ipc.Placement

/-!
# Requests and responses belong together

A call stores its handler before it sends its request, and the receive thread erases it only after it has called it with the one response there is. Since identifiers do not repeat, a response finds the handler of its own call.
-/

namespace Libesf.Ipc

open Transition

variable {A Params Result : Type} [DecidableEq A]

namespace Actions

variable [Inhabited Result] {s t : Actions A Params Result} {a : ActionsAct A Params Result}

/-! ### Handlers -/

/-- A stored handler is of the call whose identifier it is stored under, and is there from before the request is sent until the receive thread has called it. -/
structure Registered (s : Actions A Params Result) : Prop where
  own : ∀ k (i : Nat), s.activeHandlers k = some i →
    ∃ call, s.calls[i]? = some call ∧ call.action = k.1 ∧ call.pc.id = some k.2
  sending : ∀ (i : Nat) (call : Call A Params) id, s.calls[i]? = some call → call.pc = .send id →
    s.activeHandlers (call.action, id) ≠ none
  awaited : ∀ k, 0 < s.inFlight k → s.activeHandlers k ≠ none
  erasing : ∀ resp, s.handlerPc = .erase resp → 0 < s.invoked.countP (Invocation.is resp.key)
  found : ∀ resp call, s.handlerPc = .invoke resp call → s.activeHandlers resp.key = some call
  slot : ∀ (i : Nat) (call : Call A Params), s.calls[i]? = some call → call.pc.registered = true →
    s.slots call.action = true
  routed : s.unrouted = []
  noBadActionId : s.badActionIds = []

omit [Inhabited Result] in
theorem registered_init : Registered (Actions.init A Params Result) where
  own := nofun
  sending := nofun
  awaited _ hpos := absurd hpos (lt_irrefl 0)
  erasing := nofun
  found := nofun
  slot := nofun
  routed := rfl
  noBadActionId := rfl

omit [Inhabited Result] in
theorem inFlight_pos_of_holding {resp : Response A Result} (hpc : s.handlerPc.holding = some resp) :
    0 < s.inFlight resp.key := by
  have hholds : s.handlerPc.holds resp.key = true := by
    rw [HandlerPc.holds, hpc]
    exact decide_eq_true rfl
  rw [inFlight, hholds, Bool.toNat_true]
  exact Nat.succ_pos _

omit [Inhabited Result] in
theorem inFlight_pos_of_response {i : Nat} {resp : Response A Result}
    (hresp : s.responses[i]? = some resp) : 0 < s.inFlight resp.key := by
  have hpos := Pool.countP_pos_of_getElem? (Response.is resp.key) hresp (decide_eq_true rfl)
  rw [inFlight]
  omega

/-- What a step does to the stored handlers: nothing, a call stores its own under an identifier that is nowhere, or the receive thread erases one it has called. -/
theorem handlers_of_move (h : Placed s) (hreg : Registered s) (hmove : Move s a t) :
    t.activeHandlers = s.activeHandlers ∨
      (∃ (i : Nat) (call : Call A Params) (id : Str), s.calls[i]? = some call ∧ call.pc.id = some id ∧
        s.inFlight (call.action, id) = 0 ∧
        t.activeHandlers = Function.update s.activeHandlers (call.action, id) (some i)) ∨
      ∃ k, s.inFlight k = 0 ∧ 0 < s.settled k ∧
      t.activeHandlers = Function.update s.activeHandlers k none := by
  cases hmove with
  | callInsertsHandler i newId call id hcall hpc =>
    have hid : call.pc.id = some id := by rw [hpc]; rfl
    have hnowhere := h.nowhere hcall hid (by rw [hpc]; rfl) call.action
    exact .inr (.inl ⟨i, call, id, hcall, hid, Nat.eq_zero_of_add_eq_zero_right hnowhere, rfl⟩)
  | handlerErases resp hpc =>
    have hinvoked := hreg.erasing resp hpc
    have hle := h.sent_le_one resp.key
    have hsettled : 0 < s.settled resp.key := by
      rw [settled]
      omega
    exact .inr (.inr ⟨resp.key, by omega, hsettled, rfl⟩)
  | _ => exact .inl rfl

theorem own_move (h : Placed s) (hreg : Registered s) (hmove : Move s a t) (k : Key A) (i : Nat)
    (hi : t.activeHandlers k = some i) : ∃ call, t.calls[i]? = some call ∧ call.action = k.1 ∧
    call.pc.id = some k.2 := by
  have hkept : ∀ call, s.calls[i]? = some call → call.action = k.1 → call.pc.id = some k.2 →
      ∃ call, t.calls[i]? = some call ∧ call.action = k.1 ∧ call.pc.id = some k.2 := by
    intro call hcall haction hid
    obtain ⟨pc, hafter, hkeeps, _⟩ := call_after hmove hcall
    exact ⟨_, hafter, haction, hkeeps _ hid⟩
  obtain heq | ⟨j, call, id, hcall, hid, _, heq⟩ | ⟨k', _, _, heq⟩ := handlers_of_move h hreg hmove
  · obtain ⟨call, hcall, haction, hid⟩ := hreg.own k i (heq ▸ hi)
    exact hkept call hcall haction hid
  · rw [heq] at hi
    by_cases hk : k = (call.action, id)
    · subst hk
      rw [Function.update_self] at hi
      obtain rfl := Option.some.inj hi
      exact hkept call hcall rfl hid
    · rw [Function.update_of_ne hk] at hi
      obtain ⟨call, hcall, haction, hid⟩ := hreg.own k i hi
      exact hkept call hcall haction hid
  · rw [heq] at hi
    by_cases hk : k = k'
    · subst hk
      rw [Function.update_self] at hi
      cases hi
    · rw [Function.update_of_ne hk] at hi
      obtain ⟨call, hcall, haction, hid⟩ := hreg.own k i hi
      exact hkept call hcall haction hid

/-- A handler stays stored until its request is done with. -/
theorem stored_move (h : Placed s) (hreg : Registered s) (hmove : Move s a t) {k : Key A}
    (hstored : s.activeHandlers k ≠ none) (hopen : s.settled k = 0) : t.activeHandlers k ≠ none := by
  obtain heq | ⟨j, call, id, _, _, _, heq⟩ | ⟨k', _, hdone, heq⟩ := handlers_of_move h hreg hmove
  · rw [heq]
    exact hstored
  · rw [heq]
    by_cases hk : k = (call.action, id)
    · rw [hk, Function.update_self]
      nofun
    · rw [Function.update_of_ne hk]
      exact hstored
  · have hk : k ≠ k' := fun hk => by
      rw [hk] at hopen
      omega
    rw [heq, Function.update_of_ne hk]
    exact hstored

theorem sending_move (h : Placed s) (hreg : Registered s) (hmove : Move s a t) (i : Nat)
    (call : Call A Params) (id : Str) (hcall : t.calls[i]? = some call) (hpc : call.pc = .send id) :
    t.activeHandlers (call.action, id) ≠ none := by
  obtain hold | hnew | ⟨old, haction, hon⟩ := call_before hmove hcall
  · have hnowhere := h.nowhere hold (by rw [hpc]; rfl) (by rw [hpc]; rfl) call.action
    exact stored_move h hreg hmove (hreg.sending i call id hold hpc)
      (Nat.eq_zero_of_add_eq_zero_left hnowhere)
  · rw [hnew] at hpc
    cases hpc
  · rw [haction, hon.stored id hpc]
    nofun

theorem awaited_move (h : Placed s) (hreg : Registered s) (hmove : Move s a t) (k : Key A)
    (hpos : 0 < t.inFlight k) : t.activeHandlers k ≠ none := by
  obtain hle | ⟨i, call, id, hcall, hpc, rfl, heq⟩ := inFlight_move h hmove k
  · have hone := h.sent_le_one k
    exact stored_move h hreg hmove (hreg.awaited k (by omega)) (by omega)
  · rw [heq]
    exact hreg.sending i call id hcall hpc

theorem erasing_move (hreg : Registered s) (hmove : Move s a t) (resp : Response A Result)
    (hpc' : t.handlerPc = .erase resp) : 0 < t.invoked.countP (Invocation.is resp.key) := by
  cases hmove with
  | handlerInvokes resp' call hpc =>
    obtain rfl := HandlerPc.erase.inj hpc'
    have hsame : Invocation.is resp'.key ⟨call, resp'.action, resp'.data.result,
        resp'.data.id⟩ = true :=
      decide_eq_true rfl
    rw [Pool.countP_append_single, hsame]
    exact Nat.succ_pos _
  | responseRouted i resp' hresp hpc hslot => cases hpc'
  | responseUnrouted i resp' hresp hpc hslot => cases hpc'
  | handlerLocks resp' hpc hfree => cases hpc'
  | handlerFinds resp' call hpc hfound => cases hpc'
  | handlerThrows resp' hpc hmissing => cases hpc'
  | handlerErases resp' hpc => cases hpc'
  | handlerUnlocks action hpc => cases hpc'
  | _ => exact hreg.erasing resp hpc'

theorem found_move (h : Placed s) (hreg : Registered s) (hmove : Move s a t)
    (resp : Response A Result) (i : Nat) (hpc' : t.handlerPc = .invoke resp i) :
    t.activeHandlers resp.key = some i := by
  cases hmove with
  | handlerFinds resp' call hpc hfound =>
    cases hpc'
    exact hfound
  | callInsertsHandler j newId call id hcall hpc =>
    have hpos : 0 < s.inFlight resp.key :=
      inFlight_pos_of_holding (by rw [show s.handlerPc = _ from hpc']; rfl)
    have hnowhere := h.nowhere hcall (by rw [hpc]; rfl) (by rw [hpc]; rfl) call.action
    have hne : resp.key ≠ (call.action, id) := fun heq => by
      rw [heq] at hpos
      omega
    exact (Function.update_of_ne hne _ _).trans (hreg.found resp i hpc')
  | responseRouted i resp' hresp hpc hslot => cases hpc'
  | responseUnrouted i resp' hresp hpc hslot => cases hpc'
  | handlerLocks resp' hpc hfree => cases hpc'
  | handlerThrows resp' hpc hmissing => cases hpc'
  | handlerInvokes resp' call hpc => cases hpc'
  | handlerErases resp' hpc => cases hpc'
  | handlerUnlocks action hpc => cases hpc'
  | _ => exact hreg.found resp i hpc'

theorem slots_mono (hmove : Move s a t) {b : A} (hslot : s.slots b = true) : t.slots b = true := by
  cases hmove with
  | callRegistersSlot i newId call id hcall hpc =>
    by_cases hb : b = call.action
    · rw [hb]
      exact Function.update_self ..
    · exact (Function.update_of_ne hb _ _).trans hslot
  | _ => exact hslot

theorem slot_move (hreg : Registered s) (hmove : Move s a t) (i : Nat) (call : Call A Params)
    (hcall : t.calls[i]? = some call) (hregistered : call.pc.registered = true) :
    t.slots call.action = true := by
  obtain hold | hnew | ⟨old, haction, hon⟩ := call_before hmove hcall
  · exact slots_mono hmove (hreg.slot i call hold hregistered)
  · rw [hnew] at hregistered
    cases hregistered
  · rw [haction]
    obtain hbefore | hnow := hon.slot hregistered
    · exact slots_mono hmove (hreg.slot i old hon.was hbefore)
    · exact hnow

theorem routed_move (h : Placed s) (hreg : Registered s) (hmove : Move s a t) : t.unrouted = [] := by
  cases hmove with
  | responseUnrouted i resp hresp hpc hslot =>
    have hpos := inFlight_pos_of_response hresp
    obtain ⟨j, call, hcall, haction, hsent⟩ := h.exists_sent (k := resp.key) (by omega)
    have hset := hreg.slot j call hcall (AsyncPc.registered_of_sentId hsent)
    rw [haction] at hset
    exact absurd hset (by rw [show s.slots resp.key.1 = false from hslot]; nofun)
  | _ => exact hreg.routed

theorem noBadActionId_move (hreg : Registered s) (hmove : Move s a t) : t.badActionIds = [] := by
  cases hmove with
  | handlerThrows resp hpc hmissing =>
    exact absurd hmissing (hreg.awaited resp.key (inFlight_pos_of_holding (by rw [hpc]; rfl)))
  | _ => exact hreg.noBadActionId

theorem registered_move (h : Placed s) (hreg : Registered s) (hmove : Move s a t) : Registered t :=
  ⟨own_move h hreg hmove, sending_move h hreg hmove, awaited_move h hreg hmove,
    erasing_move hreg hmove, found_move h hreg hmove, slot_move hreg hmove,
    routed_move h hreg hmove, noBadActionId_move hreg hmove⟩

/-! ### Whose a response is -/

def Asked (s : Actions A Params Result) (req : Request A Params) : Prop :=
  ∃ (i : Nat) (call : Call A Params), s.calls[i]? = some call ∧ call.action = req.action ∧
    call.params = req.params ∧
    call.pc.sentId = some req.id

/-- The response is made from what the handler of the server returned for a request that a call has sent. -/
def Answered (s : Actions A Params Result) (resp : Response A Result) : Prop :=
  ∃ req result, s.Asked req ∧ (req, result) ∈ s.handled ∧ resp = ⟨req.action, .ofResult req.id result⟩

/-- The handler is that of a call which has returned the identifier, and it is called with what the handler of the server returned for the parameters of that call. -/
def Own (s : Actions A Params Result) (inv : Invocation A Result) : Prop :=
  ∃ call result, s.calls[inv.call]? = some call ∧ call.action = inv.action ∧
    call.pc = .returned inv.id ∧
    (⟨call.action, inv.id, call.params⟩, result) ∈ s.handled ∧
    inv.result = (ResponseData.ofResult inv.id result).result

structure Provenance (s : Actions A Params Result) : Prop where
  requests : ∀ req ∈ s.requests, s.Asked req
  workers : ∀ w ∈ s.workers, s.Asked w.request ∧ ∀ result, w.result = some result →
    (w.request, result) ∈ s.handled
  responses : ∀ resp ∈ s.responses, s.Answered resp
  holding : ∀ resp, s.handlerPc.holding = some resp → s.Answered resp
  invoked : ∀ inv ∈ s.invoked, s.Own inv

omit [DecidableEq A] in
theorem provenance_init : Provenance (Actions.init A Params Result) where
  requests := nofun
  workers := nofun
  responses := nofun
  holding := nofun
  invoked := nofun

theorem asked_mono (hmove : Move s a t) {req : Request A Params} (hasked : s.Asked req) :
    t.Asked req := by
  obtain ⟨i, call, hcall, haction, hparams, hsent⟩ := hasked
  obtain ⟨pc, hafter, _, hkeeps⟩ := call_after hmove hcall
  exact ⟨i, _, hafter, haction, hparams, (hkeeps _ hsent).1⟩

theorem handled_mono (hmove : Move s a t) {entry : Request A Params × ResponseOrError Result}
    (hmem : entry ∈ s.handled) : entry ∈ t.handled := by
  cases hmove with
  | handlerReturns i result req hw => exact List.mem_append_left _ hmem
  | _ => exact hmem

theorem answered_mono (hmove : Move s a t) {resp : Response A Result}
    (hanswered : s.Answered resp) : t.Answered resp := by
  obtain ⟨req, result, hasked, hmem, rfl⟩ := hanswered
  exact ⟨req, result, asked_mono hmove hasked, handled_mono hmove hmem, rfl⟩

theorem own_mono (hmove : Move s a t) {inv : Invocation A Result} (hown : s.Own inv) : t.Own inv := by
  obtain ⟨call, result, hcall, haction, hpc, hmem, hresult⟩ := hown
  obtain ⟨pc, hafter, _, hkeeps⟩ := call_after hmove hcall
  have hreturned := (hkeeps inv.id (by rw [hpc]; rfl)).2 hpc
  exact ⟨_, result, hafter, haction, hreturned, handled_mono hmove hmem, hresult⟩

omit [Inhabited Result] in
/-- While the receive thread has the mutex of a type, no call of that type is between taking and leaving it. -/
theorem holdsMutex_of_mutexOf (h : Placed s) {b : A} (hmutex : s.handlerPc.mutexOf = some b) {i : Nat}
    {call : Call A Params} (hcall : s.calls[i]? = some call) (haction : call.action = b) :
    call.pc.holdsMutex = false := by
  have howners := h.mutex b
  have hle := Bool.toNat_le (s.locked b)
  rw [hmutex, decide_eq_true rfl, Bool.toNat_true] at howners
  have hzero : s.calls.countP (Call.holdsMutexOf b) = 0 := by omega
  have hnot := List.countP_eq_zero.1 hzero call (List.mem_of_getElem? hcall)
  simpa [Call.holdsMutexOf, haction] using hnot

/-- The handler that is about to be called is the right one. -/
theorem own_of_invoke (h : Placed s) (hreg : Registered s) (hprov : Provenance s)
    {resp : Response A Result} {i : Nat} (hpc : s.handlerPc = .invoke resp i) :
    s.Own ⟨i, resp.action, resp.data.result, resp.data.id⟩ := by
  obtain ⟨req, result, ⟨j, call, hcall, haction, hparams, hsent⟩, hmem, hresp⟩ :=
    hprov.holding resp (by rw [hpc]; rfl)
  obtain ⟨call', hcall', _, hid'⟩ := hreg.own resp.key i (hreg.found resp i hpc)
  have hreqId : resp.data.id = req.id := by rw [hresp, ResponseData.id_ofResult]
  have hreqAction : resp.action = req.action := by rw [hresp]
  obtain ⟨rfl, rfl⟩ := h.eq_of_id hcall' hcall (hid'.trans (congrArg some hreqId))
    (AsyncPc.id_of_sentId hsent)
  have hfree := holdsMutex_of_mutexOf h (b := resp.action) (by rw [hpc]; rfl) hcall
    (haction.trans hreqAction.symm)
  have hreturned : call'.pc = .returned req.id := by
    cases hcallPc : call'.pc with
    | returned id =>
      rw [hcallPc] at hsent
      exact congrArg AsyncPc.returned (Option.some.inj hsent)
    | unlock id =>
      rw [hcallPc] at hfree
      cases hfree
    | _ =>
      rw [hcallPc] at hsent
      cases hsent
  refine ⟨call', result, hcall, haction.trans hreqAction.symm, hreqId ▸ hreturned, ?_, ?_⟩
  · rw [haction, hparams, hreqId]
    exact hmem
  · rw [hreqId, hresp]

theorem requests_move (hprov : Provenance s) (hmove : Move s a t) :
    ∀ req ∈ t.requests, t.Asked req := by
  intro req hmem
  have hkept : req ∈ s.requests → t.Asked req := fun hmem =>
    asked_mono hmove (hprov.requests req hmem)
  cases hmove with
  | callSends i newId call id hcall hpc =>
    obtain hold | hnew := List.mem_append.1 hmem
    · exact hkept hold
    · obtain rfl := List.mem_singleton.1 hnew
      obtain ⟨hlt, _⟩ := List.getElem?_eq_some_iff.1 hcall
      exact ⟨i, { call with pc := .unlock id }, List.getElem?_set_self hlt, rfl, rfl, rfl⟩
  | requestServed i req' hreq hserved => exact hkept (List.mem_of_mem_eraseIdx hmem)
  | requestUnserved i req' hreq hserved => exact hkept (List.mem_of_mem_eraseIdx hmem)
  | _ => exact hkept hmem

theorem workers_move (hprov : Provenance s) (hmove : Move s a t) : ∀ w ∈ t.workers,
    t.Asked w.request ∧ ∀ result, w.result = some result → (w.request, result) ∈ t.handled := by
  intro w hmem
  have hkept : w ∈ s.workers →
      t.Asked w.request ∧ ∀ result, w.result = some result → (w.request, result) ∈ t.handled := by
    intro hmem
    obtain ⟨hasked, hhandled⟩ := hprov.workers w hmem
    exact ⟨asked_mono hmove hasked, fun result hresult =>
      handled_mono hmove (hhandled result hresult)⟩
  cases hmove with
  | requestServed i req hreq hserved =>
    obtain hold | hnew := List.mem_append.1 hmem
    · exact hkept hold
    · obtain rfl := List.mem_singleton.1 hnew
      exact ⟨hprov.requests req (List.mem_of_getElem? hreq), nofun⟩
  | handlerReturns i result req hw =>
    obtain hold | rfl := List.mem_or_eq_of_mem_set hmem
    · exact hkept hold
    · refine ⟨(hprov.workers _ (List.mem_of_getElem? hw)).1, ?_⟩
      rintro result' ⟨⟩
      exact List.mem_append_right _ (List.mem_singleton_self _)
  | respond i req result hw => exact hkept (List.mem_of_mem_eraseIdx hmem)
  | _ => exact hkept hmem

theorem responses_move (hprov : Provenance s) (hmove : Move s a t) :
    ∀ resp ∈ t.responses, t.Answered resp := by
  intro resp hmem
  have hkept : resp ∈ s.responses → t.Answered resp := fun hmem =>
    answered_mono hmove (hprov.responses resp hmem)
  cases hmove with
  | respond i req result hw =>
    obtain hold | hnew := List.mem_append.1 hmem
    · exact hkept hold
    · obtain rfl := List.mem_singleton.1 hnew
      obtain ⟨hasked, hhandled⟩ := hprov.workers _ (List.mem_of_getElem? hw)
      exact ⟨req, result, hasked, hhandled result rfl, rfl⟩
  | responseRouted i resp' hresp hpc hslot => exact hkept (List.mem_of_mem_eraseIdx hmem)
  | responseUnrouted i resp' hresp hpc hslot => exact hkept (List.mem_of_mem_eraseIdx hmem)
  | _ => exact hkept hmem

theorem holding_move (hprov : Provenance s) (hmove : Move s a t) (resp : Response A Result)
    (hholding : t.handlerPc.holding = some resp) : t.Answered resp := by
  have hkept : s.handlerPc.holding = some resp → t.Answered resp :=
    fun h => answered_mono hmove (hprov.holding resp h)
  cases hmove with
  | responseRouted i resp' hresp hpc hslot =>
    obtain rfl := Option.some.inj hholding
    exact hprov.responses _ (List.mem_of_getElem? hresp)
  | responseUnrouted i resp' hresp hpc hslot => cases hholding
  | handlerLocks resp' hpc hfree => exact hkept (by rw [hpc]; exact hholding)
  | handlerFinds resp' call hpc hfound => exact hkept (by rw [hpc]; exact hholding)
  | handlerThrows resp' hpc hmissing => cases hholding
  | handlerInvokes resp' call hpc => cases hholding
  | handlerErases resp' hpc => cases hholding
  | handlerUnlocks action hpc => cases hholding
  | _ => exact hkept hholding

theorem invoked_move (h : Placed s) (hreg : Registered s) (hprov : Provenance s)
    (hmove : Move s a t) : ∀ inv ∈ t.invoked, t.Own inv := by
  intro inv hmem
  have hkept : inv ∈ s.invoked → t.Own inv := fun hmem => own_mono hmove (hprov.invoked inv hmem)
  cases hmove with
  | handlerInvokes resp call hpc =>
    obtain hold | hnew := List.mem_append.1 hmem
    · exact hkept hold
    · obtain rfl := List.mem_singleton.1 hnew
      exact own_of_invoke h hreg hprov hpc
  | _ => exact hkept hmem

theorem provenance_move (h : Placed s) (hreg : Registered s) (hprov : Provenance s)
    (hmove : Move s a t) : Provenance t :=
  ⟨requests_move hprov hmove, workers_move hprov hmove, responses_move hprov hmove,
    holding_move hprov hmove, invoked_move h hreg hprov hmove⟩

/-! ### Correlation -/

/-- No call has its handler called twice, every handler called is called with the result for its own call and the identifier `async` returned there, no request is handled twice, and every response has found its handler. -/
structure Correlated (s : Actions A Params Result) : Prop where
  once : (s.invoked.map Invocation.call).Nodup
  own : ∀ inv ∈ s.invoked, s.Own inv
  handledOnce : (s.handled.map fun entry => entry.1.key).Nodup
  noBadActionId : s.badActionIds = []

structure Wf (s : Actions A Params Result) : Prop where
  placed : Placed s
  registered : Registered s
  provenance : Provenance s

theorem wf_init : Wf (Actions.init A Params Result) := ⟨placed_init, registered_init, provenance_init⟩

theorem wf_step (h : Wf s) (hstep : s.step a = some t) : Wf t :=
  have hmove := move_of_step hstep
  ⟨placed_step h.placed hmove, registered_move h.placed h.registered hmove,
    provenance_move h.placed h.registered h.provenance hmove⟩

/-- Two invocations for one call have one key, and a key is invoked at most once. -/
theorem Wf.once (h : Wf s) : (s.invoked.map Invocation.call).Nodup := by
  apply Pool.nodup_map_of_countP_le_one
  intro i
  by_cases hany : ∃ inv ∈ s.invoked, inv.call = i
  · obtain ⟨inv, hmem, rfl⟩ := hany
    obtain ⟨call, _, hcall, haction, hpc, _⟩ := h.provenance.invoked inv hmem
    have hkey : ∀ inv' ∈ s.invoked, decide (inv'.call = inv.call) = true →
        Invocation.is inv.key inv' = true := by
      intro inv' hmem' hsame
      obtain ⟨call', _, hcall', haction', hpc', _⟩ := h.provenance.invoked inv' hmem'
      rw [of_decide_eq_true hsame, hcall] at hcall'
      obtain rfl := Option.some.inj hcall'
      have hid : inv'.id = inv.id := AsyncPc.returned.inj (hpc'.symm.trans hpc)
      exact decide_eq_true (Prod.ext (haction'.symm.trans haction) hid)
    have hle := h.placed.sent_le_one inv.key
    simp only [settled] at hle
    exact le_trans (List.countP_mono_left hkey) (by omega)
  · have hzero : s.invoked.countP (fun inv => decide (inv.call = i)) = 0 := by
      rw [List.countP_eq_zero]
      intro inv hmem hsame
      exact hany ⟨inv, hmem, of_decide_eq_true hsame⟩
    omega

theorem Wf.correlated (h : Wf s) : Correlated s where
  once := h.once
  own := h.provenance.invoked
  handledOnce := Pool.nodup_map_of_countP_le_one fun k => by
    have hle := (h.placed.handled k).trans_le (h.placed.countP_sentAs_le_one k)
    exact le_trans (Nat.le_add_left _ _) hle
  noBadActionId := h.registered.noBadActionId

/-- In every run, whatever the calls, the action types and the order of the steps, responses go to the calls they belong to. -/
theorem correlated_run {acts : List (ActionsAct A Params Result)}
    (hrun : run step (Actions.init A Params Result) acts = some t) : Correlated t :=
  (invariant_run Wf (fun _ _ _ h hstep => wf_step h hstep) wf_init hrun).correlated

def callAsync (i : Nat) (id : Str) : List (ActionsAct Bool Nat Nat) := List.replicate 6 (.call i id)

def receiveResponse (i : Nat) : List (ActionsAct Bool Nat Nat) :=
  .deliverResponse i :: List.replicate 5 .handle

def returnAndRespond (i result : Nat) : List (ActionsAct Bool Nat Nat) :=
  [.handlerReturns i (Either.ofV result), .respond i]

/-- Two calls of one action, whose handlers on the server return in the other order. -/
def answeredOutOfOrder : List (ActionsAct Bool Nat Nat) :=
  .registerAction true :: .async true 1 :: .async true 2 ::
    (callAsync 0 (ascii "a") ++ callAsync 1 (ascii "b") ++ [.deliverRequest 0, .deliverRequest 0] ++
      returnAndRespond 1 20 ++ returnAndRespond 0 10 ++ receiveResponse 0 ++ receiveResponse 0)

theorem correlated_run_answeredOutOfOrder :
    ∃ t, run step (Actions.init Bool Nat Nat) answeredOutOfOrder = some t ∧
      t.invoked.map (fun inv => (inv.call, inv.result.getResponse)) = [(1, some 20), (0, some 10)] ∧
      Correlated t := by
  obtain ⟨t, hrun, hinvoked⟩ := exists_of_any_run step (Actions.init Bool Nat Nat) answeredOutOfOrder
    (fun t => t.invoked.map (fun inv => (inv.call, inv.result.getResponse)) ==
      [(1, some 20), (0, some 10)])
    (by decide +kernel)
  exact ⟨t, hrun, eq_of_beq hinvoked, correlated_run hrun⟩

end Actions

end Libesf.Ipc

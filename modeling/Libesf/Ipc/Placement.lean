import Libesf.Ipc.ActionProtocol

/-!
# Where a request is

Every request that was sent is in exactly one place: on its way to the server, in a thread of the server, on its way back, with the client's receive thread, or done with. Every mutex has one owner, and no identifier is made twice.
-/

namespace Libesf.Ipc

variable {A Params Result : Type}

/-- The identifier under which the request of a call has been sent. -/
def AsyncPc.sentId : AsyncPc → Option Str
  | .unlock id | .returned id => some id
  | .lock | .generateId | .registerSlot _ | .insertHandler _ | .send _ => none

def AsyncPc.holdsMutex : AsyncPc → Bool
  | .lock | .returned _ => false
  | .generateId | .registerSlot _ | .insertHandler _ | .send _ | .unlock _ => true

/-- The call has seen to the response slot. -/
def AsyncPc.registered : AsyncPc → Bool
  | .lock | .generateId | .registerSlot _ => false
  | .insertHandler _ | .send _ | .unlock _ | .returned _ => true

theorem AsyncPc.id_of_sentId {pc : AsyncPc} {id : Str} (h : pc.sentId = some id) :
    pc.id = some id := by
  cases pc <;> first | exact h | cases h

theorem AsyncPc.registered_of_sentId {pc : AsyncPc} {id : Str} (h : pc.sentId = some id) :
    pc.registered = true := by
  cases pc <;> first | rfl | cases h

/-- The response the receive thread holds and has not called the handler for yet. -/
def HandlerPc.holding : HandlerPc A Result → Option (Response A Result)
  | .lock resp | .find resp | .invoke resp _ => some resp
  | .idle | .erase _ | .unlock _ => none

/-- The action type whose mutex the receive thread has. -/
def HandlerPc.mutexOf : HandlerPc A Result → Option A
  | .find resp | .invoke resp _ | .erase resp => some resp.action
  | .unlock action => some action
  | .idle | .lock _ => none

variable [DecidableEq A]

def Call.sentAs (k : Key A) (call : Call A Params) : Bool :=
  decide (call.action = k.1 ∧ call.pc.sentId = some k.2)

def Call.holdsMutexOf (a : A) (call : Call A Params) : Bool :=
  decide (call.action = a) && call.pc.holdsMutex

def Request.is (k : Key A) (req : Request A Params) : Bool := decide (req.key = k)

def Worker.is (k : Key A) (w : Worker A Params Result) : Bool := decide (w.key = k)

def Worker.waits (k : Key A) (w : Worker A Params Result) : Bool := w.is k && w.result.isNone

def Response.is (k : Key A) (resp : Response A Result) : Bool := decide (resp.key = k)

def Invocation.is (k : Key A) (inv : Invocation A Result) : Bool := decide (inv.key = k)

def HandlerPc.holds (k : Key A) (pc : HandlerPc A Result) : Bool := pc.holding.any (Response.is k)

namespace Actions

def inFlight (s : Actions A Params Result) (k : Key A) : Nat :=
  s.requests.countP (Request.is k) + s.workers.countP (Worker.is k) +
    s.responses.countP (Response.is k) + (s.handlerPc.holds k).toNat

def settled (s : Actions A Params Result) (k : Key A) : Nat :=
  s.invoked.countP (Invocation.is k) + s.unserved.countP (Request.is k) +
    s.unrouted.countP (Response.is k) + s.badActionIds.countP (Response.is k)

/-- How often the server has been asked for `k` and has not called a handler for it. -/
def unhandled (s : Actions A Params Result) (k : Key A) : Nat :=
  s.requests.countP (Request.is k) + s.workers.countP (Worker.waits k) +
    s.unserved.countP (Request.is k)

def handledFor (s : Actions A Params Result) (k : Key A) : Nat :=
  s.handled.countP fun entry => entry.1.is k

/-! ### Conservation -/

/-- Identifiers do not repeat, every request sent is in one place, and every mutex has one owner. -/
structure Placed (s : Actions A Params Result) : Prop where
  unique : ∀ id, s.calls.countP (fun call => decide (call.pc.id = some id)) ≤ 1
  placed : ∀ k, s.inFlight k + s.settled k = s.calls.countP (Call.sentAs k)
  handled : ∀ k, s.unhandled k + s.handledFor k = s.calls.countP (Call.sentAs k)
  mutex : ∀ a, s.calls.countP (Call.holdsMutexOf a) + (decide (s.handlerPc.mutexOf = some a)).toNat =
    (s.locked a).toNat

theorem placed_init : Placed (Actions.init A Params Result) where
  unique _ := Nat.zero_le 1
  placed _ := rfl
  handled _ := rfl
  mutex _ := rfl

/-- Whoever is inside has the mutex locked. -/
theorem Placed.locked_of_call {s : Actions A Params Result} (h : Placed s) {i : Nat}
    {call : Call A Params} (hcall : s.calls[i]? = some call) (hinside : call.pc.holdsMutex = true) :
    s.locked call.action = true := by
  have hmutex := h.mutex call.action
  have hpos := Pool.countP_pos_of_getElem? (Call.holdsMutexOf call.action) hcall
    (by simp [Call.holdsMutexOf, hinside])
  cases hlocked : s.locked call.action with
  | true => rfl
  | false =>
    rw [hlocked, Bool.toNat_false] at hmutex
    omega

theorem Placed.locked_of_handler {s : Actions A Params Result} (h : Placed s) {action : A}
    (hinside : s.handlerPc.mutexOf = some action) : s.locked action = true := by
  have hmutex := h.mutex action
  rw [hinside] at hmutex
  cases hlocked : s.locked action with
  | true => rfl
  | false =>
    simp only [hlocked, decide_true, Bool.toNat_true, Bool.toNat_false] at hmutex
    omega

variable [Inhabited Result] {s t : Actions A Params Result} {a : ActionsAct A Params Result}

/-- The step takes call `i` on to `pc`: an identifier is kept, and a new one is of no other call; the slot is seen to before the request is sent, and the handler stored. -/
structure GoesOn (s t : Actions A Params Result) (i : Nat) (call : Call A Params)
    (pc : AsyncPc) : Prop where
  was : s.calls[i]? = some call
  calls : t.calls = s.calls.set i { call with pc := pc }
  id : pc.id = call.pc.id ∨ call.pc.id = none ∧ ∀ other ∈ s.calls, other.pc.id ≠ pc.id
  sent : ∀ id, call.pc.sentId = some id → pc = .returned id
  slot : pc.registered = true → call.pc.registered = true ∨ t.slots call.action = true
  stored : ∀ id, pc = .send id → t.activeHandlers (call.action, id) = some i

theorem calls_of_move (hmove : Move s a t) :
    t.calls = s.calls ∨ (∃ action params, t.calls = s.calls ++ [⟨action, params, .lock⟩]) ∨
      ∃ (i : Nat) (call : Call A Params) (pc : AsyncPc), GoesOn s t i call pc := by
  cases hmove with
  | async action params => exact .inr (.inl ⟨action, params, rfl⟩)
  | callLocks i newId call hcall hpc hfree =>
    exact .inr
      (.inr ⟨i, call, .generateId, hcall, rfl,
        .inl (by rw [hpc]; rfl), by rw [hpc]; nofun, nofun, nofun⟩)
  | callGeneratesId i newId call hcall hpc hfresh =>
    exact .inr (.inr ⟨i, call, .registerSlot newId, hcall, rfl,
      .inr ⟨by rw [hpc]; rfl, hfresh⟩, by rw [hpc]; nofun, nofun, nofun⟩)
  | callRegistersSlot i newId call id hcall hpc =>
    exact .inr (.inr ⟨i, call, .insertHandler id, hcall, rfl,
      .inl (by rw [hpc]; rfl), by rw [hpc]; nofun, fun _ => .inr (Function.update_self ..), nofun⟩)
  | callInsertsHandler i newId call id hcall hpc =>
    refine .inr (.inr ⟨i, call, .send id, hcall, rfl, .inl (by rw [hpc]; rfl), by rw [hpc]; nofun,
      fun _ => .inl (by rw [hpc]; rfl), ?_⟩)
    rintro id' ⟨⟩
    exact Function.update_self ..
  | callSends i newId call id hcall hpc =>
    exact .inr (.inr ⟨i, call, .unlock id, hcall, rfl, .inl (by rw [hpc]; rfl), by rw [hpc]; nofun,
      fun _ => .inl (by rw [hpc]; rfl), nofun⟩)
  | callUnlocks i newId call id hcall hpc =>
    refine .inr (.inr ⟨i, call, .returned id, hcall, rfl, .inl (by rw [hpc]; rfl), ?_,
      fun _ => .inl (by rw [hpc]; rfl), nofun⟩)
    rw [hpc]
    rintro id' ⟨⟩
    rfl
  | _ => exact .inl rfl

/-- A call goes on, and keeps its identifier and that its request was sent. -/
theorem call_after (hmove : Move s a t) {i : Nat} {call : Call A Params}
    (hcall : s.calls[i]? = some call) :
    ∃ pc, t.calls[i]? = some { call with pc := pc } ∧ (∀ id, call.pc.id = some id → pc.id = some id) ∧
      ∀ id, call.pc.sentId = some id → pc.sentId = some id ∧
      (call.pc = .returned id → pc = .returned id) := by
  obtain heq | ⟨action, params, heq⟩ | ⟨j, call', pc, hon⟩ := calls_of_move hmove
  · exact ⟨call.pc, heq ▸ hcall, fun _ h => h, fun _ h => ⟨h, fun h => h⟩⟩
  · obtain ⟨hlt, _⟩ := List.getElem?_eq_some_iff.1 hcall
    exact ⟨call.pc, by rw [heq, List.getElem?_append_left hlt]; exact hcall, fun _ h => h,
      fun _ h => ⟨h, fun h => h⟩⟩
  · by_cases hij : j = i
    · subst hij
      obtain rfl : call' = call := Option.some.inj (hon.was.symm.trans hcall)
      obtain ⟨hlt, _⟩ := List.getElem?_eq_some_iff.1 hcall
      refine ⟨pc, by rw [hon.calls, List.getElem?_set_self hlt], fun id hid => ?_, fun id hid => ?_⟩
      · obtain hsame | ⟨hnone, _⟩ := hon.id
        · rw [hsame, hid]
        · rw [hnone] at hid
          cases hid
      · rw [hon.sent id hid]
        exact ⟨rfl, fun _ => rfl⟩
    · exact ⟨call.pc, by rw [hon.calls, List.getElem?_set_ne hij]; exact hcall, fun _ h => h,
        fun _ h => ⟨h, fun h => h⟩⟩

/-- A call was there before, or is new, or has gone on. -/
theorem call_before (hmove : Move s a t) {i : Nat} {call : Call A Params}
    (hcall : t.calls[i]? = some call) :
    s.calls[i]? = some call ∨ call.pc = .lock ∨
      ∃ (old : Call A Params), call.action = old.action ∧ GoesOn s t i old call.pc := by
  obtain heq | ⟨action, params, heq⟩ | ⟨j, old, pc, hon⟩ := calls_of_move hmove
  · exact .inl (heq ▸ hcall)
  · rw [heq] at hcall
    obtain hwas | ⟨-, rfl⟩ := Pool.getElem?_append_single_cases hcall
    · exact .inl hwas
    · exact .inr (.inl rfl)
  · rw [hon.calls] at hcall
    obtain ⟨rfl, rfl⟩ | ⟨-, hwas⟩ := Pool.getElem?_set_cases hcall
    · exact .inr (.inr ⟨old, rfl, hon⟩)
    · exact .inl hwas

theorem unique_move (h : Placed s) (hmove : Move s a t) (id : Str) :
    t.calls.countP (fun call => decide (call.pc.id = some id)) ≤ 1 := by
  have hunique := h.unique id
  obtain heq | ⟨action, params, heq⟩ | ⟨i, call, pc, hon⟩ := calls_of_move hmove
  · rw [heq]
    exact hunique
  · rw [heq, Pool.countP_append_single]
    exact hunique
  · rw [hon.calls]
    obtain hsame | ⟨hnone, hfresh⟩ := hon.id
    · rw [Pool.countP_set_of_eq _ hon.was (by rw [hsame])]
      exact hunique
    · have hset := Pool.countP_set_add (fun call => decide (call.pc.id = some id)) hon.was
        { call with pc := pc }
      simp only [hnone] at hset
      by_cases hnew : pc.id = some id
      · have hzero : s.calls.countP (fun call => decide (call.pc.id = some id)) = 0 := by
          rw [List.countP_eq_zero]
          intro other hother
          simpa [← hnew] using hfresh other hother
        simp [hnew, hzero] at hset
        omega
      · simp [hnew] at hset
        omega

private theorem countP_holdsMutexOf_set {calls : List (Call A Params)} {i : Nat}
    {call : Call A Params} {pc : AsyncPc} (hcall : calls[i]? = some call)
    (hsame : pc.holdsMutex = call.pc.holdsMutex) (b : A) :
    (calls.set i { call with pc := pc }).countP (Call.holdsMutexOf b) = calls.countP
      (Call.holdsMutexOf b) :=
  Pool.countP_set_of_eq _ hcall (by simp only [Call.holdsMutexOf, hsame])

private theorem toNat_locked_acquire {locked : A → Bool} {a : A} (hfree : locked a = false) (b : A) :
    (Function.update locked a true b).toNat = (locked b).toNat + (decide (a = b)).toNat := by
  by_cases hb : b = a
  · rw [hb, Function.update_self, hfree]
    simp only [decide_true, Bool.toNat_true, Bool.toNat_false]
  · rw [Function.update_of_ne hb, decide_eq_false (Ne.symm hb), Bool.toNat_false, Nat.add_zero]

private theorem toNat_locked_release {locked : A → Bool} {a : A} (hheld : locked a = true) (b : A) :
    (Function.update locked a false b).toNat + (decide (a = b)).toNat = (locked b).toNat := by
  by_cases hb : b = a
  · rw [hb, Function.update_self, hheld]
    simp only [decide_true, Bool.toNat_true, Bool.toNat_false]
  · rw [Function.update_of_ne hb, decide_eq_false (Ne.symm hb), Bool.toNat_false, Nat.add_zero]

theorem mutex_move (h : Placed s) (hmove : Move s a t) (b : A) :
    t.calls.countP (Call.holdsMutexOf b) + (decide (t.handlerPc.mutexOf = some b)).toNat =
      (t.locked b).toNat := by
  have hmutex := h.mutex b
  cases hmove with
  | async action params =>
    rw [Pool.countP_append_single]
    simpa [Call.holdsMutexOf, AsyncPc.holdsMutex] using hmutex
  | callLocks i newId call hcall hpc hfree =>
    have hset := Pool.countP_set_add (Call.holdsMutexOf b) hcall { call with pc := .generateId }
    have hlocked := toNat_locked_acquire hfree b
    simp only [Call.holdsMutexOf, hpc, AsyncPc.holdsMutex, Bool.and_false, Bool.and_true,
      Bool.toNat_false] at *
    omega
  | callUnlocks i newId call id hcall hpc =>
    have hset := Pool.countP_set_add (Call.holdsMutexOf b) hcall { call with pc := .returned id }
    have hlocked := toNat_locked_release (h.locked_of_call hcall (by rw [hpc]; rfl)) b
    simp only [Call.holdsMutexOf, hpc, AsyncPc.holdsMutex, Bool.and_false, Bool.and_true,
      Bool.toNat_false] at *
    omega
  | callGeneratesId i newId call hcall hpc hfresh =>
    rw [countP_holdsMutexOf_set hcall (by rw [hpc]; rfl)]
    exact hmutex
  | callRegistersSlot i newId call id hcall hpc =>
    rw [countP_holdsMutexOf_set hcall (by rw [hpc]; rfl)]
    exact hmutex
  | callInsertsHandler i newId call id hcall hpc =>
    rw [countP_holdsMutexOf_set hcall (by rw [hpc]; rfl)]
    exact hmutex
  | callSends i newId call id hcall hpc =>
    rw [countP_holdsMutexOf_set hcall (by rw [hpc]; rfl)]
    exact hmutex
  | responseRouted i resp hresp hpc hslot =>
    rw [hpc] at hmutex
    exact hmutex
  | responseUnrouted i resp hresp hpc hslot =>
    rw [hpc] at hmutex
    exact hmutex
  | handlerLocks resp hpc hfree =>
    have hlocked := toNat_locked_acquire hfree b
    rw [hpc] at hmutex
    simp only [HandlerPc.mutexOf, Option.some.injEq, reduceCtorEq, decide_false,
      Bool.toNat_false] at *
    omega
  | handlerUnlocks action hpc =>
    have hlocked := toNat_locked_release (h.locked_of_handler (by rw [hpc]; rfl)) b
    rw [hpc] at hmutex
    simp only [HandlerPc.mutexOf, Option.some.injEq, reduceCtorEq, decide_false,
      Bool.toNat_false] at *
    omega
  | handlerFinds resp call hpc hfound =>
    rw [hpc] at hmutex
    exact hmutex
  | handlerThrows resp hpc hmissing =>
    rw [hpc] at hmutex
    exact hmutex
  | handlerInvokes resp call hpc =>
    rw [hpc] at hmutex
    exact hmutex
  | handlerErases resp hpc =>
    rw [hpc] at hmutex
    exact hmutex
  | _ => exact hmutex

/-! ### Where a request is -/

private theorem countP_sentAs_set {calls : List (Call A Params)} {i : Nat} {call : Call A Params}
    {pc : AsyncPc} (hcall : calls[i]? = some call) (hsame : pc.sentId = call.pc.sentId) (k : Key A) :
    (calls.set i { call with pc := pc }).countP (Call.sentAs k) = calls.countP (Call.sentAs k) :=
  Pool.countP_set_of_eq _ hcall (by simp only [Call.sentAs, hsame])

private theorem countP_sentAs_send {calls : List (Call A Params)} {i : Nat}
    {call : Call A Params} {id : Str} (hcall : calls[i]? = some call) (hpc : call.pc = .send id)
    (k : Key A) :
    (calls.set i { call with pc := .unlock id }).countP (Call.sentAs k) =
      calls.countP (Call.sentAs k) + (Request.is k ⟨call.action, id, call.params⟩).toNat := by
  have hset := Pool.countP_set_add (Call.sentAs k) hcall { call with pc := .unlock id }
  have hold : Call.sentAs k call = false := by simp [Call.sentAs, hpc, AsyncPc.sentId]
  have hnew : Call.sentAs k { call with pc := .unlock id } =
      Request.is k ⟨call.action, id, call.params⟩ := by
    simp only [Call.sentAs, AsyncPc.sentId, Request.is, Request.key, Option.some.injEq, Prod.ext_iff]
  rw [hold, hnew, Bool.toNat_false] at hset
  exact hset

/-- A request moves from place to place, and a new one comes with a call that has sent it. -/
theorem placed_move (h : Placed s) (hmove : Move s a t) (k : Key A) :
    t.inFlight k + t.settled k = t.calls.countP (Call.sentAs k) := by
  have hplaced := h.placed k
  simp only [inFlight, settled] at hplaced ⊢
  cases hmove with
  | async action params =>
    rw [Pool.countP_append_single]
    simpa [Call.sentAs, AsyncPc.sentId] using hplaced
  | callLocks i newId call hcall hpc hfree =>
    rw [countP_sentAs_set hcall (by rw [hpc]; rfl)]
    exact hplaced
  | callGeneratesId i newId call hcall hpc hfresh =>
    rw [countP_sentAs_set hcall (by rw [hpc]; rfl)]
    exact hplaced
  | callRegistersSlot i newId call id hcall hpc =>
    rw [countP_sentAs_set hcall (by rw [hpc]; rfl)]
    exact hplaced
  | callInsertsHandler i newId call id hcall hpc =>
    rw [countP_sentAs_set hcall (by rw [hpc]; rfl)]
    exact hplaced
  | callSends i newId call id hcall hpc =>
    have hset := countP_sentAs_send hcall hpc k
    rw [Pool.countP_append_single]
    dsimp only
    omega
  | callUnlocks i newId call id hcall hpc =>
    rw [countP_sentAs_set hcall (by rw [hpc]; rfl)]
    exact hplaced
  | requestServed i req hreq hserved =>
    have herase := Pool.countP_eraseIdx_add (Request.is k) hreq
    have hsame : Worker.is k ⟨req, (none : Option (ResponseOrError Result))⟩ = Request.is k req := rfl
    rw [Pool.countP_append_single, hsame]
    dsimp only
    omega
  | requestUnserved i req hreq hserved =>
    have herase := Pool.countP_eraseIdx_add (Request.is k) hreq
    rw [Pool.countP_append_single]
    dsimp only
    omega
  | handlerReturns i result req hw =>
    have hsame : (s.workers.set i ⟨req, some result⟩).countP (Worker.is k) =
        s.workers.countP (Worker.is k) :=
      Pool.countP_set_of_eq _ hw rfl
    dsimp only
    rw [hsame]
    exact hplaced
  | respond i req result hw =>
    have herase := Pool.countP_eraseIdx_add (Worker.is k) hw
    have hsame : Response.is k ⟨req.action, .ofResult req.id result⟩ =
        Worker.is k ⟨req, some result⟩ := by
      rw [Response.is, Worker.is, Response.key, Worker.key, Request.key, ResponseData.id_ofResult]
    rw [Pool.countP_append_single, hsame]
    dsimp only
    omega
  | responseRouted i resp hresp hpc hslot =>
    have herase := Pool.countP_eraseIdx_add (Response.is k) hresp
    rw [hpc] at hplaced
    simp only [HandlerPc.holds, HandlerPc.holding, Option.any_none, Option.any_some,
      Bool.toNat_false] at *
    omega
  | responseUnrouted i resp hresp hpc hslot =>
    have herase := Pool.countP_eraseIdx_add (Response.is k) hresp
    rw [hpc] at hplaced
    rw [Pool.countP_append_single]
    simp only [HandlerPc.holds, HandlerPc.holding, Option.any_none, Bool.toNat_false] at *
    omega
  | handlerLocks resp hpc hfree =>
    rw [hpc] at hplaced
    exact hplaced
  | handlerFinds resp call hpc hfound =>
    rw [hpc] at hplaced
    exact hplaced
  | handlerThrows resp hpc hmissing =>
    rw [hpc] at hplaced
    rw [Pool.countP_append_single]
    simp only [HandlerPc.holds, HandlerPc.holding, Option.any_none, Option.any_some,
      Bool.toNat_false] at *
    omega
  | handlerInvokes resp call hpc =>
    have hsame : Invocation.is k ⟨call, resp.action, resp.data.result, resp.data.id⟩ =
        Response.is k resp := rfl
    rw [hpc] at hplaced
    rw [Pool.countP_append_single, hsame]
    simp only [HandlerPc.holds, HandlerPc.holding, Option.any_none, Option.any_some,
      Bool.toNat_false] at *
    omega
  | handlerErases resp hpc =>
    rw [hpc] at hplaced
    exact hplaced
  | handlerUnlocks action hpc =>
    rw [hpc] at hplaced
    exact hplaced
  | _ => exact hplaced

theorem handled_move (h : Placed s) (hmove : Move s a t) (k : Key A) :
    t.unhandled k + t.handledFor k = t.calls.countP (Call.sentAs k) := by
  have hhandled := h.handled k
  simp only [unhandled, handledFor] at hhandled ⊢
  cases hmove with
  | async action params =>
    rw [Pool.countP_append_single]
    simpa [Call.sentAs, AsyncPc.sentId] using hhandled
  | callLocks i newId call hcall hpc hfree =>
    rw [countP_sentAs_set hcall (by rw [hpc]; rfl)]
    exact hhandled
  | callGeneratesId i newId call hcall hpc hfresh =>
    rw [countP_sentAs_set hcall (by rw [hpc]; rfl)]
    exact hhandled
  | callRegistersSlot i newId call id hcall hpc =>
    rw [countP_sentAs_set hcall (by rw [hpc]; rfl)]
    exact hhandled
  | callInsertsHandler i newId call id hcall hpc =>
    rw [countP_sentAs_set hcall (by rw [hpc]; rfl)]
    exact hhandled
  | callSends i newId call id hcall hpc =>
    have hset := countP_sentAs_send hcall hpc k
    rw [Pool.countP_append_single]
    dsimp only
    omega
  | callUnlocks i newId call id hcall hpc =>
    rw [countP_sentAs_set hcall (by rw [hpc]; rfl)]
    exact hhandled
  | requestServed i req hreq hserved =>
    have herase := Pool.countP_eraseIdx_add (Request.is k) hreq
    have hsame : Worker.waits k ⟨req, (none : Option (ResponseOrError Result))⟩ =
        Request.is k req := Bool.and_true _
    rw [Pool.countP_append_single, hsame]
    dsimp only
    omega
  | requestUnserved i req hreq hserved =>
    have herase := Pool.countP_eraseIdx_add (Request.is k) hreq
    rw [Pool.countP_append_single]
    dsimp only
    omega
  | handlerReturns i result req hw =>
    have hset := Pool.countP_set_add (Worker.waits k) hw ⟨req, some result⟩
    have hbefore : Worker.waits k ⟨req, (none : Option (ResponseOrError Result))⟩ =
        Request.is k req := Bool.and_true _
    have hafter : Worker.waits k ⟨req, some result⟩ = false := Bool.and_false _
    rw [hbefore, hafter, Bool.toNat_false] at hset
    rw [Pool.countP_append_single]
    dsimp only
    omega
  | respond i req result hw =>
    have herase := Pool.countP_eraseIdx_add (Worker.waits k) hw
    have hdone : Worker.waits k ⟨req, some result⟩ = false := Bool.and_false _
    rw [hdone, Bool.toNat_false] at herase
    dsimp only
    omega
  | _ => exact hhandled

theorem placed_step (h : Placed s) (hmove : Move s a t) : Placed t :=
  ⟨unique_move h hmove, placed_move h hmove, handled_move h hmove, mutex_move h hmove⟩

theorem settled_mono (hmove : Move s a t) (k : Key A) : s.settled k ≤ t.settled k := by
  simp only [settled]
  cases hmove with
  | requestUnserved i req hreq hserved =>
    simp only [Pool.countP_append_single]
    omega
  | responseUnrouted i resp hresp hpc hslot =>
    simp only [Pool.countP_append_single]
    omega
  | handlerThrows resp hpc hmissing =>
    simp only [Pool.countP_append_single]
    omega
  | handlerInvokes resp call hpc =>
    simp only [Pool.countP_append_single]
    omega
  | _ => exact le_rfl

/-- Only the step that sends a request puts it under way. -/
theorem inFlight_move (h : Placed s) (hmove : Move s a t) (k : Key A) :
    t.inFlight k ≤ s.inFlight k ∨
      ∃ (i : Nat) (call : Call A Params) (id : Str), s.calls[i]? = some call ∧ call.pc = .send id ∧
        k = (call.action, id) ∧ t.activeHandlers = s.activeHandlers := by
  have hs := h.placed k
  have ht := placed_move h hmove k
  have hmono := settled_mono hmove k
  have hle : t.calls.countP (Call.sentAs k) ≤ s.calls.countP (Call.sentAs k) →
      t.inFlight k ≤ s.inFlight k := by
    intro hle
    omega
  cases hmove with
  | async action params =>
    refine .inl (hle ?_)
    rw [Pool.countP_append_single]
    simp [Call.sentAs, AsyncPc.sentId]
  | callLocks i newId call hcall hpc hfree =>
    exact .inl (hle (countP_sentAs_set hcall (by rw [hpc]; rfl) k).le)
  | callGeneratesId i newId call hcall hpc hfresh =>
    exact .inl (hle (countP_sentAs_set hcall (by rw [hpc]; rfl) k).le)
  | callRegistersSlot i newId call id hcall hpc =>
    exact .inl (hle (countP_sentAs_set hcall (by rw [hpc]; rfl) k).le)
  | callInsertsHandler i newId call id hcall hpc =>
    exact .inl (hle (countP_sentAs_set hcall (by rw [hpc]; rfl) k).le)
  | callUnlocks i newId call id hcall hpc =>
    exact .inl (hle (countP_sentAs_set hcall (by rw [hpc]; rfl) k).le)
  | callSends i newId call id hcall hpc =>
    by_cases hk : k = (call.action, id)
    · exact .inr ⟨i, call, id, hcall, hpc, hk, rfl⟩
    · refine .inl (hle (Pool.countP_set_of_eq _ hcall ?_).le)
      have hne : ¬ (call.action = k.1 ∧ id = k.2) := fun h => hk (Prod.ext h.1.symm h.2.symm)
      simpa [Call.sentAs, AsyncPc.sentId, hpc] using hne
  | _ => exact .inl (hle le_rfl)

namespace Placed

omit [Inhabited Result]

theorem eq_of_id (h : Placed s) {i j : Nat} {call call' : Call A Params} {id : Str}
    (hi : s.calls[i]? = some call) (hj : s.calls[j]? = some call') (hid : call.pc.id = some id)
    (hid' : call'.pc.id = some id) : i = j ∧ call = call' := by
  have hij := Pool.eq_of_countP_le_one _ (h.unique id) hi hj (by simpa using hid)
    (by simpa using hid')
  subst hij
  exact ⟨rfl, Option.some.inj (hi.symm.trans hj)⟩

theorem countP_sentAs_le_one (h : Placed s) (k : Key A) : s.calls.countP (Call.sentAs k) ≤ 1 := by
  refine le_trans (List.countP_mono_left fun call _ hsent => ?_) (h.unique k.2)
  simp only [Call.sentAs, decide_eq_true_eq] at hsent ⊢
  exact AsyncPc.id_of_sentId hsent.2

theorem sent_le_one (h : Placed s) (k : Key A) : s.inFlight k + s.settled k ≤ 1 :=
  (h.placed k).trans_le (h.countP_sentAs_le_one k)

theorem exists_sent (h : Placed s) {k : Key A} (hpos : 0 < s.inFlight k + s.settled k) :
    ∃ (i : Nat) (call : Call A Params), s.calls[i]? = some call ∧ call.action = k.1 ∧
      call.pc.sentId = some k.2 := by
  rw [h.placed k, List.countP_pos_iff] at hpos
  obtain ⟨call, hmem, hsent⟩ := hpos
  obtain ⟨i, hi⟩ := List.mem_iff_getElem?.1 hmem
  simp only [Call.sentAs, decide_eq_true_eq] at hsent
  exact ⟨i, call, hi, hsent⟩

theorem nowhere (h : Placed s) {i : Nat} {call : Call A Params} {id : Str}
    (hcall : s.calls[i]? = some call) (hid : call.pc.id = some id)
    (hunsent : call.pc.sentId = none) (b : A) : s.inFlight (b, id) + s.settled (b, id) = 0 := by
  by_contra hpos
  obtain ⟨j, call', hcall', _, hsent⟩ := h.exists_sent (Nat.pos_of_ne_zero hpos)
  obtain ⟨_, rfl⟩ := h.eq_of_id hcall hcall' hid (AsyncPc.id_of_sentId hsent)
  rw [hunsent] at hsent
  cases hsent

end Placed

end Actions

end Libesf.Ipc

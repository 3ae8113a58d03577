import Libesf.Ipc.ActionThreads

/-!
# The action protocol does not stand still

Whoever is in `Endpoint::send` or in the receive thread of the server gets on with it, since the server's slots only start threads. A caller of `async` therefore gets through once it has the mutex of its type, and nobody holds that mutex but such callers and the client's receive thread. The receive thread holds the buffer from the server and the mutex of the response's type while it waits for the mutex of a nested call: that one is held by a caller who gets through, unless it is the one it holds itself.

So the mutexes are ordered by who can wait for what, and the one cycle there is has length one. Some thread can move in every state of a run with work left in it, and nobody waits for himself, if and only if no response handler of the run calls `async` of its own action type.
-/

namespace Libesf.Ipc

open Transition

variable {A Params Result : Type}

/-! ### Who waits for what -/

inductive Direction where
  | up
  | down
  deriving DecidableEq

inductive Resource (A : Type) where
  | mutex (action : A)
  | bufferMutex (direction : Direction)
  | semEmpty (direction : Direction)
  | semFull (direction : Direction)
  deriving DecidableEq

/-- What a thread is blocked on, if it is, and what it has acquired and not given back. -/
structure Standing (A : Type) where
  waitsFor : Option (Resource A)
  holds : List (Resource A)

def SendPc.standing {Msg : Type} (A : Type) (direction : Direction) : SendPc Msg → Standing A
  | .waitEmpty _ => ⟨some (.semEmpty direction), []⟩
  | .waitMutex _ => ⟨some (.bufferMutex direction), [.semEmpty direction]⟩
  | .inside _ | .postMutex | .thrown _ => ⟨none, [.semEmpty direction, .bufferMutex direction]⟩
  | .postFull => ⟨none, [.semEmpty direction]⟩
  | .returned => ⟨none, []⟩

def ReceivePc.standing (A : Type) (direction : Direction) : ReceivePc → Standing A
  | .waitFull => ⟨some (.semFull direction), []⟩
  | .waitMutex => ⟨some (.bufferMutex direction), [.semFull direction]⟩
  | .checkShutdown | .construct | .dispatch | .postMutex _ =>
    ⟨none, [.semFull direction, .bufferMutex direction]⟩
  | .postEmpty _ => ⟨none, [.semFull direction]⟩
  | .finished => ⟨none, []⟩

/-- The standing of a thread in the `send` it has entered. -/
def Channel.sendStanding {Msg : Type} (A : Type) (c : Channel Msg) (direction : Direction)
    (entry : Nat) : Standing A :=
  (c.sends[entry]?.map (SendPc.standing A direction)).getD ⟨none, []⟩

def Channel.receiveStanding {Msg : Type} (A : Type) (c : Channel Msg) (direction : Direction) :
    Standing A :=
  (c.receiver.map (ReceivePc.standing A direction)).getD ⟨none, []⟩

def CallThread.standing (up : Channel (Request A Params)) (call : CallThread A Params) : Standing A :=
  match call.pc with
  | .lock => ⟨some (.mutex call.action), []⟩
  | .generateId | .registerSlot _ | .insertHandler _ | .send _ | .unlock =>
    ⟨none, [.mutex call.action]⟩
  | .sending entry =>
    ⟨(up.sendStanding A .up entry).waitsFor,
      .mutex call.action :: (up.sendStanding A .up entry).holds⟩
  | .finished => ⟨none, []⟩

def ServerThread.standing (down : Channel (Response A Result)) (w : ServerThread A Params Result) :
    Standing A :=
  match w.pc with
  | .handling | .send _ => ⟨none, []⟩
  | .sending entry => down.sendStanding A .down entry

/-- What the client's receive thread adds to its place on the channel. -/
def SlotPc.standing (up : Channel (Request A Params)) : SlotPc A Params Result → Standing A
  | .idle => ⟨none, []⟩
  | .lock resp => ⟨some (.mutex resp.action), []⟩
  | .find resp | .running resp | .erase resp | .unlock resp => ⟨none, [.mutex resp.action]⟩
  | .nested resp call => ⟨(call.standing up).waitsFor, .mutex resp.action :: (call.standing up).holds⟩

namespace ActionThreads

/-- The client's receive thread waits on its channel, or inside the slot it calls. -/
def clientStanding (s : ActionThreads A Params Result) : Standing A where
  waitsFor := (s.slotPc.standing s.up).waitsFor.or (s.down.receiveStanding A .down).waitsFor
  holds := (s.down.receiveStanding A .down).holds ++ (s.slotPc.standing s.up).holds

/-- All threads: the callers, the two receive threads, the threads of the server. -/
def standings (s : ActionThreads A Params Result) : List (Standing A) :=
  s.calls.map (CallThread.standing s.up) ++ [s.up.receiveStanding A .up, s.clientStanding] ++
    s.workers.map (ServerThread.standing s.down)

/-- No thread waits for what it holds itself. -/
def NoSelfWait (s : ActionThreads A Params Result) : Prop :=
  ∀ thread ∈ s.standings, ∀ r, thread.waitsFor = some r → r ∉ thread.holds

end ActionThreads

/-- A standing that keeps to some resources, and is not blocked on one it holds. -/
structure Standing.Within (standing : Standing A) (resources : List (Resource A)) : Prop where
  waitsFor : ∀ r, standing.waitsFor = some r → r ∈ resources ∧ r ∉ standing.holds
  holds : ∀ r ∈ standing.holds, r ∈ resources

theorem sendStanding_within {Msg : Type} (c : Channel Msg) (direction : Direction) (entry : Nat) :
    (c.sendStanding A direction entry).Within [.semEmpty direction, .bufferMutex direction] := by
  rw [Channel.sendStanding]
  cases c.sends[entry]? with
  | none => exact ⟨nofun, nofun⟩
  | some pc => cases pc <;> constructor <;> simp [SendPc.standing]

theorem receiveStanding_within {Msg : Type} (c : Channel Msg) (direction : Direction) :
    (c.receiveStanding A direction).Within [.semFull direction, .bufferMutex direction] := by
  rw [Channel.receiveStanding]
  cases c.receiver with
  | none => exact ⟨nofun, nofun⟩
  | some pc => cases pc <;> constructor <;> simp [ReceivePc.standing]

/-- A call of `async` keeps to the mutex of its type and to the buffer to the server. -/
theorem callStanding_within (up : Channel (Request A Params)) (call : CallThread A Params) :
    (call.standing up).Within [.mutex call.action, .semEmpty .up, .bufferMutex .up] := by
  rw [CallThread.standing]
  cases call.pc with
  | sending entry =>
    obtain ⟨hwaits, hholds⟩ := @sendStanding_within A _ up .up entry
    refine ⟨fun r hr => ⟨List.mem_cons_of_mem _ (hwaits r hr).1, fun hmem => ?_⟩, fun r hr => ?_⟩
    · obtain rfl | hmem := List.mem_cons.1 hmem
      · exact absurd (hwaits _ hr).1 (by simp)
      · exact (hwaits r hr).2 hmem
    · obtain rfl | hmem := List.mem_cons.1 hr
      · exact List.mem_cons_self
      · exact List.mem_cons_of_mem _ (hholds r hmem)
  | _ => constructor <;> simp

/-- Only a nested call can be blocked on what its thread holds. -/
theorem clientStanding_waitsFor (s : ActionThreads A Params Result)
    (hforeign : ∀ resp call, s.slotPc = .nested resp call → call.pc = .lock →
      call.action ≠ resp.action) :
    ∀ r, s.clientStanding.waitsFor = some r → r ∉ s.clientStanding.holds := by
  obtain ⟨hwaits, hholds⟩ := @receiveStanding_within A _ s.down .down
  intro r hr hmem
  rw [ActionThreads.clientStanding] at hr hmem
  dsimp only at hr hmem
  cases hpc : s.slotPc with
  | idle =>
    rw [hpc] at hr hmem
    simp only [SlotPc.standing, Option.none_or, List.append_nil] at hr hmem
    exact (hwaits r hr).2 hmem
  | lock resp =>
    rw [hpc] at hr hmem
    simp only [SlotPc.standing, Option.some_or, List.append_nil, Option.some.injEq] at hr hmem
    obtain rfl := hr
    exact absurd (hholds _ hmem) (by simp)
  | find resp | running resp | erase resp | unlock resp =>
    rw [hpc] at hr hmem
    simp only [SlotPc.standing, Option.none_or, List.mem_append, List.mem_singleton] at hr hmem
    obtain hmem | rfl := hmem
    · exact (hwaits r hr).2 hmem
    · exact absurd (hwaits _ hr).1 (by simp)
  | nested resp call =>
    obtain ⟨hcall, hcallHolds⟩ := callStanding_within s.up call
    rw [hpc] at hr hmem
    simp only [SlotPc.standing, List.mem_append, List.mem_cons] at hr hmem
    cases hcallWaits : (call.standing s.up).waitsFor with
    | some r' =>
      rw [hcallWaits, Option.some_or] at hr
      obtain rfl := Option.some.inj hr
      obtain hmem | rfl | hmem := hmem
      · have hdown := hholds _ hmem
        have hup := (hcall _ hcallWaits).1
        simp only [List.mem_cons, List.not_mem_nil, or_false] at hdown hup
        obtain rfl | rfl := hdown <;> simp at hup
      · have hlock : call.pc = .lock ∧ call.action = resp.action := by
          have hwaits' := hcallWaits
          rw [CallThread.standing] at hwaits'
          cases hcallPc : call.pc with
          | lock =>
            rw [hcallPc] at hwaits'
            exact ⟨rfl, Resource.mutex.inj (Option.some.inj hwaits')⟩
          | sending entry =>
            rw [hcallPc] at hwaits'
            exact absurd ((@sendStanding_within A _ s.up .up entry).waitsFor _ hwaits').1 (by simp)
          | _ =>
            rw [hcallPc] at hwaits'
            cases hwaits'
        exact hforeign resp call hpc hlock.1 hlock.2
      · exact (hcall _ hcallWaits).2 hmem
    | none =>
      rw [hcallWaits, Option.none_or] at hr
      obtain hmem | rfl | hmem := hmem
      · exact (hwaits r hr).2 hmem
      · exact absurd (hwaits _ hr).1 (by simp)
      · have hdown := (hwaits r hr).1
        have hup := hcallHolds r hmem
        simp only [List.mem_cons, List.not_mem_nil, or_false] at hdown hup
        obtain rfl | rfl := hdown <;> simp at hup

theorem noSelfWait_of_foreign {s : ActionThreads A Params Result}
    (hforeign : ∀ resp call, s.slotPc = .nested resp call → call.pc = .lock →
      call.action ≠ resp.action) :
    s.NoSelfWait := by
  intro thread hthread
  rw [ActionThreads.standings, List.mem_append, List.mem_append] at hthread
  obtain (hthread | hthread) | hthread := hthread
  · obtain ⟨call, _, rfl⟩ := List.mem_map.1 hthread
    exact fun r hr => ((callStanding_within s.up call).waitsFor r hr).2
  · obtain rfl | rfl := by simpa using hthread
    · exact fun r hr => ((receiveStanding_within s.up .up).waitsFor r hr).2
    · exact clientStanding_waitsFor s hforeign
  · obtain ⟨w, _, rfl⟩ := List.mem_map.1 hthread
    rw [ServerThread.standing]
    cases w.pc with
    | sending entry => exact fun r hr => ((sendStanding_within s.down .down entry).waitsFor r hr).2
    | _ => exact nofun

/-- The client's receive thread before the mutex it holds. -/
theorem not_noSelfWait_of_nested {s : ActionThreads A Params Result} {resp : Response A Result}
    {call : CallThread A Params} (hpc : s.slotPc = .nested resp call) (hlock : call.pc = .lock)
    (hown : call.action = resp.action) : ¬ s.NoSelfWait := by
  intro hsafe
  refine hsafe s.clientStanding ?_ (.mutex call.action) ?_ ?_
  · rw [ActionThreads.standings]
    simp
  · simp [ActionThreads.clientStanding, hpc, SlotPc.standing, CallThread.standing, hlock]
  · simp [ActionThreads.clientStanding, hpc, SlotPc.standing, hown]

/-! ### What is kept -/

namespace ActionThreads

variable (codec : Codec A Params Result)

/-- No `send` of the run throws. -/
def completes (s : ActionThreads A Params Result) : ThreadsAct A Params Result → Bool
  | .sendRequest entry => s.up.completes codec.serializeRequest (.send entry)
  | .sendResponse entry => s.down.completes codec.serializeResponse (.send entry)
  | _ => true

/-- The response handler that is running does not call `async` of its own action type. -/
def callsForeign [DecidableEq A] (s : ActionThreads A Params Result) :
    ThreadsAct A Params Result → Bool
  | .handlerCalls action _ =>
    match s.slotPc with
    | .running resp => action ≠ resp.action
    | _ => true
  | _ => true

structure Ordered (s : ActionThreads A Params Result) : Prop where
  up : Operating s.up
  down : Operating s.down
  held : ∀ action, s.locked action = true → s.Holds action
  calls : ∀ call ∈ s.calls, ∀ entry, call.pc = .sending entry → entry < s.up.sends.length
  workers : ∀ w ∈ s.workers, ∀ entry, w.pc = .sending entry → entry < s.down.sends.length
  nested : ∀ resp call, s.slotPc = .nested resp call →
    call.action ≠ resp.action ∧ call.pc ≠ .finished ∧
    ∀ entry, call.pc = .sending entry → entry < s.up.sends.length
  dispatching : s.slotPc ≠ .idle → s.down.receiver = some .dispatch

variable {codec} {s t : ActionThreads A Params Result}

theorem ordered_init (serverExcHandler clientExcHandler : Bool) :
    Ordered (init A Params Result serverExcHandler clientExcHandler) where
  up := Operating.init serverExcHandler
  down := Operating.init clientExcHandler
  held := nofun
  calls := nofun
  workers := nofun
  nested := nofun
  dispatching h := absurd rfl h

namespace Ordered

/-- A step of the channel to the server, which no other thread notices. -/
theorem stepUp (h : Ordered s) {up : Channel (Request A Params)} {a : Act (Request A Params)}
    (hoperates : a.operates = true) (hcompletes : s.up.completes codec.serializeRequest a = true)
    (hup : s.up.step codec.serializeRequest a = some up) : Ordered { s with up } := by
  have hlength := length_sends_le_of_step hup
  refine ⟨h.up.step hoperates hcompletes hup, h.down, h.held, ?_, h.workers, ?_, h.dispatching⟩
  · exact fun call hcall entry hentry => lt_of_lt_of_le (h.calls call hcall entry hentry) hlength
  · intro resp call hpc
    obtain ⟨hforeign, hrunning, hentry⟩ := h.nested resp call hpc
    exact ⟨hforeign, hrunning, fun entry hpc => lt_of_lt_of_le (hentry entry hpc) hlength⟩

/-- A step of the channel from the server that leaves the receive thread where it is. -/
theorem stepDown (h : Ordered s) {down : Channel (Response A Result)} {a : Act (Response A Result)}
    (hoperates : a.operates = true) (hcompletes : s.down.completes codec.serializeResponse a = true)
    (hdown : s.down.step codec.serializeResponse a = some down)
    (hreceiver : down.receiver = s.down.receiver) : Ordered { s with down } := by
  have hlength := length_sends_le_of_step hdown
  refine ⟨h.up, h.down.step hoperates hcompletes hdown, h.held, h.calls, ?_, h.nested, ?_⟩
  · exact fun w hw entry hentry => lt_of_lt_of_le (h.workers w hw entry hentry) hlength
  · exact fun hslot => hreceiver.trans (h.dispatching hslot)

/-- The receive thread goes on with no slot. -/
theorem receiveDown (h : Ordered s) {down : Channel (Response A Result)}
    {outcome : Except RecoverableException Unit}
    (hdown : s.down.step codec.serializeResponse (.receive outcome) = some down)
    (hheld : ∀ action, s.locked action = true → ∃ call ∈ s.calls, call.Holds action) :
    Ordered { s with down, slotPc := .idle } := by
  have hlength := length_sends_le_of_step hdown
  refine ⟨h.up, h.down.step rfl rfl hdown, fun action haction => .inl (hheld action haction),
    h.calls, ?_, nofun, ?_⟩
  · exact fun w hw entry hentry => lt_of_lt_of_le (h.workers w hw entry hentry) hlength
  · exact fun hslot => absurd rfl hslot

/-- The slot moves on, on the response it works on. -/
theorem moveSlot (h : Ordered s) {slotPc : SlotPc A Params Result}
    (hheld : ∀ action, s.slotPc.Holds action → slotPc.Holds action)
    (hnested : ∀ resp call, slotPc = .nested resp call → call.action ≠ resp.action ∧ call.pc = .lock)
    (hdispatch : s.down.receiver = some .dispatch) : Ordered { s with slotPc } where
  up := h.up
  down := h.down
  held action haction := (h.held action haction).imp_right (hheld action)
  calls := h.calls
  workers := h.workers
  nested resp call hpc := by
    obtain ⟨hforeign, hlock⟩ := hnested resp call hpc
    rw [hlock]
    exact ⟨hforeign, nofun, nofun⟩
  dispatching _ := hdispatch

/-- What every step of a call keeps, with the call itself still to be put back. -/
theorem callMove (h : Ordered s) {u : ActionThreads A Params Result}
    {call call' : CallThread A Params} (hmove : CallMove codec s call u call') :
    Operating u.up ∧ s.up.sends.length ≤ u.up.sends.length := by
  obtain hsame | ⟨req, hup⟩ := hmove.up
  · rw [hsame]
    exact ⟨h.up, le_refl _⟩
  · exact ⟨h.up.step rfl rfl hup, length_sends_le_of_step hup⟩

theorem call (h : Ordered s) {i : Nat} {u : ActionThreads A Params Result}
    {call call' : CallThread A Params} (hcall : s.calls[i]? = some call)
    (hmove : CallMove codec s call u call') : Ordered { u with calls := u.calls.set i call' } := by
  obtain ⟨hoperating, hlength⟩ := h.callMove hmove
  refine ⟨hoperating, ?_, fun action haction => ?_, fun c hc entry hentry => ?_, ?_, ?_, ?_⟩
  · rw [hmove.down]
    exact h.down
  · obtain hnew | ⟨hold, hnot⟩ := hmove.locked action haction
    · obtain ⟨hi, _⟩ := List.getElem?_eq_some_iff.1 hcall
      refine .inl ⟨call', ?_, hnew⟩
      rw [hmove.calls]
      exact List.mem_set hi call'
    · obtain ⟨c, hc, hholds⟩ | hslot := h.held action hold
      · refine .inl ⟨c, ?_, hholds⟩
        rw [hmove.calls]
        exact Pool.mem_set_of_ne hcall hc fun heq => hnot (heq ▸ hholds)
      · refine .inr ?_
        rw [hmove.slotPc]
        exact hslot
  · obtain hold | rfl := List.mem_or_eq_of_mem_set hc
    · rw [hmove.calls] at hold
      exact lt_of_lt_of_le (h.calls c hold entry hentry) hlength
    · exact hmove.entry entry hentry
  · rw [hmove.workers, hmove.down]
    exact h.workers
  · intro resp c hpc
    rw [hmove.slotPc] at hpc
    obtain ⟨hforeign, hrunning, hentry⟩ := h.nested resp c hpc
    exact ⟨hforeign, hrunning, fun entry hpc => lt_of_lt_of_le (hentry entry hpc) hlength⟩
  · rw [hmove.slotPc, hmove.down]
    exact h.dispatching

theorem nestedCall (h : Ordered s) {resp : Response A Result} {u : ActionThreads A Params Result}
    {call call' : CallThread A Params} (hpc : s.slotPc = .nested resp call)
    (hmove : CallMove codec s call u call') :
    Ordered { u with
      slotPc := if call'.pc = .finished then .running resp else .nested resp call' } := by
  obtain ⟨hoperating, hlength⟩ := h.callMove hmove
  obtain ⟨hforeign, _, _⟩ := h.nested resp call hpc
  refine ⟨hoperating, ?_, fun action haction => ?_, fun c hc entry hentry => ?_, ?_,
    fun resp' c hc => ?_, fun _ => ?_⟩
  · rw [hmove.down]
    exact h.down
  · have hslot : resp.action = action ∨ call'.Holds action →
        (if call'.pc = .finished then SlotPc.running resp else .nested resp call').Holds action := by
      intro hown
      split
      · next hfinished =>
        refine hown.resolve_right fun hholds => ?_
        have hinside := hholds.2
        rw [hfinished] at hinside
        cases hinside
      · exact hown
    obtain hnew | ⟨hold, hnot⟩ := hmove.locked action haction
    · exact .inr (hslot (.inr hnew))
    · obtain ⟨c, hc, hholds⟩ | hheld := h.held action hold
      · refine .inl ⟨c, ?_, hholds⟩
        rw [hmove.calls]
        exact hc
      · rw [hpc] at hheld
        exact .inr (hslot (.inl (hheld.resolve_right hnot)))
  · rw [hmove.calls] at hc
    exact lt_of_lt_of_le (h.calls c hc entry hentry) hlength
  · rw [hmove.workers, hmove.down]
    exact h.workers
  · dsimp only at hc
    split at hc
    · cases hc
    · next hrunning =>
      obtain ⟨rfl, rfl⟩ := SlotPc.nested.inj hc
      rw [hmove.action]
      exact ⟨hforeign, hrunning, hmove.entry⟩
  · rw [hmove.down]
    exact h.dispatching (by rw [hpc]; exact nofun)

variable [DecidableEq A] [Inhabited Result]

theorem step (s : ActionThreads A Params Result) (a : ThreadsAct A Params Result)
    (t : ActionThreads A Params Result) (h : Ordered s) (hcompletes : s.completes codec a = true)
    (hforeign : s.callsForeign a = true) (hstep : s.step codec a = some t) : Ordered t := by
  cases move_of_step hstep with
  | async action params =>
    refine ⟨h.up, h.down, fun a ha => ?_, fun call hcall => ?_, h.workers, h.nested, h.dispatching⟩
    · refine (h.held a ha).imp_left fun ⟨call, hcall, hholds⟩ =>
        ⟨call, List.mem_append_left _ hcall, hholds⟩
    · obtain hold | rfl := List.mem_append.1 hcall |>.imp_right List.mem_singleton.1
      · exact h.calls call hold
      · exact nofun
  | registerAction action => exact ⟨h.up, h.down, h.held, h.calls, h.workers, h.nested, h.dispatching⟩
  | call i id call call' u hcall hmove => exact h.call hcall hmove
  | sendRequest entry up hup =>
    have hentry : s.up.completes codec.serializeRequest (.send entry) = true := hcompletes
    exact h.stepUp rfl hentry hup
  | serverReceive outcome up hup => exact h.stepUp rfl rfl hup
  | serverServes req up hup =>
    have hup := h.stepUp rfl rfl hup
    refine ⟨hup.up, hup.down, hup.held, hup.calls, fun w hw => ?_, hup.nested, hup.dispatching⟩
    obtain hold | rfl := List.mem_append.1 hw |>.imp_right List.mem_singleton.1
    · exact h.workers w hold
    · exact nofun
  | serverHandlerReturns i result req hw =>
    refine ⟨h.up, h.down, h.held, h.calls, fun w hmem => ?_, h.nested, h.dispatching⟩
    obtain hold | rfl := List.mem_or_eq_of_mem_set hmem
    · exact h.workers w hold
    · exact nofun
  | workerSends i req result down hw hdown =>
    have hreceiver : down.receiver = s.down.receiver := by rw [← Option.some.inj hdown]
    have hlength : down.sends.length = s.down.sends.length + 1 := by
      rw [← Option.some.inj hdown, List.length_append, List.length_singleton]
    have hdown := h.stepDown rfl rfl hdown hreceiver
    refine ⟨hdown.up, hdown.down, hdown.held, hdown.calls, fun w hmem => ?_, hdown.nested,
      hdown.dispatching⟩
    obtain hold | rfl := List.mem_or_eq_of_mem_set hmem
    · exact hdown.workers w hold
    · intro entry hentry
      obtain rfl := ServerPc.sending.inj hentry
      rw [hlength]
      exact Nat.lt_succ_self _
  | workerEnds i req entry hw =>
    exact ⟨h.up, h.down, h.held, h.calls, fun w hmem => h.workers w (List.mem_of_mem_eraseIdx hmem),
      h.nested, h.dispatching⟩
  | sendResponse entry down hdown =>
    have hentry : s.down.completes codec.serializeResponse (.send entry) = true := hcompletes
    exact h.stepDown rfl hentry hdown (receiver_eq_of_send hdown)
  | clientReceive outcome down hidle hdown =>
    refine h.receiveDown hdown fun action haction =>
      (h.held action haction).resolve_right fun hslot => ?_
    rw [hidle] at hslot
    exact hslot
  | slotCalled resp hidle hdispatch =>
    refine h.moveSlot (fun action hslot => ?_) nofun hdispatch
    rw [hidle] at hslot
    exact hslot.elim
  | slotLocks resp hpc hfree =>
    refine ⟨h.up, h.down, fun action haction => ?_, h.calls, h.workers, nofun, fun _ => ?_⟩
    · by_cases hown : resp.action = action
      · exact .inr hown
      · dsimp only at haction
        rw [Function.update_of_ne (Ne.symm hown)] at haction
        refine .inl ((h.held action haction).resolve_right fun hslot => ?_)
        rw [hpc] at hslot
        exact hslot
    · exact h.dispatching (by rw [hpc]; exact nofun)
  | slotFinds resp hpc =>
    exact h.moveSlot (by rw [hpc]; exact fun _ hown => hown)
      nofun (h.dispatching (by rw [hpc]; exact nofun))
  | slotErases resp hpc =>
    have hmoved : Ordered { s with slotPc := .unlock resp } :=
      h.moveSlot (by rw [hpc]; exact fun _ hown => hown)
        nofun (h.dispatching (by rw [hpc]; exact nofun))
    exact ⟨hmoved.up, hmoved.down, hmoved.held, hmoved.calls, hmoved.workers, hmoved.nested,
      hmoved.dispatching⟩
  | slotLeft _ resp outcome down hown hdown =>
    have hreleased : ∀ action, Function.update s.locked resp.action false action = true →
        ∃ call ∈ s.calls, call.Holds action := by
      intro action haction
      by_cases hsame : action = resp.action
      · rw [hsame, Function.update_self] at haction
        cases haction
      · rw [Function.update_of_ne hsame] at haction
        exact (h.held action haction).resolve_right fun hslot => hsame (hown action hslot).symm
    have hleft : Ordered { s with locked := Function.update s.locked resp.action false } :=
      ⟨h.up, h.down, fun action haction => .inl (hreleased action haction), h.calls, h.workers,
        h.nested, h.dispatching⟩
    exact hleft.receiveDown hdown hreleased
  | handlerCalls action params resp hpc =>
    refine h.moveSlot (by rw [hpc]; exact fun _ hown => .inl hown) (fun resp' call hcall => ?_)
      (h.dispatching (by rw [hpc]; exact nofun))
    obtain ⟨rfl, rfl⟩ := SlotPc.nested.inj hcall
    rw [callsForeign, hpc] at hforeign
    exact ⟨of_decide_eq_true hforeign, rfl⟩
  | nestedCall id resp call call' u hpc hmove => exact h.nestedCall hpc hmove
  | handlerReturns resp hpc =>
    exact h.moveSlot (by rw [hpc]; exact fun _ hown => hown)
      nofun (h.dispatching (by rw [hpc]; exact nofun))

end Ordered

/-! ### Who can move -/

end ActionThreads

/-- The next step of a thread that is at work, as opposed to new work from outside or from a response handler. -/
def ThreadsAct.internal : ThreadsAct A Params Result → Bool
  | .async _ _ | .registerAction _ | .handlerCalls _ _ => false
  | .call _ _ | .sendRequest _ | .serverReceive | .serverHandlerReturns _ _ | .respond _
  | .sendResponse _
  | .clientReceive | .handle | .nestedCall _ | .handlerReturns _ => true

namespace ActionThreads

/-- The places of a request that is not sent, not delivered or not answered. One that a receive thread has rejected with an exception has none. -/
inductive Unsettled (s : ActionThreads A Params Result) : Prop where
  | call (call : CallThread A Params) (hcall : call ∈ s.calls) (hpc : call.pc ≠ .finished)
  | request (hfresh : s.up.fresh = true)
  | requestTaken (hdispatch : s.up.receiver = some .dispatch)
  | worker (w : ServerThread A Params Result) (hw : w ∈ s.workers)
  | response (hfresh : s.down.fresh = true)
  | responseTaken (hdispatch : s.down.receiver = some .dispatch)

variable [DecidableEq A] [Inhabited Result] {codec : Codec A Params Result}
    {s : ActionThreads A Params Result}

def Enabled (codec : Codec A Params Result) (s : ActionThreads A Params Result) : Prop :=
  ∃ a t, a.internal = true ∧ s.step codec a = some t

theorem step_eq_none (hstuck : ¬ Enabled codec s) {a : ThreadsAct A Params Result}
    (ha : a.internal = true) : s.step codec a = none := by
  by_contra hsome
  obtain ⟨t, ht⟩ := Option.ne_none_iff_exists'.1 hsome
  exact hstuck ⟨a, t, ha, ht⟩

theorem eq_none_of_bind {α β : Type} {o : Option α} {f : α → β}
    (h : (o.bind fun x => some (f x)) = none) : o = none := by
  cases o with
  | none => rfl
  | some x => cases h

omit [DecidableEq A] [Inhabited Result] in
/-- In the middle of a slot call a receive thread can go on. -/
theorem receiver_ne_of_receiveUp {outcome : Except RecoverableException Unit}
    (h : s.receiveUp codec outcome = none) : s.up.receiver ≠ some .dispatch := by
  intro hdispatch
  simp [receiveUp, Channel.step, Channel.receiveStep, hdispatch] at h

omit [DecidableEq A] [Inhabited Result] in
theorem receiver_ne_of_receiveDown {outcome : Except RecoverableException Unit}
    (h : s.receiveDown codec outcome = none) : s.down.receiver ≠ some .dispatch := by
  intro hdispatch
  simp [receiveDown, Channel.step, Channel.receiveStep, hdispatch] at h

omit [Inhabited Result] in
/-- Past the mutex, a call of `async` waits for nothing but its `send`. -/
theorem not_inside_of_callStep (hquiescent : Quiescent s.up) {call : CallThread A Params}
    (hentry : ∀ entry, call.pc = .sending entry → entry < s.up.sends.length) {id : Str}
    (h : s.callStep codec call id = none) : call.pc.inside = false := by
  unfold callStep at h
  cases hpc : call.pc with
  | lock | finished => rfl
  | sending entry =>
    have hlt := hentry entry hpc
    have hreturned : s.up.sends[entry]? = some .returned := by
      rw [List.getElem?_eq_getElem hlt, hquiescent.sends _ (List.getElem_mem hlt)]
    simp only [hpc, hreturned] at h
    cases h
  | send id =>
    simp only [hpc] at h
    cases h
  | generateId | registerSlot | insertHandler | unlock =>
    simp only [hpc] at h
    cases h

namespace Ordered

variable (h : Ordered s) (hstuck : ¬ Enabled codec s)
include h hstuck

theorem up_quiescent : Quiescent s.up ∧ s.up.fresh = false ∧ s.up.receiver ≠ some .dispatch := by
  have hserver : s.serverReceive codec = none := step_eq_none hstuck (a := .serverReceive) rfl
  have hdispatch : s.up.receiver ≠ some .dispatch := by
    intro hdispatch
    rw [serverReceive, if_pos hdispatch] at hserver
    split at hserver
    · exact receiver_ne_of_receiveUp hserver hdispatch
    · split at hserver
      · exact receiver_ne_of_receiveUp hserver hdispatch
      · exact receiver_ne_of_receiveUp hserver hdispatch
  have hsends : ∀ i, s.up.sendStep codec.serializeRequest i = none :=
    fun i => eq_none_of_bind (step_eq_none hstuck (a := .sendRequest i) rfl)
  rw [serverReceive, if_neg hdispatch] at hserver
  obtain ⟨hquiescent, hfresh⟩ := h.up.quiescent hsends hdispatch (eq_none_of_bind hserver)
  exact ⟨hquiescent, hfresh, hdispatch⟩

theorem not_inside {call : CallThread A Params} (hcall : call ∈ s.calls) :
    call.pc.inside = false := by
  obtain ⟨i, hi⟩ := List.mem_iff_getElem?.1 hcall
  have hstep := step_eq_none hstuck (a := .call i []) rfl
  have hblocked : s.callStep codec call [] = none := by
    simp only [ActionThreads.step, hi] at hstep
    exact eq_none_of_bind hstep
  exact not_inside_of_callStep (h.up_quiescent hstuck).1 (h.calls call hcall) hblocked

/-- If somebody holds a mutex, it is the client's receive thread. -/
theorem slot_holds {action : A} (hlocked : s.locked action = true) : s.slotPc.Holds action := by
  refine (h.held action hlocked).resolve_left fun ⟨call, hcall, hholds⟩ => ?_
  have hinside := hholds.2
  rw [h.not_inside hstuck hcall] at hinside
  cases hinside

/-- The receive thread cannot be stuck inside a slot: the mutex it would wait for has no holder left but itself. -/
theorem slot_idle : s.slotPc = .idle := by
  have hhandle : s.handle codec = none := step_eq_none hstuck (a := .handle) rfl
  by_contra hslot
  have hdispatch := h.dispatching hslot
  unfold handle at hhandle
  cases hpc : s.slotPc with
  | idle => exact hslot hpc
  | lock resp =>
    have hlocked : s.locked resp.action = true := by simpa [hpc] using hhandle
    have hholds := h.slot_holds hstuck hlocked
    rw [hpc] at hholds
    exact hholds
  | find resp =>
    simp only [hpc] at hhandle
    split at hhandle
    · cases hhandle
    · exact receiver_ne_of_receiveDown hhandle hdispatch
  | running resp =>
    have hreturns := step_eq_none hstuck (a := .handlerReturns none) rfl
    simp [ActionThreads.step, hpc] at hreturns
  | nested resp call =>
    obtain ⟨hforeign, hrunning, hentry⟩ := h.nested resp call hpc
    have hnested := step_eq_none hstuck (a := .nestedCall []) rfl
    have hblocked : s.callStep codec call [] = none := by
      simp only [ActionThreads.step, hpc] at hnested
      exact eq_none_of_bind hnested
    have hoff := not_inside_of_callStep (h.up_quiescent hstuck).1 hentry hblocked
    cases hcall : call.pc with
    | lock =>
      have hlocked : s.locked call.action = true := by simpa [callStep, hcall] using hblocked
      have hholds := h.slot_holds hstuck hlocked
      rw [hpc] at hholds
      obtain hown | hheld := hholds
      · exact hforeign hown.symm
      · have hinside := hheld.2
        rw [hcall] at hinside
        cases hinside
    | finished => exact hrunning hcall
    | generateId | registerSlot | insertHandler | send | sending | unlock =>
      rw [hcall] at hoff
      cases hoff
  | erase resp => simp [hpc] at hhandle
  | unlock resp =>
    simp only [hpc] at hhandle
    exact receiver_ne_of_receiveDown hhandle hdispatch

theorem down_quiescent : Quiescent s.down ∧ s.down.fresh = false ∧
    s.down.receiver ≠ some .dispatch := by
  have hidle := h.slot_idle hstuck
  have hclient : s.clientReceive codec = none := step_eq_none hstuck (a := .clientReceive) rfl
  simp only [clientReceive, hidle] at hclient
  have hdispatch : s.down.receiver ≠ some .dispatch := by
    intro hdispatch
    rw [if_pos hdispatch] at hclient
    split at hclient
    · exact receiver_ne_of_receiveDown hclient hdispatch
    · split at hclient
      · cases hclient
      · exact receiver_ne_of_receiveDown hclient hdispatch
  have hsends : ∀ i, s.down.sendStep codec.serializeResponse i = none :=
    fun i => eq_none_of_bind (step_eq_none hstuck (a := .sendResponse i) rfl)
  rw [if_neg hdispatch] at hclient
  obtain ⟨hquiescent, hfresh⟩ := h.down.quiescent hsends hdispatch (eq_none_of_bind hclient)
  exact ⟨hquiescent, hfresh, hdispatch⟩

theorem no_worker (w : ServerThread A Params Result) : w ∉ s.workers := by
  intro hw
  obtain ⟨i, hi⟩ := List.mem_iff_getElem?.1 hw
  have hworker : s.workerStep codec i = none := step_eq_none hstuck (a := .respond i) rfl
  obtain ⟨req, pc⟩ := w
  cases pc with
  | handling =>
    have hreturns := step_eq_none hstuck (a := .serverHandlerReturns i (.ofV default)) rfl
    simp [ActionThreads.step, hi] at hreturns
  | send result => simp [workerStep, hi, Channel.step] at hworker
  | sending entry =>
    have hlt := h.workers _ hw entry rfl
    have hreturned : s.down.sends[entry]? = some .returned := by
      rw [List.getElem?_eq_getElem hlt, (h.down_quiescent hstuck).1.sends _ (List.getElem_mem hlt)]
    simp [workerStep, hi, hreturned] at hworker

theorem finished {call : CallThread A Params} (hcall : call ∈ s.calls) : call.pc = .finished := by
  have hinside := h.not_inside hstuck hcall
  cases hpc : call.pc with
  | finished => rfl
  | lock =>
    exfalso
    obtain ⟨i, hi⟩ := List.mem_iff_getElem?.1 hcall
    have hblocked := step_eq_none hstuck (a := .call i []) rfl
    have hlocked : s.locked call.action = true := by
      simpa [ActionThreads.step, hi, callStep, hpc] using hblocked
    have hholds := h.slot_holds hstuck hlocked
    rw [h.slot_idle hstuck] at hholds
    exact hholds
  | generateId | registerSlot | insertHandler | send | sending | unlock =>
    rw [hpc] at hinside
    cases hinside

omit hstuck in
/-- Where there is work left, somebody can do it. -/
theorem enabled (hunsettled : Unsettled s) : Enabled codec s := by
  by_contra hstuck
  cases hunsettled with
  | call call hcall hpc => exact hpc (h.finished hstuck hcall)
  | request hfresh => exact absurd ((h.up_quiescent hstuck).2.1.symm.trans hfresh) (by decide)
  | requestTaken hdispatch => exact (h.up_quiescent hstuck).2.2 hdispatch
  | worker w hw => exact h.no_worker hstuck w hw
  | response hfresh => exact absurd ((h.down_quiescent hstuck).2.1.symm.trans hfresh) (by decide)
  | responseTaken hdispatch => exact (h.down_quiescent hstuck).2.2 hdispatch

end Ordered

/-! ### Runs -/

/-- Where work is left some thread can do it, and nobody waits for himself. -/
structure NeverStuck (codec : Codec A Params Result) (s : ActionThreads A Params Result) : Prop where
  enabled : Unsettled s → Enabled codec s
  noSelfWait : s.NoSelfWait

theorem Ordered.neverStuck (h : Ordered s) : NeverStuck codec s where
  enabled := h.enabled
  noSelfWait := noSelfWait_of_foreign fun resp call hpc _ => (h.nested resp call hpc).1

/-- A response handler that calls `async` of its own type waits for the mutex its own thread holds. -/
theorem not_neverStuck_of_own {a : ThreadsAct A Params Result} {t : ActionThreads A Params Result}
    (hown : ¬ s.callsForeign a = true) (hstep : s.step codec a = some t) : ¬ NeverStuck codec t := by
  cases a with
  | handlerCalls action params =>
    cases hpc : s.slotPc with
    | running resp =>
      rw [callsForeign, hpc] at hown
      have hsame : action = resp.action := by simpa using hown
      simp only [ActionThreads.step, hpc] at hstep
      obtain rfl := Option.some.inj hstep
      exact fun hsafe => not_noSelfWait_of_nested rfl rfl hsame hsafe.noSelfWait
    | _ =>
      rw [callsForeign, hpc] at hown
      exact absurd rfl hown
  | _ => exact absurd rfl hown

/-- **No deadlock.** In a run of the threads of one client and one server endpoint in which no `send` throws, some thread that is at work can go on in every state in which a request is unsent, undelivered or unanswered, and no thread waits for a mutex or a semaphore it holds itself, if and only if no response handler of the run calls `async` of its own action type. -/
theorem neverStuck_iff_callsForeign {serverExcHandler clientExcHandler : Bool}
    {acts : List (ThreadsAct A Params Result)} {s : ActionThreads A Params Result}
    (hsends : Along (step codec) (fun s a => s.completes codec a = true)
      (init A Params Result serverExcHandler clientExcHandler) acts)
    (hrun : run (step codec) (init A Params Result serverExcHandler clientExcHandler) acts = some s) :
    Always (step codec) (NeverStuck codec)
      (init A Params Result serverExcHandler clientExcHandler) acts ↔
      Along (step codec) (fun s a => s.callsForeign a = true)
        (init A Params Result serverExcHandler clientExcHandler) acts :=
  always_iff_along_of_along (fun _ h => h.neverStuck) Ordered.step
    (fun _ _ _ _ => not_neverStuck_of_own)
    (ordered_init serverExcHandler clientExcHandler) hsends hrun

end ActionThreads

/-! ### Two action types -/

namespace Codec

def requestText (req : Request Nat Str) : Str :=
  ascii "\x7b\"id\":\"ns::" ++ decimal req.action ++
    ascii "_action\",\"payload\":\x7b\"data.text\":\"" ++ req.params ++
    ascii "\",\"id\":\"" ++ req.id ++ ascii "\"\x7d\x7d"

def responseText (resp : Response Nat Str) : Str :=
  ascii "\x7b\"id\":\"ns::" ++ decimal resp.action ++
    ascii "_response\",\"payload\":\x7b\"data.text\":\"" ++ resp.data.data ++
    ascii "\",\"id\":\"" ++ resp.data.id ++ ascii "\"\x7d\x7d"

/-- `MessageFactory` on two requests and their responses. -/
def sample : Codec Nat Str Str where
  name action := ascii "ns::" ++ decimal action
  serializeRequest req := .ok (requestText req)
  serializeResponse resp := .ok (responseText resp)
  constructRequest text :=
    match [Request.mk 0 (ascii "1") (ascii "a"), Request.mk 1 (ascii "2") (ascii "b")].find?
      (requestText · = text) with
    | some req => .ok req
    | none => .error (.dataFormatException (ascii "invalid IPC JSON data"))
  constructResponse text :=
    match [Response.mk 0 (.ofResponse (ascii "1") (ascii "c")),
      Response.mk 1 (.ofResponse (ascii "2") (ascii "d"))].find?
      (responseText · = text) with
    | some resp => .ok resp
    | none => .error (.dataFormatException (ascii "invalid IPC JSON data"))

end Codec

namespace ActionThreads

/-- A request of the first type, up to the call of its response handler. -/
def upToHandler : List (ThreadsAct Nat Str Str) :=
  List.flatten [
    [.registerAction 0, .registerAction 1, .async 0 (ascii "a")],
    [.call 0 [], .call 0 (ascii "1"), .call 0 [], .call 0 [], .call 0 []],
    List.replicate 5 (.sendRequest 0), [.call 0 [], .call 0 []],
    List.replicate 7 .serverReceive, [.serverHandlerReturns 0 (.ofV (ascii "c")), .respond 0],
    List.replicate 5 (.sendResponse 0), [.respond 0],
    List.replicate 5 .clientReceive, [.handle, .handle]]

/-- The handler asks for the second type, and is answered. -/
def askOther : List (ThreadsAct Nat Str Str) :=
  List.flatten [
    upToHandler,
    [.handlerCalls 1 (ascii "b"), .nestedCall [], .nestedCall (ascii "2"), .nestedCall [],
      .nestedCall [], .nestedCall []],
    List.replicate 5 (.sendRequest 1),
    [.nestedCall [], .nestedCall [], .handlerReturns none, .handle, .handle],
    List.replicate 2 .clientReceive, List.replicate 7 .serverReceive,
    [.serverHandlerReturns 0 (.ofV (ascii "d")), .respond 0], List.replicate 5 (.sendResponse 1),
    [.respond 0], List.replicate 5 .clientReceive,
    [.handle, .handle, .handlerReturns none, .handle, .handle], List.replicate 2 .clientReceive]

theorem neverStuck_iff_callsForeign_askOther :
    ∃ s, run (step Codec.sample) (init Nat Str Str true true) askOther = some s ∧
      s.down.received.length = 2 ∧
      Always (step Codec.sample) (NeverStuck Codec.sample) (init Nat Str Str true true) askOther := by
  obtain ⟨s, hrun, hp⟩ := exists_of_any_run (step Codec.sample) (init Nat Str Str true true) askOther
    (fun s => decide (s.down.received.length = 2)) (by decide +kernel)
  exact ⟨s, hrun, of_decide_eq_true hp,
    (neverStuck_iff_callsForeign (by decide +kernel) hrun).2 (by decide +kernel)⟩

/-- The handler asks for its own type once more. -/
def askAgain : List (ThreadsAct Nat Str Str) := upToHandler ++ [.handlerCalls 0 (ascii "b")]

/-- The caller is through, the server waits for a request, and the client's receive thread is before the mutex it holds. -/
def deadlocked (s : ActionThreads Nat Str Str) : Bool :=
  s.calls.all (·.pc = .finished) && s.up.sends.all (· = .returned) &&
    s.up.receiver = some .waitFull &&
    s.up.buf.semFull = 0 && s.workers.isEmpty && s.down.sends.all (· = .returned) && s.locked 0 &&
    match s.slotPc with
    | .nested resp call => resp.action = 0 && call.action = 0 && call.pc = .lock
    | _ => false

theorem sendStep_eq_none {Msg : Type} {serialize : Msg → Except Exception Str} {c : Channel Msg}
    (h : ∀ pc ∈ c.sends, pc = .returned) (i : Nat) : c.sendStep serialize i = none := by
  unfold Channel.sendStep
  cases hpc : c.sends[i]? with
  | none => rfl
  | some pc =>
    rw [h pc (List.mem_of_getElem? hpc)]

theorem not_enabled_of_deadlocked {s : ActionThreads Nat Str Str} (h : s.deadlocked = true) :
    ¬ Enabled Codec.sample s ∧ ¬ s.NoSelfWait := by
  simp only [deadlocked, Bool.and_eq_true, List.all_eq_true, decide_eq_true_eq, List.isEmpty_iff] at h
  obtain ⟨⟨⟨⟨⟨⟨⟨hcalls, hup⟩, hserver⟩, hempty⟩, hworkers⟩, hdown⟩, hlocked⟩, hslot⟩ := h
  cases hpc : s.slotPc with
  | nested resp call =>
    simp only [hpc, Bool.and_eq_true, decide_eq_true_eq] at hslot
    obtain ⟨⟨hresp, haction⟩, hlock⟩ := hslot
    refine ⟨?_, not_noSelfWait_of_nested hpc hlock (haction.trans hresp.symm)⟩
    rintro ⟨a, t, ha, ht⟩
    cases a with
    | async | registerAction | handlerCalls => cases ha
    | call i id =>
      obtain ⟨call, hcall, hstep⟩ := Option.bind_eq_some_iff.1 ht
      simp [callStep, hcalls call (List.mem_of_getElem? hcall)] at hstep
    | sendRequest entry => simp [ActionThreads.step, Channel.step, sendStep_eq_none hup] at ht
    | serverReceive =>
      simp [ActionThreads.step, serverReceive, receiveUp, Channel.step, Channel.receiveStep,
        hserver, hempty] at ht
    | serverHandlerReturns i result => simp [ActionThreads.step, hworkers] at ht
    | respond i => simp [ActionThreads.step, workerStep, hworkers] at ht
    | sendResponse entry => simp [ActionThreads.step, Channel.step, sendStep_eq_none hdown] at ht
    | clientReceive => simp [ActionThreads.step, clientReceive, hpc] at ht
    | handle => simp [ActionThreads.step, handle, hpc] at ht
    | nestedCall id => simp [ActionThreads.step, hpc, callStep, hlock, haction, hlocked] at ht
    | handlerReturns throws => simp [ActionThreads.step, hpc] at ht
  | _ =>
    rw [hpc] at hslot
    cases hslot

/-- The thread that runs the handler waits for the mutex it holds, and nobody else has anything to do. -/
theorem askAgain_deadlocks :
    Along (step Codec.sample) (fun s a => s.completes Codec.sample a = true)
      (init Nat Str Str true true) askAgain ∧
      ∃ s, run (step Codec.sample) (init Nat Str Str true true) askAgain = some s ∧ Unsettled s ∧
        ¬ Enabled Codec.sample s ∧ ¬ s.NoSelfWait := by
  obtain ⟨s, hrun, hp⟩ := exists_of_any_run (step Codec.sample) (init Nat Str Str true true) askAgain
    (fun s => s.deadlocked && decide (s.down.receiver = some .dispatch)) (by decide +kernel)
  obtain ⟨hdeadlocked, hdispatch⟩ := Bool.and_eq_true_iff.1 hp
  exact ⟨by decide +kernel, s, hrun, .responseTaken (of_decide_eq_true hdispatch),
    not_enabled_of_deadlocked hdeadlocked⟩

end ActionThreads

end Libesf.Ipc

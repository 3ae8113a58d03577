import Libesf.Base.Transition
import Libesf.Base.CString

/-!
# Endpoints that come and go

An action type keeps, for the life of the process, the addresses of the endpoints it has been called on, and registers the slot for its responses the first time it sees an address. Nobody tells it of an endpoint's end, and an allocator may give a new endpoint the address of an old one. Responses go to the channel: a client endpoint that is connected to it takes them, whoever has sent the request.
-/

namespace Libesf.Ipc

open Transition

/-- A client endpoint that is alive: its address, its channel, and the action types whose response slot is in its `m_slots`. -/
structure ClientEndpoint (A : Type) where
  address : Nat
  name : Str
  slots : A → Bool

structure Lifetimes (A : Type) where
  objects : List (ClientEndpoint A)
  /-- `Internals::endpoints` of each action type. -/
  endpoints : A → Nat → Bool
  /-- The requests that were sent, by action type and endpoint address. -/
  sent : List (A × Nat)
  /-- The requests whose response has not been received, by action type and channel. -/
  pending : List (A × Str)
  /-- The responses that were not connected to any slot. -/
  rejected : List (A × Str)

/-- Endpoints are made and destroyed, `async` is called, with a `send` that throws or does not, and an endpoint receives the response to a pending request. -/
inductive LifetimeAct (A : Type) where
  | create (ep : Nat) (name : Str)
  | destroy (ep : Nat)
  | async (action : A) (ep : Nat) (throws : Bool)
  | receive (k : Nat) (ep : Nat)

variable {A : Type} [DecidableEq A]

namespace Lifetimes

variable (s : Lifetimes A)

def init : Lifetimes A := ⟨[], fun _ _ => false, [], [], []⟩

def object (ep : Nat) : Option (ClientEndpoint A) := s.objects.find? fun o => o.address = ep

/-- The endpoint is inserted into the set of the action type, and gets its response slot. -/
def registerSlot (action : A) (ep : Nat) : Lifetimes A :=
  { s with
    endpoints := Function.update s.endpoints action (Function.update (s.endpoints action) ep true)
    objects := s.objects.map fun o =>
      if o.address = ep then { o with slots := Function.update o.slots action true } else o }

def async (action : A) (ep : Nat) (name : Str) (throws : Bool) : Lifetimes A :=
  let s := if s.endpoints action ep then s else s.registerSlot action ep
  if throws then s
  else { s with sent := s.sent ++ [(action, ep)], pending := s.pending ++ [(action, name)] }

/-- The receive thread looks the response up in `m_slots`. -/
def receive (k : Nat) (o : ClientEndpoint A) (resp : A × Str) : Lifetimes A :=
  let s := { s with pending := s.pending.eraseIdx k }
  if o.slots resp.1 then s else { s with rejected := s.rejected ++ [resp] }

def step (s : Lifetimes A) : LifetimeAct A → Option (Lifetimes A)
  | .create ep name => do
    guard ((s.object ep).isNone = true)
    return { s with objects := ⟨ep, name, fun _ => false⟩ :: s.objects }
  | .destroy ep => do
    let _ ← s.object ep
    return { s with objects := s.objects.filter fun o => o.address ≠ ep }
  | .async action ep throws => do
    let o ← s.object ep
    return s.async action ep o.name throws
  | .receive k ep => do
    let o ← s.object ep
    let resp ← s.pending[k]?
    guard (o.name = resp.2)
    return s.receive k o resp

/-! ### What a step does -/

/-- The steps, with what they know of the state. -/
inductive Move (s : Lifetimes A) : LifetimeAct A → Lifetimes A → Prop where
  | create (ep : Nat) (name : Str) :
      Move s (.create ep name) { s with objects := ⟨ep, name, fun _ => false⟩ :: s.objects }
  | destroy (ep : Nat) : Move s (.destroy ep) { s with
    objects := s.objects.filter fun o => o.address ≠ ep }
  | async (action : A) (ep : Nat) (throws : Bool) (o : ClientEndpoint A) (ho : s.object ep = some o) :
      Move s (.async action ep throws) (s.async action ep o.name throws)
  | receive (k : Nat) (ep : Nat) (o : ClientEndpoint A) (resp : A × Str) (ho : s.object ep = some o)
      (hresp : s.pending[k]? = some resp) (hname : o.name = resp.2) :
        Move s (.receive k ep) (s.receive k o resp)

theorem move_of_step {s t : Lifetimes A} {a : LifetimeAct A} (h : s.step a = some t) :
    Move s a t := by
  cases a with
  | create ep name =>
    obtain ⟨_, _, ht⟩ := Option.bind_eq_some_iff.1 h
    exact Option.some.inj ht ▸ .create ep name
  | destroy ep =>
    obtain ⟨_, _, ht⟩ := Option.bind_eq_some_iff.1 h
    exact Option.some.inj ht ▸ .destroy ep
  | async action ep throws =>
    obtain ⟨o, ho, ht⟩ := Option.bind_eq_some_iff.1 h
    exact Option.some.inj ht ▸ .async action ep throws o ho
  | receive k ep =>
    obtain ⟨o, ho, h⟩ := Option.bind_eq_some_iff.1 h
    obtain ⟨resp, hresp, h⟩ := Option.bind_eq_some_iff.1 h
    obtain ⟨_, hguard, ht⟩ := Option.bind_eq_some_iff.1 h
    exact Option.some.inj ht ▸ .receive k ep o resp ho hresp ((Option.guard_eq_some' _).1 hguard)

/-! ### Exactly when responses can be routed back -/

/-- What is promised of a state: the endpoint that lives where a request was sent from has the response slot, a response that comes now finds one, and none has been rejected. -/
structure RoutedBack (s : Lifetimes A) : Prop where
  slot : ∀ action ep, (action, ep) ∈ s.sent → ∀ o ∈ s.objects, o.address = ep → o.slots action = true
  pending : ∀ action name, (action, name) ∈ s.pending → ∀ o ∈ s.objects, o.name = name →
    o.slots action = true
  rejected : s.rejected = []

/-- The action type knows the address from an endpoint that is no more: it will not register its slot. -/
def stale (action : A) (o : ClientEndpoint A) : Bool :=
  s.endpoints action o.address && !o.slots action

/-- A new endpoint gets an address no request was sent from, on a channel without pending requests. A request is sent from an address that is not stale, and no other endpoint of the channel lacks the slot. -/
def routable : LifetimeAct A → Bool
  | .create ep name =>
    s.sent.all (fun entry => entry.2 ≠ ep) && s.pending.all fun entry => entry.2 ≠ name
  | .async action ep false =>
    (s.object ep).all fun o => s.objects.all fun other =>
      if other.address = ep then !s.stale action other else decide (other.name ≠ o.name) ||
        other.slots action
  | _ => true

omit [DecidableEq A] in
theorem object_eq_some {s : Lifetimes A} {ep : Nat} {o : ClientEndpoint A}
    (h : s.object ep = some o) : o ∈ s.objects ∧ o.address = ep :=
  ⟨List.mem_of_find?_eq_some h, by simpa using List.find?_some h⟩

theorem mem_registerSlot {s : Lifetimes A} {action : A} {ep : Nat} {o : ClientEndpoint A} :
    o ∈ (s.registerSlot action ep).objects ↔ ∃ old ∈ s.objects,
      o = if old.address = ep then { old with slots := Function.update old.slots action true }
        else old := by
  simp only [registerSlot, List.mem_map, eq_comm]

/-- Registering a slot takes no slot away. -/
theorem registered {s : Lifetimes A} {action : A} {ep : Nat} {o : ClientEndpoint A}
    (ho : o ∈ (s.registerSlot action ep).objects) :
    ∃ old ∈ s.objects, o.address = old.address ∧ o.name = old.name ∧
      (∀ b, old.slots b = true → o.slots b = true) ∧ (o.address = ep → o.slots action = true) := by
  obtain ⟨old, hold, rfl⟩ := mem_registerSlot.1 ho
  refine ⟨old, hold, ?_⟩
  split
  · refine ⟨rfl, rfl, fun b hb => ?_, fun _ => Function.update_self ..⟩
    dsimp only
    by_cases hb' : b = action
    · rw [hb', Function.update_self]
    · rw [Function.update_of_ne hb']
      exact hb
  · next hne => exact ⟨rfl, rfl, fun _ hb => hb, fun heq => absurd heq hne⟩

namespace RoutedBack

variable {s t : Lifetimes A}

omit [DecidableEq A] in
theorem init : RoutedBack (.init : Lifetimes A) := ⟨nofun, nofun, rfl⟩

omit [DecidableEq A] in
/-- Fewer endpoints, or the same with more slots. -/
theorem of_objects (h : RoutedBack s) {objects : List (ClientEndpoint A)} {endpoints : A → Nat → Bool}
    (hobjects : ∀ o ∈ objects, ∃ old ∈ s.objects, o.address = old.address ∧ o.name = old.name ∧
      ∀ b, old.slots b = true → o.slots b = true) :
    RoutedBack { s with objects := objects, endpoints := endpoints } where
  slot action ep hsent o ho haddress := by
    obtain ⟨old, hold, hsame, -, hslots⟩ := hobjects o ho
    exact hslots action (h.slot action ep hsent old hold (hsame ▸ haddress))
  pending action name hpending o ho hname := by
    obtain ⟨old, hold, -, hsame, hslots⟩ := hobjects o ho
    exact hslots action (h.pending action name hpending old hold (hsame ▸ hname))
  rejected := h.rejected

theorem registerSlot (h : RoutedBack s) (action : A) (ep : Nat) :
    RoutedBack (s.registerSlot action ep) :=
  h.of_objects fun o ho => by
    obtain ⟨old, hold, haddress, hname, hslots, -⟩ := registered ho
    exact ⟨old, hold, haddress, hname, hslots⟩

omit [DecidableEq A] in
/-- A request is sent when every endpoint at the address, and every one of the channel, has the slot. -/
theorem send (h : RoutedBack s) {action : A} {ep : Nat} {name : Str}
    (hslots : ∀ o ∈ s.objects, o.address = ep ∨ o.name = name → o.slots action = true) :
    RoutedBack { s with
      sent := s.sent ++ [(action, ep)], pending := s.pending ++ [(action, name)] } where
  slot action' ep' hsent o ho haddress := by
    obtain hold | hnew := List.mem_append.1 hsent
    · exact h.slot action' ep' hold o ho haddress
    · obtain ⟨rfl, rfl⟩ := Prod.mk.inj (List.mem_singleton.1 hnew)
      exact hslots o ho (.inl haddress)
  pending action' name' hpending o ho hname := by
    obtain hold | hnew := List.mem_append.1 hpending
    · exact h.pending action' name' hold o ho hname
    · obtain ⟨rfl, rfl⟩ := Prod.mk.inj (List.mem_singleton.1 hnew)
      exact hslots o ho (.inr hname)
  rejected := h.rejected

theorem async (h : RoutedBack s) {action : A} {ep : Nat} {throws : Bool} {o : ClientEndpoint A}
    (ho : s.object ep = some o) (hroutable : s.routable (.async action ep throws) = true) :
    RoutedBack (s.async action ep o.name throws) := by
  cases throws with
  | true =>
    rw [Lifetimes.async]
    cases s.endpoints action ep with
    | true => exact h
    | false => exact h.registerSlot action ep
  | false =>
    simp only [routable, ho, Option.all_some, List.all_eq_true] at hroutable
    have hother : ∀ other ∈ s.objects, other.address ≠ ep → other.name = o.name →
        other.slots action = true := by
      intro other hmem haddress hname
      have hfits := hroutable other hmem
      rw [if_neg haddress, Bool.or_eq_true, decide_eq_true_eq] at hfits
      exact hfits.resolve_left fun hne => hne hname
    rw [Lifetimes.async]
    cases hknown : s.endpoints action ep with
    | true =>
      refine h.send fun other hmem hwhere => ?_
      by_cases haddress : other.address = ep
      · have hfits := hroutable other hmem
        rw [if_pos haddress, stale, haddress, hknown, Bool.true_and, Bool.not_not] at hfits
        exact hfits
      · exact hother other hmem haddress (hwhere.resolve_left haddress)
    | false =>
      refine (h.registerSlot action ep).send fun other hmem hwhere => ?_
      obtain ⟨old, hold, haddress, hname, hslots, hself⟩ := registered hmem
      by_cases hep : other.address = ep
      · exact hself hep
      · exact hslots action (hother old hold (haddress ▸ hep) (hname ▸ hwhere.resolve_left hep))

theorem step (s : Lifetimes A) (a : LifetimeAct A) (t : Lifetimes A) (h : RoutedBack s)
    (hroutable : s.routable a = true) (hstep : s.step a = some t) : RoutedBack t := by
  cases move_of_step hstep with
  | create ep name =>
    simp only [routable, Bool.and_eq_true, List.all_eq_true, decide_eq_true_eq] at hroutable
    refine ⟨fun action ep' hsent o ho haddress => ?_,
      fun action name' hpending o ho hname => ?_, h.rejected⟩
    · obtain rfl | ho := List.mem_cons.1 ho
      · exact absurd haddress.symm (hroutable.1 _ hsent)
      · exact h.slot action ep' hsent o ho haddress
    · obtain rfl | ho := List.mem_cons.1 ho
      · exact absurd hname.symm (hroutable.2 _ hpending)
      · exact h.pending action name' hpending o ho hname
  | destroy ep =>
    exact h.of_objects fun o ho => ⟨o, (List.mem_filter.1 ho).1, rfl, rfl, fun _ hb => hb⟩
  | async action ep throws o ho => exact h.async ho hroutable
  | receive k ep o resp ho hresp hname =>
    have hslot := h.pending resp.1 resp.2 (List.mem_of_getElem? hresp) o (object_eq_some ho).1 hname
    rw [receive, if_pos hslot]
    exact ⟨h.slot, fun action name hpending =>
      h.pending action name (List.mem_of_mem_eraseIdx hpending), h.rejected⟩

/-- A new endpoint without slots stands where a response is expected, or a request goes out whose response some endpoint has no slot for. -/
theorem not_routedBack (s : Lifetimes A) (a : LifetimeAct A) (t : Lifetimes A)
    (hnot : ¬ s.routable a = true) (hstep : s.step a = some t) : ¬ RoutedBack t := by
  intro hrouted
  apply hnot
  cases move_of_step hstep with
  | create ep name =>
    rw [routable, Bool.and_eq_true, List.all_eq_true, List.all_eq_true]
    refine ⟨fun entry hentry => decide_eq_true fun heq => ?_,
      fun entry hentry => decide_eq_true fun heq => ?_⟩
    · exact Bool.noConfusion (hrouted.slot entry.1 entry.2 hentry _ List.mem_cons_self heq.symm)
    · exact Bool.noConfusion (hrouted.pending entry.1 entry.2 hentry _ List.mem_cons_self heq.symm)
  | async action ep throws o ho =>
    cases throws with
    | true => rfl
    | false =>
      simp only [routable, ho, Option.all_some, List.all_eq_true]
      intro other hmem
      rw [Lifetimes.async] at hrouted
      cases hknown : s.endpoints action ep with
      | true =>
        rw [hknown] at hrouted
        have hsent := hrouted.slot action ep
          (List.mem_append_right _ (List.mem_singleton_self _)) other hmem
        have hpending := hrouted.pending action o.name
          (List.mem_append_right _ (List.mem_singleton_self _)) other hmem
        split
        · next haddress => rw [stale, hsent haddress, Bool.not_true, Bool.and_false, Bool.not_false]
        · next haddress =>
          rw [Bool.or_eq_true, decide_eq_true_eq]
          exact or_iff_not_imp_left.2 fun hname => hpending (not_not.1 hname)
      | false =>
        rw [hknown] at hrouted
        split
        · next haddress => rw [stale, haddress, hknown, Bool.false_and, Bool.not_false]
        · next haddress =>
          have hmem' : other ∈ (s.registerSlot action ep).objects :=
            mem_registerSlot.2 ⟨other, hmem, (if_neg haddress).symm⟩
          have hpending :=
            hrouted.pending action o.name
              (List.mem_append_right _ (List.mem_singleton_self _)) other hmem'
          rw [Bool.or_eq_true, decide_eq_true_eq]
          exact or_iff_not_imp_left.2 fun hname => hpending (not_not.1 hname)
  | _ => rfl

end RoutedBack

/-- **Responses can be routed back.** In a run of client endpoints that come and go and of `async` calls, every state keeps the promise if and only if each new endpoint gets an address no request was sent from and a channel without pending requests, and each request is sent from an address that its type does not know from an endpoint that is no more, while no other endpoint of the channel lacks the slot. -/
theorem routedBack_iff_routable {acts : List (LifetimeAct A)} {s : Lifetimes A}
    (hrun : run step .init acts = some s) :
    Always step RoutedBack .init acts ↔ Along step (fun s a => s.routable a = true) .init acts :=
  always_iff_along (fun _ h => h) RoutedBack.step (fun s a t _ => RoutedBack.not_routedBack s a t)
    RoutedBack.init hrun

/-- A client asks, is answered and destroyed; the next one lives elsewhere, and asks too. -/
def oneAfterAnother : List (LifetimeAct Nat) :=
  [.create 1 (ascii "ipc"), .async 0 1 false, .receive 0 1, .destroy 1, .create 2 (ascii "ipc"),
    .async 0 2 false, .async 5 2 true, .receive 0 2]

theorem routedBack_iff_routable_oneAfterAnother :
    ∃ s, run step (.init : Lifetimes Nat) oneAfterAnother = some s ∧ s.sent = [(0, 1), (0, 2)] ∧
      s.pending = [] ∧
      Always step RoutedBack .init oneAfterAnother := by
  obtain ⟨s, hrun, hp⟩ := exists_of_any_run step (.init : Lifetimes Nat) oneAfterAnother
    (fun s => decide (s.sent = [(0, 1), (0, 2)] ∧ s.pending = [])) (by decide +kernel)
  obtain ⟨hsent, hpending⟩ := of_decide_eq_true hp
  exact ⟨s, hrun, hsent, hpending, (routedBack_iff_routable hrun).2 (by decide +kernel)⟩

/-- A client asks, is answered and destroyed; the next one gets its address. -/
def sameAddress : List (LifetimeAct Nat) :=
  [.create 1 (ascii "ipc"), .async 0 1 false, .receive 0 1, .destroy 1, .create 1 (ascii "ipc"),
    .async 0 1 false]

/-- The second client has no slot for the response to its request. -/
theorem sameAddress_rejects :
    ∃ s t, run step (.init : Lifetimes Nat) sameAddress = some s ∧ s.sent = [(0, 1), (0, 1)] ∧
      s.objects.map (fun o => (o.address, o.slots 0)) = [(1, false)] ∧ ¬ RoutedBack s ∧
      s.step (.receive 0 1) = some t ∧ t.rejected = [(0, ascii "ipc")] := by
  obtain ⟨s, hrun, hp⟩ := exists_of_any_run step (.init : Lifetimes Nat) sameAddress
    (fun s => decide (s.sent = [(0, 1), (0, 1)]) &&
      decide (s.objects.map (fun o => (o.address, o.slots 0)) = [(1, false)]) &&
      (s.step (.receive 0 1)).any fun t : Lifetimes Nat => decide (t.rejected = [(0, ascii "ipc")]))
        (by decide +kernel)
  simp only [Bool.and_eq_true, decide_eq_true_eq, Option.any_eq_true] at hp
  obtain ⟨⟨hsent, hobjects⟩, t, ht, hrejected⟩ := hp
  refine ⟨s, t, hrun, hsent, hobjects, fun hrouted => ?_, ht, hrejected⟩
  have hmem : (1, false) ∈ s.objects.map fun o => (o.address, o.slots 0) := by
    rw [hobjects]
    exact List.mem_singleton_self _
  obtain ⟨o, ho, heq⟩ := List.mem_map.1 hmem
  obtain ⟨haddress, hslot⟩ := Prod.mk.inj heq
  have hrequest : (0, 1) ∈ s.sent := by
    rw [hsent]
    exact List.mem_cons_self
  have hrouted := hrouted.slot 0 1 hrequest o ho haddress
  rw [hslot] at hrouted
  cases hrouted

end Lifetimes

end Libesf.Ipc

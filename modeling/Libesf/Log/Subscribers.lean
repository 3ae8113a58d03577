import Libesf.Base.SetIteration
import Libesf.Base.Transition

/-!
# Subscribers of the log server

A `Server::Subscriber` enters the server's set when it is constructed and leaves it when it is destroyed, as long as its back pointer is set. `~Server` goes through the set, takes the back pointer of each subscriber away and tells it so, but takes none out of the set; the I/O thread goes on notifying what is in there until it has been stopped and joined.

Subscribers are known by their addresses, which an allocator may use again, and the set is ordered by them. A subscriber may be constructed and destroyed by any thread, also from within the calls it gets.
-/

namespace Libesf.Log

open Transition

/-- How far `~Server` has come: not entered, in `M_notifyServerDeleted` of a subscriber, waiting for the I/O thread, or returned. -/
inductive Teardown where
  | alive
  | detaching (current : Nat)
  | joining
  | gone
  deriving DecidableEq

/-- The I/O thread: between two messages, in `M_notifyMessageReceived` of a subscriber, or stopped. -/
inductive NotifyThread where
  | idle
  | notifying (it : Iteration Nat)
  | stopped
  deriving DecidableEq

def NotifyThread.current : NotifyThread → Option Nat
  | notifying it => some it.current
  | idle | stopped => none

structure Subscribers where
  /-- `m_subscribers`. -/
  subscribers : Finset Nat
  /-- The subscribers that are alive, and whether their `m_server` is set. -/
  server : Nat → Option Bool
  teardown : Teardown
  ioThread : NotifyThread
  /-- The notifications that are over. -/
  notified : List (Iteration Nat)

inductive SubscriberAct where
  | construct (a : Nat)
  | destroy (a : Nat)
  | message
  | handlerReturns
  | deleteServer
  | hookReturns
  | stop
  | join
  deriving DecidableEq

namespace Subscribers

variable (s : Subscribers)

def init : Subscribers := ⟨∅, fun _ => none, .alive, .idle, []⟩

/-- `Subscriber::Subscriber`. -/
def construct (a : Nat) : Subscribers :=
  { s with subscribers := insert a s.subscribers, server := Function.update s.server a (some true) }

/-- `Subscriber::~Subscriber`, with `m_server` set or not. -/
def destroy (a : Nat) : Bool → Subscribers
  | true =>
    { s with
      subscribers := s.subscribers.erase a
      server := Function.update s.server a none
      ioThread :=
        match s.ioThread with
        | .notifying it => .notifying (it.leave a)
        | ioThread => ioThread }
  | false => { s with server := Function.update s.server a none }

/-- The I/O thread calls the next subscriber, or is through with the message. -/
def notify (done : List (Iteration Nat)) : Option (Iteration Nat) → Subscribers
  | some it => { s with ioThread := .notifying it }
  | none => { s with ioThread := .idle, notified := s.notified ++ done }

/-- `~Server` detaches the next subscriber and calls its `M_notifyServerDeleted`, or posts the stop. -/
def detach : Option Nat → Subscribers
  | some a =>
    { s with
      server := Function.update s.server a ((s.server a).map fun _ => false),
      teardown := .detaching a }
  | none => { s with teardown := .joining }

/-- An iterator to an element that has been erased cannot be moved on, and a subscriber cannot leave the set of a server that is no more: what the code does then is undefined. -/
def step (s : Subscribers) : SubscriberAct → Option Subscribers
  | .construct a => do
    guard (s.teardown ≠ .gone ∧ s.server a = none)
    return s.construct a
  | .destroy a => do
    let attached ← s.server a
    guard (attached = false ∨ s.teardown ≠ .gone)
    return s.destroy a attached
  | .message => do
    guard (s.ioThread = .idle)
    return s.notify [] (Iteration.first s.subscribers)
  | .handlerReturns =>
    match s.ioThread with
    | .notifying it => do
      guard (it.current ∈ s.subscribers)
      return s.notify [it] (it.next s.subscribers)
    | _ => none
  | .deleteServer => do
    guard (s.teardown = .alive)
    return s.detach (nextIn s.subscribers none)
  | .hookReturns =>
    match s.teardown with
    | .detaching current => do
      guard (current ∈ s.subscribers)
      return s.detach (nextIn s.subscribers (some current))
    | _ => none
  | .stop => do
    guard (s.teardown = .joining ∧ s.ioThread = .idle)
    return { s with ioThread := .stopped }
  | .join => do
    guard (s.teardown = .joining ∧ s.ioThread = .stopped)
    return { s with subscribers := ∅, teardown := .gone }

/-! ### What a step does -/

/-- The steps, with what they know of the state. -/
inductive Move (s : Subscribers) : SubscriberAct → Subscribers → Prop where
  | construct (a : Nat) (hserver : s.teardown ≠ .gone) (hfree : s.server a = none) :
      Move s (.construct a) (s.construct a)
  | destroy (a : Nat) (attached : Bool) (halive : s.server a = some attached)
      (hserver : attached = false ∨ s.teardown ≠ .gone) : Move s (.destroy a) (s.destroy a attached)
  | message (hidle : s.ioThread = .idle) :
      Move s .message (s.notify [] (Iteration.first s.subscribers))
  | handlerReturns (it : Iteration Nat) (hit : s.ioThread = .notifying it) :
      Move s .handlerReturns (s.notify [it] (it.next s.subscribers))
  | deleteServer (halive : s.teardown = .alive) :
      Move s .deleteServer (s.detach (nextIn s.subscribers none))
  | hookReturns (current : Nat) (hcurrent : s.teardown = .detaching current) :
      Move s .hookReturns (s.detach (nextIn s.subscribers (some current)))
  | stop (hjoining : s.teardown = .joining) (hidle : s.ioThread = .idle) :
      Move s .stop { s with ioThread := .stopped }
  | join (hstopped : s.ioThread = .stopped) :
      Move s .join { s with subscribers := ∅, teardown := .gone }

theorem move_of_step {s t : Subscribers} {a : SubscriberAct} (h : s.step a = some t) :
    Move s a t := by
  cases a with
  | construct a =>
    obtain ⟨_, hguard, ht⟩ := Option.bind_eq_some_iff.1 h
    obtain ⟨hserver, hfree⟩ := (Option.guard_eq_some' _).1 hguard
    exact Option.some.inj ht ▸ .construct a hserver hfree
  | destroy a =>
    obtain ⟨attached, halive, h⟩ := Option.bind_eq_some_iff.1 h
    obtain ⟨_, hguard, ht⟩ := Option.bind_eq_some_iff.1 h
    exact Option.some.inj ht ▸ .destroy a attached halive ((Option.guard_eq_some' _).1 hguard)
  | message =>
    obtain ⟨_, hguard, ht⟩ := Option.bind_eq_some_iff.1 h
    exact Option.some.inj ht ▸ .message ((Option.guard_eq_some' _).1 hguard)
  | handlerReturns =>
    rw [step] at h
    split at h
    · next it hit =>
      obtain ⟨_, _, ht⟩ := Option.bind_eq_some_iff.1 h
      exact Option.some.inj ht ▸ .handlerReturns it hit
    · cases h
  | deleteServer =>
    obtain ⟨_, hguard, ht⟩ := Option.bind_eq_some_iff.1 h
    exact Option.some.inj ht ▸ .deleteServer ((Option.guard_eq_some' _).1 hguard)
  | hookReturns =>
    rw [step] at h
    split at h
    · next current hcurrent =>
      obtain ⟨_, _, ht⟩ := Option.bind_eq_some_iff.1 h
      exact Option.some.inj ht ▸ .hookReturns current hcurrent
    · cases h
  | stop =>
    obtain ⟨_, hguard, ht⟩ := Option.bind_eq_some_iff.1 h
    obtain ⟨hjoining, hidle⟩ := (Option.guard_eq_some' _).1 hguard
    exact Option.some.inj ht ▸ .stop hjoining hidle
  | join =>
    obtain ⟨_, hguard, ht⟩ := Option.bind_eq_some_iff.1 h
    exact Option.some.inj ht ▸ .join ((Option.guard_eq_some' _).1 hguard).2

end Subscribers

/-! ### Exactly when only living subscribers are notified -/

/-- What is promised of a state: the set has no dead subscriber and lacks none that is attached, no dead one is being called, and each notification that is over has called no one twice and everybody who was in the set all the time. -/
structure NotifiedAlive (s : Subscribers) : Prop where
  alive : ∀ a ∈ s.subscribers, (s.server a).isSome
  attached : s.teardown ≠ .gone → ∀ a, s.server a = some true → a ∈ s.subscribers
  called : ∀ it, s.ioThread = .notifying it → (s.server it.current).isSome
  once : ∀ it ∈ s.notified, it.visited.Nodup ∧ ∀ a ∈ it.stayed, a ∈ it.visited

/-- A subscriber is not destroyed between its detachment and the end of `~Server`, nor while it is being called. -/
def Subscribers.orderly (s : Subscribers) : SubscriberAct → Bool
  | .destroy a =>
    decide (s.teardown = .gone) ||
      (decide (s.server a = some true) && decide (s.ioThread.current ≠ some a))
  | _ => true

/-- As long as subscribers are destroyed in order, the set is that of the living, detached or not. -/
structure Attended (s : Subscribers) : Prop where
  mem : s.teardown ≠ .gone → ∀ a, a ∈ s.subscribers ↔ (s.server a).isSome
  gone : s.teardown = .gone → s.subscribers = ∅ ∧ s.ioThread = .stopped
  called : ∀ it, s.ioThread = .notifying it → (s.server it.current).isSome
  covers : ∀ it, s.ioThread = .notifying it → it.Covers ∧ it.stayed ⊆ s.subscribers
  once : ∀ it ∈ s.notified, it.visited.Nodup ∧ ∀ a ∈ it.stayed, a ∈ it.visited

namespace Attended

variable {s t : Subscribers}

theorem init : Attended .init where
  mem _ a := iff_of_false (Finset.notMem_empty a) nofun
  gone := nofun
  called := nofun
  covers := nofun
  once := nofun

theorem alive (h : Attended s) {a : Nat} (ha : a ∈ s.subscribers) : (s.server a).isSome := by
  by_cases hgone : s.teardown = .gone
  · rw [(h.gone hgone).1] at ha
    exact absurd ha (Finset.notMem_empty a)
  · exact (h.mem hgone a).1 ha

theorem notifiedAlive (h : Attended s) : NotifiedAlive s where
  alive _ ha := h.alive ha
  attached hserver a ha := (h.mem hserver a).2 (by rw [ha]; rfl)
  called := h.called
  once := h.once

theorem construct (h : Attended s) (a : Nat) (hserver : s.teardown ≠ .gone) :
    Attended (s.construct a) where
  mem _ b := by
    change b ∈ insert a s.subscribers ↔ (Function.update s.server a (some true) b).isSome
    rw [Finset.mem_insert, h.mem hserver b]
    by_cases hb : b = a
    · rw [hb, Function.update_self]
      exact iff_of_true (.inl rfl) rfl
    · rw [Function.update_of_ne hb, or_iff_right hb]
  gone hgone := absurd hgone hserver
  called it hit := by
    change (Function.update s.server a (some true) it.current).isSome
    by_cases hb : it.current = a
    · rw [hb, Function.update_self]
      rfl
    · rw [Function.update_of_ne hb]
      exact h.called it hit
  covers it hit :=
    ⟨(h.covers it hit).1, (h.covers it hit).2.trans (Finset.subset_insert a s.subscribers)⟩
  once := h.once

/-- A subscriber that is attached, and is not being called, leaves the set and the living at once. -/
theorem destroyAttached (h : Attended s) {a : Nat} (hserver : s.teardown ≠ .gone)
    (hother : s.ioThread.current ≠ some a) : Attended (s.destroy a true) where
  mem _ b := by
    change b ∈ s.subscribers.erase a ↔ (Function.update s.server a none b).isSome
    rw [Finset.mem_erase, h.mem hserver b]
    by_cases hb : b = a
    · rw [hb, Function.update_self]
      exact iff_of_false (fun h => h.1 rfl) nofun
    · rw [Function.update_of_ne hb, and_iff_right hb]
  gone hgone := absurd hgone hserver
  called it hit := by
    cases hio : s.ioThread with
    | notifying it' =>
      simp only [Subscribers.destroy, hio, NotifyThread.notifying.injEq] at hit
      have hne : it.current ≠ a := by
        rw [hio] at hother
        rw [← hit]
        exact fun heq => hother (congrArg some heq)
      change (Function.update s.server a none it.current).isSome
      rw [Function.update_of_ne hne, ← hit]
      exact h.called it' hio
    | idle => simp only [Subscribers.destroy, hio, reduceCtorEq] at hit
    | stopped => simp only [Subscribers.destroy, hio, reduceCtorEq] at hit
  covers it hit := by
    cases hio : s.ioThread with
    | notifying it' =>
      simp only [Subscribers.destroy, hio, NotifyThread.notifying.injEq] at hit
      obtain ⟨hcovers, hstayed⟩ := h.covers it' hio
      rw [← hit]
      exact ⟨hcovers.leave a, Finset.erase_subset_erase a hstayed⟩
    | idle => simp only [Subscribers.destroy, hio, reduceCtorEq] at hit
    | stopped => simp only [Subscribers.destroy, hio, reduceCtorEq] at hit
  once := h.once

theorem destroyGone (h : Attended s) {a : Nat} (hgone : s.teardown = .gone) :
    Attended (s.destroy a false) where
  mem hserver := absurd hgone hserver
  gone := h.gone
  called it hit := by
    have hstopped := (h.gone hgone).2
    cases hstopped.symm.trans hit
  covers := h.covers
  once := h.once

theorem notify (h : Attended s) (hserver : s.teardown ≠ .gone) {done : List (Iteration Nat)}
    {next : Option (Iteration Nat)}
    (hnext : ∀ it ∈ next, it.current ∈ s.subscribers ∧ it.Covers ∧ it.stayed ⊆ s.subscribers)
    (hdone : next = none → ∀ it ∈ done, it.visited.Nodup ∧ ∀ a ∈ it.stayed, a ∈ it.visited) :
    Attended (s.notify done next) := by
  cases next with
  | some it =>
    obtain ⟨hmem, hcovers⟩ := hnext it rfl
    refine ⟨h.mem, fun hgone => absurd hgone hserver, ?_, ?_, h.once⟩
    · rintro it' ⟨⟩
      exact h.alive hmem
    · rintro it' ⟨⟩
      exact hcovers
  | none =>
    refine ⟨h.mem, fun hgone => absurd hgone hserver, nofun, nofun, fun it hit => ?_⟩
    obtain hold | hnew := List.mem_append.1 hit
    · exact h.once it hold
    · exact hdone rfl it hnew

theorem isSome_detach (a b : Nat) :
    (Function.update s.server a ((s.server a).map fun _ => false) b).isSome =
      (s.server b).isSome := by
  by_cases hb : b = a
  · rw [hb, Function.update_self, Option.isSome_map]
  · rw [Function.update_of_ne hb]

theorem detach (h : Attended s) (hserver : s.teardown ≠ .gone) (next : Option Nat) :
    Attended (s.detach next) := by
  cases next with
  | some a =>
    refine ⟨fun _ b => ?_, nofun, fun it hit => ?_, h.covers, h.once⟩
    · exact (h.mem hserver b).trans (Bool.eq_iff_iff.1 (isSome_detach a b).symm)
    · exact (isSome_detach a it.current).trans (h.called it hit)
  | none => exact ⟨fun _ => h.mem hserver, nofun, h.called, h.covers, h.once⟩

theorem running (h : Attended s) (hio : s.ioThread ≠ .stopped) : s.teardown ≠ .gone :=
  fun hgone => hio (h.gone hgone).2

theorem step (s : Subscribers) (a : SubscriberAct) (t : Subscribers) (h : Attended s)
    (horderly : s.orderly a = true) (hstep : s.step a = some t) : Attended t := by
  cases Subscribers.move_of_step hstep with
  | construct a hserver hfree => exact h.construct a hserver
  | destroy a attached halive hserver =>
    simp only [Subscribers.orderly, halive, Option.some.injEq, Bool.or_eq_true, Bool.and_eq_true,
      decide_eq_true_eq] at horderly
    obtain hgone | ⟨rfl, hother⟩ := horderly
    · obtain rfl : attached = false := hserver.resolve_right fun hne => hne hgone
      exact h.destroyGone hgone
    · exact h.destroyAttached (hserver.resolve_left Bool.noConfusion) hother
  | message hidle =>
    have hserver := h.running (by rw [hidle]; nofun)
    refine h.notify hserver (fun it hit => ?_) fun _ => nofun
    obtain ⟨hmem, hstayed, hcovers⟩ := Iteration.first_eq_some hit
    exact ⟨hmem, hcovers, hstayed.le⟩
  | handlerReturns it hit =>
    have hserver := h.running (by rw [hit]; nofun)
    obtain ⟨hcovers, hstayed⟩ := h.covers it hit
    refine h.notify hserver (fun it' hit' => ?_) fun hlast it' hit' => ?_
    · obtain ⟨hmem, hsame⟩ := Iteration.next_eq_some hit'
      exact ⟨hmem, hcovers.next hstayed hit', hsame ▸ hstayed⟩
    · rw [List.mem_singleton.1 hit']
      exact hcovers.finished hstayed hlast
  | deleteServer halive => exact h.detach (by rw [halive]; nofun) _
  | hookReturns current hcurrent => exact h.detach (by rw [hcurrent]; nofun) _
  | stop hjoining hidle => exact ⟨h.mem, fun hgone => ⟨(h.gone hgone).1, rfl⟩, nofun, nofun, h.once⟩
  | join hstopped =>
    refine ⟨fun hserver => absurd rfl hserver, fun _ => ⟨rfl, hstopped⟩, h.called,
      fun it hit => ?_, h.once⟩
    cases hstopped.symm.trans hit

/-- A detached subscriber that is destroyed stays in the set, and one that is being called is dead in its own call. -/
theorem not_notifiedAlive (s : Subscribers) (a : SubscriberAct) (t : Subscribers) (h : Attended s)
    (hnot : ¬ s.orderly a = true) (hstep : s.step a = some t) : ¬ NotifiedAlive t := by
  cases Subscribers.move_of_step hstep with
  | destroy a attached halive hdetached =>
    simp only [Subscribers.orderly, halive, Option.some.injEq, Bool.or_eq_true, Bool.and_eq_true,
      decide_eq_true_eq, not_or, not_and, not_not] at hnot
    obtain ⟨hserver, hcurrent⟩ := hnot
    have hdead : ∀ attached, (s.destroy a attached).server a = none := by
      intro attached
      cases attached <;> exact Function.update_self ..
    cases attached with
    | false =>
      intro hpromise
      have hmem : a ∈ (s.destroy a false).subscribers := (h.mem hserver a).2 (by rw [halive]; rfl)
      have halive := hpromise.alive a hmem
      rw [hdead] at halive
      cases halive
    | true =>
      intro hpromise
      have hcurrent := hcurrent rfl
      cases hio : s.ioThread with
      | notifying it =>
        rw [hio] at hcurrent
        have hcalled := hpromise.called (it.leave a) (by simp only [Subscribers.destroy, hio])
        rw [show (it.leave a).current = a from Option.some.inj hcurrent, hdead] at hcalled
        cases hcalled
      | idle =>
        rw [hio] at hcurrent
        cases hcurrent
      | stopped =>
        rw [hio] at hcurrent
        cases hcurrent
  | _ => exact absurd rfl hnot

end Attended

/-- **Subscribers are notified while they are alive.** In a run of subscribers that come and go, messages, and the end of the server, every state keeps the promise if and only if no subscriber is destroyed between its detachment and the end of `~Server`, nor while it is being called. -/
theorem notifiedAlive_iff_orderly {acts : List SubscriberAct} {s : Subscribers}
    (hrun : run Subscribers.step .init acts = some s) :
    Always Subscribers.step NotifiedAlive .init acts ↔
      Along Subscribers.step (fun s a => s.orderly a = true) .init acts :=
  always_iff_along (fun _ h => h.notifiedAlive) Attended.step Attended.not_notifiedAlive
    Attended.init hrun

/-- A subscriber is destroyed while another one is called, and one that was detached is notified and outlives the server. -/
def detachedOutlives : List SubscriberAct :=
  [.construct 3, .construct 5, .construct 4, .message, .destroy 4, .handlerReturns,
    .handlerReturns, .destroy 5, .deleteServer, .message, .hookReturns, .handlerReturns, .stop,
    .join, .destroy 3]

theorem notifiedAlive_iff_orderly_detachedOutlives :
    ∃ s, run Subscribers.step .init detachedOutlives = some s ∧
      s.notified.map Iteration.visited = [[3, 5], [3]] ∧
      Always Subscribers.step NotifiedAlive .init detachedOutlives := by
  obtain ⟨s, hrun, hp⟩ := exists_of_any_run Subscribers.step .init detachedOutlives
    (fun s => s.notified.map Iteration.visited == [[3, 5], [3]]) (by decide +kernel)
  exact ⟨s, hrun, by simpa using hp, (notifiedAlive_iff_orderly hrun).2 (by decide +kernel)⟩

/-- A subscriber destroys itself when it is told that the server is being deleted; then a message arrives. -/
def destroyedWhenDetached : List SubscriberAct := [.construct 3, .deleteServer, .destroy 3, .message]

theorem destroyedWhenDetached_calls_dead :
    ∃ s, run Subscribers.step .init destroyedWhenDetached = some s ∧ s.ioThread.current = some 3 ∧
      s.server 3 = none ∧
      ¬ NotifiedAlive s := by
  obtain ⟨s, hrun, hp⟩ := exists_of_any_run Subscribers.step .init destroyedWhenDetached
    (fun s => decide (s.subscribers = {3} ∧ s.ioThread.current = some 3 ∧ s.server 3 = none))
      (by decide +kernel)
  obtain ⟨hmem, hcurrent, hdead⟩ := of_decide_eq_true hp
  refine ⟨s, hrun, hcurrent, hdead, fun hpromise => ?_⟩
  have halive := hpromise.alive 3 (by rw [hmem]; exact Finset.mem_singleton_self 3)
  rw [hdead] at halive
  cases halive

end Libesf.Log

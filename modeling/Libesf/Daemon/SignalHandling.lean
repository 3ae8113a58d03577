import Libesf.Base.Pool
import Libesf.Daemon.Process

/-!
# Signals and the service

A signal handler calls the service wherever the main program has got to: before the service is constructed, while it runs, or after it was deleted. The handlers of `SIGINT` and `SIGTERM` clean up first and then let the main program go on, which cleans up again. The calls that processes make are recorded with what their service pointer points to at that moment.
-/

namespace Libesf.Daemon

open LockFile Transition

/-- A call that was made, and what the service pointer of its process pointed to. -/
structure Call where
  pid : Pid
  op : Op
  service : ServicePtr
  deriving DecidableEq

/-- How often a process has made a call. -/
def made (calls : List Call) (p : Pid) (op : Op) : Nat :=
  calls.countP fun call => decide (call.pid = p ∧ call.op = op)

/-- The call that a step makes. -/
def Host.call (h : Host) : Act → Option Call
  | .main p _ => do
    let proc ← h.procs[p]?
    let op ← proc.main.head?
    return ⟨p, op, proc.service⟩
  | .handler p k _ => do
    let proc ← h.procs[p]?
    let code ← proc.handlers[k]?
    let op ← code.head?
    return ⟨p, op, proc.service⟩
  | .start | .deliver _ _ => none

structure Traced where
  host : Host
  calls : List Call

namespace Traced

def init : Traced := ⟨.init, []⟩

def step (s : Traced) (a : Act) : Option Traced :=
  (s.host.step a).map fun host => ⟨host, s.calls ++ (s.host.call a).toList⟩

end Traced

/-- The calls that a process is to make once at most. -/
def cleaning : List Op := [.stopService, .unlock, .close]

/-- What is promised of a state: `stop` and `restart` have been called on living services only, and no process has called `stop`, or unlocked or closed its lock file, twice. -/
structure TouchesLive (s : Traced) : Prop where
  live : ∀ call ∈ s.calls, call.op = .stopService ∨ call.op = .restartService → call.service = .alive
  once : ∀ p, ∀ op ∈ cleaning, made s.calls p op ≤ 1

/-! ### The condition -/

namespace Proc

variable (proc : Proc)

/-- The lock file is open, and neither the main program nor a handler has begun to clean up. -/
def untouched : Bool :=
  proc.isOpen && decide (.unlock ∈ proc.main) && proc.handlers.all fun code => decide (.close ∉ code)

/-- A handler is still to call the service. -/
def callsService : Bool :=
  proc.handlers.any fun code => decide (.stopService ∈ code ∨ .restartService ∈ code)

/-- The service is alive, and for `SIGINT` and `SIGTERM` no cleanup has begun. -/
def deliverable : Signo → Bool
  | .sigint | .sigterm => decide (proc.service = .alive) && proc.untouched
  | .sighup => decide (proc.service = .alive)
  | .sigsegv | .sigabrt => false

/-- The main program waits for the handlers before it deletes the service, and does not clean up what a handler has cleaned up. -/
def mayCall : Op → Bool
  | .deleteService => !proc.callsService
  | .unlock => proc.untouched
  | _ => true

end Proc

/-- A signal that is handled is delivered in time, and the main program takes the handlers into account. -/
def Host.timely (h : Host) : Act → Bool
  | .start | .handler _ _ _ => true
  | .deliver p signo => h.procs[p]?.all fun proc => !proc.handled signo || proc.deliverable signo
  | .main p _ => h.procs[p]?.all fun proc => proc.main.head?.all proc.mayCall

/-! ### The programs -/

theorem notMem_cleaning {op : Op} {rest : List Op} (h : op :: rest <:+ daemonize)
    (hunlock : .unlock ∈ rest) : op ∉ cleaning :=
  of_suffix (P := fun code => .unlock ∈ code.tail → ∀ op ∈ code.head?, op ∉ cleaning) (by decide) h
    hunlock op rfl

theorem eq_open_of_lock_mem {op : Op} {rest : List Op} (h : op :: rest <:+ daemonize)
    (hlock : .lockLockFile ∈ rest) : op = .openLockFile :=
  Option.some.inj
    (of_suffix (P := fun code => .lockLockFile ∈ code.tail → code.head? = some .openLockFile)
      (by decide) h hlock)

theorem count_cleanup {rest : List Op} (h : .unlock :: rest <:+ daemonize) {op : Op}
    (hop : op ∈ cleaning) : (Op.unlock :: rest).count op ≤ 1 ∧ .unlock ∉ rest := by
  exact of_suffix (P := fun code => code.head? = some .unlock → ∀ op ∈ cleaning, code.count op ≤ 1 ∧
    Op.unlock ∉ code.tail)
    (by decide) h rfl op hop

theorem unlock_mem_of_lock_mem {code : List Op} (h : code <:+ daemonize)
    (hlock : .lockLockFile ∈ code) : .unlock ∈ code :=
  of_suffix (P := fun code => .lockLockFile ∈ code → .unlock ∈ code) (by decide) h hlock

theorem service_notMem_daemonize : .stopService ∉ daemonize ∧ .restartService ∉ daemonize := by decide

theorem raise_notMem_daemonize (signo : Signo) : .raise signo ∉ daemonize := by cases signo <;> decide

/-- The signals the daemon expects from outside. -/
def expected : List Signo := [.sigint, .sigterm, .sighup]

theorem raise_notMem {signo signo' : Signo} (hsigno : signo ∈ expected) :
    .raise signo' ∉ daemonSignalHandler signo := by
  revert hsigno
  cases signo <;> cases signo' <;> decide

theorem count_handler {signo : Signo} {op : Op} (hop : op ∈ cleaning) :
    (daemonSignalHandler signo).count op ≤ 1 := by
  revert op
  cases signo <;> decide

theorem count_restart {op : Op} (hop : op ∈ cleaning) :
    (daemonSignalHandler .sighup).count op = 0 := by
  revert op
  decide

/-! ### Calls made and calls left -/

namespace Proc

variable (proc : Proc)

/-- How often the handlers that have been started still make a call. -/
def handlersAhead (op : Op) : Nat := (proc.handlers.map (List.count op)).sum

/-- How often the main program still makes a call, once it has begun to clean up. -/
def mainAhead (op : Op) : Nat := if .unlock ∈ proc.main then 0 else proc.main.count op

/-- What a process that made the calls `made` still does to the service and to the lock file. -/
structure Ready (proc : Proc) (made : Op → Nat) : Prop where
  wf : proc.Wf
  asked : ∀ code ∈ proc.handlers, ∃ signo ∈ expected, code <:+ daemonSignalHandler signo
  early : .lockLockFile ∈ proc.main → ∀ op ∈ cleaning, made op = 0
  once : ∀ op ∈ cleaning, made op + proc.handlersAhead op + proc.mainAhead op ≤ 1
  untouched : proc.untouched = true → ∀ op ∈ cleaning, made op + proc.handlersAhead op = 0
  service : proc.callsService = true → proc.service = .alive

end Proc

def bump (made : Op → Nat) (op op' : Op) : Nat := made op' + if op = op' then 1 else 0

theorem bump_of_notMem {made : Op → Nat} {op op' : Op} (hop : op ∉ cleaning) (hop' : op' ∈ cleaning) :
    bump made op op' = made op' := by
  rw [bump, if_neg (fun heq : op = op' => hop (heq ▸ hop')), Nat.add_zero]

theorem bump_add_count (made : Op → Nat) (op op' : Op) (rest : List Op) :
    bump made op op' + rest.count op' = made op' + (op :: rest).count op' := by
  rw [bump, List.count_cons]
  simp only [beq_iff_eq]
  omega

namespace Proc

variable {old proc : Proc} {op : Op} {made : Op → Nat}

theorem untouched_iff : proc.untouched = true ↔
    proc.isOpen = true ∧ .unlock ∈ proc.main ∧ ∀ code ∈ proc.handlers, .close ∉ code := by
  simp [untouched, and_assoc]

theorem callsService_iff : proc.callsService = true ↔
    ∃ code ∈ proc.handlers, .stopService ∈ code ∨ .restartService ∈ code := by
  simp [callsService]

theorem handlersAhead_of_nil (h : proc.handlers = []) (op : Op) : proc.handlersAhead op = 0 := by
  rw [handlersAhead, h]
  rfl

theorem of_deliverable {signo : Signo} (h : proc.deliverable signo = true) :
    proc.service = .alive ∧ signo ∈ expected ∧
    (signo = .sighup ∨ proc.untouched = true ∧ .close ∈ daemonSignalHandler signo) := by
  cases signo with
  | sigint | sigterm =>
    obtain ⟨halive, huntouched⟩ := Bool.and_eq_true_iff.1 h
    exact ⟨of_decide_eq_true halive, by decide, .inr ⟨huntouched, by decide⟩⟩
  | sighup => exact ⟨of_decide_eq_true h, by decide, .inl rfl⟩
  | sigsegv | sigabrt => cases h

namespace Next

theorem bump_add_handlersAhead (made : Op → Nat) {k : Nat} {rest : List Op}
    (hcode : old.handlers[k]? = some (op :: rest)) (op' : Op) :
    bump made op op' + ({ old with handlers := old.handlers.set k rest } : Proc).handlersAhead op' =
      made op' + old.handlersAhead op' := by
  have hbump := bump_add_count made op op' rest
  have hsum := Pool.sum_map_set_add (List.count op') hcode rest
  simp only [handlersAhead]
  omega

theorem bump_add_mainAhead (made : Op → Nat) (hwf : old.Wf) {rest : List Op}
    (hmain : old.main = op :: rest) (hop : op ≠ .unlock) {op' : Op} (hop' : op' ∈ cleaning) :
    bump made op op' + ({ old with main := rest } : Proc).mainAhead op' =
      made op' + old.mainAhead op' := by
  simp only [mainAhead]
  rw [hmain]
  by_cases hunlock : .unlock ∈ rest
  · rw [if_pos hunlock, if_pos (List.mem_cons_of_mem _ hunlock),
      bump_of_notMem (notMem_cleaning (hmain ▸ hwf.main) hunlock) hop']
  · rw [if_neg hunlock, if_neg (List.not_mem_cons_of_ne_of_not_mem hop.symm hunlock)]
    exact bump_add_count made op op' rest

end Next

namespace Ready

/-- Nothing has been cleaned up by a process that is still to ask for the lock. -/
theorem fresh (hwf : proc.Wf) (hlock : .lockLockFile ∈ proc.main)
    (hmade : ∀ op ∈ cleaning, made op = 0) : proc.Ready made := by
  have hnil : proc.handlers = [] := (hwf.early hlock).1
  refine ⟨hwf, ?_, fun _ => hmade, fun op hop => ?_, fun _ op hop => ?_, ?_⟩
  · intro code hcode
    rw [hnil] at hcode
    cases hcode
  · rw [hmade op hop, handlersAhead_of_nil hnil, mainAhead,
      if_pos (unlock_mem_of_lock_mem hwf.main hlock)]
    exact Nat.zero_le _
  · rw [hmade op hop, handlersAhead_of_nil hnil]
  · intro hcalls
    obtain ⟨code, hcode, _⟩ := callsService_iff.1 hcalls
    rw [hnil] at hcode
    cases hcode

/-- A call of the main program that goes on with what it has begun. -/
theorem nextMain (h : old.Ready made) {rest : List Op} (hmain : old.main = op :: rest)
    (hwf : ({ old with main := rest } : Proc).Wf) (hopen : op ≠ .openLockFile) (hop : op ≠ .unlock) :
    ({ old with main := rest } : Proc).Ready (bump made op) where
  wf := hwf
  asked := h.asked
  early hlock := absurd (eq_open_of_lock_mem (hmain ▸ h.wf.main) hlock) hopen
  once op' hop' := by
    have hmade := Next.bump_add_mainAhead made h.wf hmain hop hop'
    have hone := h.once op' hop'
    change _ + old.handlersAhead op' + _ ≤ 1
    omega
  untouched hnow op' hop' := by
    obtain ⟨hopened, hunlock, hhandlers⟩ := untouched_iff.1 hnow
    have hbefore : old.untouched = true :=
      untouched_iff.2 ⟨hopened, hmain ▸ List.mem_cons_of_mem _ hunlock, hhandlers⟩
    rw [bump_of_notMem (notMem_cleaning (hmain ▸ h.wf.main) hunlock) hop']
    exact h.untouched hbefore op' hop'
  service := h.service

/-- The main program begins to clean up when nobody else has. -/
theorem nextUnlock (h : old.Ready made) {rest : List Op} (hmain : old.main = .unlock :: rest)
    (hwf : ({ old with main := rest } : Proc).Wf) (huntouched : old.untouched = true) :
    ({ old with main := rest } : Proc).Ready (bump made .unlock) where
  wf := hwf
  asked := h.asked
  early hlock := absurd (eq_open_of_lock_mem (hmain ▸ h.wf.main) hlock) (by decide)
  once op' hop' := by
    have hnone := h.untouched huntouched op' hop'
    obtain ⟨hcount, hunlock⟩ := count_cleanup (hmain ▸ h.wf.main) hop'
    have hbump := bump_add_count made .unlock op' rest
    rw [mainAhead, if_neg hunlock]
    change _ + old.handlersAhead op' + rest.count op' ≤ 1
    omega
  untouched hnow := absurd (untouched_iff.1 hnow).2.1
    (count_cleanup (hmain ▸ h.wf.main) List.mem_cons_self).2
  service := h.service

theorem nextHandler (h : old.Ready made) {k : Nat} {rest : List Op}
    (hcode : old.handlers[k]? = some (op :: rest))
    (hwf : ({ old with handlers := old.handlers.set k rest } : Proc).Wf)
    (hclose : op = .close → old.isOpen = false) :
    ({ old with handlers := old.handlers.set k rest } : Proc).Ready (bump made op) where
  wf := hwf
  asked code hmem := by
    obtain hold | rfl := List.mem_or_eq_of_mem_set hmem
    · exact h.asked code hold
    · obtain ⟨signo, hsigno, hsuffix⟩ := h.asked _ (List.mem_of_getElem? hcode)
      exact ⟨signo, hsigno, (List.suffix_cons _ _).trans hsuffix⟩
  early hlock := by
    rw [(h.wf.early hlock).1] at hcode
    cases hcode
  once op' hop' := by
    have hmade := Next.bump_add_handlersAhead made hcode op'
    have hone := h.once op' hop'
    change _ + _ + old.mainAhead op' ≤ 1
    omega
  untouched hnow op' hop' := by
    obtain ⟨hopened, hunlock, hhandlers⟩ := untouched_iff.1 hnow
    have hlt := (List.getElem?_eq_some_iff.1 hcode).1
    have hop : .close ≠ op := by
      rintro rfl
      rw [hclose rfl] at hopened
      cases hopened
    have hbefore : old.untouched = true := by
      refine untouched_iff.2 ⟨hopened, hunlock, fun code hmem => ?_⟩
      by_cases heq : code = op :: rest
      · rw [heq]
        exact List.not_mem_cons_of_ne_of_not_mem hop (hhandlers rest (List.mem_set hlt _))
      · exact hhandlers code (Pool.mem_set_of_ne hcode hmem heq)
    rw [Next.bump_add_handlersAhead made hcode]
    exact h.untouched hbefore op' hop'
  service hnow := by
    obtain ⟨code, hmem, hcalls⟩ := callsService_iff.1 hnow
    apply h.service
    obtain hold | rfl := List.mem_or_eq_of_mem_set hmem
    · exact callsService_iff.2 ⟨code, hold, hcalls⟩
    · exact callsService_iff.2 ⟨_, List.mem_of_getElem? hcode,
        hcalls.imp (List.mem_cons_of_mem _) (List.mem_cons_of_mem _)⟩

theorem next (h : old.Ready made) (hnext : old.Next op proc) (hopen : op ≠ .openLockFile)
    (hclose : op = .close → old.isOpen = false) (hC : proc.main ≠ old.main → old.mayCall op = true) :
    proc.Ready (bump made op) := by
  have hwf : proc.Wf := hnext.wf h.wf hopen fun hop => hnext.isOpen_eq.trans (hclose hop)
  cases hnext with
  | main rest hmain =>
    by_cases hop : op = .unlock
    · subst hop
      exact h.nextUnlock hmain hwf (hC (by rw [hmain]; simp))
    · exact h.nextMain hmain hwf hopen hop
  | handler k rest hcode => exact h.nextHandler hcode hwf hclose

theorem close (h : old.Ready made) (hnext : old.Next .close proc)
    (hC : proc.main ≠ old.main → old.mayCall .close = true) :
    ({ proc with isOpen := false } : Proc).Ready (bump made .close) :=
  have hclosed : ({ old with isOpen := false } : Proc).Ready made :=
    ⟨(hnext.closed h.wf).1, h.asked, h.early, h.once, nofun, h.service⟩
  hclosed.next (hnext.closed h.wf).2 (by decide) (fun _ => rfl) hC

theorem openLockFile (h : old.Ready made) (hnext : old.Next .openLockFile proc) (fd : Inode) :
    ({ proc with fd := fd, isOpen := true, offset := 0 } : Proc).Ready (bump made .openLockFile) := by
  obtain ⟨hwf, hlock⟩ := hnext.wf_open h.wf fd
  refine fresh hwf hlock fun op hop => ?_
  rw [bump_of_notMem (by decide) hop]
  exact h.early (hnext.main_suffix.mem hlock) op hop

/-- What a process knows of the service, of its handlers and of the bytes it has written is not what its calls are counted by. -/
theorem settled (h : proc.Ready made) (offset : Nat) {service : ServicePtr} {handled : Signo → Bool}
    (hservice : proc.callsService = true → service = .alive)
    (hhandled : .lockLockFile ∈ proc.main → ∀ signo, handled signo = false) :
    ({ proc with offset := offset, service := service, handled := handled } : Proc).Ready made where
  wf := ⟨h.wf.main, h.wf.handlers, h.wf.opened, fun hlock => ⟨(h.wf.early hlock).1, hhandled hlock⟩,
    h.wf.closed⟩
  asked := h.asked
  early := h.early
  once := h.once
  untouched := h.untouched
  service := hservice

theorem dead (h : ∀ op ∈ cleaning, made op ≤ 1) (proc : Proc) :
    ({ proc with main := [], handlers := [], isOpen := false } : Proc).Ready made where
  wf := proc.wf_dead
  asked := nofun
  early := nofun
  once := h
  untouched := nofun
  service := nofun

theorem made_le_one (h : proc.Ready made) (hop : op ∈ cleaning) : made op ≤ 1 := by
  have hone := h.once op hop
  omega

/-- A handler starts: it is the first to clean up, or it does not clean up. -/
theorem signal (h : proc.Ready made) {signo : Signo} (hhandled : proc.handled signo = true)
    (hC : proc.deliverable signo = true) :
    ({ proc with handlers := proc.handlers ++ [daemonSignalHandler signo] } : Proc).Ready made := by
  obtain ⟨halive, hsigno, hfirst⟩ := of_deliverable hC
  have hahead : ∀ op, ({ proc with handlers := proc.handlers ++ [daemonSignalHandler signo] } :
      Proc).handlersAhead op =
      proc.handlersAhead op + (daemonSignalHandler signo).count op := by
    intro op
    simp [handlersAhead]
  refine ⟨h.wf.signal hhandled, fun code hcode => ?_, h.early, fun op hop => ?_,
    fun hnow op hop => ?_, fun _ => halive⟩
  · obtain hold | hnew := List.mem_append.1 hcode
    · exact h.asked code hold
    · exact ⟨signo, hsigno, List.mem_singleton.1 hnew ▸ List.suffix_refl _⟩
  · rw [hahead]
    change made op + _ + proc.mainAhead op ≤ 1
    obtain rfl | ⟨huntouched, _⟩ := hfirst
    · rw [count_restart hop, Nat.add_zero]
      exact h.once op hop
    · have hnone := h.untouched huntouched op hop
      have hone : (daemonSignalHandler signo).count op ≤ 1 := count_handler hop
      rw [mainAhead, if_pos (untouched_iff.1 huntouched).2.1]
      omega
  · obtain ⟨hopened, hunlock, hhandlers⟩ := untouched_iff.1 hnow
    obtain rfl | ⟨_, hclose⟩ := hfirst
    · rw [hahead, count_restart hop, Nat.add_zero]
      exact h.untouched
        (untouched_iff.2 ⟨hopened, hunlock, fun code hmem =>
          hhandlers code (List.mem_append_left _ hmem)⟩) op hop
    · exact absurd hclose (hhandlers _ (List.mem_append_right _ List.mem_cons_self))

end Ready

end Proc

/-! ### Steps -/

namespace Host

variable {s : Host} {p : Pid} {old proc : Proc} {op : Op} {made : Op → Nat}

theorem ready_signalled (h : proc.Ready made) {signo : Signo}
    (hC : (!proc.handled signo || proc.deliverable signo) = true) :
    ∃ proc', (s.signalled p proc signo).procs = s.procs.set p proc' ∧ proc'.Ready made := by
  unfold Host.signalled
  by_cases hhandled : proc.handled signo = true
  · rw [if_pos hhandled]
    rw [hhandled, Bool.not_true, Bool.false_or] at hC
    exact ⟨_, rfl, h.signal hhandled hC⟩
  · rw [if_neg hhandled]
    exact ⟨_, rfl, .dead (fun _ hop => h.made_le_one hop) proc⟩

/-- Only a handler calls the service, and finds it there. -/
theorem service_alive (h : old.Ready made) (hnext : old.Next op proc)
    (hop : op = .stopService ∨ op = .restartService) : old.service = .alive := by
  cases hnext with
  | main rest hmain =>
    have hmem : op ∈ daemonize := h.wf.main.mem (hmain ▸ List.mem_cons_self)
    obtain rfl | rfl := hop
    · exact absurd hmem service_notMem_daemonize.1
    · exact absurd hmem service_notMem_daemonize.2
  | handler k rest hcode =>
    have hcalls : .stopService ∈ op :: rest ∨ .restartService ∈ op :: rest := by
      obtain rfl | rfl := hop
      · exact .inl List.mem_cons_self
      · exact .inr List.mem_cons_self
    exact h.service (Proc.callsService_iff.2 ⟨_, List.mem_of_getElem? hcode, hcalls⟩)

theorem ne_raise (h : old.Ready made) (hnext : old.Next op proc) (signo : Signo) :
    op ≠ .raise signo := by
  rintro rfl
  cases hnext with
  | main rest hmain => exact raise_notMem_daemonize signo (h.wf.main.mem (hmain ▸ List.mem_cons_self))
  | handler k rest hcode =>
    obtain ⟨signo', hsigno', hsuffix⟩ := h.asked _ (List.mem_of_getElem? hcode)
    exact raise_notMem hsigno' (hsuffix.mem List.mem_cons_self)

/-- The handlers of the signals that are expected raise none, as long as the service they call is there. -/
theorem raised_eq_none (h : old.Ready made) (hnext : old.Next op proc) (out : Outcome) :
    proc.raised out op = none := by
  cases op with
  | stopService => simp only [Proc.raised, hnext.service_eq, service_alive h hnext (.inl rfl)]
  | restartService => simp only [Proc.raised, hnext.service_eq, service_alive h hnext (.inr rfl)]
  | raise signo => exact absurd rfl (ne_raise h hnext signo)
  | _ => rfl

theorem ready_exec (h : old.Ready made) (hnext : old.Next op proc) (out : Outcome)
    (hC : proc.main ≠ old.main → old.mayCall op = true) :
    ∃ proc', (s.exec p proc out op).procs = s.procs.set p proc' ∧ proc'.Ready (bump made op) := by
  have hraised : proc.raised out op = none := raised_eq_none h hnext out
  have hready : op ≠ .openLockFile → op ≠ .close → proc.Ready (bump made op) := fun hopen hclose =>
    h.next hnext hopen (fun hop => absurd hop hclose) hC
  have hdead : op ∉ cleaning → ∃ proc', (s.terminate p proc).procs = s.procs.set p proc' ∧
      proc'.Ready (bump made op) := by
    intro hop
    refine ⟨_, rfl, .dead (fun op' hop' => ?_) proc⟩
    rw [bump_of_notMem hop hop']
    exact h.made_le_one hop'
  cases op with
  | openLockFile =>
    simp only [exec]
    split
    · exact hdead (by decide)
    · exact ⟨_, rfl, h.openLockFile hnext _⟩
  | lockLockFile =>
    simp only [exec]
    split
    · exact ⟨_, rfl, hready (by decide) (by decide)⟩
    · exact hdead (by decide)
  | writePid =>
    have hproc := hready (by decide) (by decide)
    exact ⟨_, rfl, hproc.settled out.written hproc.service fun hlock => (hproc.wf.early hlock).2⟩
  | setHandler signo =>
    have hproc := hready (by simp) (by simp)
    exact ⟨_, rfl, hproc.settled proc.offset hproc.service
      fun hmem => absurd hmem (hnext.lock_notMem_of_setHandler h.wf)⟩
  | constructService =>
    have hproc := hready (by decide) (by decide)
    exact ⟨_, rfl, hproc.settled proc.offset (fun _ => rfl) fun hlock => (hproc.wf.early hlock).2⟩
  | runService => exact ⟨_, rfl, hready (by decide) (by decide)⟩
  | deleteService =>
    have hproc := hready (by decide) (by decide)
    obtain ⟨rest, hmain, hrest⟩ := hnext.of_ofMain h.wf rfl
    have hquiet : old.callsService = false := by
      simpa [Proc.mayCall] using hC (by rw [hrest, hmain]; simp)
    have hnone : proc.callsService = false := by
      rw [hrest]
      exact hquiet
    exact ⟨_, rfl, hproc.settled proc.offset (fun hcalls => absurd hcalls (by rw [hnone]; decide))
      fun hlock => (hproc.wf.early hlock).2⟩
  | unlock =>
    simp only [exec]
    split
    · exact ⟨_, rfl, hready (by decide) (by decide)⟩
    · exact ⟨_, rfl, hready (by decide) (by decide)⟩
  | close =>
    simp only [exec]
    split
    · exact ⟨_, rfl, h.close hnext hC⟩
    · next hclosed =>
      exact ⟨_, rfl, h.next hnext (by decide)
        (fun _ => hnext.isOpen_eq ▸ Bool.eq_false_of_not_eq_true hclosed) hC⟩
  | unlink => exact ⟨_, rfl, hready (by decide) (by decide)⟩
  | stopService | restartService | raise signo =>
    simp only [exec, hraised]
    exact ⟨_, rfl, hready (by simp) (by simp)⟩
  | setDefault signo =>
    have hproc := hready (by simp) (by simp)
    exact ⟨_, rfl, hproc.settled proc.offset hproc.service
      fun hlock => setDefault_of_default (hproc.wf.early hlock).2 signo⟩
  | exit => exact hdead (by decide)

end Host

namespace Traced

variable {s t : Traced}

theorem made_append (calls : List Call) (p q : Pid) (op : Op) (service : ServicePtr) :
    made (calls ++ [⟨p, op, service⟩]) q =
      if q = p then bump (made calls q) op else made calls q := by
  funext op'
  rw [made, List.countP_append, List.countP_singleton]
  by_cases hqp : q = p
  · simp [hqp, bump, made]
  · simp [hqp, Ne.symm hqp, made]

/-- Each process still does at most once what it is to do once, and all calls so far were made in time. -/
structure Timely (s : Traced) : Prop where
  ready : ∀ (p : Pid) (proc : Proc), s.host.procs[p]? = some proc → proc.Ready (made s.calls p)
  known : ∀ call ∈ s.calls, call.pid < s.host.procs.length
  live : ∀ call ∈ s.calls, call.op = .stopService ∨ call.op = .restartService → call.service = .alive

theorem Timely.init : Traced.init.Timely := ⟨nofun, nofun, nofun⟩

theorem made_eq_zero {calls : List Call} {p : Pid} (h : ∀ call ∈ calls, call.pid ≠ p) (op : Op) :
    made calls p op = 0 := by
  rw [made, List.countP_eq_zero]
  intro call hcall hmade
  exact h call hcall (of_decide_eq_true hmade).1

theorem Timely.touchesLive (h : s.Timely) : TouchesLive s := by
  refine ⟨h.live, fun p op hop => ?_⟩
  obtain hlt | hge := Nat.lt_or_ge p s.host.procs.length
  · exact (h.ready p _ (List.getElem?_eq_getElem hlt)).made_le_one hop
  · rw [made_eq_zero (fun call hcall => (Nat.lt_of_lt_of_le (h.known call hcall) hge).ne) op]
    exact Nat.zero_le 1

/-- A call of one process: the others stay where they are. -/
theorem Timely.call (h : s.Timely) {p : Pid} {old proc proc' : Proc}
    (hold : s.host.procs[p]? = some old) {op : Op} (hnext : old.Next op proc) {host : Host}
    (hprocs : host.procs = s.host.procs.set p proc')
    (hready : proc'.Ready (bump (made s.calls p) op)) :
    Timely ⟨host, s.calls ++ [⟨p, op, old.service⟩]⟩ := by
  refine ⟨fun q qproc hq => ?_, fun call hcall => ?_, fun call hcall hop => ?_⟩
  · rw [hprocs] at hq
    rw [made_append]
    obtain ⟨rfl, rfl⟩ | ⟨hqp, hwas⟩ := Pool.getElem?_set_cases hq
    · rwa [if_pos rfl]
    · rw [if_neg hqp]
      exact h.ready q qproc hwas
  · rw [hprocs, List.length_set]
    obtain hold' | hnew := List.mem_append.1 hcall
    · exact h.known call hold'
    · exact List.mem_singleton.1 hnew ▸ (List.getElem?_eq_some_iff.1 hold).1
  · obtain hold' | hnew := List.mem_append.1 hcall
    · exact h.live call hold' hop
    · obtain rfl := List.mem_singleton.1 hnew
      exact Host.service_alive (h.ready p old hold) hnext hop

/-- A process gets a signal, or starts: nothing is called. -/
theorem Timely.quiet (h : s.Timely) {host : Host} (hlength : s.host.procs.length ≤ host.procs.length)
    (hprocs : ∀ (q : Pid) (proc : Proc), host.procs[q]? = some proc → proc.Ready (made s.calls q)) :
    Timely ⟨host, s.calls⟩ :=
  ⟨hprocs, fun call hcall => Nat.lt_of_lt_of_le (h.known call hcall) hlength, h.live⟩

theorem Timely.start (h : s.Timely) :
    Timely ⟨{ s.host with procs := s.host.procs ++ [.init] }, s.calls⟩ := by
  refine h.quiet (by simp) fun q proc hq => ?_
  obtain hwas | ⟨rfl, rfl⟩ := Pool.getElem?_append_single_cases hq
  · exact h.ready q proc hwas
  · exact .fresh Proc.wf_init (by decide) fun op _ =>
      made_eq_zero (fun call hcall => (h.known call hcall).ne) op

theorem Timely.deliver (h : s.Timely) {p : Pid} {proc : Proc} (hproc : s.host.procs[p]? = some proc)
    {signo : Signo} (hC : (!proc.handled signo || proc.deliverable signo) = true) :
    Timely ⟨s.host.signalled p proc signo, s.calls⟩ := by
  obtain ⟨proc', hprocs, hready⟩ :=
    Host.ready_signalled (s := s.host) (p := p) (h.ready p proc hproc) hC
  refine h.quiet (by rw [hprocs, List.length_set]) fun q qproc hq => ?_
  rw [hprocs] at hq
  obtain ⟨rfl, rfl⟩ | ⟨-, hwas⟩ := Pool.getElem?_set_cases hq
  · exact hready
  · exact h.ready q qproc hwas

theorem Timely.step (h : s.Timely) {a : Act} (hC : s.host.timely a = true)
    (hstep : s.step a = some t) : t.Timely := by
  obtain ⟨host, hhost, rfl⟩ := Option.map_eq_some_iff.1 hstep
  cases Host.move_of_step hhost with
  | start => simpa [Host.call] using h.start
  | main p out old op rest hold hmain =>
    simp only [Host.timely, hold, hmain, Option.all_some, List.head?_cons] at hC
    have hnext : old.Next op { old with main := rest } := .main rest hmain
    obtain ⟨proc', hprocs, hready⟩ :=
      Host.ready_exec (s := s.host) (p := p) (h.ready p old hold) hnext out fun _ => hC
    simpa [Host.call, hold, hmain] using h.call hold hnext hprocs hready
  | handler p k out old op rest hold hcode =>
    have hnext : old.Next op { old with handlers := old.handlers.set k rest } := .handler k rest hcode
    obtain ⟨proc', hprocs, hready⟩ :=
      Host.ready_exec (s := s.host) (p := p) (h.ready p old hold) hnext out fun hne => absurd rfl hne
    simpa [Host.call, hold, hcode] using h.call hold hnext hprocs hready
  | deliver p signo old hold =>
    simp only [Host.timely, hold, Option.all_some] at hC
    simpa [Host.call] using h.deliver hold hC

/-- In a run whose signals come in time, and whose main programs take the handlers into account, every state has been reached by touching living services only, and by cleaning up once. -/
theorem touchesLive_of_timely {acts : List Act}
    (hC : Along step (fun s a => s.host.timely a = true) .init acts) :
    Always step TouchesLive .init acts :=
  always_of_along (fun _ (h : Timely _) => h.touchesLive) (fun _ _ _ h hC hstep => h.step hC hstep)
    Timely.init hC

def goOn (n : Nat) : List Act := List.replicate n (.main 0 ⟨false, 1, false⟩)

def handle (k n : Nat) : List Act := List.replicate n (.handler 0 k ⟨false, 0, false⟩)

/-- A daemon goes on for `n` calls and gets the signals. -/
def interrupted (n : Nat) (signos : List Signo) : List Act :=
  .start :: goOn n ++ signos.map (.deliver 0)

/-- While the service runs, `SIGHUP` restarts it, one `SIGTERM` stops it, and another one ends the process. -/
def restartThenStop : List Act :=
  interrupted 9 [.sighup, .sigterm] ++ handle 0 1 ++ handle 1 5 ++ [.deliver 0 .sigterm]

theorem touchesLive_of_timely_restartThenStop : ∃ s, run step .init restartThenStop = some s ∧
    made s.calls 0 .restartService = 1 ∧ made s.calls 0 .stopService = 1 ∧
    Always step TouchesLive .init restartThenStop := by
  obtain ⟨s, hrun, hmade⟩ := exists_of_any_run step .init restartThenStop
    (fun s => decide (made s.calls 0 .restartService = 1 ∧ made s.calls 0 .stopService = 1))
      (by decide +kernel)
  obtain ⟨hrestart, hstop⟩ := of_decide_eq_true hmade
  exact ⟨s, hrun, hrestart, hstop, touchesLive_of_timely (by decide +kernel)⟩

theorem not_touchesLive_of_call {s : Traced} {call : Call} (hcall : call ∈ s.calls)
    (hop : call.op = .stopService ∨ call.op = .restartService) (hservice : call.service ≠ .alive) :
    ¬ TouchesLive s :=
  fun h => hservice (h.live call hcall hop)

theorem not_touchesLive_of_twice {s : Traced} {p : Pid} {op : Op} (hop : op ∈ cleaning)
    (hmade : made s.calls p op = 2) : ¬ TouchesLive s := by
  intro h
  have hone := h.once p op hop
  omega

/-- `SIGHUP` before the service is constructed, and `SIGINT` after it was deleted, call a service that is not there; `SIGINT` and `SIGTERM` stop the service twice; and after `SIGTERM` the main program unlocks and closes the lock file a second time. -/
theorem interrupted_touches_dead :
    (∃ s, run step .init (interrupted 8 [.sighup] ++ handle 0 1) = some s ∧
      (⟨0, .restartService, .null⟩ : Call) ∈ s.calls ∧ ¬ TouchesLive s) ∧
    (∃ s, run step .init (interrupted 11 [.sigint] ++ handle 0 4) = some s ∧
      (⟨0, .stopService, .deleted⟩ : Call) ∈ s.calls ∧ ¬ TouchesLive s) ∧
    (∃ s, run step .init (interrupted 9 [.sigint, .sigterm] ++ handle 0 4 ++ handle 1 4) = some s ∧
      made s.calls 0 .stopService = 2 ∧ ¬ TouchesLive s) ∧
    (∃ s, run step .init (interrupted 9 [.sigterm] ++ handle 0 5 ++ goOn 4) = some s ∧
      made s.calls 0 .unlock = 2 ∧ made s.calls 0 .close = 2 ∧ ¬ TouchesLive s) := by
  refine ⟨?_, ?_, ?_, ?_⟩
  · obtain ⟨s, hrun, hcall⟩ := exists_of_any_run step .init (interrupted 8 [.sighup] ++ handle 0 1)
      (fun s => decide (⟨0, .restartService, .null⟩ ∈ s.calls)) (by decide +kernel)
    have hmem := of_decide_eq_true hcall
    exact ⟨s, hrun, hmem, not_touchesLive_of_call hmem (.inr rfl) (by decide)⟩
  · obtain ⟨s, hrun, hcall⟩ := exists_of_any_run step .init (interrupted 11 [.sigint] ++ handle 0 4)
      (fun s => decide (⟨0, .stopService, .deleted⟩ ∈ s.calls)) (by decide +kernel)
    have hmem := of_decide_eq_true hcall
    exact ⟨s, hrun, hmem, not_touchesLive_of_call hmem (.inl rfl) (by decide)⟩
  · obtain ⟨s, hrun, htwice⟩ := exists_of_any_run step .init
      (interrupted 9 [.sigint, .sigterm] ++ handle 0 4 ++ handle 1 4)
        (fun s => decide (made s.calls 0 .stopService = 2))
      (by decide +kernel)
    have hmade := of_decide_eq_true htwice
    exact ⟨s, hrun, hmade, not_touchesLive_of_twice (by decide) hmade⟩
  · obtain ⟨s, hrun, htwice⟩ :=
      exists_of_any_run step .init (interrupted 9 [.sigterm] ++ handle 0 5 ++ goOn 4)
      (fun s => decide (made s.calls 0 .unlock = 2 ∧ made s.calls 0 .close = 2)) (by decide +kernel)
    obtain ⟨hunlock, hclose⟩ := of_decide_eq_true htwice
    exact ⟨s, hrun, hunlock, hclose, not_touchesLive_of_twice (by decide) hunlock⟩

end Traced

end Libesf.Daemon

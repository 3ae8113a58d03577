import Libesf.Daemon.Daemonize

/-!
# What is left of a daemon

The position of a process is what is left of its programs, so what is known of a position is a fact about the tails of `daemonize` and of `daemon_signal_handler`.
-/

namespace Libesf.Daemon

open LockFile

/-! ### The programs -/

theorem of_suffix {P : List Op → Prop} {program code : List Op}
    (hall : ∀ rest ∈ program.tails, P rest) (h : code <:+ program) : P code :=
  hall code ((List.mem_tails _ _).2 h)

theorem of_open {rest : List Op} (h : .openLockFile :: rest <:+ daemonize) :
    rest.head? = some .lockLockFile ∧ .close ∈ rest :=
  of_suffix (P := fun code => code.head? = some .openLockFile →
    code.tail.head? = some .lockLockFile ∧ Op.close ∈ code.tail) (by decide) h rfl

theorem head_ne_lock {op : Op} {rest : List Op} (h : op :: rest <:+ daemonize)
    (hop : op ≠ .openLockFile) : rest.head? ≠ some .lockLockFile :=
  of_suffix (P := fun code => code ≠ [] → code.head? ≠ some .openLockFile →
    code.tail.head? ≠ some .lockLockFile)
    (by decide) h (List.cons_ne_nil _ _) fun hopen => hop (Option.some.inj hopen)

theorem of_lock {rest : List Op} (h : .lockLockFile :: rest <:+ daemonize) :
    .lockLockFile ∉ rest ∧ .close ∈ rest :=
  of_suffix (P := fun code => code.head? = some .lockLockFile → .lockLockFile ∉ code.tail ∧
    .close ∈ code.tail)
    (by decide) h rfl

theorem lock_notMem_of_setHandler {signo : Signo} {rest : List Op}
    (h : .setHandler signo :: rest <:+ daemonize) : .lockLockFile ∉ rest := by
  cases signo <;>
    exact of_suffix (P := fun code => code.head? = some (.setHandler _) → .lockLockFile ∉ code.tail)
      (by decide) h rfl

theorem of_unlink {rest : List Op} (h : .unlink :: rest <:+ daemonize) :
    .lockLockFile ∉ rest ∧ .close ∉ rest :=
  of_suffix (P := fun code => code.head? = some .unlink → .lockLockFile ∉ code.tail ∧
    .close ∉ code.tail)
    (by decide) h rfl

theorem lock_notMem_of_close {rest : List Op} (h : .close :: rest <:+ daemonize) :
    .lockLockFile ∉ rest :=
  of_suffix (P := fun code => code.head? = some .close → .lockLockFile ∉ code.tail) (by decide) h rfl

theorem unlink_mem_of_run {code : List Op} (h : code <:+ daemonize) (hrun : .runService ∈ code) :
    .unlink ∈ code :=
  of_suffix (P := fun code => .runService ∈ code → .unlink ∈ code) (by decide) h hrun

theorem close_notMem_of_handler_unlink {signo : Signo} {rest : List Op}
    (h : .unlink :: rest <:+ daemonSignalHandler signo) : .close ∉ rest := by
  cases signo <;> exact of_suffix (P := fun code => code.head? = some .unlink → .close ∉ code.tail)
    (by decide) h rfl

theorem close_mem_of_unlink_mem {signo : Signo} (h : .unlink ∈ daemonSignalHandler signo) :
    .close ∈ daemonSignalHandler signo := by
  revert h
  cases signo <;> decide

def Op.ofMain : Op → Bool
  | .openLockFile | .lockLockFile | .writePid | .setHandler _ | .constructService | .runService
  | .deleteService
  | .exit => true
  | .unlock | .close | .unlink | .stopService | .restartService | .setDefault _ | .raise _ => false

theorem ofMain_of_mem_handler {signo : Signo} {op : Op} (h : op ∈ daemonSignalHandler signo) :
    op.ofMain = false := by
  revert op
  cases signo <;> decide

/-! ### Processes -/

/-- The lock is asked for on an open file, the handlers are installed after it is acquired, and a program that has closed the file and is still to unlink the name leaves the file closed. -/
structure Proc.Wf (proc : Proc) : Prop where
  main : proc.main <:+ daemonize
  handlers : ∀ code ∈ proc.handlers, ∃ signo, code <:+ daemonSignalHandler signo
  opened : proc.main.head? = some .lockLockFile → proc.isOpen = true
  early : .lockLockFile ∈ proc.main → proc.handlers = [] ∧ ∀ signo, proc.handled signo = false
  closed : ∀ code ∈ proc.main :: proc.handlers, .unlink ∈ code → .close ∉ code → proc.isOpen = false

theorem Proc.wf_init : Proc.init.Wf where
  main := List.suffix_refl _
  handlers := nofun
  opened := nofun
  early _ := ⟨rfl, fun _ => rfl⟩
  closed _ _ _ _ := rfl

/-- A handler that is started finds the lock asked for, since it is installed after that. -/
theorem Proc.Wf.signal {proc : Proc} (h : proc.Wf) {signo : Signo}
    (hhandled : proc.handled signo = true) :
    ({ proc with handlers := proc.handlers ++ [daemonSignalHandler signo] } : Proc).Wf := by
  have hlock : .lockLockFile ∉ proc.main := by
    intro hmem
    rw [(h.early hmem).2 signo] at hhandled
    cases hhandled
  refine ⟨h.main, fun code hcode => ?_, h.opened, fun hmem => absurd hmem hlock,
    fun code hcode hunlink hclose => ?_⟩
  · obtain hwas | hnew := List.mem_append.1 hcode
    · exact h.handlers code hwas
    · exact ⟨signo, List.mem_singleton.1 hnew ▸ List.suffix_refl _⟩
  · obtain hwas | hnew := List.mem_append.1 (show code ∈ (proc.main :: proc.handlers) ++ _ from hcode)
    · exact h.closed code hwas hunlink hclose
    · obtain rfl := List.mem_singleton.1 hnew
      exact absurd (close_mem_of_unlink_mem hunlink) hclose

theorem Proc.wf_dead (proc : Proc) :
    ({ proc with main := [], handlers := [], isOpen := false } : Proc).Wf :=
  ⟨List.nil_suffix, nofun, nofun, nofun, fun _ _ _ _ => rfl⟩

/-- `proc` is the process when its next call is `op`, and that call is taken from its program. -/
inductive Proc.Next (old : Proc) (op : Op) : Proc → Prop where
  | main (rest : List Op) (hmain : old.main = op :: rest) : Next old op { old with main := rest }
  | handler (k : Nat) (rest : List Op) (hcode : old.handlers[k]? = some (op :: rest)) :
      Next old op { old with handlers := old.handlers.set k rest }

namespace Proc

variable {old proc : Proc} {op : Op}

namespace Next

theorem fd_eq (h : old.Next op proc) : proc.fd = old.fd := by cases h <;> rfl

theorem isOpen_eq (h : old.Next op proc) : proc.isOpen = old.isOpen := by cases h <;> rfl

theorem handled_eq (h : old.Next op proc) : proc.handled = old.handled := by cases h <;> rfl

theorem service_eq (h : old.Next op proc) : proc.service = old.service := by cases h <;> rfl

theorem exists_code (h : old.Next op proc) : ∃ rest, op :: rest ∈ old.main :: old.handlers ∧
    ∀ code ∈ proc.main :: proc.handlers, code = rest ∨ code ∈ old.main :: old.handlers := by
  cases h with
  | main rest hmain =>
    refine ⟨rest, hmain ▸ List.mem_cons_self, fun code hcode => ?_⟩
    obtain rfl | hmem := List.mem_cons.1 hcode
    · exact .inl rfl
    · exact .inr (List.mem_cons_of_mem _ hmem)
  | handler k rest hcode =>
    refine ⟨rest, List.mem_cons_of_mem _ (List.mem_of_getElem? hcode), fun code hmem => ?_⟩
    obtain rfl | hmem := List.mem_cons.1 hmem
    · exact .inr List.mem_cons_self
    · obtain hold | rfl := List.mem_or_eq_of_mem_set hmem
      · exact .inr (List.mem_cons_of_mem _ hold)
      · exact .inl rfl

/-- A call that only `daemonize` makes is taken from it. -/
theorem of_ofMain (hwf : old.Wf) (h : old.Next op proc) (hop : op.ofMain = true) :
    ∃ rest, old.main = op :: rest ∧ proc = { old with main := rest } := by
  cases h with
  | main rest hmain => exact ⟨rest, hmain, rfl⟩
  | handler k rest hcode =>
    obtain ⟨signo, hsuffix⟩ := hwf.handlers _ (List.mem_of_getElem? hcode)
    rw [ofMain_of_mem_handler (hsuffix.mem List.mem_cons_self)] at hop
    cases hop

theorem lock_notMem_of_setHandler {signo : Signo} (hwf : old.Wf)
    (h : old.Next (.setHandler signo) proc) : .lockLockFile ∉ proc.main := by
  obtain ⟨rest, hmain, rfl⟩ := h.of_ofMain hwf rfl
  exact Daemon.lock_notMem_of_setHandler (hmain ▸ hwf.main)

theorem main_suffix (h : old.Next op proc) : proc.main <:+ old.main := by
  cases h with
  | main rest hmain => exact hmain ▸ List.suffix_cons _ _
  | handler k rest hcode => exact List.suffix_refl _

theorem lock_mem (h : old.Next op proc) (hop : op ≠ .lockLockFile)
    (hlocked : .lockLockFile ∉ proc.main) : .lockLockFile ∉ old.main := by
  cases h with
  | main rest hmain =>
    rw [hmain]
    exact List.not_mem_cons_of_ne_of_not_mem hop.symm hlocked
  | handler k rest hcode => exact hlocked

theorem serving (h : old.Next op proc) (hop : op ≠ .lockLockFile) (hserving : proc.serving = true) :
    old.serving = true := by
  simp only [Proc.serving, decide_eq_true_eq] at hserving ⊢
  exact ⟨h.lock_mem hop hserving.1, h.main_suffix.mem hserving.2⟩

theorem unlinksAhead (h : old.Next op proc) (hop : op ≠ .lockLockFile)
    (hahead : proc.unlinksAhead = true) : old.unlinksAhead = true := by
  simp only [Proc.unlinksAhead, Bool.or_eq_true, decide_eq_true_eq, List.any_eq_true] at hahead ⊢
  obtain ⟨hlocked, hunlink⟩ | ⟨code, hmem, hunlink⟩ := hahead
  · exact .inl ⟨h.lock_mem hop hlocked, h.main_suffix.mem hunlink⟩
  · cases h with
    | main rest hmain => exact .inr ⟨code, hmem, hunlink⟩
    | handler k rest hcode =>
      obtain hold | rfl := List.mem_or_eq_of_mem_set hmem
      · exact .inr ⟨code, hold, hunlink⟩
      · exact .inr ⟨_, List.mem_of_getElem? hcode, List.mem_cons_of_mem _ hunlink⟩

/-- A process stays well formed when a call is taken, but that `open` and `close` have still to be made. -/
theorem wf (hwf : old.Wf) (h : old.Next op proc) (hopen : op ≠ .openLockFile)
    (hop : op = .close → proc.isOpen = false) : proc.Wf where
  main := h.main_suffix.trans hwf.main
  handlers code hmem := by
    cases h with
    | main rest hmain => exact hwf.handlers code hmem
    | handler k rest hcode =>
      obtain hold | rfl := List.mem_or_eq_of_mem_set hmem
      · exact hwf.handlers code hold
      · obtain ⟨signo, hsuffix⟩ := hwf.handlers _ (List.mem_of_getElem? hcode)
        exact ⟨signo, (List.suffix_cons _ _).trans hsuffix⟩
  opened hhead := by
    cases h with
    | main rest hmain => exact absurd hhead (head_ne_lock (hmain ▸ hwf.main) hopen)
    | handler k rest hcode => exact hwf.opened hhead
  early hlock := by
    obtain ⟨hnil, hhandled⟩ := hwf.early (h.main_suffix.mem hlock)
    refine ⟨?_, fun signo => h.handled_eq ▸ hhandled signo⟩
    cases h with
    | main rest hmain => exact hnil
    | handler k rest hcode => simp [hnil] at hcode
  closed code hmem hunlink hclose := by
    by_cases hclosing : op = .close
    · exact hop hclosing
    · obtain ⟨rest, hrest, hcodes⟩ := h.exists_code
      rw [h.isOpen_eq]
      obtain rfl | hold := hcodes code hmem
      · exact hwf.closed _ hrest (List.mem_cons_of_mem _ hunlink)
          (List.not_mem_cons_of_ne_of_not_mem (Ne.symm hclosing) hclose)
      · exact hwf.closed code hold hunlink hclose

theorem wf_of_handled (hwf : old.Wf) (h : old.Next op proc) (hopen : op ≠ .openLockFile)
    (hop : op = .close → proc.isOpen = false) (offset : Nat) (service : ServicePtr)
    {handled : Signo → Bool} (hhandled : .lockLockFile ∈ proc.main → ∀ signo, handled signo = false) :
    ({ proc with offset := offset, service := service, handled := handled } : Proc).Wf :=
  have hwf' := h.wf hwf hopen hop
  ⟨hwf'.main, hwf'.handlers, hwf'.opened, fun hmem => ⟨(hwf'.early hmem).1, hhandled hmem⟩,
    hwf'.closed⟩

theorem wf_open (hwf : old.Wf) (h : old.Next .openLockFile proc) (fd : Inode) :
    ({ proc with fd := fd, isOpen := true, offset := 0 } : Proc).Wf ∧ .lockLockFile ∈ proc.main := by
  obtain ⟨rest, hmain, rfl⟩ := h.of_ofMain hwf rfl
  obtain ⟨hhead, hclose⟩ := of_open (hmain ▸ hwf.main)
  have hlock : .lockLockFile ∈ rest := List.mem_of_mem_head? hhead
  obtain ⟨hnil, hhandled⟩ := hwf.early (hmain ▸ List.mem_cons_of_mem _ hlock)
  refine ⟨⟨(List.suffix_cons _ _).trans (hmain ▸ hwf.main), hwf.handlers, fun _ => rfl,
    fun _ => ⟨hnil, hhandled⟩, fun code hcode hunlink hclosed => ?_⟩, hlock⟩
  obtain rfl : code = rest := by simpa [hnil] using hcode
  exact absurd hclose hclosed

/-- The call that closes the file may as well be taken when the file is closed already. -/
theorem closed (hwf : old.Wf) (h : old.Next .close proc) : ({ old with isOpen := false } : Proc).Wf ∧
    ({ old with isOpen := false } : Proc).Next .close { proc with isOpen := false } := by
  have hlock : .lockLockFile ∉ old.main := by
    cases h with
    | main rest hmain =>
      rw [hmain]
      exact List.not_mem_cons_of_ne_of_not_mem (by decide) (lock_notMem_of_close (hmain ▸ hwf.main))
    | handler k rest hcode =>
      intro hmem
      simp [(hwf.early hmem).1] at hcode
  refine ⟨⟨hwf.main, hwf.handlers, fun hhead => absurd (List.mem_of_mem_head? hhead) hlock,
    hwf.early, fun _ _ _ _ => rfl⟩, ?_⟩
  cases h with
  | main rest hmain => exact .main rest hmain
  | handler k rest hcode => exact .handler k rest hcode

theorem wf_close (hwf : old.Wf) (h : old.Next .close proc) :
    ({ proc with isOpen := false } : Proc).Wf :=
  (h.closed hwf).2.wf (h.closed hwf).1 (by decide) fun _ => rfl

/-- The process that unlinks the name has closed its file, and knew that it would unlink. -/
theorem of_unlink (hwf : old.Wf) (h : old.Next .unlink proc) :
    old.isOpen = false ∧ old.unlinksAhead = true := by
  cases h with
  | main rest hmain =>
    obtain ⟨hlock, hclose⟩ := Daemon.of_unlink (hmain ▸ hwf.main)
    refine ⟨hwf.closed old.main List.mem_cons_self ?_ ?_, ?_⟩
    · rw [hmain]
      exact List.mem_cons_self
    · rw [hmain]
      exact List.not_mem_cons_of_ne_of_not_mem (by decide) hclose
    · have hahead : Op.lockLockFile ∉ old.main ∧ Op.unlink ∈ old.main := by
        rw [hmain]
        exact ⟨List.not_mem_cons_of_ne_of_not_mem (by decide) hlock, List.mem_cons_self⟩
      rw [Proc.unlinksAhead, decide_eq_true hahead, Bool.true_or]
  | handler k rest hcode =>
    have hmem := List.mem_of_getElem? hcode
    obtain ⟨signo, hsuffix⟩ := hwf.handlers _ hmem
    refine ⟨hwf.closed _ (List.mem_cons_of_mem _ hmem) List.mem_cons_self ?_, ?_⟩
    · exact List.not_mem_cons_of_ne_of_not_mem (by decide) (close_notMem_of_handler_unlink hsuffix)
    · have hany : (old.handlers.any fun code => decide (Op.unlink ∈ code)) = true :=
        List.any_eq_true.2 ⟨_, hmem, decide_eq_true List.mem_cons_self⟩
      rw [Proc.unlinksAhead, hany, Bool.or_true]

end Next

theorem unlinksAhead_of_serving (hwf : proc.Wf) (hserving : proc.serving = true) :
    proc.unlinksAhead = true := by
  simp only [Proc.serving, decide_eq_true_eq] at hserving
  rw [Proc.unlinksAhead, decide_eq_true ⟨hserving.1, unlink_mem_of_run hwf.main hserving.2⟩,
    Bool.true_or]

theorem unlinksAhead_of_early (hwf : proc.Wf) (hlock : .lockLockFile ∈ proc.main) :
    proc.unlinksAhead = false := by
  rw [Proc.unlinksAhead, (hwf.early hlock).1]
  simp [hlock]

end Proc

theorem setDefault_of_default {handled : Signo → Bool} (h : ∀ signo, handled signo = false)
    (signo signo' : Signo) : Function.update handled signo false signo' = false := by
  by_cases heq : signo' = signo
  · rw [heq]
    exact Function.update_self ..
  · rw [Function.update_of_ne heq]
    exact h signo'

/-! ### Steps -/

namespace Host

/-- The steps, with what they know of the process. -/
inductive Move (s : Host) : Act → Host → Prop where
  | start : Move s .start { s with procs := s.procs ++ [.init] }
  | main (p : Pid) (out : Outcome) (old : Proc) (op : Op) (rest : List Op)
      (hold : s.procs[p]? = some old)
      (hmain : old.main = op :: rest) :
        Move s (.main p out) (s.exec p { old with main := rest } out op)
  | handler (p : Pid) (k : Nat) (out : Outcome) (old : Proc) (op : Op) (rest : List Op)
      (hold : s.procs[p]? = some old)
      (hcode : old.handlers[k]? = some (op :: rest)) :
      Move s (.handler p k out) (s.exec p { old with handlers := old.handlers.set k rest } out op)
  | deliver (p : Pid) (signo : Signo) (old : Proc) (hold : s.procs[p]? = some old) :
      Move s (.deliver p signo) (s.signalled p old signo)

theorem move_of_step {s t : Host} {a : Act} (h : s.step a = some t) : Move s a t := by
  cases a with
  | start => exact Option.some.inj h ▸ .start
  | main p out =>
    obtain ⟨old, hold, h⟩ := Option.bind_eq_some_iff.1 h
    split at h
    · next op rest hmain => exact Option.some.inj h ▸ .main p out old op rest hold hmain
    · cases h
  | handler p k out =>
    obtain ⟨old, hold, h⟩ := Option.bind_eq_some_iff.1 h
    split at h
    · next op rest hcode => exact Option.some.inj h ▸ .handler p k out old op rest hold hcode
    · cases h
  | deliver p signo =>
    obtain ⟨old, hold, h⟩ := Option.bind_eq_some_iff.1 h
    obtain ⟨_, _, h⟩ := Option.bind_eq_some_iff.1 h
    exact Option.some.inj h ▸ .deliver p signo old hold

end Host

end Libesf.Daemon

import Libesf.Base.Pool
import Libesf.Daemon.Process

/-!
# One daemon at a time

A lock keeps other daemons out only as long as it is on the file under the name. Then whoever opens the name finds that file locked, and nobody else unlinks it, since every process with an unlink ahead still has its own lock.
-/

namespace Libesf.Daemon

open LockFile Transition

namespace Host

/-- A lock is on the file under the name, its process has that file open, and no other process is still to unlink the name. -/
structure Wf (h : Host) : Prop where
  procs : ∀ (p : Pid) (proc : Proc), h.procs[p]? = some proc → proc.Wf
  owner : ∀ i q, h.files.owner i = some q → h.files.name = some i ∧
    ∃ proc, h.procs[q]? = some proc ∧ proc.fd = i ∧ proc.isOpen = true ∧ .lockLockFile ∉ proc.main
  alone : ∀ i q r, h.files.owner i = some q → r ≠ q → h.unlinksAhead r = false
  exclusive : h.Exclusive

theorem wf_init : Host.init.Wf where
  procs := nofun
  owner := nofun
  alone := nofun
  exclusive := ⟨nofun, rfl⟩

variable {s : Host} {p : Pid} {old proc : Proc}

theorem Wf.hasLock_of_owner (h : s.Wf) {i : Inode} {q : Pid} (howner : s.files.owner i = some q) :
    s.hasLock q = true := by
  obtain ⟨_, proc, hproc, rfl, hopen, _⟩ := h.owner i q howner
  rw [hasLock, hproc, Option.any_some, hopen, Bool.true_and, decide_eq_true howner]

theorem owner_of_hasLock {q : Pid} (h : s.hasLock q = true) : ∃ i, s.files.owner i = some q := by
  rw [hasLock, Option.any_eq_true] at h
  obtain ⟨proc, _, hlock⟩ := h
  rw [Bool.and_eq_true, decide_eq_true_eq] at hlock
  exact ⟨proc.fd, hlock.2⟩

theorem unlinksAhead_eq (hold : s.procs[p]? = some old) : s.unlinksAhead p = old.unlinksAhead := by
  rw [unlinksAhead, hold, Option.any_some]

theorem serving_eq (hold : s.procs[p]? = some old) : s.serving p = old.serving := by
  rw [serving, hold, Option.any_some]

theorem Wf.unlinksAhead_of_serving (h : s.Wf) {q : Pid} (hserving : s.serving q = true) :
    s.unlinksAhead q = true := by
  obtain ⟨proc, hproc, hproc'⟩ := (Option.any_eq_true _ _).1 hserving
  rw [unlinksAhead_eq hproc]
  exact Proc.unlinksAhead_of_serving (h.procs q proc hproc) hproc'

theorem mem_others {q : Pid} : q ∈ s.others p ↔ q < s.procs.length ∧ q ≠ p := by
  simp [others]

theorem procs_setProc (hold : s.procs[p]? = some old) (proc : Proc) (q : Pid) :
    (s.setProc p proc).procs[q]? = if q = p then some proc else s.procs[q]? := by
  obtain ⟨hlt, _⟩ := List.getElem?_eq_some_iff.1 hold
  by_cases hq : q = p
  · rw [hq, if_pos rfl]
    exact List.getElem?_set_self hlt
  · rw [if_neg hq]
    exact List.getElem?_set_ne (Ne.symm hq)

/-- A step of `p`: the other locks, and the name under them, are as before; a lock of its own is on the file under the name and leaves no unlink to the others. -/
theorem Wf.update (h : s.Wf) (hold : s.procs[p]? = some old) (files : Files) (hproc : proc.Wf)
    (hothers : ∀ i q, q ≠ p → files.owner i = some q →
      s.files.owner i = some q ∧ files.name = s.files.name ∧ proc.unlinksAhead = false)
    (hown : ∀ i, files.owner i = some p → files.name = some i ∧ proc.fd = i ∧ proc.isOpen = true ∧
      .lockLockFile ∉ proc.main ∧ ∀ r, r ≠ p → s.unlinksAhead r = false)
    (hserving : proc.serving = true → old.serving = true ∨ ∀ r, r ≠ p → s.serving r = false) :
    ({ s with files := files }.setProc p proc).Wf := by
  have hget := procs_setProc (s := { s with files := files }) hold proc
  have hself : ({ s with files := files }.setProc p proc).procs[p]? = some proc := by
    rw [hget, if_pos rfl]
  have hother : ∀ q, q ≠ p → ({ s with files := files }.setProc p proc).procs[q]? = s.procs[q]? := by
    intro q hq
    rw [hget, if_neg hq]
  refine ⟨fun q qproc hq => ?_, fun i q howner => ?_, fun i q r howner hr => ?_,
    ⟨fun q r hq hr => ?_, h.exclusive.robbed⟩⟩
  · by_cases hqp : q = p
    · rw [hqp, hself] at hq
      exact Option.some.inj hq ▸ hproc
    · exact h.procs q qproc (hother q hqp ▸ hq)
  · by_cases hqp : q = p
    · subst hqp
      obtain ⟨hname, hfd, hopen, hlock, _⟩ := hown i howner
      exact ⟨hname, proc, hself, hfd, hopen, hlock⟩
    · obtain ⟨howner', hname, _⟩ := hothers i q hqp howner
      obtain ⟨hname', hproc'⟩ := h.owner i q howner'
      exact ⟨hname.trans hname', (hother q hqp).symm ▸ hproc'⟩
  · by_cases hrp : r = p
    · subst hrp
      rw [unlinksAhead_eq hself]
      exact (hothers i q hr.symm howner).2.2
    · rw [unlinksAhead, hother r hrp]
      by_cases hqp : q = p
      · subst hqp
        exact (hown i howner).2.2.2.2 r hrp
      · exact h.alone i q r (hothers i q hqp howner).1 hr
  · have hbefore : ∀ q, q ≠ p → ({ s with files := files }.setProc p proc).serving q = true →
        s.serving q = true := by
      intro q hqp hq
      rwa [serving, hother q hqp] at hq
    have hafter : ({ s with files := files }.setProc p proc).serving p = true → ∀ q, q ≠ p →
        s.serving q = false := by
      intro hp q hqp
      rw [serving_eq hself] at hp
      obtain hwas | hfree := hserving hp
      · by_contra hq
        exact hqp (h.exclusive.serving q p (Bool.eq_true_of_not_eq_false hq) (serving_eq hold ▸ hwas))
      · exact hfree q hqp
    by_cases hqp : q = p
    · by_cases hrp : r = p
      · rw [hqp, hrp]
      · have hfalse := hafter (hqp ▸ hq) r hrp
        rw [hbefore r hrp hr] at hfalse
        cases hfalse
    · by_cases hrp : r = p
      · have hfalse := hafter (hrp ▸ hr) q hqp
        rw [hbefore q hqp hq] at hfalse
        cases hfalse
      · exact h.exclusive.serving q r (hbefore q hqp hq) (hbefore r hrp hr)

theorem Wf.not_unlinksAhead (h : s.Wf) (hold : s.procs[p]? = some old)
    (hahead : proc.unlinksAhead = true → old.unlinksAhead = true) {i : Inode} {q : Pid} (hq : q ≠ p)
    (howner : s.files.owner i = some q) : proc.unlinksAhead = false := by
  have hfalse := h.alone i q p howner hq.symm
  rw [unlinksAhead_eq hold] at hfalse
  by_contra htrue
  rw [hahead (Bool.eq_true_of_not_eq_false htrue)] at hfalse
  cases hfalse

theorem Wf.quiet (h : s.Wf) (hold : s.procs[p]? = some old) (files : Files) (hproc : proc.Wf)
    (hname : files.name = s.files.name)
    (howner : ∀ i q, files.owner i = some q → s.files.owner i = some q)
    (hkept : ∀ i, files.owner i = some p → proc.fd = old.fd ∧ proc.isOpen = old.isOpen ∧
      proc.main <:+ old.main)
    (hahead : ∀ i q, q ≠ p → s.files.owner i = some q → proc.unlinksAhead = false)
    (hserving : proc.serving = true → old.serving = true) :
    ({ s with files := files }.setProc p proc).Wf := by
  apply h.update hold files hproc
  · intro i q hq hi
    exact ⟨howner i q hi, hname, hahead i q hq (howner i q hi)⟩
  · intro i hi
    obtain ⟨hnamed, old', hold', hfd, hopen, hlock⟩ := h.owner i p (howner i p hi)
    obtain rfl : old = old' := Option.some.inj (hold.symm.trans hold')
    obtain ⟨hfd', hopen', hsuffix⟩ := hkept i hi
    exact ⟨hname.trans hnamed, hfd'.trans hfd, hopen'.trans hopen,
      fun hmem => hlock (hsuffix.mem hmem), fun r hr => h.alone i p r (howner i p hi) hr⟩
  · exact fun hnow => .inl (hserving hnow)

theorem Wf.terminate (h : s.Wf) (hold : s.procs[p]? = some old) : (s.terminate p proc).Wf := by
  apply h.quiet hold (s.files.exit p) proc.wf_dead rfl
  · exact fun i q howner => (Files.owner_exit.1 howner).1
  · exact fun i howner => absurd rfl (Files.owner_exit.1 howner).2
  · exact fun _ _ _ _ => rfl
  · nofun

theorem Wf.setProc (h : s.Wf) (hold : s.procs[p]? = some old) (hproc : proc.Wf)
    (hfd : proc.fd = old.fd) (hopen : proc.isOpen = old.isOpen) (hmain : proc.main <:+ old.main)
    (hahead : proc.unlinksAhead = true → old.unlinksAhead = true)
    (hserving : proc.serving = true → old.serving = true) : (s.setProc p proc).Wf :=
  h.quiet hold s.files hproc rfl (fun _ _ howner => howner) (fun _ _ => ⟨hfd, hopen, hmain⟩)
    (fun _ _ hq howner => h.not_unlinksAhead hold hahead hq howner) hserving

/-- A handler starts: its process is still to unlink the name anyway, or no other process has a lock. -/
theorem Wf.signalled (h : s.Wf) (hold : s.procs[p]? = some old) {signo : Signo} (hproc : proc.Wf)
    (hfd : proc.fd = old.fd) (hopen : proc.isOpen = old.isOpen) (hmain : proc.main <:+ old.main)
    (hahead : proc.unlinksAhead = true → old.unlinksAhead = true)
    (hserving : proc.serving = true → old.serving = true) (hC : s.startOrderly p proc signo = true) :
    (s.signalled p proc signo).Wf := by
  unfold Host.signalled
  by_cases hhandled : proc.handled signo = true
  · rw [if_pos hhandled]
    apply h.quiet hold s.files (hproc.signal hhandled)
    · rfl
    · exact fun _ _ howner => howner
    · exact fun _ _ => ⟨hfd, hopen, hmain⟩
    · intro i q hq howner
      have hbefore : proc.unlinksAhead = false := h.not_unlinksAhead hold hahead hq howner
      rw [startOrderly, hhandled, hbefore, Bool.not_true, Bool.false_or, Bool.or_false,
        Bool.or_eq_true, decide_eq_true_eq] at hC
      obtain hunlink | hfree := hC
      · rw [Proc.unlinksAhead, Bool.or_eq_false_iff] at hbefore ⊢
        refine ⟨hbefore.1, ?_⟩
        rw [List.any_append, hbefore.2, Bool.false_or, List.any_cons, List.any_nil, Bool.or_false,
          decide_eq_false hunlink]
      · obtain ⟨_, qproc, hqproc, _⟩ := h.owner i q howner
        have hlt := (List.getElem?_eq_some_iff.1 hqproc).1
        have hfalse := List.all_eq_true.1 hfree q (mem_others.2 ⟨hlt, hq⟩)
        rw [h.hasLock_of_owner howner] at hfalse
        cases hfalse
    · exact hserving
  · rw [if_neg hhandled]
    exact h.terminate hold

/-! ### The calls that change the files -/

theorem Wf.openLockFile (h : s.Wf) (hold : s.procs[p]? = some old)
    (hnext : old.Next .openLockFile proc) :
    ({ s with files := s.files.openCreat.2 }.setProc p
      { proc with fd := s.files.openCreat.1, isOpen := true, offset := 0 }).Wf := by
  have hwf := h.procs p old hold
  obtain ⟨hproc, hlock⟩ := hnext.wf_open hwf s.files.openCreat.1
  apply h.update hold _ hproc
  · intro i q hq howner
    rw [Files.owner_openCreat] at howner
    have hname := (h.owner i q howner).1
    exact ⟨howner, (Files.name_openCreat_of_some hname).trans hname.symm,
      Proc.unlinksAhead_of_early hproc hlock⟩
  · intro i howner
    rw [Files.owner_openCreat] at howner
    obtain ⟨_, old', hold', _, _, hnot⟩ := h.owner i p howner
    obtain rfl : old = old' := Option.some.inj (hold.symm.trans hold')
    exact absurd (hnext.main_suffix.mem hlock) hnot
  · intro hserving
    rw [Proc.serving, decide_eq_true_eq] at hserving
    exact absurd hlock hserving.1

/-- Whoever is still to unlink the name has a lock, and then it is on the file for which the lock is asked. -/
theorem Wf.grant (h : s.Wf) (hold : s.procs[p]? = some old) (hnext : old.Next .lockLockFile proc)
    {files : Files} (hgrant : s.files.tlock p proc.fd = some files)
    (hC : s.grantOrderly p proc = true) : ({ s with files := files }.setProc p proc).Wf := by
  have hwf := h.procs p old hold
  obtain ⟨rest, hmain, rfl⟩ := hnext.of_ofMain hwf rfl
  obtain ⟨hlock, hclose⟩ := of_lock (hmain ▸ hwf.main)
  have hmem : .lockLockFile ∈ old.main := hmain ▸ List.mem_cons_self
  rw [grantOrderly, hgrant, Option.isNone_some, Bool.false_or, Bool.and_eq_true,
    decide_eq_true_eq] at hC
  obtain ⟨hname, hothers⟩ := hC
  have hnobody : ∀ i q, q ≠ p → s.files.owner i ≠ some q := by
    intro i q hq howner
    have hi : i = old.fd := Option.some.inj ((h.owner i q howner).1.symm.trans hname)
    exact hq ((Files.tlock_eq_some.1 hgrant).1 q (hi ▸ howner))
  have hfree : ∀ r, r ≠ p → s.unlinksAhead r = false := by
    intro r hr
    by_contra hahead
    obtain ⟨rproc, hrproc, _⟩ := (Option.any_eq_true _ _).1 (Bool.eq_true_of_not_eq_false hahead)
    have hlt := (List.getElem?_eq_some_iff.1 hrproc).1
    have hhas := List.all_eq_true.1 hothers r (mem_others.2 ⟨hlt, hr⟩)
    rw [Bool.eq_true_of_not_eq_false hahead, Bool.not_true, Bool.false_or] at hhas
    obtain ⟨i, howner⟩ := owner_of_hasLock hhas
    exact hnobody i r hr howner
  apply h.update hold files (hnext.wf hwf (by decide) nofun)
  · intro i q hq howner
    rw [Files.owner_tlock hgrant] at howner
    by_cases hi : i = old.fd
    · rw [if_pos hi] at howner
      exact absurd (Option.some.inj howner).symm hq
    · rw [if_neg hi] at howner
      exact absurd howner (hnobody i q hq)
  · intro i howner
    rw [Files.owner_tlock hgrant] at howner
    by_cases hi : i = old.fd
    · refine ⟨(Files.name_tlock hgrant).trans (hi ▸ hname), hi.symm, hwf.opened ?_, hlock, hfree⟩
      rw [hmain]
      rfl
    · rw [if_neg hi] at howner
      obtain ⟨_, old', hold', _, _, hnot⟩ := h.owner i p howner
      obtain rfl : old = old' := Option.some.inj (hold.symm.trans hold')
      exact absurd hmem hnot
  · intro _
    refine .inr fun r hr => ?_
    by_contra hserving
    have hahead := h.unlinksAhead_of_serving (Bool.eq_true_of_not_eq_false hserving)
    rw [hfree r hr] at hahead
    cases hahead

/-- Nobody has a lock when the name is unlinked: the process itself has closed its file, and the others leave the name alone. -/
theorem Wf.unlink (h : s.Wf) (hold : s.procs[p]? = some old) (hnext : old.Next .unlink proc) :
    ({ s with files := s.files.unlink, robbed := s.robbed ++ s.robs p }.setProc p proc).Wf := by
  have hwf := h.procs p old hold
  obtain ⟨hclosed, hahead⟩ := hnext.of_unlink hwf
  have hnobody : ∀ i q, s.files.owner i ≠ some q := by
    intro i q howner
    by_cases hq : q = p
    · subst hq
      obtain ⟨_, old', hold', _, hopen, _⟩ := h.owner i q howner
      obtain rfl : old = old' := Option.some.inj (hold.symm.trans hold')
      rw [hclosed] at hopen
      cases hopen
    · have hfalse := h.alone i q p howner (Ne.symm hq)
      rw [unlinksAhead_eq hold, hahead] at hfalse
      cases hfalse
  have hrobs : s.robs p = [] := by
    unfold robs
    cases howner : s.files.name.bind s.files.owner with
    | none => rfl
    | some q =>
      obtain ⟨i, _, hi⟩ := Option.bind_eq_some_iff.1 howner
      exact absurd hi (hnobody i q)
  rw [hrobs, List.append_nil]
  apply h.update hold s.files.unlink (hnext.wf hwf (by decide) nofun)
  · exact fun i q _ howner => absurd howner (hnobody i q)
  · exact fun i howner => absurd howner (hnobody i p)
  · exact fun hserving => .inl (hnext.serving (by decide) hserving)

theorem Wf.unlock (h : s.Wf) (hold : s.procs[p]? = some old) (hnext : old.Next .unlock proc) :
    ({ s with files := s.files.ulock p proc.fd proc.offset }.setProc p proc).Wf := by
  apply h.quiet hold (s.files.ulock p proc.fd proc.offset)
    (hnext.wf (h.procs p old hold) (by decide) nofun)
  · exact Files.name_ulock _
  · exact fun _ _ howner => Files.owner_of_owner_ulock howner
  · exact fun _ _ => ⟨hnext.fd_eq, hnext.isOpen_eq, hnext.main_suffix⟩
  · exact fun _ _ hq howner => h.not_unlinksAhead hold (hnext.unlinksAhead (by decide)) hq howner
  · exact hnext.serving (by decide)

theorem Wf.close (h : s.Wf) (hold : s.procs[p]? = some old) (hnext : old.Next .close proc) :
    ({ s with files := s.files.close p proc.fd }.setProc p { proc with isOpen := false }).Wf := by
  apply h.quiet hold (s.files.close p proc.fd) (hnext.wf_close (h.procs p old hold)) rfl
  · exact fun _ _ howner => (Files.owner_close.1 howner).1
  · intro i howner
    obtain ⟨hwas, hnot⟩ := Files.owner_close.1 howner
    obtain ⟨_, old', hold', hfd, _, _⟩ := h.owner i p hwas
    obtain rfl : old = old' := Option.some.inj (hold.symm.trans hold')
    exact absurd ⟨(hnext.fd_eq.trans hfd).symm, rfl⟩ hnot
  · exact fun _ _ hq howner => h.not_unlinksAhead hold (hnext.unlinksAhead (by decide)) hq howner
  · exact hnext.serving (by decide)

theorem Wf.local (h : s.Wf) (hold : s.procs[p]? = some old) {op : Op} (hnext : old.Next op proc)
    (hopen : op ≠ .openLockFile) (hlock : op ≠ .lockLockFile)
    (hclose : op = .close → proc.isOpen = false) (offset : Nat) (service : ServicePtr)
    {handled : Signo → Bool} (hhandled : .lockLockFile ∈ proc.main → ∀ signo, handled signo = false) :
    (s.setProc p { proc with offset := offset, service := service, handled := handled }).Wf :=
  h.setProc hold (hnext.wf_of_handled (h.procs p old hold) hopen hclose offset service hhandled)
    hnext.fd_eq
    hnext.isOpen_eq hnext.main_suffix (hnext.unlinksAhead hlock) (hnext.serving hlock)

theorem Wf.raises (h : s.Wf) (hold : s.procs[p]? = some old) {op : Op} (hnext : old.Next op proc)
    (hopen : op ≠ .openLockFile) (hlock : op ≠ .lockLockFile) (hclose : op ≠ .close) {out : Outcome}
    (hstart : ((proc.raised out op).all fun signo => s.startOrderly p proc signo) = true) :
    (match proc.raised out op with
      | some signo => s.signalled p proc signo
      | none => s.setProc p proc).Wf := by
  have hproc : proc.Wf := hnext.wf (h.procs p old hold) hopen fun heq => absurd heq hclose
  cases hraised : proc.raised out op with
  | none =>
    exact h.setProc hold hproc hnext.fd_eq hnext.isOpen_eq hnext.main_suffix
      (hnext.unlinksAhead hlock)
      (hnext.serving hlock)
  | some signo =>
    rw [hraised, Option.all_some] at hstart
    exact h.signalled hold hproc hnext.fd_eq hnext.isOpen_eq hnext.main_suffix
      (hnext.unlinksAhead hlock)
      (hnext.serving hlock) hstart

theorem Wf.exec (h : s.Wf) (hold : s.procs[p]? = some old) {op : Op} (hnext : old.Next op proc)
    (out : Outcome) (hC : s.execOrderly p proc out op = true) : (s.exec p proc out op).Wf := by
  have hwf := h.procs p old hold
  rw [execOrderly, Bool.and_eq_true] at hC
  obtain ⟨hgrant, hstart⟩ := hC
  have hearly : op ≠ .openLockFile → op ≠ .close → .lockLockFile ∈ proc.main →
      ∀ signo, proc.handled signo = false :=
    fun hopen hclose hmem => ((hnext.wf hwf hopen fun heq => absurd heq hclose).early hmem).2
  cases op with
  | openLockFile =>
    simp only [Host.exec]
    split
    · exact h.terminate hold
    · exact h.openLockFile hold hnext
  | lockLockFile =>
    simp only [Host.exec]
    split
    · next files hfiles => exact h.grant hold hnext hfiles (by simpa using hgrant)
    · exact h.terminate hold
  | writePid =>
    exact h.local hold hnext (by decide) (by decide) nofun out.written proc.service
      (hearly (by decide) (by decide))
  | setHandler signo =>
    exact h.local hold hnext (by simp) (by simp) nofun proc.offset proc.service
      fun hmem => absurd hmem (hnext.lock_notMem_of_setHandler hwf)
  | constructService =>
    exact h.local hold hnext (by decide) (by decide) nofun proc.offset .alive
      (hearly (by decide) (by decide))
  | runService =>
    exact h.local hold hnext (by decide) (by decide) nofun proc.offset proc.service
      (hearly (by decide) (by decide))
  | deleteService =>
    exact h.local hold hnext (by decide) (by decide) nofun proc.offset .deleted
      (hearly (by decide) (by decide))
  | unlock =>
    simp only [Host.exec]
    split
    · exact h.unlock hold hnext
    · exact h.local hold hnext (by decide) (by decide) nofun proc.offset proc.service
        (hearly (by decide) (by decide))
  | close =>
    simp only [Host.exec]
    split
    · exact h.close hold hnext
    · next hclosed =>
      have hopen : proc.isOpen = false := Bool.eq_false_of_not_eq_true hclosed
      have hproc : proc.Wf := hnext.wf hwf (by decide) fun _ => hopen
      exact h.local hold hnext (by decide) (by decide) (fun _ => hopen) proc.offset proc.service
        fun hmem => (hproc.early hmem).2
  | unlink => exact h.unlink hold hnext
  | stopService => exact h.raises hold hnext (by decide) (by decide) (by decide) hstart
  | restartService => exact h.raises hold hnext (by decide) (by decide) (by decide) hstart
  | setDefault signo =>
    exact h.local hold hnext (by simp) (by simp) nofun proc.offset proc.service
      fun hmem => setDefault_of_default (hearly (by simp) (by simp) hmem) signo
  | raise signo => exact h.raises hold hnext (by simp) (by simp) (by simp) hstart
  | exit => exact h.terminate hold

theorem Wf.start (h : s.Wf) : ({ s with procs := s.procs ++ [.init] } : Host).Wf := by
  have hnew : ∀ (q : Pid) (g : Proc → Bool), g .init = false →
      ((s.procs ++ [.init])[q]?).any g = (s.procs[q]?).any g := by
    intro q g hg
    obtain hlt | hge := Nat.lt_or_ge q s.procs.length
    · rw [List.getElem?_append_left hlt]
    · rw [List.getElem?_append_right hge, List.getElem?_eq_none hge, List.getElem?_singleton]
      split
      · exact hg
      · rfl
  have hahead : ∀ q, ({ s with procs := s.procs ++ [.init] } : Host).unlinksAhead q =
      s.unlinksAhead q :=
    fun q => hnew q _ (by decide)
  have hserving : ∀ q, ({ s with procs := s.procs ++ [.init] } : Host).serving q = s.serving q :=
    fun q => hnew q _ (by decide)
  refine ⟨fun q proc hq => ?_, fun i q howner => ?_, fun i q r howner hr => ?_,
    ⟨fun q r hq hr => ?_, h.exclusive.robbed⟩⟩
  · obtain hwas | ⟨-, rfl⟩ := Pool.getElem?_append_single_cases hq
    · exact h.procs q proc hwas
    · exact Proc.wf_init
  · obtain ⟨hname, proc, hproc, hrest⟩ := h.owner i q howner
    obtain ⟨hlt, _⟩ := List.getElem?_eq_some_iff.1 hproc
    exact ⟨hname, proc, (List.getElem?_append_left hlt).trans hproc, hrest⟩
  · rw [hahead]
    exact h.alone i q r howner hr
  · rw [hserving] at hq hr
    exact h.exclusive.serving q r hq hr

theorem Wf.step (h : s.Wf) {a : Act} {t : Host} (hC : s.orderly a = true)
    (hstep : s.step a = some t) : t.Wf := by
  cases move_of_step hstep with
  | start => exact h.start
  | main p out old op rest hold hmain =>
    simp only [orderly, hold, hmain, Option.all_some, List.head?_cons, List.tail_cons] at hC
    exact h.exec hold (.main rest hmain) out hC
  | handler p k out old op rest hold hcode =>
    simp only [orderly, hold, hcode, Option.all_some, List.head?_cons, List.tail_cons] at hC
    exact h.exec hold (.handler k rest hcode) out hC
  | deliver p signo old hold =>
    simp only [orderly, hold, Option.all_some] at hC
    exact h.signalled hold (h.procs p old hold) rfl rfl (List.suffix_refl _) id id hC

/-- In a run whose steps are all in order, every state has one daemon at most, and no lock file has been unlinked while another process had it locked. -/
theorem exclusive_of_orderly {acts : List Act}
    (hC : Along step (fun h a => h.orderly a = true) .init acts) :
    Always step Exclusive .init acts :=
  always_of_along (fun _ h => h.exclusive) (fun _ _ _ h hC hstep => h.step hC hstep) wf_init hC

def goOn (p n : Nat) : List Act := List.replicate n (.main p ⟨false, 1, false⟩)

/-- A daemon gets `SIGTERM` while it serves, cleans up, stops and ends; then another one starts. -/
def stopThenStart : List Act :=
  .start :: goOn 0 9 ++ [.deliver 0 .sigterm] ++
    List.replicate 5 (.handler 0 0 ⟨false, 0, false⟩) ++ goOn 0 6 ++
    .start :: goOn 1 9

theorem exclusive_of_orderly_stopThenStart :
    ∃ h, run step .init stopThenStart = some h ∧ h.serving 1 = true ∧
      Always step Exclusive .init stopThenStart := by
  obtain ⟨h, hrun, hserving⟩ :=
    exists_of_any_run step .init stopThenStart (fun h => h.serving 1) (by decide +kernel)
  exact ⟨h, hrun, hserving, exclusive_of_orderly (by decide +kernel)⟩

/-- A daemon gets `SIGTERM` while it serves; another one starts when the handler has closed the lock file and has not stopped the service yet. -/
def startBeforeStop : List Act :=
  .start :: goOn 0 9 ++ [.deliver 0 .sigterm] ++
    List.replicate 2 (.handler 0 0 ⟨false, 0, false⟩) ++ .start :: goOn 1 9

/-- Two daemons serve, and the first one unlinks the lock file of the second one. -/
theorem startBeforeStop_serves_twice :
    ∃ h, run step .init (startBeforeStop ++ [.handler 0 0 ⟨false, 0, false⟩]) = some h ∧
      h.serving 0 = true ∧
      h.serving 1 = true ∧ h.robbed = [1] ∧ ¬ h.Exclusive := by
  obtain ⟨h, hrun, hp⟩ :=
    exists_of_any_run step .init (startBeforeStop ++ [.handler 0 0 ⟨false, 0, false⟩])
    (fun h => h.serving 0 && h.serving 1 && decide (h.robbed = [1])) (by decide +kernel)
  rw [Bool.and_eq_true, Bool.and_eq_true, decide_eq_true_eq] at hp
  obtain ⟨⟨hfirst, hsecond⟩, hrobbed⟩ := hp
  refine ⟨h, hrun, hfirst, hsecond, hrobbed, fun hexclusive => ?_⟩
  exact absurd (hexclusive.serving 0 1 hfirst hsecond) (by decide)

-- no signal is needed: the other daemon may lock the file between `close` and `unlink` at the end of the first one
example : (run step .init (.start :: goOn 0 13 ++ .start :: goOn 1 2 ++ goOn 0 1)).any
    (fun h => decide (h.robbed = [1])) = true := by decide +kernel

end Host

end Libesf.Daemon

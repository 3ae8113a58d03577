import Libesf.Base.Transition
import Libesf.Base.LockFile

/-!
# Daemons that share a lock file

Any number of processes run `daemonize` with one `Config::LockFile`. A process has its main program and the signal handlers that have been started in it, each as the calls that are left of it. A service may have threads of its own, and the system starts a handler in any of them, so the main program and the handlers go on in any order. The forks and redirections before `open` do not touch the lock file and are left out, as are the log messages.
-/

namespace Libesf.Daemon

open LockFile

inductive Signo where
  | sigint
  | sigterm
  | sighup
  | sigsegv
  | sigabrt
  deriving DecidableEq

inductive Op where
  | openLockFile
  | lockLockFile
  | writePid
  | setHandler (signo : Signo)
  | constructService
  | runService
  | deleteService
  | unlock
  | close
  | unlink
  | stopService
  | restartService
  | setDefault (signo : Signo)
  | raise (signo : Signo)
  | exit
  deriving DecidableEq

def daemonTryCleanup : List Op := [.unlock, .close, .unlink]

def daemonSignalHandler : Signo → List Op
  | .sigint => daemonTryCleanup ++ [.stopService, .setDefault .sigint]
  | .sigterm => daemonTryCleanup ++ [.stopService, .setDefault .sigterm]
  | .sighup => [.restartService]
  | .sigsegv => .setDefault .sigsegv :: daemonTryCleanup ++ [.raise .sigabrt]
  | .sigabrt => .setDefault .sigabrt :: daemonTryCleanup ++ [.raise .sigabrt]

/-- `daemonize`, from where it creates the lock file. -/
def daemonize : List Op :=
  [.openLockFile, .lockLockFile, .writePid, .setHandler .sigint, .setHandler .sigterm,
    .setHandler .sighup, .setHandler .sigsegv, .setHandler .sigabrt, .constructService, .runService,
    .deleteService] ++
    daemonTryCleanup ++ [.exit]

inductive ServicePtr where
  | null
  | alive
  | deleted
  deriving DecidableEq

/-- What the system and the service make of a call: `open` may fail, `write` writes some of the bytes, and a call through a pointer to a deleted service may fault. -/
structure Outcome where
  openFails : Bool
  written : Nat
  faults : Bool

structure Proc where
  /-- What is left of `daemonize`: nothing when the process has ended. -/
  main : List Op
  /-- What is left of each signal handler that has been started. -/
  handlers : List (List Op)
  fd : Inode
  isOpen : Bool
  offset : Nat
  service : ServicePtr
  handled : Signo → Bool

def Proc.init : Proc where
  main := daemonize
  handlers := []
  fd := 0
  isOpen := false
  offset := 0
  service := .null
  handled _ := false

/-- The signal that a call raises in its own process: a service that is not there is a fault. -/
def Proc.raised (proc : Proc) (out : Outcome) : Op → Option Signo
  | .raise signo => some signo
  | .stopService | .restartService =>
    match proc.service with
    | .null => some .sigsegv
    | .alive => none
    | .deleted => if out.faults then some .sigsegv else none
  | _ => none

structure Host where
  files : Files
  procs : List Proc
  /-- The processes that had the lock file unlinked by another one while they had it locked. -/
  robbed : List Pid

def Host.init : Host := ⟨.empty, [], []⟩

/-- `start` starts a process, `main` and `handler` execute the next call, and `deliver` is a signal from outside. -/
inductive Act where
  | start
  | main (p : Pid) (out : Outcome)
  | handler (p : Pid) (k : Nat) (out : Outcome)
  | deliver (p : Pid) (signo : Signo)

namespace Host

def setProc (h : Host) (p : Pid) (proc : Proc) : Host := { h with procs := h.procs.set p proc }

def terminate (h : Host) (p : Pid) (proc : Proc) : Host :=
  { h with files := h.files.exit p }.setProc p
    { proc with main := [], handlers := [], isOpen := false }

/-- A signal starts its handler, or by default ends the process. -/
def signalled (h : Host) (p : Pid) (proc : Proc) (signo : Signo) : Host :=
  if proc.handled signo then h.setProc p
    { proc with handlers := proc.handlers ++ [daemonSignalHandler signo] }
  else h.terminate p proc

/-- The process that is robbed of its lock file when `p` unlinks the name. -/
def robs (h : Host) (p : Pid) : List Pid :=
  ((h.files.name.bind h.files.owner).filter (· ≠ p)).toList

def exec (h : Host) (p : Pid) (proc : Proc) (out : Outcome) (op : Op) : Host :=
  match op with
  | .openLockFile =>
    if out.openFails then h.terminate p proc
    else { h with files := h.files.openCreat.2 }.setProc p
      { proc with fd := h.files.openCreat.1, isOpen := true, offset := 0 }
  | .lockLockFile =>
    match h.files.tlock p proc.fd with
    | some files => { h with files := files }.setProc p proc
    | none => h.terminate p proc
  | .writePid => h.setProc p { proc with offset := out.written }
  | .setHandler signo => h.setProc p { proc with handled := Function.update proc.handled signo true }
  | .constructService => h.setProc p { proc with service := .alive }
  | .runService => h.setProc p proc
  | .deleteService => h.setProc p { proc with service := .deleted }
  | .unlock =>
    if proc.isOpen then { h with files := h.files.ulock p proc.fd proc.offset }.setProc p proc
    else h.setProc p proc
  | .close =>
    if proc.isOpen then { h with files := h.files.close p proc.fd }.setProc p
      { proc with isOpen := false }
    else h.setProc p proc
  | .unlink => { h with files := h.files.unlink, robbed := h.robbed ++ h.robs p }.setProc p proc
  | .stopService | .restartService | .raise _ =>
    match proc.raised out op with
    | some signo => h.signalled p proc signo
    | none => h.setProc p proc
  | .setDefault signo => h.setProc p { proc with handled := Function.update proc.handled signo false }
  | .exit => h.terminate p proc

def step (h : Host) : Act → Option Host
  | .start => some { h with procs := h.procs ++ [.init] }
  | .main p out => do
    let proc ← h.procs[p]?
    match proc.main with
    | op :: rest => some (h.exec p { proc with main := rest } out op)
    | [] => none
  | .handler p k out => do
    let proc ← h.procs[p]?
    match proc.handlers[k]? with
    | some (op :: rest) => some (h.exec p { proc with handlers := proc.handlers.set k rest } out op)
    | _ => none
  | .deliver p signo => do
    let proc ← h.procs[p]?
    guard (proc.main ≠ [])
    return h.signalled p proc signo

end Host

/-! ### What is claimed of a state -/

/-- The process has acquired the lock, and `run` has not returned. -/
def Proc.serving (proc : Proc) : Bool :=
  decide (Op.lockLockFile ∉ proc.main ∧ Op.runService ∈ proc.main)

/-- The process has acquired the lock and has still to unlink the name. -/
def Proc.unlinksAhead (proc : Proc) : Bool :=
  decide (Op.lockLockFile ∉ proc.main ∧ Op.unlink ∈ proc.main) || proc.handlers.any fun code =>
    decide (Op.unlink ∈ code)

namespace Host

def serving (h : Host) (p : Pid) : Bool := h.procs[p]?.any Proc.serving

def unlinksAhead (h : Host) (p : Pid) : Bool := h.procs[p]?.any Proc.unlinksAhead

/-- The process has its lock file open and locked. -/
def hasLock (h : Host) (p : Pid) : Bool :=
  h.procs[p]?.any fun proc => proc.isOpen && decide (h.files.owner proc.fd = some p)

/-- One process at a time serves, and no lock file is unlinked while another process has it locked. -/
structure Exclusive (h : Host) : Prop where
  serving : ∀ p q, h.serving p → h.serving q → p = q
  robbed : h.robbed = []

/-! ### The condition -/

def others (h : Host) (p : Pid) : List Pid := (List.range h.procs.length).filter (· ≠ p)

/-- The lock that is granted is on the file under the name, and no other process has given its lock up and is still to unlink the name. -/
def grantOrderly (h : Host) (p : Pid) (proc : Proc) : Bool :=
  (h.files.tlock p proc.fd).isNone ||
    (decide (h.files.name = some proc.fd) && (h.others p).all fun q => !h.unlinksAhead q ||
      h.hasLock q)

/-- A handler that unlinks the name does not start after the last unlink of its process, unless no other process has a lock. -/
def startOrderly (h : Host) (p : Pid) (proc : Proc) (signo : Signo) : Bool :=
  !proc.handled signo || decide (Op.unlink ∉ daemonSignalHandler signo) || proc.unlinksAhead ||
    (h.others p).all fun q => !h.hasLock q

def execOrderly (h : Host) (p : Pid) (proc : Proc) (out : Outcome) (op : Op) : Bool :=
  (decide (op ≠ .lockLockFile) || h.grantOrderly p proc) &&
    (proc.raised out op).all fun signo => h.startOrderly p proc signo

def orderly (h : Host) : Act → Bool
  | .start => true
  | .main p out =>
    h.procs[p]?.all fun proc => proc.main.head?.all fun op =>
      h.execOrderly p { proc with main := proc.main.tail } out op
  | .handler p k out =>
    h.procs[p]?.all fun proc => proc.handlers[k]?.all fun code => code.head?.all fun op =>
      h.execOrderly p { proc with handlers := proc.handlers.set k code.tail } out op
  | .deliver p signo => h.procs[p]?.all fun proc => h.startOrderly p proc signo

end Host

end Libesf.Daemon

import Libesf.Base.Transition
import Libesf.Base.Pool
import Libesf.Base.Decimal

/-!
# The logger

`log::Logger` is a process-wide instance behind one `std::mutex`. `init` makes the instance; a log call that comes first makes one with default parameters, and then logs a warning about it through the same macros as everybody else, while it holds the mutex. A message goes to the remote client, or else into the fallback file, whose stream nobody asks whether it is open.

A call is in the way of the others only while it holds the mutex, so that what it does there is one step. What the environment decides for it, whether the file can be opened and written and what the client throws, comes with the step.
-/

namespace Libesf.Log

open Transition

/-- An active `std::exception`: the name of its type and its text. -/
structure Thrown where
  rtti : Str
  what : Str
  deriving DecidableEq, Repr

/-- `Logger`'s members: the name and the state of the fallback stream, and whether there is a client. -/
structure Instance where
  fallbackFn : Str
  isOpen : Bool
  remote : Bool
  deriving DecidableEq, Repr

/-- The functions of the logger. A message counts by its serialisation. -/
inductive LoggerCall where
  | init (fallbackLogFilePrefix : Str)
  | logMessage (serialized : Str)
  | logException (exc : Thrown) (msgType msgFmt : Str)
  deriving DecidableEq, Repr

/-- Where a thread is: outside, before the mutex, inside, or before the mutex once more in the warning of `M_maybeInstanciate`. -/
inductive LoggerPc where
  | idle
  | waiting (call : LoggerCall)
  | holding (call : LoggerCall)
  | relocking (call : LoggerCall)
  deriving DecidableEq, Repr

/-- What the environment decides in a call. -/
structure Environment where
  opens : Bool
  writes : Bool
  clientThrows : Option Thrown
  sendThrows : Option Thrown
  deriving DecidableEq, Repr

structure Logger where
  pid : Nat
  defaultPrefix : Str
  owner : Option Nat
  inst : Option Instance
  files : Str → Option Str
  threads : List LoggerPc
  /-- What `Client::send` has taken without an exception. -/
  handed : List Str

inductive LoggerAct where
  | call (i : Nat) (call : LoggerCall)
  | lock (i : Nat)
  | body (i : Nat) (env : Environment)
  deriving DecidableEq, Repr

/-! ### What is written to the fallback file -/

def clientFailure (exc : Thrown) : Str :=
  ascii "Failed to create remote client due to active exception (" ++ exc.rtti ++
    ascii "): " ++ exc.what ++
    ascii "\nFalling back to raw file logging.\n\n"

def sendFailure (exc : Thrown) (serialized : Str) : Str :=
  ascii "Failed to send log message due to active exception (" ++ exc.rtti ++
    ascii ") : " ++ exc.what ++
    ascii ".\nSerialized message follows :\n" ++ serialized ++ ascii "\n\n"

def noRemoteClient (serialized : Str) : Str :=
  ascii "Failed to send log message (no remote client).\nSerialized message follows :\n" ++
    serialized ++ ascii "\n\n"

def constructionFailure (exc : Thrown) (msgType msgFmt : Str) : Str :=
  ascii "Failed to construct log message due to active exception (" ++ exc.rtti ++
    ascii ") : " ++ exc.what ++
    ascii ".\nmsg_type: " ++ msgType ++ ascii "\nmsg_fmt:  " ++ msgFmt ++ ascii "\n\n"

namespace Logger

variable (s : Logger)

/-- `new Logger(...)`: the fallback file is opened for appending, which makes it if it can. -/
def construct (fallbackLogFilePrefix : Str) (env : Environment) : Logger :=
  let fn := fallbackLogFilePrefix ++ decimal s.pid
  { s with
    inst := some ⟨fn, env.opens, false⟩
    files := if env.opens then Function.update s.files fn (some ((s.files fn).getD [])) else s.files }

/-- `m_fallback << text` and `flush()`. On a stream that is not open, or cannot be written, they do nothing and say nothing. -/
def append (inst : Instance) (text : Str) (env : Environment) : Logger :=
  if inst.isOpen && env.writes then
    { s with
      files := Function.update s.files inst.fallbackFn
        (some ((s.files inst.fallbackFn).getD [] ++ text)) }
  else s

def initialise (fallbackLogFilePrefix : Str) (env : Environment) : Logger :=
  let s := s.construct fallbackLogFilePrefix env
  let inst : Instance := ⟨fallbackLogFilePrefix ++ decimal s.pid, env.opens, true⟩
  match env.clientThrows with
  | none => { s with inst := some inst }
  | some exc =>
    { s with inst := some { inst with remote := false } }.append inst (clientFailure exc) env

/-- `Logger::log(Message const&)`, behind the mutex, on an instance. -/
def logMessage (inst : Instance) (serialized : Str) (env : Environment) : Logger :=
  match inst.remote, env.sendThrows with
  | true, none => { s with handed := s.handed ++ [serialized] }
  | true, some exc => s.append inst (sendFailure exc serialized) env
  | false, _ => s.append inst (noRemoteClient serialized) env

def setThread (i : Nat) (pc : LoggerPc) : Logger := { s with threads := s.threads.set i pc }

def unlock (i : Nat) : Logger := { s.setThread i .idle with owner := none }

/-- `M_maybeInstanciate` without an instance: the warning it logs calls `Logger::log`, which locks. -/
def instanciate (i : Nat) (call : LoggerCall) (env : Environment) : Logger :=
  (s.construct s.defaultPrefix env).setThread i (.relocking call)

/-- What a call does while it holds the mutex. -/
def body (i : Nat) (call : LoggerCall) (env : Environment) : Logger :=
  match call with
  | .init fallbackLogFilePrefix => (s.initialise fallbackLogFilePrefix env).unlock i
  | .logMessage serialized =>
    match s.inst with
    | none => s.instanciate i call env
    | some inst => (s.logMessage inst serialized env).unlock i
  | .logException exc msgType msgFmt =>
    match s.inst with
    | none => s.instanciate i call env
    | some inst => (s.append inst (constructionFailure exc msgType msgFmt) env).unlock i

/-- A process with `n` threads, before any call. -/
def start (pid : Nat) (defaultPrefix : Str) (files : Str → Option Str) (n : Nat) : Logger :=
  ⟨pid, defaultPrefix, none, none, files, List.replicate n .idle, []⟩

/-- A thread that waits for the mutex gets it when nobody has it, itself included: the mutex is not recursive. -/
def step (s : Logger) : LoggerAct → Option Logger
  | .call i call =>
    match s.threads[i]? with
    | some .idle => some (s.setThread i (.waiting call))
    | _ => none
  | .lock i =>
    match s.threads[i]?, s.owner with
    | some (.waiting call), none => some { s.setThread i (.holding call) with owner := some i }
    | _, _ => none
  | .body i env =>
    match s.threads[i]? with
    | some (.holding call) => some (s.body i call env)
    | _ => none

/-! ### What a step does -/

/-- The steps, with what they know of the state. -/
inductive Move (s : Logger) : LoggerAct → Logger → Prop where
  | call (i : Nat) (call : LoggerCall) (hpc : s.threads[i]? = some .idle) :
      Move s (.call i call) (s.setThread i (.waiting call))
  | lock (i : Nat) (call : LoggerCall) (hpc : s.threads[i]? = some (.waiting call))
      (howner : s.owner = none) :
      Move s (.lock i) { s.setThread i (.holding call) with owner := some i }
  | body (i : Nat) (call : LoggerCall) (env : Environment)
      (hpc : s.threads[i]? = some (.holding call)) :
      Move s (.body i env) (s.body i call env)

theorem move_of_step {s t : Logger} {a : LoggerAct} (h : s.step a = some t) : Move s a t := by
  cases a with
  | call i call =>
    rw [step] at h
    split at h
    · next hpc => exact Option.some.inj h ▸ .call i call hpc
    · cases h
  | lock i =>
    rw [step] at h
    split at h
    · next call hpc howner => exact Option.some.inj h ▸ .lock i call hpc howner
    · cases h
  | body i env =>
    rw [step] at h
    split at h
    · next call hpc => exact Option.some.inj h ▸ .body i call env hpc
    · cases h

variable {s : Logger}

@[simp] theorem threads_append (inst : Instance) (text : Str) (env : Environment) :
    (s.append inst text env).threads = s.threads := by
  rw [append]
  split <;> rfl

@[simp] theorem handed_append (inst : Instance) (text : Str) (env : Environment) :
    (s.append inst text env).handed = s.handed := by
  rw [append]
  split <;> rfl

@[simp] theorem threads_initialise (fallbackLogFilePrefix : Str) (env : Environment) :
    (s.initialise fallbackLogFilePrefix env).threads = s.threads := by
  rw [initialise]
  cases env.clientThrows with
  | none => rfl
  | some exc => exact threads_append _ _ _

@[simp] theorem threads_logMessage (inst : Instance) (serialized : Str) (env : Environment) :
    (s.logMessage inst serialized env).threads = s.threads := by
  rw [logMessage]
  split
  · rfl
  · exact threads_append _ _ _
  · exact threads_append _ _ _

end Logger

/-! ### Exactly when every request is recorded -/

/-- What a log call needs of an instance: a client that takes the message, or a fallback file that takes it instead. -/
def Instance.records (inst : Instance) (env : Environment) : Bool :=
  (inst.remote && env.sendThrows.isNone) || (inst.isOpen && env.writes)

/-- A log call gets the mutex after an instance was made, and its message can be put somewhere. -/
def Logger.recordable (s : Logger) : LoggerAct → Bool
  | .body i env =>
    match s.threads[i]? with
    | some (.holding (.logMessage _)) => s.inst.any (·.records env)
    | some (.holding (.logException _ _ _)) => s.inst.isSome
    | _ => true
  | _ => true

/-- The step is one of a call in progress. -/
def LoggerAct.inCall : LoggerAct → Bool
  | call _ _ => false
  | _ => true

/-- What the header promises in a state: no thread is about to lock what it has locked, and while a call is in progress, one of the calls can go on. -/
structure Records (s : Logger) : Prop where
  noRelock : ∀ (i : Nat) (call : LoggerCall), s.threads[i]? ≠ some (LoggerPc.relocking call)
  progress : ∀ (i : Nat) (pc : LoggerPc), s.threads[i]? = some pc → pc ≠ LoggerPc.idle →
    ∃ a t, a.inCall = true ∧ s.step a = some t

/-- The client has got the message. -/
def Logger.HandsOver (s t : Logger) (serialized : Str) : Prop := t.handed = s.handed ++ [serialized]

/-- The fallback file has got longer by a record with the message in it. -/
def Logger.Appends (s t : Logger) (inst : Instance) (serialized : Str) : Prop :=
  ∃ record, serialized <:+: record ∧ record ≠ [] ∧
    t.files inst.fallbackFn = some ((s.files inst.fallbackFn).getD [] ++ record)

/-- What the header promises of a log call that finds an instance: the message is in one place when it returns. -/
def Recorded (s : Logger) (a : LoggerAct) : Prop :=
  ∀ i env serialized inst, a = .body i env →
    s.threads[i]? = some (.holding (.logMessage serialized)) →
    s.inst = some inst → ∀ t, s.step a = some t →
    Xor (s.HandsOver t serialized) (s.Appends t inst serialized)

namespace Logger

variable {s : Logger} {inst : Instance} {serialized : Str} {env : Environment}

theorem not_handsOver_self : ¬ s.HandsOver s serialized := by
  intro hhands
  exact List.cons_ne_nil _ _ (List.append_right_eq_self.1 hhands.symm)

theorem not_appends_of_files {t : Logger} (hfiles : t.files = s.files) :
    ¬ s.Appends t inst serialized := by
  rintro ⟨record, -, hne, hfile⟩
  rw [hfiles] at hfile
  cases hold : s.files inst.fallbackFn with
  | none =>
    rw [hold] at hfile
    cases hfile
  | some content =>
    rw [hold, Option.some.injEq] at hfile
    exact hne (List.append_right_eq_self.1 hfile.symm)

theorem append_eq_self (hwrites : (inst.isOpen && env.writes) = false) (text : Str) :
    s.append inst text env = s := by
  rw [append, hwrites]
  rfl

/-- A record that is written is in the file, and the message not with the client. -/
theorem xor_append (hwrites : (inst.isOpen && env.writes) = true) {text : Str}
    (hin : serialized <:+: text) (hne : text ≠ []) :
    Xor (s.HandsOver (s.append inst text env) serialized)
      (s.Appends (s.append inst text env) inst serialized) := by
  refine .inr ⟨⟨text, hin, hne, ?_⟩, fun hhands => ?_⟩
  · rw [append, if_pos hwrites]
    exact Function.update_self _ _ _
  · rw [HandsOver, handed_append] at hhands
    exact not_handsOver_self hhands

theorem xor_logMessage (hrecords : inst.records env = true) :
    Xor (s.HandsOver (s.logMessage inst serialized env) serialized)
      (s.Appends (s.logMessage inst serialized env) inst serialized) := by
  have hend : ∀ before : Str, before ++ ascii "\n\n" ≠ [] :=
    fun before => List.append_ne_nil_of_right_ne_nil before (by decide)
  rw [Instance.records] at hrecords
  rw [logMessage]
  split
  · exact .inl ⟨rfl, not_appends_of_files rfl⟩
  · next exc hremote hthrows =>
    rw [hthrows, Option.isNone_some, Bool.and_false, Bool.false_or] at hrecords
    exact xor_append hrecords (List.infix_append _ _ _) (hend _)
  · next hremote =>
    rw [hremote, Bool.false_and, Bool.false_or] at hrecords
    exact xor_append hrecords (List.infix_append _ _ _) (hend _)

/-- A message that neither place takes is lost. -/
theorem not_xor_logMessage (hrecords : inst.records env = false) :
    ¬ Xor (s.HandsOver (s.logMessage inst serialized env) serialized)
      (s.Appends (s.logMessage inst serialized env) inst serialized) := by
  rw [Instance.records, Bool.or_eq_false_iff] at hrecords
  have hlost : s.logMessage inst serialized env = s := by
    rw [logMessage]
    split
    · next hremote hthrows =>
      rw [hremote, hthrows] at hrecords
      cases hrecords.1
    · exact append_eq_self hrecords.2 _
    · exact append_eq_self hrecords.2 _
  rw [hlost]
  rintro (⟨hhands, -⟩ | ⟨happends, -⟩)
  · exact not_handsOver_self hhands
  · exact not_appends_of_files rfl happends

end Logger

theorem recorded_of_recordable (s : Logger) (a : LoggerAct) (hrecordable : s.recordable a = true) :
    Recorded s a := by
  rintro i env serialized inst rfl hpc hinst t hstep
  simp only [Logger.recordable, hpc, hinst, Option.any_some] at hrecordable
  have ht : (s.logMessage inst serialized env).unlock i = t := by
    simpa only [Logger.step, hpc, Logger.body, hinst, Option.some.injEq] using hstep
  rw [← ht]
  exact Logger.xor_logMessage hrecordable

/-- The steps a thread's call has left. -/
def LoggerPc.remaining : LoggerPc → Nat
  | idle => 0
  | relocking _ => 1
  | holding _ => 2
  | waiting _ => 3

def Logger.remaining (s : Logger) : Nat := (s.threads.map LoggerPc.remaining).sum

/-- A step of a call brings the calls in progress closer to their end. -/
def Advances (s : Logger) (a : LoggerAct) : Prop :=
  a.inCall = true → ∀ t, s.step a = some t → t.remaining < s.remaining

theorem sum_map_set_lt {l : List LoggerPc} {i : Nat} {pc pc' : LoggerPc} (hpc : l[i]? = some pc)
    (hlt : pc'.remaining < pc.remaining) :
    ((l.set i pc').map LoggerPc.remaining).sum < (l.map LoggerPc.remaining).sum := by
  have hsum := Pool.sum_map_set_add LoggerPc.remaining hpc pc'
  omega

theorem advances (s : Logger) (a : LoggerAct) : Advances s a := by
  intro hcall t hstep
  cases Logger.move_of_step hstep with
  | call i call hpc => cases hcall
  | lock i call hpc howner => exact sum_map_set_lt hpc (by decide : 2 < 3)
  | body i call env hpc =>
    have hunlock : ∀ u : Logger, u.threads = s.threads → (u.unlock i).remaining < s.remaining := by
      intro u hu
      rw [Logger.remaining, Logger.unlock, Logger.setThread, hu]
      exact sum_map_set_lt hpc (by decide : 0 < 2)
    have hrelock : ∀ call', (s.instanciate i call' env).remaining < s.remaining :=
      fun call' => sum_map_set_lt hpc (by decide : 1 < 2)
    cases call with
    | init fallbackLogFilePrefix => exact hunlock _ (Logger.threads_initialise _ _)
    | logMessage serialized =>
      rw [Logger.body]
      split
      · exact hrelock _
      · exact hunlock _ (Logger.threads_logMessage _ _ _)
    | logException exc msgType msgFmt =>
      rw [Logger.body]
      split
      · exact hrelock _
      · exact hunlock _ (Logger.threads_append _ _ _)

/-- What holds as long as every request is recorded: the mutex belongs to the thread that is inside. -/
structure Locked (s : Logger) : Prop where
  noRelock : ∀ (i : Nat) (call : LoggerCall), s.threads[i]? ≠ some (LoggerPc.relocking call)
  owner : ∀ i, s.owner = some i ↔ ∃ call, s.threads[i]? = some (.holding call)

namespace Locked

variable {s t : Logger}

theorem start (pid : Nat) (defaultPrefix : Str) (files : Str → Option Str) (n : Nat) :
    Locked (.start pid defaultPrefix files n) := by
  have hidle : ∀ {i : Nat} {pc : LoggerPc}, (List.replicate n LoggerPc.idle)[i]? = some pc →
      pc = .idle :=
    fun hpc => List.eq_of_mem_replicate (List.mem_of_getElem? hpc)
  refine ⟨fun i call hpc => ?_, fun i => iff_of_false nofun ?_⟩
  · cases hidle hpc
  · rintro ⟨call, hpc⟩
    cases hidle hpc

theorem records (h : Locked s) : Records s where
  noRelock := h.noRelock
  progress i pc hpc hbusy := by
    cases howner : s.owner with
    | some j =>
      obtain ⟨call, hj⟩ := (h.owner j).1 howner
      exact ⟨.body j ⟨true, true, none, none⟩, s.body j call ⟨true, true, none, none⟩,
        rfl, by rw [Logger.step, hj]⟩
    | none =>
      cases pc with
      | idle => exact absurd rfl hbusy
      | relocking call => exact absurd hpc (h.noRelock i call)
      | holding call =>
        have hmine := (h.owner i).2 ⟨call, hpc⟩
        rw [howner] at hmine
        cases hmine
      | waiting call =>
        exact ⟨.lock i, { s.setThread i (.holding call) with owner := some i },
          rfl, by rw [Logger.step, hpc, howner]⟩

/-- The thread that is inside leaves. -/
theorem unlock (h : Locked s) {i : Nat} {call : LoggerCall}
    (hpc : s.threads[i]? = some (.holding call)) {u : Logger} (hthreads : u.threads = s.threads) :
    Locked (u.unlock i) where
  noRelock j call' hj := by
    rw [Logger.unlock, Logger.setThread, hthreads] at hj
    obtain ⟨-, hidle⟩ | ⟨-, hj⟩ := Pool.getElem?_set_cases hj
    · cases hidle
    · exact h.noRelock j call' hj
  owner j := by
    refine iff_of_false nofun ?_
    rintro ⟨call', hj⟩
    rw [Logger.unlock, Logger.setThread, hthreads] at hj
    obtain ⟨-, hidle⟩ | ⟨hne, hj⟩ := Pool.getElem?_set_cases hj
    · cases hidle
    · have hmine := (h.owner i).2 ⟨call, hpc⟩
      rw [(h.owner j).2 ⟨call', hj⟩] at hmine
      exact hne (Option.some.inj hmine)

theorem step (s : Logger) (a : LoggerAct) (t : Logger) (h : Locked s)
    (hrecordable : s.recordable a = true) (hstep : s.step a = some t) : Locked t := by
  cases Logger.move_of_step hstep with
  | call i call hpc =>
    refine ⟨fun j call' hj => ?_, fun j => ⟨fun howner => ?_, ?_⟩⟩
    · obtain ⟨-, hwaiting⟩ | ⟨-, hj⟩ := Pool.getElem?_set_cases hj
      · cases hwaiting
      · exact h.noRelock j call' hj
    · obtain ⟨call', hj⟩ := (h.owner j).1 howner
      refine ⟨call', ?_⟩
      have hne : i ≠ j := by
        rintro rfl
        rw [hpc] at hj
        cases hj
      exact (List.getElem?_set_ne hne).trans hj
    · rintro ⟨call', hj⟩
      obtain ⟨-, hwaiting⟩ | ⟨-, hj⟩ := Pool.getElem?_set_cases hj
      · cases hwaiting
      · exact (h.owner j).2 ⟨call', hj⟩
  | lock i call hpc howner =>
    refine ⟨fun j call' hj => ?_, fun j => ⟨fun hmine => ?_, ?_⟩⟩
    · obtain ⟨-, hholding⟩ | ⟨-, hj⟩ := Pool.getElem?_set_cases hj
      · cases hholding
      · exact h.noRelock j call' hj
    · obtain rfl := Option.some.inj hmine
      exact ⟨call, List.getElem?_set_self (List.getElem?_eq_some_iff.1 hpc).1⟩
    · rintro ⟨call', hj⟩
      obtain ⟨rfl, -⟩ | ⟨-, hj⟩ := Pool.getElem?_set_cases hj
      · rfl
      · have hmine := (h.owner j).2 ⟨call', hj⟩
        rw [howner] at hmine
        cases hmine
  | body i call env hpc =>
    simp only [Logger.recordable, hpc] at hrecordable
    cases call with
    | init fallbackLogFilePrefix => exact h.unlock hpc (Logger.threads_initialise _ _)
    | logMessage serialized =>
      obtain ⟨inst, hinst, -⟩ := (Option.any_eq_true _ _).1 hrecordable
      rw [Logger.body, hinst]
      exact h.unlock hpc (Logger.threads_logMessage _ _ _)
    | logException exc msgType msgFmt =>
      obtain ⟨inst, hinst⟩ := Option.isSome_iff_exists.1 hrecordable
      rw [Logger.body, hinst]
      exact h.unlock hpc (Logger.threads_append _ _ _)

/-- Without an instance the call goes on to lock what it has locked, and without a place for it the message is lost. -/
theorem not_recorded (s : Logger) (a : LoggerAct) (t : Logger) (hnot : ¬ s.recordable a = true)
    (hstep : s.step a = some t) (hrecords : Records t) : ¬ Recorded s a := by
  cases Logger.move_of_step hstep with
  | body i call env hpc =>
    have hrelock : ∀ call' env', ¬ Records (s.instanciate i call' env') := fun call' env' hrec =>
      hrec.noRelock i call' (List.getElem?_set_self (List.getElem?_eq_some_iff.1 hpc).1)
    simp only [Logger.recordable, hpc] at hnot
    cases call with
    | init fallbackLogFilePrefix => exact absurd rfl hnot
    | logMessage serialized =>
      rw [Logger.body] at hstep hrecords
      cases hinst : s.inst with
      | none =>
        rw [hinst] at hrecords
        exact absurd hrecords (hrelock _ _)
      | some inst =>
        rw [hinst, Option.any_some] at hnot
        rw [hinst] at hstep
        intro hrecorded
        have hlost : inst.records env = false := Bool.eq_false_iff.2 hnot
        have hxor := hrecorded i env serialized inst rfl hpc hinst
          ((s.logMessage inst serialized env).unlock i) hstep
        exact Logger.not_xor_logMessage hlost hxor
    | logException exc msgType msgFmt =>
      rw [Logger.body] at hrecords
      cases hinst : s.inst with
      | none =>
        rw [hinst] at hrecords
        exact absurd hrecords (hrelock _ _)
      | some inst =>
        rw [hinst] at hnot
        exact absurd rfl hnot
  | _ => exact absurd rfl hnot

end Locked

/-- **Every log request is recorded.** In a run of any number of threads that call the logger, no thread locks what it has locked, each call in progress comes to its end and each message is either handed to the client or part of a record by which the fallback file gets longer, if and only if every log call gets the mutex when there is an instance, and every message finds a client that takes it or a fallback file that can be written. -/
theorem records_iff_recordable {pid : Nat} {defaultPrefix : Str} {files : Str → Option Str} {n : Nat}
    {acts : List LoggerAct} {s : Logger}
    (hrun : run Logger.step (.start pid defaultPrefix files n) acts = some s) :
    (Always Logger.step Records (.start pid defaultPrefix files n) acts ∧
        Along Logger.step Recorded (.start pid defaultPrefix files n) acts ∧
        Along Logger.step Advances (.start pid defaultPrefix files n) acts) ↔
      Along Logger.step (fun s a => s.recordable a = true)
        (.start pid defaultPrefix files n) acts := by
  have hiff := always_and_along_iff (fun _ h => Locked.records h)
    (fun u a _ => recorded_of_recordable u a) Locked.step
    (fun u a t _ => Locked.not_recorded u a t) (Locked.start pid defaultPrefix files n) hrun
  refine ⟨fun ⟨hrecords, hrecorded, _⟩ => hiff.1 ⟨hrecords, hrecorded⟩,
    fun h => ⟨(hiff.2 h).1, (hiff.2 h).2, ?_⟩⟩
  exact Along.imp (fun u a _ _ => advances u a) Locked.step (Locked.start pid defaultPrefix files n) h

def working : Environment := ⟨true, true, none, none⟩

/-- Two threads log after `init`; for the second the client throws. -/
def logAfterInit : List LoggerAct :=
  [.call 0 (.init (ascii "log.")), .lock 0, .call 1 (.logMessage (ascii "b")), .body 0 working,
    .call 0 (.logMessage (ascii "a")), .lock 0, .body 0 working, .lock 1,
    .body 1 { working with sendThrows := some ⟨ascii "std::bad_alloc", []⟩ }]

theorem records_iff_recordable_logAfterInit :
    ∃ s, run Logger.step (.start 7 (ascii "log.") (fun _ => none) 2) logAfterInit = some s ∧
      s.handed = [ascii "a"] ∧ s.files (ascii "log.7") =
        some (sendFailure ⟨ascii "std::bad_alloc", []⟩ (ascii "b")) ∧
      Always Logger.step Records (.start 7 (ascii "log.") (fun _ => none) 2) logAfterInit ∧
      Along Logger.step Recorded (.start 7 (ascii "log.") (fun _ => none) 2) logAfterInit := by
  obtain ⟨s, hrun, hp⟩ := exists_of_any_run Logger.step (.start 7 (ascii "log.") (fun _ => none) 2)
    logAfterInit
    (fun s => s.handed == [ascii "a"] &&
      s.files (ascii "log.7") == some (sendFailure ⟨ascii "std::bad_alloc", []⟩ (ascii "b")))
        (by decide +kernel)
  obtain ⟨hhanded, hfile⟩ := Bool.and_eq_true_iff.1 hp
  obtain ⟨hrecords, hrecorded, -⟩ := (records_iff_recordable hrun).2 (by decide +kernel)
  exact ⟨s, hrun, beq_iff_eq.1 hhanded, beq_iff_eq.1 hfile, hrecords, hrecorded⟩

/-- A message is logged before anybody has called `init`. -/
def logBeforeInit : List LoggerAct := [.call 0 (.logMessage (ascii "a")), .lock 0, .body 0 working]

theorem logBeforeInit_relocks :
    ∃ s, run Logger.step (.start 7 (ascii "log.") (fun _ => none) 1) logBeforeInit = some s ∧
      s.owner = some 0 ∧
      s.threads = [.relocking (.logMessage (ascii "a"))] ∧ s.handed = [] ∧
      s.files (ascii "log.7") = some [] ∧
      ¬ Records s := by
  obtain ⟨s, hrun, hp⟩ := exists_of_any_run Logger.step (.start 7 (ascii "log.") (fun _ => none) 1)
    logBeforeInit
    (fun s => decide (s.owner = some 0 ∧ s.threads = [.relocking (.logMessage (ascii "a"))] ∧
      s.handed = [] ∧
      s.files (ascii "log.7") = some []))
    (by decide +kernel)
  obtain ⟨howner, hthreads, hhanded, hfile⟩ := of_decide_eq_true hp
  refine ⟨s, hrun, howner, hthreads, hhanded, hfile,
    fun hrec => hrec.noRelock 0 (.logMessage (ascii "a")) ?_⟩
  rw [hthreads]
  rfl

end Libesf.Log

import Libesf.Base.Calendar
import Libesf.Base.Lines
import Libesf.Log.Message

/-!
# The formatter of the log server

`formatters::plain_light` writes a message to an output stream in one line, with the details of an exception below it. The stack trace of an exception comes as hexadecimal text, and its lines are indented in place. A subscriber of the server that uses it runs in the server's I/O thread, where nobody catches what it throws. Before it is called there, the text that was received is made a message, which ends the process if the text is such that a null pointer is followed.
-/

namespace Libesf.Log

open Json

/-- What a formatter takes from its process: the time zone, and what `__cxa_demangle` makes of a type name, if it is one. -/
structure Runtime where
  zone : TimeZone
  demangle : Str → Option Str

/-- How an operation ends that does not complete: it throws, it reads outside a string, or it follows a null pointer. -/
inductive Failure where
  | throws (what : Str)
  | outside
  | nullPointer
  deriving DecidableEq, Repr

/-- What is written to the output stream stays there when something is thrown. -/
abbrev Formatting := ExceptT Failure (StateM Str)

def write (text : Str) : Formatting Unit := modify (· ++ text)

def attempt {α : Type} (result : Except Failure α) : Formatting α := ExceptT.mk (pure result)

/-- `std::setw` with `std::left`, and with `std::right`. -/
def padRight (width : Nat) (text : Str) : Str := text ++ List.replicate (width - text.length) 32

def padLeft (width : Nat) (text : Str) : Str := List.replicate (width - text.length) 32 ++ text

def typeStrMap : List (Int32 × Str) :=
  [(-2, ascii "Unknown:"), (-1, ascii "Crash:  "), (0, ascii "Error:  "), (1, ascii "Warning:"),
    (2, ascii "Info:   "), (3, ascii "Trace:  ")]

def typeStr (type : Int32) : Str := (typeStrMap.lookup type).getD (ascii "???:    ")

/-- `std::chrono::system_clock::to_time_t`, of a clock that counts nanoseconds. -/
def toTimeT (time : Int64) : Int64 := time / 1000000000

def newline : UInt8 := 10

def indent : Str := ascii "    "

namespace PlainLight

/-- `text.erase(text.end()-1)`, and `std::string(text.begin(), text.end()-1)`. -/
def eraseLast (text : Str) : Except Failure Str :=
  if text = [] then .error .outside else .ok text.dropLast

/-- The time without the newline of `ctime`. There is no string from a null pointer. -/
def timeStr (rt : Runtime) (time : Int64) : Except Failure Str :=
  (ctime rt.zone (toTimeT time).toInt).elim
    (.error (.throws (ascii "basic_string: construction from null is not valid"))) eraseLast

/-- The loop over the stack trace: the newline that is found after `p`, unless it is the last byte, is replaced by itself and two indents. -/
def indentLines (trace : Str) (p : Nat) : Str :=
  match _h : Lines.findFrom newline trace (p + 1) with
  | none => trace
  | some q =>
    if q = trace.length - 1 then trace
      else indentLines (Lines.replaceAt trace q (newline :: (indent ++ indent))) q
termination_by (trace.drop (p + 1)).count newline
decreasing_by exact Lines.count_replaceAt_lt ‹_› (by decide)

/-- The stack trace, decoded and indented, without its last byte. -/
def traceStr (trace : Str) : Except Failure Str :=
  match unhex trace with
  | none => .error (.throws (ascii "std::exception"))
  | some trace => eraseLast (indentLines trace 0)

def traceBlock (trace : Str) : Formatting Unit := do
  if trace ≠ [] then
    write (indent ++ ascii "stack trace:\n")
    let text ← attempt (traceStr trace)
    write (indent ++ indent ++ text)
  else
    write (indent ++ ascii "no stack trace available")

def details (rt : Runtime) (exc : ExceptionInfo) : Str :=
  ascii " (exception details follows)\n" ++
    indent ++ ascii "in " ++ exc.buildInfo.userProgram ++ ascii " <" ++
      exc.buildInfo.userBuildId ++ ascii ">\n" ++
    indent ++ ascii "at " ++ exc.buildInfo.file ++ ascii ":" ++ showInt exc.buildInfo.line.toInt ++
      ascii " (in " ++ exc.buildInfo.function ++ ascii ")\n" ++
    indent ++ ascii "exception '" ++ (rt.demangle (cstr exc.rttiType)).getD exc.rttiType ++
      ascii "': " ++ exc.what ++ ascii "\n"

/-- What is below the line of a message that has an exception. -/
def exception (rt : Runtime) : Option ExceptionInfo → Formatting Unit
  | some exc => do
    write (details rt exc)
    traceBlock exc.trace
  | none => pure ()

/-- The line up to the message, behind the time. -/
def headline (msg : Message) : Str :=
  ascii " | " ++
    padRight 8 msg.buildInfo.userProgram ++ ascii " <" ++ msg.buildInfo.userBuildId ++ ascii "> | " ++
    padRight 8 msg.processInfo.process ++ ascii " (" ++
    padLeft 5 (showInt msg.processInfo.pid.toInt) ++ ascii ") | " ++
    typeStr msg.type ++ msg.message

end PlainLight

open PlainLight

/-- `plain_light::operator()`. -/
def plainLight (rt : Runtime) (msg : Message) : Formatting Unit := do
  let time ← attempt (timeStr rt msg.time)
  write (time ++ headline msg)
  exception rt msg.exceptionInfo
  write [newline]

/-- `Server::M_notifyMessageReceived`, for subscribers that use the formatter, each with an output stream. -/
def notifyMessageReceived (J : Json) (rt : Runtime) (now : Int64) (garbage : Bool) (data : Str)
    (streams : List Str) : Except Failure (List Str) :=
  match synthetize J now garbage data with
  | none => .error .nullPointer
  | some msg =>
    streams.mapM fun os =>
      match (plainLight rt msg).run.run os with
      | (.ok (), os) => .ok os
      | (.error failure, _) => .error failure

/-- The notifications of a server whose subscribers use the formatter: whether that of the last text returns. -/
def notifies (J : Json) (rt : Runtime) (now : Int64) (garbage : Bool) (streams : List Str)
    (texts : List Str) : Bool :=
  texts.getLast?.all fun data => (notifyMessageReceived J rt now garbage data streams).toBool

/-! ### Programs that complete -/

/-- Whatever is in the stream, the program completes and appends the text. -/
def Writes (program : Formatting Unit) (text : Str) : Prop :=
  ∀ os, program.run.run os = (.ok (), os ++ text)

/-- Whatever is in the stream, the program does not complete. -/
def Fails (program : Formatting Unit) : Prop :=
  ∀ os, ∃ failure, (program.run.run os).1 = .error failure

section

variable {program next : Formatting Unit} {text text' : Str} {α : Type} {result : Except Failure α}
  {rest : α → Formatting Unit}

theorem writes_write (text : Str) : Writes (write text) text := fun _ => rfl

theorem writes_pure : Writes (pure ()) [] := fun os => by
  rw [List.append_nil]
  rfl

theorem Writes.seq (h : Writes program text) (h' : Writes next text') :
    Writes (do program; next) (text ++ text') := by
  intro os
  rw [ExceptT.run_bind, StateT.run_bind, h os]
  exact (h' _).trans (by rw [List.append_assoc])

theorem Writes.fails_seq (h : Writes program text) (h' : Fails next) : Fails (do program; next) := by
  intro os
  rw [ExceptT.run_bind, StateT.run_bind, h os]
  exact h' _

theorem Fails.seq (h : Fails program) (next : Formatting Unit) : Fails (do program; next) := by
  intro os
  obtain ⟨failure, hfailure⟩ := h os
  refine ⟨failure, ?_⟩
  rw [ExceptT.run_bind, StateT.run_bind]
  generalize program.run.run os = ended at hfailure ⊢
  obtain ⟨result, os'⟩ := ended
  obtain rfl : result = .error failure := hfailure
  rfl

theorem attempt_ok (a : α) (rest : α → Formatting Unit) :
    (do let a ← attempt (.ok a); rest a) = rest a := rfl

theorem fails_attempt (failure : Failure) (rest : α → Formatting Unit) :
    Fails (do let a ← attempt (.error failure); rest a) := fun _ => ⟨failure, rfl⟩

end

/-! ### Exactly when a message can be formatted -/

/-- The trace is an even number of hexadecimal digits, none at all included. -/
def Message.readable (msg : Message) : Bool :=
  msg.exceptionInfo.all fun exc =>
    decide (Even exc.trace.length ∧ ∀ b ∈ exc.trace, isHexDigit b = true)

namespace PlainLight

theorem eraseLast_ok {text : Str} (htext : text ≠ []) : eraseLast text = .ok text.dropLast := by
  rw [eraseLast, if_neg htext]

theorem toTimeT_bounds (time : Int64) : -2 ^ 34 ≤ (toTimeT time).toInt ∧
    (toTimeT time).toInt ≤ 2 ^ 34 := by
  have hlow := time.le_toInt
  have hhigh := time.toInt_lt
  have hbillion : (1000000000 : Int64).toInt = 1000000000 := by decide +kernel
  rw [toTimeT, Int64.toInt_div_of_ne_right _ _ (by decide +kernel), hbillion]
  have habs := Int.natAbs_tdiv time.toInt 1000000000
  change _ = time.toInt.natAbs / 1000000000 at habs
  omega

/-- There is a local time whatever the clock of the sender counted. -/
theorem timeStr_ok (rt : Runtime) (time : Int64) : ∃ text, timeStr rt time = .ok text := by
  obtain ⟨hlow, hhigh⟩ := toTimeT_bounds time
  obtain ⟨text, htext, hne⟩ := exists_ctime rt.zone hlow hhigh
  exact ⟨text.dropLast, by rw [timeStr, htext, Option.elim_some, eraseLast_ok hne]⟩

theorem indentLines_of_none {trace : Str} {p : Nat}
    (h : Lines.findFrom newline trace (p + 1) = none) : indentLines trace p = trace := by
  rw [indentLines]
  split
  · rfl
  · next hsome => rw [h] at hsome; cases hsome

theorem indentLines_of_some {trace : Str} {p q : Nat}
    (h : Lines.findFrom newline trace (p + 1) = some q) :
    indentLines trace p =
      if q = trace.length - 1 then trace
      else indentLines (Lines.replaceAt trace q (newline :: (indent ++ indent))) q := by
  rw [indentLines]
  split
  · next hnone => rw [h] at hnone; cases hnone
  · next q' hq' =>
    obtain rfl : q = q' := Option.some.inj (h.symm.trans hq')
    rfl

theorem indentLines_ne_nil (trace : Str) (p : Nat) (htrace : trace ≠ []) :
    indentLines trace p ≠ [] := by
  induction trace, p using indentLines.induct with
  | case1 trace p hnone => rwa [indentLines_of_none hnone]
  | case2 trace p hlast => rwa [indentLines_of_some hlast, if_pos rfl]
  | case3 trace p q hq hlast ih =>
    rw [indentLines_of_some hq, if_neg hlast]
    exact ih (by simp [Lines.replaceAt])

/-- There is a last byte behind what has been decoded, whatever the loop has made of it. -/
theorem traceStr_ok {trace : Str} {bytes : List UInt8} (htrace : unhex trace = some bytes)
    (hne : trace ≠ []) : traceStr trace = .ok (indentLines bytes 0).dropLast := by
  have hbytes : bytes ≠ [] := by
    rintro rfl
    have hlength := length_of_unhex htrace
    rw [List.length_nil, Nat.mul_zero, List.length_eq_zero_iff] at hlength
    exact hne hlength
  simp only [traceStr, htrace]
  exact eraseLast_ok (indentLines_ne_nil bytes 0 hbytes)

theorem writes_traceBlock {trace : Str} (htrace : (unhex trace).isSome = true) :
    ∃ text, Writes (traceBlock trace) text := by
  obtain ⟨bytes, hbytes⟩ := Option.isSome_iff_exists.1 htrace
  by_cases hne : trace = []
  · rw [traceBlock, if_neg (not_not_intro hne)]
    exact ⟨_, writes_write _⟩
  · rw [traceBlock, if_pos hne, traceStr_ok hbytes hne]
    exact ⟨_, (writes_write _).seq (writes_write _)⟩

theorem fails_traceBlock {trace : Str} (htrace : unhex trace = none) : Fails (traceBlock trace) := by
  have hne : trace ≠ [] := by
    rintro rfl
    cases htrace
  rw [traceBlock, if_pos hne]
  simp only [traceStr, htrace]
  exact (writes_write _).fails_seq (fails_attempt _ _)

end PlainLight

theorem writes_plainLight (rt : Runtime) {msg : Message} (hmsg : msg.readable = true) :
    ∃ text, Writes (plainLight rt msg) text := by
  obtain ⟨time, htime⟩ := timeStr_ok rt msg.time
  rw [plainLight, htime, attempt_ok]
  cases hexc : msg.exceptionInfo with
  | none => exact ⟨_, (writes_write _).seq (writes_pure.seq (writes_write _))⟩
  | some exc =>
    rw [Message.readable, hexc, Option.all_some, decide_eq_true_eq, ← unhex_isSome_iff] at hmsg
    obtain ⟨text, hblock⟩ := writes_traceBlock hmsg
    exact ⟨_, (writes_write _).seq (((writes_write _).seq hblock).seq (writes_write _))⟩

theorem fails_plainLight (rt : Runtime) {msg : Message} (hmsg : ¬ msg.readable = true) :
    Fails (plainLight rt msg) := by
  obtain ⟨time, htime⟩ := timeStr_ok rt msg.time
  rw [plainLight, htime, attempt_ok]
  cases hexc : msg.exceptionInfo with
  | none => exact absurd (by rw [Message.readable, hexc, Option.all_none]) hmsg
  | some exc =>
    rw [Message.readable, hexc, Option.all_some, decide_eq_true_eq, ← unhex_isSome_iff,
      Bool.not_eq_true, Option.isSome_eq_false_iff, Option.isNone_iff_eq_none] at hmsg
    exact (writes_write _).fails_seq (((writes_write _).fails_seq (fails_traceBlock hmsg)).seq _)

theorem Writes.not_fails {program : Formatting Unit} {text : Str} (h : Writes program text) :
    ¬ Fails program := by
  intro hfails
  obtain ⟨failure, hfailure⟩ := hfails []
  rw [h []] at hfailure
  cases hfailure

theorem notifyMessageReceived_of_none {J : Json} {now : Int64} {garbage : Bool} {data : Str}
    (hmsg : synthetize J now garbage data = none) (rt : Runtime) (streams : List Str) :
    notifyMessageReceived J rt now garbage data streams = .error .nullPointer := by
  rw [notifyMessageReceived, hmsg]

theorem notifyMessageReceived_throws {J : Json} {rt : Runtime} {now : Int64} {garbage : Bool}
    {data os : Str} {msg : Message} {failure : Failure}
    (hmsg : synthetize J now garbage data = some msg)
    (h : ((plainLight rt msg).run.run os).1 = .error failure) (streams : List Str) :
    notifyMessageReceived J rt now garbage data (os :: streams) = .error failure := by
  rw [notifyMessageReceived, hmsg]
  dsimp only
  rw [List.mapM_cons]
  generalize (plainLight rt msg).run.run os = ended at h ⊢
  obtain ⟨result, os'⟩ := ended
  obtain rfl : result = .error failure := h
  rfl

theorem notifyMessageReceived_ok {J : Json} {rt : Runtime} {now : Int64} {garbage : Bool}
    {data text : Str} {msg : Message} (hmsg : synthetize J now garbage data = some msg)
    (h : Writes (plainLight rt msg) text) (streams : List Str) :
    notifyMessageReceived J rt now garbage data streams = .ok (streams.map (· ++ text)) := by
  simp only [notifyMessageReceived, hmsg]
  induction streams with
  | nil => rfl
  | cons os streams ih =>
    rw [List.mapM_cons, h os, ih]
    rfl

/-- The text is made a message, and a formatter can decode the trace of that. -/
def ReadableText (J : Json) (now : Int64) (garbage : Bool) (data : Str) : Prop :=
  ∃ msg, synthetize J now garbage data = some msg ∧ msg.readable = true

theorem ReadableText.notifies_append {J : Json} {now : Int64} {garbage : Bool} {data : Str}
    (h : ReadableText J now garbage data) (rt : Runtime) (streams before : List Str) :
    notifies J rt now garbage streams (before ++ [data]) = true := by
  obtain ⟨msg, hmsg, hreadable⟩ := h
  obtain ⟨text, hwrites⟩ := writes_plainLight rt hreadable
  rw [notifies, List.getLast?_concat, Option.all_some, notifyMessageReceived_ok hmsg hwrites]
  rfl

/-- **A received message can be formatted.** Whatever text is received, `synthetize` makes it a message, the formatter completes on that, and every notification of subscribers that use it returns, if and only if no null pointer is followed on the way to the message and the trace in its exception info, where there is one, is an even number of hexadecimal digits. -/
theorem formats_iff_readable (J : Json) (rt : Runtime) (now : Int64) (garbage : Bool) (data : Str) :
    ((∀ msg, synthetize J now garbage data = some msg → ∃ text, Writes (plainLight rt msg) text) ∧
        ∀ streams, ∃ streams', notifyMessageReceived J rt now garbage data streams = .ok streams') ↔
      ReadableText J now garbage data := by
  constructor
  · rintro ⟨hformats, hnotifies⟩
    obtain ⟨streams, hnotified⟩ := hnotifies []
    cases hmsg : synthetize J now garbage data with
    | none =>
      rw [notifyMessageReceived_of_none hmsg] at hnotified
      cases hnotified
    | some msg =>
      obtain ⟨text, hwrites⟩ := hformats msg hmsg
      refine ⟨msg, hmsg, ?_⟩
      by_contra hreadable
      exact hwrites.not_fails (fails_plainLight rt hreadable)
  · rintro ⟨msg, hmsg, hreadable⟩
    obtain ⟨text, hwrites⟩ := writes_plainLight rt hreadable
    refine ⟨fun msg' hmsg' => ?_, fun streams => ⟨_, notifyMessageReceived_ok hmsg hwrites streams⟩⟩
    rw [Option.some.inj (hmsg'.symm.trans hmsg)]
    exact ⟨text, hwrites⟩

/-- A message with an exception whose trace is one digit. -/
def oddTrace : Message :=
  ⟨0, default, default, 0, ascii "bye", some ⟨[], ascii "E", default, ascii "0"⟩⟩

def oddTraceTree : Tree :=
  .object [(ascii "type", .int 0), (ascii "build_info", buildInfoTree default),
    (ascii "process_info", .object [(ascii "process", .string []), (ascii "pid", .int 0)]),
    (ascii "time", .string (ascii "0000000000000000")), (ascii "message", .string (ascii "bye")),
    (ascii "exception_info", .object [(ascii "set", .bool true),
      (ascii "data", .object [(ascii "what", .string []), (ascii "rtti_type", .string (ascii "E")),
        (ascii "build_info", buildInfoTree default), (ascii "trace", .string (ascii "0"))])])]

def oddTraceText : Str :=
  ascii
    "\x7b\"type\":0,\"build_info\":\x7b\"file\":\"\",\"line\":0,\"function\":\"\",\"build_date\":\"\",\"build_time\":\"\",\"user_build_id\":\"\",\"user_program\":\"\",\"user_version\":\"\"\x7d,\"process_info\":\x7b\"process\":\"\",\"pid\":0\x7d,\"time\":\"0000000000000000\",\"message\":\"bye\",\"exception_info\":\x7b\"set\":true,\"data\":\x7b\"what\":\"\",\"rtti_type\":\"E\",\"build_info\":\x7b\"file\":\"\",\"line\":0,\"function\":\"\",\"build_date\":\"\",\"build_time\":\"\",\"user_build_id\":\"\",\"user_program\":\"\",\"user_version\":\"\"\x7d,\"trace\":\"0\"\x7d\x7d\x7d"

/-- The JSON library reads the message, whatever its text is. -/
theorem synthetize_oddTrace (text : Str) :
    synthetize (Tree.library oddTraceTree text) 0 false text = some oddTrace := by
  have hparse : (Tree.library oddTraceTree text).parse text = .ok oddTraceTree := if_pos rfl
  simp only [synthetize, trySynthetize, hparse, bind, Except.bind]
  rfl

def utc : Runtime := ⟨fun _ => 0, fun _ => none⟩

/-- A JSON text that is no object. -/
def three : Str := ascii "3"

theorem synthetize_three : synthetize (Tree.library (.int 3) three) 0 false three = none := by
  decide +kernel

/-- The server's I/O thread throws when it notifies the first subscriber, and follows a null pointer before it notifies any. -/
theorem oddTrace_throws :
    notifyMessageReceived (Tree.library oddTraceTree oddTraceText) utc 0 false oddTraceText [[]] =
        .error (.throws (ascii "std::exception")) ∧
      (∃ msg, synthetize (Tree.library oddTraceTree oddTraceText) 0 false oddTraceText = some msg ∧
        ¬ ∃ text, Writes (plainLight utc msg) text) ∧
      notifyMessageReceived (Tree.library (.int 3) three) utc 0 false three [] =
        .error .nullPointer := by
  have hmsg := synthetize_oddTrace oddTraceText
  have hthrows := notifyMessageReceived_throws hmsg
    (by decide +kernel : ((plainLight utc oddTrace).run.run []).1 =
      .error (.throws (ascii "std::exception"))) []
  refine ⟨hthrows, ⟨oddTrace, hmsg, ?_⟩, notifyMessageReceived_of_none synthetize_three utc []⟩
  rintro ⟨text, hwrites⟩
  rw [notifyMessageReceived_ok hmsg hwrites] at hthrows
  cases hthrows

end Libesf.Log

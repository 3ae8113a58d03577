import Libesf.Log.Formatter

/-!
# Stack traces

The stack trace of a `core::Exception` is printed, one line for each frame, and goes into the message in hexadecimal. The formatter puts the indent before the first line, and the loop puts it before every other one: a newline it has found is behind it when it looks for the next one.
-/

namespace Libesf.Log

open PlainLight

/-- A `core::Exception`: what it says of itself, the name of its type, where it was thrown and its printed stack trace, if these are set. -/
structure CoreException where
  what : Str
  rttiType : Str
  buildInfo : Option BuildInfo
  debugInfo : Option Str

/-- The constructor of `Message` that takes an exception, at time `now`. -/
def Message.ofException (now : Int64) (type : Int32) (buildInfo : BuildInfo)
    (processInfo : ProcessInfo) (message : Str) (exception : CoreException) : Message where
  type := type
  buildInfo := buildInfo
  processInfo := processInfo
  time := now
  message := message
  exceptionInfo := some
    { what := exception.what
      rttiType := exception.rttiType
      buildInfo := exception.buildInfo.getD default
      trace := match exception.debugInfo with
        | some trace => hex trace
        | none => [] }

namespace StackTrace

/-- A printed trace: every line is followed by a newline. -/
def printed (lines : List Str) : Str := lines.flatMap (· ++ [newline])

/-- The block a reader is to see: the lines in their order, each behind two indents, with newlines between them. -/
def block : List Str → Str
  | [] => indent ++ ascii "no stack trace available"
  | first :: lines =>
    indent ++ ascii "stack trace:\n" ++
      List.intercalate [newline] ((first :: lines).map (indent ++ indent ++ ·))

/-- The loop, when it is behind `done` and looks for the end of a line. -/
theorem indentLines_append {lines : List Str} (hlines : ∀ l ∈ lines, newline ∉ l) :
    ∀ {done line : Str} {p : Nat},
    done.length = p + 1 → newline ∉ line →
      indentLines (done ++ (line ++ newline :: printed lines)) p =
        done ++ line ++ lines.flatMap (newline :: (indent ++ indent) ++ ·) ++ [newline] := by
  induction lines with
  | nil =>
    intro done line p hdone hline
    have hfind := Lines.findFrom_append_cons hline done (printed [])
    rw [hdone] at hfind
    rw [indentLines_of_some hfind, if_pos]
    · simp [printed]
    · simp [printed, hdone]
  | cons l lines ih =>
    intro done line p hdone hline
    rw [List.forall_mem_cons] at hlines
    have hfind := Lines.findFrom_append_cons hline done (printed (l :: lines))
    rw [hdone] at hfind
    have hreplace := Lines.replaceAt_append_cons (b := newline) done line (printed (l :: lines))
      (newline :: (indent ++ indent))
    rw [hdone] at hreplace
    have hnext : done ++ line ++ (newline :: (indent ++ indent) ++ printed (l :: lines)) =
        (done ++ line ++ [newline]) ++ ((indent ++ indent ++ l) ++ newline :: printed lines) := by
      simp [printed]
    have hline' : newline ∉ indent ++ indent ++ l := by
      rw [List.mem_append, not_or]
      exact ⟨by decide, hlines.1⟩
    rw [indentLines_of_some hfind, if_neg, hreplace, hnext, ih hlines.2 _ hline']
    · simp
    · rw [List.length_append, List.length_append, hdone, List.length_singleton]
    · simp [printed, hdone]
      omega

theorem hex_printed_ne_nil (first : Str) (lines : List Str) :
    hex (printed (first :: lines)) ≠ [] := by
  rw [← List.length_pos_iff, length_hex, printed, List.flatMap_cons]
  simp

/-- The text between the indent of the first line and the end of the last one. -/
theorem traceStr_printed {first : Str} {lines : List Str} (hfirst : first ≠ [])
    (hlines : ∀ l ∈ first :: lines, newline ∉ l) :
    traceStr (hex (printed (first :: lines))) =
      .ok (first ++ lines.flatMap (newline :: (indent ++ indent) ++ ·)) := by
  obtain ⟨c, first, rfl⟩ := List.exists_cons_of_ne_nil hfirst
  rw [List.forall_mem_cons] at hlines
  have hdone : [c].length = 0 + 1 := rfl
  have hloop := indentLines_append hlines.2 hdone (List.not_mem_of_not_mem_cons hlines.1)
  have hprinted : printed ((c :: first) :: lines) = [c] ++ (first ++ newline :: printed lines) := by
    simp [printed]
  rw [traceStr_ok (unhex_hex _) (hex_printed_ne_nil _ _), hprinted, hloop, List.dropLast_concat]
  rfl

/-- The trace block is what a reader is to see, for the trace of any number of frames. -/
theorem writes_traceBlock_printed {lines : List Str} (hfirst : lines.head? ≠ some [])
    (hlines : ∀ l ∈ lines, newline ∉ l) :
    Writes (traceBlock (hex (printed lines))) (block lines) := by
  cases lines with
  | nil => exact writes_write _
  | cons first lines =>
    have hne : first ≠ [] := fun hnil => hfirst (congrArg some hnil)
    rw [traceBlock, if_pos (hex_printed_ne_nil first lines), traceStr_printed hne hlines, attempt_ok]
    have hwrites := (writes_write (indent ++ ascii "stack trace:\n")).seq
      (writes_write (indent ++ indent ++
        (first ++ lines.flatMap (newline :: (indent ++ indent) ++ ·))))
    have hblock : block (first :: lines) = indent ++ ascii "stack trace:\n" ++
        (indent ++ indent ++ (first ++ lines.flatMap (newline :: (indent ++ indent) ++ ·))) := by
      rw [block, List.map_cons, Lines.intercalate_cons, List.flatMap_map]
      simp
    rwa [hblock]

/-- **Stack traces are printed completely.** For a message that is made of an exception, the formatter writes a line with what goes before, and below it the block of its stack trace: all lines of the trace, in their order and indented, or that there is none. -/
theorem writes_plainLight_ofException (rt : Runtime) (now : Int64) (type : Int32)
    (buildInfo : BuildInfo) (processInfo : ProcessInfo) (message : Str) (exception : CoreException)
    {lines : List Str} (htrace : exception.debugInfo.getD [] = printed lines)
    (hfirst : lines.head? ≠ some []) (hlines : ∀ l ∈ lines, newline ∉ l) :
    let msg := Message.ofException now type buildInfo processInfo message exception
    ∃ time exc, timeStr rt now = .ok time ∧ msg.exceptionInfo = some exc ∧
      Writes (plainLight rt msg) (time ++ headline msg ++
        (details rt exc ++ block lines ++ [newline])) := by
  intro msg
  obtain ⟨time, htime⟩ := timeStr_ok rt now
  have hhex : (match exception.debugInfo with | some trace => hex trace | none => []) =
      hex (printed lines) := by
    rw [← htrace]
    cases exception.debugInfo <;> rfl
  have hblock := writes_traceBlock_printed hfirst hlines
  rw [← hhex] at hblock
  refine ⟨time, _, htime, rfl, ?_⟩
  rw [plainLight, show msg.time = now from rfl, htime, attempt_ok]
  exact (writes_write _).seq (((writes_write _).seq hblock).seq (writes_write _))

/-- An exception with two frames, and an empty line between them. -/
def twoFrames : Message :=
  .ofException 0 (-1) default default (ascii "bye")
    ⟨ascii "oops", ascii "E", none, some (ascii "0# throw\n\n1# main\n")⟩

theorem writes_plainLight_ofException_twoFrames :
    ∃ text, Writes (plainLight utc twoFrames)
      (text ++ ascii "    stack trace:\n        0# throw\n        \n        1# main\n") := by
  have htrace : ascii "0# throw\n\n1# main\n" =
      printed [ascii "0# throw", [], ascii "1# main"] := by decide
  obtain ⟨time, exc, _, _, hwrites⟩ :=
    writes_plainLight_ofException utc 0 (-1) default default (ascii "bye")
    ⟨ascii "oops", ascii "E", none, some (ascii "0# throw\n\n1# main\n")⟩ htrace
      (by decide) (by decide)
  refine ⟨time ++ headline twoFrames ++ details utc exc, ?_⟩
  have hblock : block [ascii "0# throw", [], ascii "1# main"] ++ [newline] =
      ascii "    stack trace:\n        0# throw\n        \n        1# main\n" := by decide
  rw [← hblock, List.append_assoc (time ++ headline twoFrames), ← List.append_assoc (details utc exc)]
  exact hwrites

end StackTrace

end Libesf.Log

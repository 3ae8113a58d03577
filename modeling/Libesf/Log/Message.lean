import Libesf.Log.TimePoint
import Libesf.Json.Tree

/-!
# Log messages

`log::Message` and its way through JSON. The writer binds the exception info as `{set, data}` in one template. The reader extracts the flag first, and only then, into a fresh object, the data, which it looks up in the tree by hand.
-/

namespace Libesf.Log

open Json Binding

/-- `Message::BuildInfo`, and `Message::ExceptionInfo::BuildInfo`, which has the same members. -/
structure BuildInfo where
  file : Str
  line : Int32
  function : Str
  buildDate : Str
  buildTime : Str
  userBuildId : Str
  userProgram : Str
  userVersion : Str
  deriving DecidableEq, Repr, Inhabited

structure ProcessInfo where
  process : Str
  pid : Int32
  deriving DecidableEq, Repr, Inhabited

structure ExceptionInfo where
  what : Str
  rttiType : Str
  buildInfo : BuildInfo
  trace : Str
  deriving DecidableEq, Repr, Inhabited

/-- The type is an enumeration that the template binds through an `int&`, so that any `int` can get in. -/
structure Message where
  type : Int32
  buildInfo : BuildInfo
  processInfo : ProcessInfo
  time : Int64
  message : Str
  exceptionInfo : Option ExceptionInfo
  deriving DecidableEq, Repr

def unknown : Int32 := -2

variable (J : Json)

/-! ### Templates -/

def buildInfoJsonTemplate : List (Binding J BuildInfo) :=
  [.string (ascii "file") ⟨BuildInfo.file, fun v s => { s with file := v }⟩,
    .int (ascii "line") ⟨BuildInfo.line, fun v s => { s with line := v }⟩,
    .string (ascii "function") ⟨BuildInfo.function, fun v s => { s with function := v }⟩,
    .string (ascii "build_date") ⟨BuildInfo.buildDate, fun v s => { s with buildDate := v }⟩,
    .string (ascii "build_time") ⟨BuildInfo.buildTime, fun v s => { s with buildTime := v }⟩,
    .string (ascii "user_build_id") ⟨BuildInfo.userBuildId, fun v s => { s with userBuildId := v }⟩,
    .string (ascii "user_program") ⟨BuildInfo.userProgram, fun v s => { s with userProgram := v }⟩,
    .string (ascii "user_version") ⟨BuildInfo.userVersion, fun v s => { s with userVersion := v }⟩]

def processInfoJsonTemplate : List (Binding J ProcessInfo) :=
  [.string (ascii "process") ⟨ProcessInfo.process, fun v s => { s with process := v }⟩,
    .int (ascii "pid") ⟨ProcessInfo.pid, fun v s => { s with pid := v }⟩]

/-- `Message::M_jsonTemplate`. -/
def jsonTemplate : List (Binding J Message) :=
  [.int (ascii "type") ⟨Message.type, fun v s => { s with type := v }⟩,
    .object (ascii "build_info") (buildInfoJsonTemplate J)
      ⟨Message.buildInfo, fun v s => { s with buildInfo := v }⟩,
    .object (ascii "process_info") (processInfoJsonTemplate J)
      ⟨Message.processInfo, fun v s => { s with processInfo := v }⟩,
    timePoint (ascii "time") ⟨Message.time, fun v s => { s with time := v }⟩,
    .string (ascii "message") ⟨Message.message, fun v s => { s with message := v }⟩]

/-- The bindings of `*m_exception_info`. -/
def exceptionInfoBindings : List (Binding J ExceptionInfo) :=
  [.string (ascii "what") ⟨ExceptionInfo.what, fun v s => { s with what := v }⟩,
    .string (ascii "rtti_type") ⟨ExceptionInfo.rttiType, fun v s => { s with rttiType := v }⟩,
    .object (ascii "build_info") (buildInfoJsonTemplate J)
      ⟨ExceptionInfo.buildInfo, fun v s => { s with buildInfo := v }⟩,
    .string (ascii "trace") ⟨ExceptionInfo.trace, fun v s => { s with trace := v }⟩]

/-- `*m_exception_info`, for a pointer that is set. -/
def exceptionInfoRef : Ref Message ExceptionInfo where
  get m := m.exceptionInfo.getD default
  set info m := { m with exceptionInfo := some info }

/-- `Message::M_exceptionInfoJsonTemplate`. -/
def exceptionInfoJsonTemplate (m : Message) : List (Binding J Message) :=
  if m.exceptionInfo.isNone then [] else (exceptionInfoBindings J).map (via exceptionInfoRef)

/-! ### Serialisation and synthesis -/

/-- What the templates of `serialize` and `synthetize` refer to: the message and the local flag. -/
structure Draft where
  msg : Message
  hasExceptionInfo : Bool
  deriving DecidableEq, Repr

def Draft.msgRef : Ref Draft Message := ⟨Draft.msg, fun v s => { s with msg := v }⟩

def Draft.hasExceptionInfoRef : Ref Draft Bool :=
  ⟨Draft.hasExceptionInfo, fun v s => { s with hasExceptionInfo := v }⟩

def Draft.self : Ref Draft Draft := ⟨id, fun v _ => v⟩

/-- What `serialize` binds under `exception_info`. -/
def writerWrapper (m : Message) : List (Binding J Draft) :=
  .bool (ascii "set") Draft.hasExceptionInfoRef ::
    if m.exceptionInfo.isSome then
      [.object (ascii "data") (exceptionInfoJsonTemplate J m) Draft.msgRef] else []

def writerTemplate (m : Message) : List (Binding J Draft) :=
  (jsonTemplate J).map (via Draft.msgRef) ++
    [.object (ascii "exception_info") (writerWrapper J m) Draft.self]

/-- What the first template of `synthetize` binds under `exception_info`. -/
def readerWrapper : List (Binding J Draft) := [.bool (ascii "set") Draft.hasExceptionInfoRef]

/-- The first template of `synthetize`. -/
def readerTemplate : List (Binding J Draft) :=
  (jsonTemplate J).map (via Draft.msgRef) ++
    [.object (ascii "exception_info") (readerWrapper J) Draft.self]

/-- The `try` block of `Message::serialize`. -/
def trySerialize (m : Message) : Except Str Str :=
  J.serialize false (J.synthetize (template (writerTemplate J m)) ⟨m, m.exceptionInfo.isSome⟩)

def serialize (m : Message) : Str :=
  match trySerialize J m with
  | .ok text => text
  | .error what =>
    ascii "$ exception caught during log message serialization: '" ++ what ++ ascii "'"

/-- A message the constructor makes at time `now`. -/
def Message.make (now : Int64) (message : Str) : Message :=
  ⟨unknown, default, default, now, message, none⟩

/-- The `try` block of `Message::synthetize`. The flag starts with whatever is on the stack. The code looks for no null pointer: it follows the one `downcast` returns for a text that is no object, and the one of a missing `data`. -/
def trySynthetize (now : Int64) (garbage : Bool) (serialized : Str) : Except Failure Message := do
  let some repr := J.downcastObject (← reading (J.parse serialized)) | .error .nullPointer
  let draft ← J.extract (template (readerTemplate J)) repr ⟨.make now [], garbage⟩
  if draft.hasExceptionInfo then
    let msg := { draft.msg with exceptionInfo := some default }
    let some node := (J.get repr (ascii "exception_info")).bind J.downcastObject |>.bind
      (J.get · (ascii "data")) |
      .error .nullPointer
    J.extract (template (exceptionInfoJsonTemplate J msg)) node msg
  else return draft.msg

/-- `Message::synthetize`. It catches every exception; of a null pointer that is followed there is no message, and no process. -/
def synthetize (now : Int64) (garbage : Bool) (serialized : Str) : Option Message :=
  match trySynthetize J now garbage serialized with
  | .ok msg => some msg
  | .error (.throws what) =>
    some (.make now (ascii "<log message synthesis failed: " ++ what ++ ascii ">\nraw data: " ++
      serialized))
  | .error .nullPointer => none

/-! ### The templates are sound -/

variable {J}

theorem independent_buildInfo : Independent (buildInfoJsonTemplate J) where
  nonempty := nofun
  keys := by
    change List.Nodup [ascii "file", ascii "line", ascii "function", ascii "build_date",
      ascii "build_time", ascii "user_build_id", ascii "user_program", ascii "user_version"]
    decide
  commute b hb b' hb' a s := by
    simp only [buildInfoJsonTemplate, List.mem_cons, List.not_mem_nil, or_false] at hb hb'
    rcases hb with rfl | rfl | rfl | rfl | rfl | rfl | rfl | rfl <;>
      rcases hb' with rfl | rfl | rfl | rfl | rfl | rfl | rfl | rfl <;> rfl

theorem restores_buildInfo (hJ : Lawful J) : ∀ b ∈ buildInfoJsonTemplate J, b.Restores := by
  simp only [buildInfoJsonTemplate, List.forall_mem_cons, restores_string hJ, restores_int hJ,
    List.not_mem_nil, false_implies, implies_true, and_self]

theorem independent_processInfo : Independent (processInfoJsonTemplate J) where
  nonempty := nofun
  keys := by
    change List.Nodup [ascii "process", ascii "pid"]
    decide
  commute b hb b' hb' a s := by
    simp only [processInfoJsonTemplate, List.mem_cons, List.not_mem_nil, or_false] at hb hb'
    rcases hb with rfl | rfl <;> rcases hb' with rfl | rfl <;> rfl

theorem restores_processInfo (hJ : Lawful J) : ∀ b ∈ processInfoJsonTemplate J, b.Restores := by
  simp only [processInfoJsonTemplate, List.forall_mem_cons, restores_string hJ, restores_int hJ,
    List.not_mem_nil, false_implies, implies_true, and_self]

theorem restores_jsonTemplate (hJ : Lawful J) : ∀ b ∈ jsonTemplate J, b.Restores := by
  simp only [jsonTemplate, List.forall_mem_cons, restores_string hJ, restores_int hJ,
    restores_timePoint hJ, restores_object hJ independent_buildInfo (restores_buildInfo hJ),
    restores_object hJ independent_processInfo (restores_processInfo hJ), List.not_mem_nil,
    false_implies, implies_true, and_self]

theorem independent_exceptionInfo :
    Independent ((exceptionInfoBindings J).map (via exceptionInfoRef)) where
  nonempty := nofun
  keys := by
    change List.Nodup [ascii "what", ascii "rtti_type", ascii "build_info", ascii "trace"]
    decide
  commute b hb b' hb' a s := by
    simp only [exceptionInfoBindings, List.map_cons, List.map_nil, List.mem_cons, List.not_mem_nil,
      or_false] at hb hb'
    rcases hb with rfl | rfl | rfl | rfl <;> rcases hb' with rfl | rfl | rfl | rfl <;> rfl

theorem restores_exceptionInfo (hJ : Lawful J) :
    ∀ b ∈ (exceptionInfoBindings J).map (via exceptionInfoRef), b.Restores := by
  intro b hb
  obtain ⟨b, hb, rfl⟩ := List.mem_map.1 hb
  refine Restores.via ?_ exceptionInfoRef
  revert b
  simp only [exceptionInfoBindings, List.forall_mem_cons, restores_string hJ,
    restores_object hJ independent_buildInfo (restores_buildInfo hJ), List.not_mem_nil,
    false_implies, implies_true, and_self]

theorem independent_reader : Independent (readerTemplate J) where
  nonempty := nofun
  keys := by
    change List.Nodup [ascii "type", ascii "build_info", ascii "process_info", ascii "time",
      ascii "message", ascii "exception_info"]
    decide
  commute b hb b' hb' a s := by
    simp only [readerTemplate, jsonTemplate, List.map_cons, List.map_nil, List.cons_append,
      List.nil_append, List.mem_cons, List.not_mem_nil, or_false] at hb hb'
    rcases hb with rfl | rfl | rfl | rfl | rfl | rfl <;>
      rcases hb' with rfl | rfl | rfl | rfl | rfl | rfl <;> rfl

theorem independent_readerWrapper : Independent (readerWrapper J) where
  nonempty := nofun
  keys := List.nodup_singleton _
  commute b hb b' hb' a s := by
    rw [List.mem_singleton.1 hb, List.mem_singleton.1 hb']

theorem nodup_writerTemplate (m : Message) : ((writerTemplate J m).map key).Nodup := by
  change List.Nodup [ascii "type", ascii "build_info", ascii "process_info", ascii "time",
    ascii "message", ascii "exception_info"]
  decide

theorem nodup_writerWrapper (m : Message) : ((writerWrapper J m).map key).Nodup := by
  rw [writerWrapper]
  split
  · change List.Nodup [ascii "set", ascii "data"]
    decide
  · exact List.nodup_singleton _

/-! ### The round trip -/

theorem copyAll_buildInfo (a s : BuildInfo) : copyAll (buildInfoJsonTemplate J) a s = a := by
  cases a
  rfl

theorem copyAll_processInfo (a s : ProcessInfo) : copyAll (processInfoJsonTemplate J) a s = a := by
  cases a
  rfl

theorem copyAll_jsonTemplate (a s : Message) :
    copyAll (jsonTemplate J) a s = { a with exceptionInfo := s.exceptionInfo } := by
  simp only [jsonTemplate, copyAll_cons, object, copyAll_buildInfo, copyAll_processInfo]
  rfl

theorem copyAll_exceptionInfo (a s : ExceptionInfo) : copyAll (exceptionInfoBindings J) a s = a := by
  simp only [exceptionInfoBindings, copyAll_cons, object, copyAll_buildInfo]
  rfl

/-- The first extraction copies everything but the exception info. -/
theorem copyAll_readerTemplate (a s : Draft) :
    copyAll (readerTemplate J) a s =
      ⟨{ a.msg with exceptionInfo := s.msg.exceptionInfo }, a.hasExceptionInfo⟩ := by
  have hne : jsonTemplate J ≠ [] := List.cons_ne_nil _ _
  rw [readerTemplate, copyAll_append, copyAll_map_via (fun _ _ => rfl) (fun _ _ _ => rfl) hne,
    copyAll_jsonTemplate]
  rfl

theorem holds_readerTemplate (hJ : Lawful J) (m : Message) (d : Draft) :
    Holds (readerTemplate J) (J.synthetize (template (writerTemplate J m)) d) d := by
  intro b hb
  obtain hmsg | hwrapper := List.mem_append.1 hb
  · have hrestores : ∀ b ∈ (jsonTemplate J).map (via Draft.msgRef), b.Restores := by
      intro b hb
      obtain ⟨b', hb', rfl⟩ := List.mem_map.1 hb
      exact (restores_jsonTemplate hJ b' hb').via _
    exact holds_of_subset hJ (nodup_writerTemplate m) (fun b hb => List.mem_append_left _ hb)
      hrestores d b hmsg
  · obtain rfl := List.mem_singleton.1 hwrapper
    have hget := get_synthetize hJ (nodup_writerTemplate m)
      (List.mem_append_right ((jsonTemplate J).map (via Draft.msgRef)) (List.mem_singleton_self _)) d
    refine ⟨_, hget, reads_object hJ independent_readerWrapper ?_⟩
    refine holds_of_subset hJ (nodup_writerWrapper m) (fun b hb => ?_) (fun b hb => ?_) d
    · obtain rfl := List.mem_singleton.1 hb
      exact List.mem_cons_self
    · obtain rfl := List.mem_singleton.1 hb
      exact restores_bool hJ _ _

theorem get_data (hJ : Lawful J) {m : Message} (hsome : m.exceptionInfo.isSome = true) (d : Draft) :
    ((J.get (J.synthetize (template (writerTemplate J m)) d) (ascii "exception_info")).bind
        J.downcastObject).bind (J.get · (ascii "data")) =
      some (J.synthetize (template (exceptionInfoJsonTemplate J m)) d.msg) := by
  have hget := get_synthetize hJ (nodup_writerTemplate m)
    (List.mem_append_right ((jsonTemplate J).map (via Draft.msgRef)) (List.mem_singleton_self _)) d
  have hdata : .object (ascii "data") (exceptionInfoJsonTemplate J m) Draft.msgRef ∈
      writerWrapper J m := by
    rw [writerWrapper, if_pos hsome]
    exact List.mem_cons_of_mem _ (List.mem_singleton_self _)
  have hmember := get_synthetize hJ (nodup_writerWrapper m) hdata d
  have hobject := downcast_synthetize hJ (List.ne_nil_of_mem hdata) d
  simp only [object] at hget hmember
  rw [hget, Option.bind_some]
  change (J.downcastObject (J.synthetize (template (writerWrapper J m)) d)).bind _ = _
  rw [hobject, Option.bind_some, hmember]
  rfl

theorem exceptionInfoJsonTemplate_eq {m : Message} (hm : m.exceptionInfo.isSome = true) :
    exceptionInfoJsonTemplate J m = (exceptionInfoBindings J).map (via exceptionInfoRef) := by
  rw [exceptionInfoJsonTemplate, Option.isNone_eq_false_iff.2 hm]
  rfl

theorem extract_exceptionInfo (hJ : Lawful J) {m s : Message} {info : ExceptionInfo}
    (hm : m.exceptionInfo = some info) (hs : s.exceptionInfo.isSome = true) :
    J.extract (template (exceptionInfoJsonTemplate J s))
      (J.synthetize (template (exceptionInfoJsonTemplate J m)) m) s =
      .ok { s with exceptionInfo := some info } := by
  have hne : exceptionInfoBindings J ≠ [] := List.cons_ne_nil _ _
  rw [exceptionInfoJsonTemplate_eq hs, exceptionInfoJsonTemplate_eq (by rw [hm]; rfl),
    extract_synthetize hJ independent_exceptionInfo (restores_exceptionInfo hJ),
    copyAll_map_via (fun _ _ => rfl) (fun _ _ _ => rfl) hne, copyAll_exceptionInfo]
  simp only [exceptionInfoRef, hm, Option.getD_some]

/-- **The round trip of a log message.** If `serialize` does not fall into its error branch, `synthetize` of what it returns is the message: every member, and the exception info where there was one. -/
theorem synthetize_serialize (hJ : Lawful J) {m : Message} {text : Str}
    (htext : trySerialize J m = .ok text) (now : Int64) (garbage : Bool) :
    synthetize J now garbage (serialize J m) = some m := by
  have hserialize : serialize J m = text := by rw [serialize, htext]
  have hparse : J.parse text =
      .ok (J.synthetize (template (writerTemplate J m)) ⟨m, m.exceptionInfo.isSome⟩) :=
    hJ.parse_serialize htext
  have hwriter : writerTemplate J m ≠ [] := List.cons_ne_nil _ _
  have hobject := downcast_synthetize hJ hwriter ⟨m, m.exceptionInfo.isSome⟩
  have hextract := extract_eq_copyAll hJ independent_reader
    (holds_readerTemplate hJ m ⟨m, m.exceptionInfo.isSome⟩) ⟨.make now [], garbage⟩
  rw [copyAll_readerTemplate] at hextract
  have htry : trySynthetize J now garbage text = .ok m := by
    simp only [trySynthetize, hparse, reading_ok, bind, Except.bind, hobject, hextract]
    cases hinfo : m.exceptionInfo with
    | none =>
      rw [if_neg (by simp)]
      change Except.ok { m with exceptionInfo := none } = .ok m
      rw [← hinfo]
    | some info =>
      have hdata := get_data hJ (by rw [hinfo]; rfl : m.exceptionInfo.isSome = true)
        ⟨m, m.exceptionInfo.isSome⟩
      rw [hinfo] at hdata
      simp only [Option.isSome_some, if_true] at hdata ⊢
      rw [hdata]
      refine (extract_exceptionInfo hJ hinfo rfl).trans ?_
      rw [← hinfo]
  rw [synthetize, hserialize, htry]

/-- A crash report, with the exception that caused it. -/
def crashReport : Message where
  type := -1
  buildInfo := ⟨ascii "a.cpp", 7, ascii "main", [], [], [], ascii "a", ascii "1"⟩
  processInfo := ⟨ascii "a", 42⟩
  time := -2
  message := ascii "bye"
  exceptionInfo :=
    some ⟨ascii "oops", ascii "E", ⟨ascii "b.cpp", 9, [], [], [], [], [], []⟩, ascii "00"⟩

def buildInfoTree (info : BuildInfo) : Tree :=
  .object [(ascii "file", .string info.file), (ascii "line", .int info.line),
    (ascii "function", .string info.function), (ascii "build_date", .string info.buildDate),
    (ascii "build_time", .string info.buildTime), (ascii "user_build_id", .string info.userBuildId),
    (ascii "user_program", .string info.userProgram),
    (ascii "user_version", .string info.userVersion)]

def crashReportTree : Tree :=
  .object [(ascii "type", .int (-1)),
    (ascii "build_info",
      buildInfoTree ⟨ascii "a.cpp", 7, ascii "main", [], [], [], ascii "a", ascii "1"⟩),
    (ascii "process_info", .object [(ascii "process", .string (ascii "a")), (ascii "pid", .int 42)]),
    (ascii "time", .string (ascii "FEFFFFFFFFFFFFFF")), (ascii "message", .string (ascii "bye")),
    (ascii "exception_info", .object [(ascii "set", .bool true),
      (ascii "data", .object [(ascii "what", .string (ascii "oops")),
        (ascii "rtti_type", .string (ascii "E")),
        (ascii "build_info", buildInfoTree ⟨ascii "b.cpp", 9, [], [], [], [], [], []⟩),
        (ascii "trace", .string (ascii "00"))])])]

def crashReportText : Str :=
  ascii
    "\x7b\"type\":-1,\"build_info\":\x7b\"file\":\"a.cpp\",\"line\":7,\"function\":\"main\",\"build_date\":\"\",\"build_time\":\"\",\"user_build_id\":\"\",\"user_program\":\"a\",\"user_version\":\"1\"\x7d,\"process_info\":\x7b\"process\":\"a\",\"pid\":42\x7d,\"time\":\"FEFFFFFFFFFFFFFF\",\"message\":\"bye\",\"exception_info\":\x7b\"set\":true,\"data\":\x7b\"what\":\"oops\",\"rtti_type\":\"E\",\"build_info\":\x7b\"file\":\"b.cpp\",\"line\":9,\"function\":\"\",\"build_date\":\"\",\"build_time\":\"\",\"user_build_id\":\"\",\"user_program\":\"\",\"user_version\":\"\"\x7d,\"trace\":\"00\"\x7d\x7d\x7d"

theorem synthetize_serialize_crashReport :
    trySerialize (Tree.library crashReportTree crashReportText) crashReport = .ok crashReportText ∧
      synthetize (Tree.library crashReportTree crashReportText) 0 false
          (serialize (Tree.library crashReportTree crashReportText) crashReport) =
            some crashReport := by
  have htree : Tree.synthetize ⟨crashReport, true⟩
      (template (writerTemplate (Tree.library crashReportTree crashReportText) crashReport)) =
        crashReportTree := by
    decide +kernel
  have hserialize : trySerialize (Tree.library crashReportTree crashReportText) crashReport =
      .ok crashReportText :=
    (congrArg ((Tree.library crashReportTree crashReportText).serialize false) htree).trans
      (Tree.serialize_library crashReportTree crashReportText false)
  exact ⟨hserialize, synthetize_serialize (Tree.lawful_library _ _) hserialize 0 false⟩

end Libesf.Log

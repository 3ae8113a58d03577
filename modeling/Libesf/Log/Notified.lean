import Libesf.Log.Pipeline
import Libesf.Log.StackTrace

/-!
# From log messages to the text subscribers print

`Message::synthetize` asks the parsed text for the members it knows and for nothing else. A text that carries the members of a message is therefore read as that message, whatever other members it has, in which order, and in which letters its time is written; so a server understands clients that say more than it knows.

Along the way from the client to the callback nothing happens to a text that is not torn, and a torn one is never read. What subscribers print is therefore the formatted text of messages that were logged.
-/

namespace Libesf.Log

open Json Binding Transition

variable {J : Json}

/-! ### Texts that say more than the reader asks for -/

/-- The object has a member under the key that is read as the value. -/
def ReadsAs {α : Type} (J : Json) (node : J.Node) (key : Str) (read : J.Node → Except Str α)
    (a : α) : Prop :=
  ∃ member, J.get node key = some member ∧ read member = .ok a

structure CarriesException (J : Json) (node : J.Node) (info : ExceptionInfo) : Prop where
  what : ReadsAs J node (ascii "what") J.toString info.what
  rttiType : ReadsAs J node (ascii "rtti_type") J.toString info.rttiType
  buildInfo : ∃ member, J.get node (ascii "build_info") = some member ∧
    Holds (buildInfoJsonTemplate J) member info.buildInfo
  trace : ReadsAs J node (ascii "trace") J.toString info.trace

/-- The object carries the members of a message, whatever else is in it and in its inner objects. -/
structure Carries (J : Json) (node : J.Node) (m : Message) : Prop where
  type : ReadsAs J node (ascii "type") J.toInt m.type
  buildInfo : ∃ member, J.get node (ascii "build_info") = some member ∧
    Holds (buildInfoJsonTemplate J) member m.buildInfo
  processInfo :
    ∃ member, J.get node (ascii "process_info") = some member ∧
    Holds (processInfoJsonTemplate J) member m.processInfo
  /-- In letters of either case. -/
  time : ∃ member asHex, J.get node (ascii "time") = some member ∧ J.stringValue member = some asHex ∧
    TimePointElement.IsText asHex ∧ asHex.map toUpper = TimePointElement.text m.time
  message : ReadsAs J node (ascii "message") J.toString m.message
  exceptionInfo : ∃ wrapper, J.get node (ascii "exception_info") = some wrapper ∧
    ReadsAs J wrapper (ascii "set") J.toBool m.exceptionInfo.isSome ∧
    ∀ info ∈ m.exceptionInfo, ∃ object data,
      J.downcastObject wrapper = some object ∧ J.get object (ascii "data") = some data ∧
      CarriesException J data info

section

variable {σ : Type} {key : Str} {node : J.Node} {a : σ}

theorem ReadsAs.int {ref : Ref σ Int32} (h : ReadsAs J node key J.toInt (ref.get a)) :
    ∃ member, J.get node key = some member ∧ (Binding.int key ref).Reads member a := by
  obtain ⟨member, hget, hread⟩ := h
  refine ⟨member, hget, fun s => ?_⟩
  simp only [Binding.int, hread, reading_ok]
  rfl

theorem ReadsAs.string {ref : Ref σ Str} (h : ReadsAs J node key J.toString (ref.get a)) :
    ∃ member, J.get node key = some member ∧ (Binding.string key ref).Reads member a := by
  obtain ⟨member, hget, hread⟩ := h
  refine ⟨member, hget, fun s => ?_⟩
  simp only [Binding.string, hread, reading_ok]
  rfl

theorem ReadsAs.bool {ref : Ref σ Bool} (h : ReadsAs J node key J.toBool (ref.get a)) :
    ∃ member, J.get node key = some member ∧ (Binding.bool key ref).Reads member a := by
  obtain ⟨member, hget, hread⟩ := h
  refine ⟨member, hget, fun s => ?_⟩
  simp only [Binding.bool, hread, reading_ok]
  rfl

theorem reads_timePoint {ref : Ref σ Int64} {member : J.Node} {asHex : Str}
    (hmember : J.stringValue member = some asHex) (hhex : TimePointElement.IsText asHex)
    (htext : asHex.map toUpper = TimePointElement.text (ref.get a)) :
    (timePoint key ref).Reads member a := by
  intro s
  obtain ⟨rep, hparse, hrep⟩ :=
    TimePointElement.parse_of_isText (J.exceptionText member (ascii "invalid size")) hhex
  have hsame : rep = ref.get a := by
    have hround := TimePointElement.parse_text [] rep
    rw [hrep, htext, TimePointElement.parse_text] at hround
    exact (Except.ok.inj hround).symm
  simp only [timePoint, hmember, hparse, reading_ok, hsame]
  rfl

end

theorem Carries.holds (hJ : Lawful J) {node : J.Node} {m : Message} (h : Carries J node m) :
    Holds (readerTemplate J) node ⟨m, m.exceptionInfo.isSome⟩ := by
  obtain ⟨buildInfo, hbuildInfo, hbuild⟩ := h.buildInfo
  obtain ⟨processInfo, hprocessInfo, hprocess⟩ := h.processInfo
  obtain ⟨time, asHex, htime, hvalue, hhex, htext⟩ := h.time
  obtain ⟨wrapper, hwrapper, hset, _⟩ := h.exceptionInfo
  have hflag : Holds (readerWrapper J) wrapper (⟨m, m.exceptionInfo.isSome⟩ : Draft) := by
    intro b hb
    obtain rfl := List.mem_singleton.1 hb
    exact hset.bool
  have hvia : ∀ {b : Binding J Message},
      (∃ member, J.get node b.key = some member ∧ b.Reads member m) →
      ∃ member, J.get node (b.via Draft.msgRef).key = some member ∧
        (b.via Draft.msgRef).Reads member ⟨m, m.exceptionInfo.isSome⟩ := by
    intro b ⟨member, hget, hreads⟩
    refine ⟨member, hget, fun s => ?_⟩
    simp only [Binding.via, hreads (Draft.msgRef.get s)]
    rfl
  intro b hb
  simp only [readerTemplate, jsonTemplate, List.map_cons, List.map_nil, List.cons_append,
    List.nil_append, List.mem_cons, List.not_mem_nil, or_false] at hb
  rcases hb with rfl | rfl | rfl | rfl | rfl | rfl
  · exact hvia h.type.int
  · exact hvia ⟨buildInfo, hbuildInfo, reads_object hJ independent_buildInfo hbuild⟩
  · exact hvia ⟨processInfo, hprocessInfo, reads_object hJ independent_processInfo hprocess⟩
  · exact hvia ⟨time, htime, reads_timePoint hvalue hhex htext⟩
  · exact hvia h.message.string
  · exact ⟨wrapper, hwrapper, reads_object hJ independent_readerWrapper hflag⟩

theorem CarriesException.extract (hJ : Lawful J) {data : J.Node} {info : ExceptionInfo}
    (h : CarriesException J data info) {s : Message} (hs : s.exceptionInfo.isSome = true) :
    J.extract (template (exceptionInfoJsonTemplate J s)) data s =
      .ok { s with exceptionInfo := some info } := by
  obtain ⟨buildInfo, hbuildInfo, hbuild⟩ := h.buildInfo
  have hholds : Holds ((exceptionInfoBindings J).map (via exceptionInfoRef)) data
      { s with exceptionInfo := some info } := by
    have hvia : ∀ {b : Binding J ExceptionInfo},
        (∃ member, J.get data b.key = some member ∧ b.Reads member info) →
        ∃ member, J.get data (b.via exceptionInfoRef).key = some member ∧
          (b.via exceptionInfoRef).Reads member { s with exceptionInfo := some info } := by
      intro b ⟨member, hget, hreads⟩
      refine ⟨member, hget, fun s' => ?_⟩
      simp only [Binding.via, hreads (exceptionInfoRef.get s')]
      rfl
    intro b hb
    simp only [exceptionInfoBindings, List.map_cons, List.map_nil, List.mem_cons, List.not_mem_nil,
      or_false] at hb
    rcases hb with rfl | rfl | rfl | rfl
    · exact hvia h.what.string
    · exact hvia h.rttiType.string
    · exact hvia ⟨buildInfo, hbuildInfo, reads_object hJ independent_buildInfo hbuild⟩
    · exact hvia h.trace.string
  have hne : exceptionInfoBindings J ≠ [] := List.cons_ne_nil _ _
  rw [exceptionInfoJsonTemplate_eq hs, extract_eq_copyAll hJ independent_exceptionInfo hholds,
    copyAll_map_via (fun _ _ => rfl) (fun _ _ _ => rfl) hne, copyAll_exceptionInfo]
  rfl

theorem Carries.synthetize_eq (hJ : Lawful J) {node : J.Node} {m : Message} (h : Carries J node m)
    {text : Str} {root : J.Node} (hparse : J.parse text = .ok root)
    (hobject : J.downcastObject root = some node) (now : Int64) (garbage : Bool) :
    synthetize J now garbage text = some m := by
  have hextract := extract_eq_copyAll hJ independent_reader (h.holds hJ) ⟨.make now [], garbage⟩
  rw [copyAll_readerTemplate] at hextract
  have htry : trySynthetize J now garbage text = .ok m := by
    simp only [trySynthetize, hparse, reading_ok, bind, Except.bind, hobject, hextract]
    cases hinfo : m.exceptionInfo with
    | none =>
      rw [if_neg (by simp)]
      change Except.ok { m with exceptionInfo := none } = .ok m
      rw [← hinfo]
    | some info =>
      obtain ⟨wrapper, hwrapper, _, hcarries⟩ := h.exceptionInfo
      obtain ⟨object, data, hdowncast, hdata, hexception⟩ := hcarries info hinfo
      simp only [Option.isSome_some, if_true, hwrapper, Option.bind_some, hdowncast, hdata]
      refine (hexception.extract hJ rfl).trans ?_
      rw [← hinfo]
  rw [synthetize, htry]

theorem isText_text (rep : Int64) : TimePointElement.IsText (TimePointElement.text rep) := by
  have hhex : (unhex (TimePointElement.text rep)).isSome = true := by
    rw [TimePointElement.text, unhex_hex]
    rfl
  refine ⟨?_, ((unhex_isSome_iff _).1 hhex).2⟩
  rw [TimePointElement.text, length_hex, TimePointElement.rawOfRep, length_toBytes]

theorem map_toUpper_text (rep : Int64) :
    (TimePointElement.text rep).map toUpper = TimePointElement.text rep :=
  (hex_of_unhex (unhex_hex (TimePointElement.rawOfRep rep))).symm

/-- The tree `serialize` writes carries its message. -/
theorem carries_synthetize (hJ : Lawful J) (m : Message) :
    Carries J (J.synthetize (template (writerTemplate J m)) ⟨m, m.exceptionInfo.isSome⟩) m := by
  have hget : ∀ b ∈ jsonTemplate J, J.get
      (J.synthetize (template (writerTemplate J m)) ⟨m, m.exceptionInfo.isSome⟩) b.key =
      some (b.element.synthetize m) := fun b hb =>
    get_synthetize hJ (nodup_writerTemplate m) (List.mem_append_left _ (List.mem_map_of_mem hb)) _
  have hwrapper := get_synthetize hJ (nodup_writerTemplate m)
    (List.mem_append_right ((jsonTemplate J).map (via Draft.msgRef)) (List.mem_singleton_self _))
    (⟨m, m.exceptionInfo.isSome⟩ : Draft)
  simp only [jsonTemplate, List.forall_mem_cons, List.not_mem_nil, false_implies, implies_true,
    and_true] at hget
  obtain ⟨htype, hbuild, hprocess, htime, hmessage⟩ := hget
  refine ⟨⟨_, htype, hJ.toInt_ofInt _⟩, ⟨_, hbuild, ?_⟩, ⟨_, hprocess, ?_⟩,
    ⟨_, _, htime, hJ.stringValue_ofString _, isText_text _, map_toUpper_text _⟩,
    ⟨_, hmessage, hJ.toString_ofString _⟩,
    ⟨_, hwrapper, ⟨_, get_synthetize hJ (nodup_writerWrapper m) List.mem_cons_self _,
      hJ.toBool_ofBool _⟩, fun info hinfo => ?_⟩⟩
  · exact holds_of_subset hJ independent_buildInfo.keys (fun _ hb => hb) (restores_buildInfo hJ) _
  · exact holds_of_subset hJ independent_processInfo.keys (fun _ hb => hb) (restores_processInfo hJ) _
  · have hsome : m.exceptionInfo.isSome = true := by rw [hinfo]; rfl
    have hdata : .object (ascii "data") (exceptionInfoJsonTemplate J m) Draft.msgRef ∈
        writerWrapper J m := by
      rw [writerWrapper, if_pos hsome]
      exact List.mem_cons_of_mem _ (List.mem_singleton_self _)
    refine ⟨_, _, downcast_synthetize hJ (List.ne_nil_of_mem hdata) _,
      get_synthetize hJ (nodup_writerWrapper m) hdata _, ?_⟩
    have hmember : ∀ b ∈ exceptionInfoBindings J,
        J.get (J.synthetize (template (exceptionInfoJsonTemplate J m)) m) b.key =
        some (b.element.synthetize info) := by
      intro b hb
      rw [exceptionInfoJsonTemplate_eq hsome]
      refine (get_synthetize hJ independent_exceptionInfo.keys (List.mem_map_of_mem hb) m).trans ?_
      simp only [via, exceptionInfoRef, Option.mem_def.1 hinfo, Option.getD_some]
    simp only [exceptionInfoBindings, List.forall_mem_cons, List.not_mem_nil, false_implies,
      implies_true, and_true] at hmember
    obtain ⟨hwhat, hrtti, hbuild, htrace⟩ := hmember
    refine ⟨⟨_, hwhat, hJ.toString_ofString _⟩, ⟨_, hrtti, hJ.toString_ofString _⟩, ⟨_, hbuild, ?_⟩,
      ⟨_, htrace, hJ.toString_ofString _⟩⟩
    exact holds_of_subset hJ independent_buildInfo.keys (fun _ hb => hb) (restores_buildInfo hJ) _

theorem downcast_writer (hJ : Lawful J) (m : Message) (d : Draft) :
    J.downcastObject (J.synthetize (template (writerTemplate J m)) d) =
      some (J.synthetize (template (writerTemplate J m)) d) :=
  downcast_synthetize hJ (List.cons_ne_nil _ _) d

/-- **What is carried is read.** A text that carries the members of a message is synthesised to that message, whatever other members it and its inner objects have; and a text that `serialize` writes carries its message. -/
theorem reads_what_is_carried (hJ : Lawful J) :
    (∀ text root node m, J.parse text = .ok root → J.downcastObject root = some node →
      Carries J node m →
        ∀ now garbage, synthetize J now garbage text = some m) ∧
      ∀ m text, trySerialize J m = .ok text →
        ∃ node, J.parse text = .ok node ∧ J.downcastObject node = some node ∧ Carries J node m :=
  ⟨fun _ _ _ _ hparse hobject h now garbage => h.synthetize_eq hJ hparse hobject now garbage,
    fun m _ htext => ⟨_, hJ.parse_serialize htext, downcast_writer hJ m _, carries_synthetize hJ m⟩⟩

/-- A newer client's report: it has members the reader does not know, in an order of its own, and its time in small letters. -/
def newerReportTree : Tree :=
  .object [(ascii "version", .int 2), (ascii "message", .string (ascii "bye")),
    (ascii "exception_info", .object [(ascii "data", .object [(ascii "trace", .string (ascii "00")),
        (ascii "nested", .object [(ascii "what", .string [])]),
        (ascii "what", .string (ascii "oops")),
        (ascii "build_info", buildInfoTree ⟨ascii "b.cpp", 9, [], [], [], [], [], []⟩),
        (ascii "rtti_type", .string (ascii "E"))]),
      (ascii "set", .bool true)]),
    (ascii "time", .string (ascii "feffffffffffffff")),
    (ascii "process_info",
      .object [(ascii "pid", .int 42), (ascii "thread", .int 1),
        (ascii "process", .string (ascii "a"))]),
    (ascii "build_info",
      buildInfoTree ⟨ascii "a.cpp", 7, ascii "main", [], [], [], ascii "a", ascii "1"⟩),
    (ascii "type", .int (-1))]

theorem holds_buildInfoTree {tree : Tree} {text : Str} (info : BuildInfo) :
    Holds (buildInfoJsonTemplate (Tree.library tree text)) (buildInfoTree info) info := by
  intro b hb
  simp only [buildInfoJsonTemplate, List.mem_cons, List.not_mem_nil, or_false] at hb
  rcases hb with rfl | rfl | rfl | rfl | rfl | rfl | rfl | rfl <;> exact ⟨_, rfl, fun _ => rfl⟩

theorem carries_newerReportTree (text : Str) :
    Carries (Tree.library newerReportTree text) newerReportTree crashReport where
  type := ⟨_, rfl, rfl⟩
  buildInfo := ⟨_, rfl, holds_buildInfoTree _⟩
  processInfo := by
    refine ⟨_, rfl, fun b hb => ?_⟩
    simp only [processInfoJsonTemplate, List.mem_cons, List.not_mem_nil, or_false] at hb
    rcases hb with rfl | rfl <;> exact ⟨_, rfl, fun _ => rfl⟩
  time := ⟨_, ascii "feffffffffffffff", rfl, rfl, by decide +kernel, by decide +kernel⟩
  message := ⟨_, rfl, rfl⟩
  exceptionInfo := by
    refine ⟨_, rfl, ⟨_, rfl, rfl⟩, fun info hinfo => ?_⟩
    obtain rfl := Option.some.inj hinfo
    exact ⟨_, _, rfl, rfl, ⟨_, rfl, rfl⟩, ⟨_, rfl, rfl⟩, ⟨_, rfl, holds_buildInfoTree _⟩,
      ⟨_, rfl, rfl⟩⟩

theorem reads_what_is_carried_newerReport :
    synthetize (Tree.library newerReportTree (ascii "newer")) 0 true (ascii "newer") =
      some crashReport :=
  (reads_what_is_carried (Tree.lawful_library _ _)).1 _ _ _ _ (if_pos rfl) rfl
    (carries_newerReportTree _) 0 true

/-! ### What subscribers print -/

/-- The messages the constructors of `Message` make. -/
inductive Made : Message → Prop where
  | plain (type : Int32) (buildInfo : BuildInfo) (processInfo : ProcessInfo) (now : Int64)
      (message : Str) :
      Made ⟨type, buildInfo, processInfo, now, message, none⟩
  | ofException (now : Int64) (type : Int32) (buildInfo : BuildInfo) (processInfo : ProcessInfo)
      (message : Str)
      (exception : CoreException) :
        Made (.ofException now type buildInfo processInfo message exception)

theorem Made.readable {m : Message} (h : Made m) : m.readable = true := by
  cases h with
  | plain type buildInfo processInfo now message => rfl
  | ofException now type buildInfo processInfo message exception =>
    rw [Message.readable, Message.ofException, Option.all_some, decide_eq_true_eq, ← unhex_isSome_iff]
    cases exception.debugInfo with
    | none => rfl
    | some trace =>
      dsimp only
      rw [unhex_hex]
      rfl

/-- A call of `Server::M_notifyMessageReceived`, with the time it is made at and what is on the stack then. -/
structure Notification where
  data : Str
  now : Int64
  garbage : Bool

/-- The message a call hands to the subscribers, unless it ends the process. -/
def Notification.told (J : Json) (call : Notification) : Option Message :=
  synthetize J call.now call.garbage call.data

/-- The calls one after the other, for subscribers that each format into a stream. -/
def notifyEach (J : Json) (rt : Runtime) (calls : List Notification) (streams : List Str) :
    Except Failure (List Str) :=
  calls.foldlM
    (fun streams call => notifyMessageReceived J rt call.now call.garbage call.data streams) streams

theorem notifyEach_ok {rt : Runtime} {calls : List Notification} {msgs : List Message}
    {texts : List Str} (htold : calls.map (Notification.told J) = msgs.map some)
    (h : List.Forall₂ (fun m text => Writes (plainLight rt m) text) msgs texts) :
    ∀ streams, notifyEach J rt calls streams = .ok (streams.map (· ++ texts.flatten)) := by
  induction h generalizing calls with
  | nil =>
    intro streams
    rw [List.map_eq_nil_iff.1 htold]
    simp [notifyEach, pure, Except.pure]
  | @cons m text msgs texts hwrites _ ih =>
    intro streams
    obtain ⟨call, rest, rfl, hcall, hrest⟩ := List.map_eq_cons_iff.1 htold
    rw [notifyEach, List.foldlM_cons, notifyMessageReceived_ok hcall hwrites]
    refine (ih hrest _).trans ?_
    rw [List.map_map, List.flatten_cons]
    refine congrArg Except.ok (List.map_congr_left fun os _ => ?_)
    rw [Function.comp_apply, List.append_assoc]

theorem Made.writes (rt : Runtime) {ms : List Message} (hmade : ∀ m ∈ ms, Made m) :
    ∃ texts, List.Forall₂ (fun m text => Writes (plainLight rt m) text) ms texts := by
  induction ms with
  | nil => exact ⟨[], .nil⟩
  | cons m ms ih =>
    obtain ⟨text, hwrites⟩ := writes_plainLight rt (hmade m List.mem_cons_self).readable
    obtain ⟨texts, hall⟩ := ih fun m' hm' => hmade m' (List.mem_cons_of_mem m hm')
    exact ⟨text :: texts, .cons hwrites hall⟩

theorem synthetize_of_serialize (hJ : Lawful J) {m : Message}
    (htext : ∃ text, trySerialize J m = .ok text) (now : Int64) (garbage : Bool) :
    synthetize J now garbage (serialize J m) = some m := by
  obtain ⟨text, htext⟩ := htext
  rw [serialize, htext]
  exact (carries_synthetize hJ m).synthetize_eq hJ (hJ.parse_serialize htext)
    (downcast_writer hJ m _) now garbage

/-- What a reader makes of a text that it can read. -/
def readBack (J : Json) (text : Str) : Message := (synthetize J 0 false text).getD (.make 0 [])

theorem readBack_serialize (hJ : Lawful J) {m : Message}
    (htext : ∃ text, trySerialize J m = .ok text) : readBack J (serialize J m) = m := by
  rw [readBack, synthetize_of_serialize hJ htext, Option.getD_some]

/-- Subscribers with the formatter accept what is logged. -/
theorem Made.accepts (hJ : Lawful J) {m : Message} (hmade : Made m)
    (htext : ∃ text, trySerialize J m = .ok text) (rt : Runtime) (now : Int64) (garbage : Bool)
    (streams : List Str) : Accepts (notifies J rt now garbage streams) (serialize J m) :=
  ReadableText.notifies_append ⟨m, synthetize_of_serialize hJ htext now garbage,
    hmade.readable⟩ rt streams

/-- What the server was notified of was logged, if no one else logs, and is all of it once everything has drained. -/
theorem Relayed.notified_subperm {origin : Nat → Option Nat} {returns : List Str → Bool}
    (hinj : ∀ i j k, origin i = some k → origin j = some k → i = j) {acts : List PipelineAct}
    {p : Pipeline}
    (hregular : Along (Pipeline.step origin) (Pipeline.Regular origin) (.init returns) acts)
    (haccepts : ∀ msg ∈ acts.flatMap PipelineAct.sends, Accepts returns msg)
    (hrun : run (Pipeline.step origin) (.init returns) acts = some p)
    (hown : ∀ entry ∈ p.server.notified, (origin entry.1).isSome = true) :
    (p.server.notified.map Prod.snd).Subperm (acts.flatMap PipelineAct.sends) ∧
      (Drained origin p → (p.server.notified.map Prod.snd).Perm
        (acts.flatMap PipelineAct.sends)) := by
  have h := Relayed.of_run hregular haccepts hrun
  have hperm := h.perm_notified hinj hown (Nat.lt_succ_self _)
  have hsent := Pipeline.perm_of_run hregular hrun
  constructor
  · have hqueued := (h.sublist_notifiedFrom hinj (p.sender.client.connection + 1)).subperm
    rw [List.map_append] at hsent
    exact (hperm.symm.subperm.trans hqueued).trans
      ((List.sublist_append_left _ _).subperm.trans hsent.subperm)
  · intro hdrained
    rw [h.flatMap_notifiedFrom hinj hdrained (Nat.lt_succ_self _)] at hperm
    rw [hdrained.posted, List.append_nil] at hsent
    exact hperm.symm.trans hsent

/-- The subscribers are told these messages, of the messages logged, and this is what they print. -/
structure PrintsLogged (J : Json) (rt : Runtime) (origin : Nat → Option Nat) (p : Pipeline)
    (logged : List Message) (calls : List Notification) (msgs : List Message) : Prop where
  told : calls.map (Notification.told J) = msgs.map some
  subperm : msgs.Subperm logged
  complete : Drained origin p → msgs.Perm logged
  prints : ∃ texts, List.Forall₂ (fun m text => Writes (plainLight rt m) text) msgs texts ∧
    ∀ streams, notifyEach J rt calls streams = .ok (streams.map (· ++ texts.flatten))

/-- **Subscribers print what was logged.** In every run of a steady client and a server whose subscribers use the light formatter, no one else logging or ending the server, every message the subscribers are told is a message that was logged, none of them twice, and all of them once everything has drained; and they print the texts of these messages, one after the other, without an exception. -/
theorem printsLogged_of_regular (hJ : Lawful J) (rt : Runtime) (now : Int64) (garbage : Bool)
    (os : List Str) {origin : Nat → Option Nat}
    (hinj : ∀ i j k, origin i = some k → origin j = some k → i = j) {acts : List PipelineAct}
    {p : Pipeline}
    (hregular : Along (Pipeline.step origin) (Pipeline.Regular origin)
      (.init (notifies J rt now garbage os)) acts)
    (hrun : run (Pipeline.step origin) (.init (notifies J rt now garbage os)) acts = some p)
    {logged : List Message} (hmade : ∀ m ∈ logged, Made m)
    (htexts : ∀ m ∈ logged, ∃ text, trySerialize J m = .ok text)
    (hsent : acts.flatMap PipelineAct.sends = logged.map (serialize J))
    (hown : ∀ entry ∈ p.server.notified, (origin entry.1).isSome = true) {calls : List Notification}
    (hcalls : calls.map Notification.data = p.server.notified.map Prod.snd) :
    ∃ msgs, PrintsLogged J rt origin p logged calls msgs := by
  have haccepts : ∀ msg ∈ acts.flatMap PipelineAct.sends,
      Accepts (notifies J rt now garbage os) msg := by
    intro msg hmsg
    rw [hsent] at hmsg
    obtain ⟨m, hm, rfl⟩ := List.mem_map.1 hmsg
    exact (hmade m hm).accepts hJ (htexts m hm) rt now garbage os
  obtain ⟨hsubperm, hcomplete⟩ := Relayed.notified_subperm hinj hregular haccepts hrun hown
  rw [← hcalls, hsent] at hsubperm hcomplete
  have hback : (logged.map (serialize J)).map (readBack J) = logged := by
    have hid : ∀ m ∈ logged, (readBack J ∘ serialize J) m = id m :=
      fun m hm => readBack_serialize hJ (htexts m hm)
    rw [List.map_map, List.map_congr_left hid, List.map_id]
  have htold : calls.map (Notification.told J) =
      ((calls.map Notification.data).map (readBack J)).map some := by
    rw [List.map_map, List.map_map]
    refine List.map_congr_left fun call hcall => ?_
    obtain ⟨m, hm, hdata⟩ := List.mem_map.1 (hsubperm.subset (List.mem_map_of_mem hcall))
    simp only [Function.comp_apply, Notification.told, ← hdata, readBack_serialize hJ (htexts m hm),
      synthetize_of_serialize hJ (htexts m hm)]
  have hlogged : ((calls.map Notification.data).map (readBack J)).Subperm logged := by
    obtain ⟨l, hperm, hsub⟩ := hsubperm
    rw [← hback]
    exact ⟨l.map (readBack J), hperm.map _, hsub.map _⟩
  obtain ⟨texts, hwrites⟩ := Made.writes rt fun m hm => hmade m (hlogged.subset hm)
  refine ⟨_, htold, hlogged, fun hdrained => ?_, texts, hwrites, notifyEach_ok htold hwrites⟩
  have hperm := (hcomplete hdrained).map (readBack J)
  rwa [hback] at hperm

/-- The server's sessions are the client's connections, one after the other. -/
def inTurn (i : Nat) : Option Nat := some (i + 1)

def greeting : Message :=
  ⟨0, ⟨ascii "a.cpp", 7, ascii "f", [], [], [], ascii "a", ascii "1"⟩, ⟨ascii "a", 42⟩, 0,
    ascii "hi", none⟩

def greetingTree : Tree :=
  .object [(ascii "type", .int 0),
    (ascii "build_info",
      buildInfoTree ⟨ascii "a.cpp", 7, ascii "f", [], [], [], ascii "a", ascii "1"⟩),
    (ascii "process_info", .object [(ascii "process", .string (ascii "a")), (ascii "pid", .int 42)]),
    (ascii "time", .string (ascii "0000000000000000")), (ascii "message", .string (ascii "hi")),
    (ascii "exception_info", .object [(ascii "set", .bool false)])]

-- in pieces, since the kernel is slow on a long literal
def greetingText : Str :=
  ascii "\x7b\"type\":0,\"build_info\":\x7b" ++ ascii "\"file\":\"a.cpp\",\"line\":7," ++
    ascii "\"function\":\"f\"," ++ ascii "\"build_date\":\"\"," ++ ascii "\"build_time\":\"\"," ++
    ascii "\"user_build_id\":\"\"," ++ ascii "\"user_program\":\"a\"," ++
    ascii "\"user_version\":\"1\"\x7d," ++
    ascii "\"process_info\":\x7b" ++ ascii "\"process\":\"a\",\"pid\":42\x7d," ++ ascii "\"time\":" ++
    ascii "\"0000000000000000\"," ++ ascii "\"message\":\"hi\"," ++ ascii "\"exception_info\":" ++
    ascii "\x7b\"set\":false\x7d\x7d"

/-- The message is torn on the first connection, and written again on the second. -/
def tearGreeting : List PipelineAct :=
  [.server .startThread, .server .doAccept, .server .enterRun, .client (.connectCompletes 0 true) 0,
    .client (.connectHandler 0) 0, .server (.acceptCompletes 0 true), .server (.acceptHandler 0),
    .client (.send greetingText) 0, .client (.queueMessage 0) 0, .client (.writeCompletes 0 false) 20,
    .client (.writeHandler 0) 0, .client (.readHandler 0) 0,
    .server (.arrive 0 ((frame greetingText).take 20)), .server (.disconnect 0),
    .server (.readCompletes 0 0), .server (.readHandler 0 0), .server (.readCompletes 0 0),
    .server (.readHandler 0 0), .client (.connectCompletes 0 true) 0, .client (.connectHandler 0) 0,
    .server (.acceptCompletes 0 true), .server (.acceptHandler 0), .client (.writeCompletes 0 true) 0,
    .client (.writeHandler 0) 0, .server (.arrive 1 (frame greetingText)),
    .server (.readCompletes 1 0), .server (.readHandler 1 0), .server (.readCompletes 1 0),
    .server (.readHandler 1 0)]

/-- A server with one subscriber, which prints. -/
def greeted : List Str → Bool := notifies (Tree.library greetingTree greetingText) utc 0 false [[]]

theorem printsLogged_of_regular_tearGreeting :
    ∃ p, run (Pipeline.step inTurn) (.init greeted) tearGreeting = some p ∧
      p.server.notified = [(1, greetingText)] ∧
      ∃ msgs, PrintsLogged (Tree.library greetingTree greetingText) utc inTurn p [greeting]
        [⟨greetingText, 7, true⟩] msgs := by
  obtain ⟨p, hrun, hp⟩ := exists_of_any_run (Pipeline.step inTurn) (.init greeted) tearGreeting
    (fun p => decide (p.server.notified = [(1, greetingText)])) (by decide +kernel)
  have hnotified := of_decide_eq_true hp
  have htree : Tree.synthetize ⟨greeting, false⟩
      (template (writerTemplate (Tree.library greetingTree greetingText) greeting)) =
        greetingTree := by
    decide +kernel
  have htext : trySerialize (Tree.library greetingTree greetingText) greeting = .ok greetingText :=
    (congrArg ((Tree.library greetingTree greetingText).serialize false) htree).trans
      (Tree.serialize_library greetingTree greetingText false)
  have hserialize : serialize (Tree.library greetingTree greetingText) greeting = greetingText := by
    rw [serialize, htext]
  have hinj : ∀ i j k, inTurn i = some k → inTurn j = some k → i = j :=
    fun i j k hi hj => Nat.succ.inj (Option.some.inj (hi.trans hj.symm))
  have hmade : ∀ m ∈ [greeting], Made m := fun m hm => List.mem_singleton.1 hm ▸ .plain _ _ _ _ _
  have hsent : tearGreeting.flatMap PipelineAct.sends =
      [greeting].map (serialize (Tree.library greetingTree greetingText)) := by
    rw [List.map_singleton, hserialize]
    rfl
  refine ⟨p, hrun, hnotified, printsLogged_of_regular (Tree.lawful_library _ _) utc 0 false [[]]
    hinj (by decide +kernel)
    hrun hmade (fun m hm => List.mem_singleton.1 hm ▸ ⟨_, htext⟩) hsent (fun entry _ => rfl) ?_⟩
  rw [hnotified]
  rfl

end Libesf.Log

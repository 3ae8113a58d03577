import Libesf.Json.Object
import Libesf.Ipc.Exception

/-!
# The message factory

Concrete message types are registered under string identifiers. `m_rtti_map` takes the RTTI name of a type to the identifier it was registered under last, `m_ctors` takes an identifier to the constructor of a type, and neither is ever looked at when the other is written. What keeps them together is that an identifier is given out once: the constructor under an identifier never changes, so the one under the present identifier of an RTTI name is that of a type with this name. It is the type's own where no two types share a name, which `typeid` does not promise: two classes of one name in anonymous namespaces share it.
-/

namespace Libesf.Ipc

open Json

/-- A class with `LESF_IPC_MESSAGE` and `LESF_IPC_MEMBERS`: the members of its template, and what they hold when the constructor reaches `M_pull`. -/
structure MessageType (J : Json) where
  Object : Type
  members : Members J Object
  fresh : Object

/-- The message types of a program, with what `typeid(T).name()` gives; `derives T U` is what lets a `dynamic_cast` to `U` succeed on a `T`. -/
structure MessageTypes (J : Json) where
  Name : Type
  rtti : Name → Str
  derives : Name → Name → Bool
  derives_self : ∀ T, derives T T = true
  type : Name → MessageType J

variable {J : Json}

structure Message (types : MessageTypes J) where
  type : types.Name
  object : (types.type type).Object

namespace MessageType

variable (O : Objects J) (T : MessageType J)

/-- `M_jsonTemplate`. -/
def jsonTemplate : Template J.Node T.Object := Binding.template T.members.bindings

/-- `M_pull`, into the object under construction. -/
def pull (data : J.Node) : Except Failure T.Object :=
  if O.bound T.jsonTemplate then J.extract T.jsonTemplate data T.fresh else .ok T.fresh

/-- `M_push`. -/
def push (object : T.Object) : Option J.Node :=
  if O.bound T.jsonTemplate then some (J.synthetize T.jsonTemplate object) else none

variable {O T}

/-- Whatever stands for the payload of a message without members, pulling what was pushed restores the members. -/
theorem pull_push (hO : O.Lawful) (object : T.Object) (empty : J.Node) :
    ∃ t, T.pull O ((T.push O object).getD empty) = .ok t ∧ T.members.Agree object t := by
  by_cases hlist : T.members.list = []
  · have hbound : O.bound T.jsonTemplate = false := by
      rw [Bool.eq_false_iff, Ne, hO.bound_iff, not_not, jsonTemplate, Members.bindings, hlist]
      rfl
    refine ⟨T.fresh, by rw [pull, hbound]; rfl, fun m hm => ?_⟩
    rw [hlist] at hm
    cases hm
  · have hbound : O.bound T.jsonTemplate = true := by
      rw [hO.bound_iff, jsonTemplate, Members.bindings, Binding.template]
      exact fun h => hlist (List.map_eq_nil_iff.1 (List.map_eq_nil_iff.1 h))
    rw [pull, push, if_pos hbound, if_pos hbound]
    exact Members.extract_synthetize hO.toLawful hlist object T.fresh

end MessageType

/-! ### The registry -/

/-- `m_rtti_map` and `m_ctors`. -/
structure Registry (types : MessageTypes J) where
  rttiMap : Str → Option Str
  ctors : Str → Option types.Name

namespace Registry

variable {types : MessageTypes J} (r : Registry types)

def empty : Registry types := ⟨fun _ => none, fun _ => none⟩

def registerMessageType (T : types.Name) (id : Str) : Except Exception (Registry types) :=
  if (r.ctors id).isSome then
    .error (.recoverable (.typeException (ascii "identifier `" ++ id ++ ascii "` is already used")))
  else
    .ok
      { rttiMap := Function.update r.rttiMap (types.rtti T) (some id)
        ctors := Function.update r.ctors id (some T) }

def typeIdentifier (T : types.Name) : Except Exception Str :=
  match r.rttiMap (types.rtti T) with
  | some id => .ok id
  | none =>
    .error (.recoverable (.typeException
      (ascii "type is not registered (RTTI name `" ++ types.rtti T ++ ascii "`)")))

/-- A call of `registerMessageType` whose exception, if any, the caller has caught. -/
def attempt (call : types.Name × Str) : Registry types :=
  (r.registerMessageType call.1 call.2).toOption.getD r

/-- The registry after some calls of `registerMessageType`. -/
def after (calls : List (types.Name × Str)) : Registry types := calls.foldl attempt empty

/-- The present identifier of a type leads to its own constructor. -/
def Consistent : Prop := ∀ T id, r.rttiMap (types.rtti T) = some id → r.ctors id = some T

variable {r}

theorem registerMessageType_eq_ok {T : types.Name} {id : Str} {r' : Registry types}
    (h : r.registerMessageType T id = .ok r') :
    r.ctors id = none ∧ r'.rttiMap = Function.update r.rttiMap (types.rtti T) (some id) ∧
      r'.ctors = Function.update r.ctors id (some T) := by
  rw [registerMessageType] at h
  split at h
  · cases h
  · next hfree => exact ⟨by simpa using hfree, by rw [← Except.ok.inj h], by rw [← Except.ok.inj h]⟩

theorem typeIdentifier_eq_ok {T : types.Name} {id : Str} :
    r.typeIdentifier T = .ok id ↔ r.rttiMap (types.rtti T) = some id := by
  rw [typeIdentifier]
  cases r.rttiMap (types.rtti T) with
  | none => simp
  | some id' => simp

/-- Constructors are there for good. -/
theorem ctors_registerMessageType {T U : types.Name} {id id' : Str} {r' : Registry types}
    (h : r.registerMessageType T id = .ok r') (hctor : r.ctors id' = some U) :
    r'.ctors id' = some U := by
  obtain ⟨hfree, -, hctors⟩ := registerMessageType_eq_ok h
  have hne : id' ≠ id := fun heq => by rw [heq, hfree] at hctor; cases hctor
  rw [hctors, Function.update_of_ne hne]
  exact hctor

theorem consistent_registerMessageType (hnames : Function.Injective types.rtti)
    {T : types.Name} {id : Str} {r' : Registry types} (hr : r.Consistent)
    (h : r.registerMessageType T id = .ok r') : r'.Consistent := by
  intro U id' hid
  obtain ⟨-, hrtti, hctors⟩ := registerMessageType_eq_ok h
  rw [hrtti] at hid
  by_cases hU : U = T
  · rw [hU, Function.update_self] at hid
    rw [hctors, ← Option.some.inj hid, Function.update_self, hU]
  · rw [Function.update_of_ne (fun heq => hU (hnames heq))] at hid
    exact ctors_registerMessageType h (hr U id' hid)

theorem consistent_attempt (hnames : Function.Injective types.rtti) (hr : r.Consistent)
    (call : types.Name × Str) : (r.attempt call).Consistent := by
  rw [attempt]
  cases hcall : r.registerMessageType call.1 call.2 with
  | error exc => exact hr
  | ok r' => exact consistent_registerMessageType hnames hr hcall

theorem ctors_attempt (call : types.Name × Str) {id : Str} {T : types.Name}
    (hctor : r.ctors id = some T) : (r.attempt call).ctors id = some T := by
  rw [attempt]
  cases hcall : r.registerMessageType call.1 call.2 with
  | error exc => exact hctor
  | ok r' => exact ctors_registerMessageType hcall hctor

theorem consistent_empty : (empty : Registry types).Consistent := nofun

theorem consistent_after (hnames : Function.Injective types.rtti) (calls : List (types.Name × Str)) :
    (after calls).Consistent :=
  List.foldlRecOn calls attempt consistent_empty fun _ hr call _ => consistent_attempt hnames hr call

end Registry

/-! ### Construction and serialisation -/

namespace MessageFactory

variable {types : MessageTypes J} (O : Objects J) (r : Registry types)

def dataFormatException (what : Str) : Exception := .recoverable (.dataFormatException what)

/-- The identifier and the payload, if every null check of `construct` passes. -/
def openEnvelope (data : J.Node) : Option (Str × J.Node) := do
  let obj ← J.downcastObject data
  let idNode ← J.get obj (ascii "id")
  let id ← J.stringValue idNode
  let payload ← J.get obj (ascii "payload")
  return (id, payload)

/-- The constructor `[](json::Node* data) { return new T(data); }` stored for a type. -/
def newMessage (T : types.Name) (payload : J.Node) : Except Failure (Message types) :=
  ((types.type T).pull O payload).map (Message.mk T)

/-- `construct`, with the identifier it reports next to the message. -/
def construct (json : Str) : Except Exception (Message types × Str) :=
  match J.parse json with
  | .error what => .error (dataFormatException (ascii "invalid IPC JSON data (" ++ what ++ ascii ")"))
  | .ok data =>
    match openEnvelope data with
    | none => .error (dataFormatException (ascii "invalid IPC JSON data"))
    | some (id, payload) =>
      match r.ctors id with
      | none =>
        .error (dataFormatException (ascii "unknown identifier `" ++ id ++
          ascii "` in IPC JSON data"))
      | some T =>
        match newMessage O T payload with
        | .error .nullPointer => .error .nullPointer
        | .error (.throws what) =>
          .error (dataFormatException
            (ascii "IPC JSON data is not consistent with data member bindings for type `" ++ id ++
              ascii "` : " ++ what))
        | .ok msg => .ok (msg, id)

/-- `tpl.bind("id", id)`. -/
def idTemplate (J : Json) : List (Binding J Str) := [.string (ascii "id") ⟨fun v => v, fun v _ => v⟩]

/-- The object synthesised for the identifier, which `serialize` takes for an object node without asking. -/
def identified (J : Json) (id : Str) : J.Node := J.synthetize (Binding.template (idTemplate J)) id

def envelope (id : Str) (payload : J.Node) : J.Node :=
  O.setMember (identified J id) (ascii "payload") payload

def serialize (msg : Message types) : Except Exception Str :=
  match r.typeIdentifier msg.type with
  | .error exc => .error exc
  | .ok id =>
    let payload := ((types.type msg.type).push O msg.object).getD O.newObject
    (J.serialize false (envelope O id payload)).mapError Exception.json

variable {O r}

theorem type_newMessage {T : types.Name} {payload : J.Node} {msg : Message types}
    (h : newMessage O T payload = .ok msg) : msg.type = T := by
  rw [newMessage] at h
  cases hpull : (types.type T).pull O payload with
  | error what =>
    rw [hpull] at h
    cases h
  | ok object =>
    rw [hpull] at h
    exact Except.ok.inj h ▸ rfl

theorem construct_eq_ok {json : Str} {msg : Message types} {id : Str}
    (h : construct O r json = .ok (msg, id)) : r.ctors id = some msg.type := by
  rw [construct] at h
  split at h
  · cases h
  · split at h
    · cases h
    · split at h
      · cases h
      · next T hctor =>
        split at h
        · cases h
        · cases h
        · next msg' hmsg =>
          obtain ⟨rfl, rfl⟩ := Prod.mk.inj (Except.ok.inj h)
          rw [type_newMessage hmsg]
          exact hctor

/-- Everything `construct` throws is a `DataFormatException`. -/
theorem construct_eq_error {json : Str} {exc : Exception} (h : construct O r json = .error exc) :
    exc = .nullPointer ∨ ∃ what, exc = dataFormatException what := by
  rw [construct] at h
  split at h
  · exact .inr ⟨_, (Except.error.inj h).symm⟩
  · split at h
    · exact .inr ⟨_, (Except.error.inj h).symm⟩
    · split at h
      · exact .inr ⟨_, (Except.error.inj h).symm⟩
      · split at h
        · exact .inl (Except.error.inj h).symm
        · exact .inr ⟨_, (Except.error.inj h).symm⟩
        · cases h

theorem downcast_identified (hJ : Lawful J) (id : Str) :
    J.downcastObject (identified J id) = some (identified J id) :=
  Binding.downcast_synthetize hJ (List.cons_ne_nil _ _) id

theorem get_identified (hJ : Lawful J) (id : Str) :
    J.get (identified J id) (ascii "id") = some (J.ofString id) := by
  have hkeys : ((idTemplate J).map Binding.key).Nodup := List.nodup_singleton _
  exact Binding.get_synthetize hJ hkeys (List.mem_singleton_self _) id

theorem openEnvelope_envelope (hO : O.Lawful) (id : Str) (payload : J.Node) :
    openEnvelope (envelope O id payload) = some (id, payload) := by
  have hobject := downcast_identified hO.toLawful id
  have hne : ascii "id" ≠ ascii "payload" := by decide
  simp only [openEnvelope, envelope, hO.downcast_setMember _ _ hobject,
    hO.get_setMember_of_ne _ hobject hne, get_identified hO.toLawful, hO.stringValue_ofString,
    hO.get_setMember_self _ _ hobject, Option.bind_eq_bind, Option.bind_some]
  rfl

/-- A message survives serialisation and construction where the identifier of its type leads to its own constructor. -/
theorem roundTrip (hO : O.Lawful) (msg : Message types) {id : Str}
    (hid : r.typeIdentifier msg.type = .ok id) (hctor : r.ctors id = some msg.type) :
    ∃ json object, serialize O r msg = .ok json ∧ construct O r json = .ok (⟨msg.type, object⟩, id) ∧
      (types.type msg.type).members.Agree msg.object object := by
  obtain ⟨json, hjson⟩ :=
    hO.serialize_ok false (envelope O id (((types.type msg.type).push O msg.object).getD O.newObject))
  obtain ⟨object, hpull, hagree⟩ := MessageType.pull_push hO msg.object O.newObject
  refine ⟨json, object, ?_, ?_, hagree⟩
  · simp only [serialize, hid, hjson]
    rfl
  · simp only [construct, hO.parse_serialize hjson, openEnvelope_envelope hO, hctor,
      newMessage, hpull]
    rfl

/-- **Round trip.** Where no two message types share an RTTI name, a message of a type that is registered survives serialisation and construction after any calls of `registerMessageType`: with its type, its members, and the identifier of its type. -/
theorem construct_serialize (hO : O.Lawful) (hnames : Function.Injective types.rtti)
    (calls : List (types.Name × Str)) (msg : Message types) {id : Str}
    (hid : (Registry.after calls).typeIdentifier msg.type = .ok id) :
    ∃ json object, serialize O (.after calls) msg = .ok json ∧
      construct O (.after calls) json = .ok (⟨msg.type, object⟩, id) ∧
      (types.type msg.type).members.Agree msg.object object := by
  have hctor : (Registry.after calls).ctors id = some msg.type :=
    Registry.consistent_after hnames calls msg.type id (Registry.typeIdentifier_eq_ok.1 hid)
  exact roundTrip hO msg hid hctor

/-- Two message classes, the one without members. -/
inductive SampleName where
  | ping
  | report
  deriving DecidableEq

structure Report where
  count : Int32
  name : Str
  deriving DecidableEq

def Report.members (J : Json) : Members J Report where
  list :=
    [.int (ascii "m_count") ⟨Report.count, fun v s => { s with count := v }⟩ fun _ _ => rfl,
      .string (ascii "m_name") ⟨Report.name, fun v s => { s with name := v }⟩ fun _ _ => rfl]
  keys := (by decide : [ascii "m_count", ascii "m_name"].Nodup)
  get_set m hm m' hm' hne v s := by
    simp only [List.mem_cons, List.not_mem_nil, or_false] at hm hm'
    rcases hm with rfl | rfl <;> rcases hm' with rfl | rfl <;> first | rfl | exact absurd rfl hne
  set_set m hm m' hm' hne v w s := by
    simp only [List.mem_cons, List.not_mem_nil, or_false] at hm hm'
    rcases hm with rfl | rfl <;> rcases hm' with rfl | rfl <;> first | rfl | exact absurd rfl hne

def sampleTypes (J : Json) : MessageTypes J where
  Name := SampleName
  rtti
    | .ping => ascii "4Ping"
    | .report => ascii "6Report"
  derives T U := decide (T = U)
  derives_self _ := decide_eq_true rfl
  type
    | .ping => ⟨Unit, ⟨[], List.nodup_nil, nofun, nofun⟩, ()⟩
    | .report => ⟨Report, Report.members J, ⟨0, []⟩⟩

instance (J : Json) : DecidableEq (sampleTypes J).Name := inferInstanceAs (DecidableEq SampleName)

theorem sampleTypes_names (J : Json) : Function.Injective (sampleTypes J).rtti := by
  have hne : ascii "4Ping" ≠ ascii "6Report" := by decide
  rintro (_ | _) (_ | _) h
  · rfl
  · exact absurd h hne
  · exact absurd h.symm hne
  · rfl

/-- The tree of a report, and its text. -/
def reportTree : Tree :=
  .object [(ascii "id", .string (ascii "b")),
    (ascii "payload", .object [(ascii "m_count", .int 3), (ascii "m_name", .string (ascii "x"))])]

def reportText : Str :=
  ascii "\x7b\"id\":\"b\",\"payload\":\x7b\"m_count\":3,\"m_name\":\"x\"\x7d\x7d"

/-- A report is registered, registered again under a new identifier, and a ping is refused that identifier. -/
def reportCalls : List (SampleName × Str) :=
  [(.report, ascii "a"), (.report, ascii "b"), (.ping, ascii "b")]

def reportRegistry (J : Json) : Registry (sampleTypes J) := .after reportCalls

def sampleReport (J : Json) : Message (sampleTypes J) := ⟨.report, ⟨3, ascii "x"⟩⟩

theorem typeIdentifier_report (J : Json) :
    (reportRegistry J).typeIdentifier .report = .ok (ascii "b") :=
  Registry.typeIdentifier_eq_ok.2 rfl

theorem construct_serialize_report :
    ∃ json object,
      serialize (Tree.objects reportTree reportText) (reportRegistry _) (sampleReport _) = .ok json ∧
        construct (Tree.objects reportTree reportText) (reportRegistry _) json =
          .ok (⟨.report, object⟩, ascii "b") ∧
        ((sampleTypes _).type .report).members.Agree ⟨3, ascii "x"⟩ object :=
  @construct_serialize _ (sampleTypes _) _ (Tree.lawful_objects reportTree reportText)
    (sampleTypes_names _) reportCalls
    (sampleReport _) _ (typeIdentifier_report _)

/-- The two classes under one name, each in the anonymous namespace of its file. -/
def homonyms (J : Json) : MessageTypes J :=
  { sampleTypes J with rtti := fun _ => ascii "N12_GLOBAL__N_13MsgE" }

/-- A report is registered, and a ping after it. -/
def homonymCalls (J : Json) : List ((homonyms J).Name × Str) :=
  [(SampleName.report, ascii "a"), (SampleName.ping, ascii "b")]

/-- The report is sent under the identifier of the ping, and comes back as one. -/
theorem homonyms_swap :
    (Registry.after (homonymCalls (Tree.total reportTree reportText))).typeIdentifier
        SampleName.report = .ok (ascii "b") ∧
      serialize (Tree.objects reportTree reportText) (.after (homonymCalls _))
        ⟨SampleName.report, ⟨3, ascii "x"⟩⟩ = .ok reportText ∧
      construct (Tree.objects reportTree reportText) (.after (homonymCalls _)) reportText =
        .ok (⟨SampleName.ping, ()⟩, ascii "b") ∧
      ¬ ∃ json object, serialize (Tree.objects reportTree reportText) (.after (homonymCalls _))
            ⟨SampleName.report, ⟨3, ascii "x"⟩⟩ = .ok json ∧
          construct (Tree.objects reportTree reportText) (.after (homonymCalls _)) json =
            .ok (⟨SampleName.report, object⟩, ascii "b") := by
  have hserialize : serialize (Tree.objects reportTree reportText) (.after (homonymCalls _))
      ⟨SampleName.report, ⟨3, ascii "x"⟩⟩ = .ok reportText := by decide +kernel
  have hconstruct : construct (Tree.objects reportTree reportText) (.after (homonymCalls _))
      reportText = .ok (⟨SampleName.ping, ()⟩, ascii "b") := rfl
  refine ⟨rfl, hserialize, hconstruct, ?_⟩
  rintro ⟨json, object, hjson, hreport⟩
  obtain rfl : reportText = json := Except.ok.inj (hserialize.symm.trans hjson)
  have hmessage := (Prod.mk.inj (Except.ok.inj (hconstruct.symm.trans hreport))).1
  exact SampleName.noConfusion (congrArg Message.type hmessage)

end MessageFactory

end Libesf.Ipc

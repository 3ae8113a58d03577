import Libesf.Ipc.Action
import Libesf.Ipc.ActiveHandlers
import Libesf.Ipc.StartUp
import Libesf.Ipc.TypedChannel
import Libesf.Ipc.Answering

/-!
# The messages of an action

An `ACTION` declares a struct for the parameters and one for the response, and from each makes a message class: the identifier of the call, for a response the error, and the members of the struct under keys that start with `data.`. The static `Internals` of each action registers the two classes before `main`, in whatever order the linker puts them.

The threads of the action protocol take the two messages of an action for granted, as a pair of functions that undo each other. Here these functions are those of `MessageFactory`, in two processes that got to `main`.
-/

namespace Libesf.Ipc

open Json Transition

variable {J : Json}

/-! ### The classes an `ACTION` makes -/

/-- A `PARAMS` or `RESPONSE` list: the members of the struct, which has no others, and what they hold before anything is extracted. -/
structure Declaration (J : Json) (σ : Type) where
  members : Members J σ
  fresh : σ
  ext : ∀ a s, members.Agree a s → s = a

namespace ActionData

variable {Params : Type}

def idMember (J : Json) (Params : Type) : Members J (ActionData Params) where
  list := [.string (ascii "id") ⟨ActionData.id, fun v s => { s with id := v }⟩ fun _ _ => rfl]
  keys := List.nodup_singleton _
  get_set m hm m' hm' hne := absurd (by rw [List.mem_singleton.1 hm, List.mem_singleton.1 hm']) hne
  set_set m hm m' hm' hne := absurd (by rw [List.mem_singleton.1 hm, List.mem_singleton.1 hm']) hne

def dataPart (Params : Type) : PartRef (ActionData Params) Params where
  get := ActionData.data
  set v s := { s with data := v }
  get_set _ _ := rfl
  set_set _ _ _ := rfl

theorem beside : (idMember J Params).Beside (ascii "data.") (dataPart Params) where
  keys m hm := by
    rw [List.mem_singleton.1 hm]
    exact (by decide : ¬ ascii "data." <+: ascii "id")
  get_set m hm v s := by
    obtain rfl := List.mem_singleton.1 hm
    rfl
  part_set m hm v s := by
    obtain rfl := List.mem_singleton.1 hm
    rfl
  set_set m hm v w s := by
    obtain rfl := List.mem_singleton.1 hm
    rfl

/-- `LESF_IPC_MEMBERS(id REFLIST(_params))`. -/
def members (declaration : Declaration J Params) : Members J (ActionData Params) :=
  Members.withPart beside declaration.members

theorem eq_of_agree {declaration : Declaration J Params} {a s : ActionData Params}
    (h : (members declaration).Agree a s) : s = a := by
  obtain ⟨hown, hdata⟩ := Members.agree_withPart.1 h
  have hid : s.id = a.id := hown _ List.mem_cons_self
  have hdata : s.data = a.data := declaration.ext a.data s.data hdata
  obtain ⟨id, data⟩ := s
  obtain rfl := hid
  obtain rfl := hdata
  rfl

end ActionData

namespace ResponseData

variable {Result : Type}

/-- `id, error.set, error.message, error.code`. -/
def ownMembers (J : Json) (Result : Type) : Members J (ResponseData Result) where
  list :=
    [.string (ascii "id") ⟨ResponseData.id, fun v s => { s with id := v }⟩ fun _ _ => rfl,
      .bool (ascii "error.set") ⟨fun s => s.error.set, fun v s => { s with error.set := v }⟩
        fun _ _ => rfl,
      .string (ascii "error.message") ⟨fun s => s.error.message,
        fun v s => { s with error.message := v }⟩ fun _ _ => rfl,
      .int (ascii "error.code") ⟨fun s => s.error.code, fun v s => { s with error.code := v }⟩
        fun _ _ => rfl]
  keys :=
    (by decide : [ascii "id", ascii "error.set", ascii "error.message", ascii "error.code"].Nodup)
  get_set m hm m' hm' hne v s := by
    simp only [List.mem_cons, List.not_mem_nil, or_false] at hm hm'
    rcases hm with rfl | rfl | rfl | rfl <;> rcases hm' with rfl | rfl | rfl | rfl <;>
      first | rfl | exact absurd rfl hne
  set_set m hm m' hm' hne v w s := by
    simp only [List.mem_cons, List.not_mem_nil, or_false] at hm hm'
    rcases hm with rfl | rfl | rfl | rfl <;> rcases hm' with rfl | rfl | rfl | rfl <;>
      first | rfl | exact absurd rfl hne

def dataPart (Result : Type) : PartRef (ResponseData Result) Result where
  get := ResponseData.data
  set v s := { s with data := v }
  get_set _ _ := rfl
  set_set _ _ _ := rfl

theorem beside : (ownMembers J Result).Beside (ascii "data.") (dataPart Result) where
  keys m hm := by
    simp only [ownMembers, List.mem_cons, List.not_mem_nil, or_false] at hm
    rcases hm with rfl | rfl | rfl | rfl
    · exact (by decide : ¬ ascii "data." <+: ascii "id")
    · exact (by decide : ¬ ascii "data." <+: ascii "error.set")
    · exact (by decide : ¬ ascii "data." <+: ascii "error.message")
    · exact (by decide : ¬ ascii "data." <+: ascii "error.code")
  get_set m hm v s := by
    simp only [ownMembers, List.mem_cons, List.not_mem_nil, or_false] at hm
    rcases hm with rfl | rfl | rfl | rfl <;> rfl
  part_set m hm v s := by
    simp only [ownMembers, List.mem_cons, List.not_mem_nil, or_false] at hm
    rcases hm with rfl | rfl | rfl | rfl <;> rfl
  set_set m hm v w s := by
    simp only [ownMembers, List.mem_cons, List.not_mem_nil, or_false] at hm
    rcases hm with rfl | rfl | rfl | rfl <;> rfl

/-- `LESF_IPC_MEMBERS(id, error.set, error.message, error.code REFLIST(_response))`. -/
def allMembers (declaration : Declaration J Result) : Members J (ResponseData Result) :=
  Members.withPart beside declaration.members

theorem eq_of_agree {declaration : Declaration J Result} {a s : ResponseData Result}
    (h : (allMembers declaration).Agree a s) : s = a := by
  obtain ⟨hown, hdata⟩ := Members.agree_withPart.1 h
  simp only [Members.Agree, ownMembers, List.forall_mem_cons] at hown
  obtain ⟨hid, hset, hmessage, hcode, -⟩ := hown
  have hdata : s.data = a.data := declaration.ext a.data s.data hdata
  obtain ⟨id, ⟨set, message, code⟩, data⟩ := s
  obtain ⟨id', ⟨set', message', code'⟩, data'⟩ := a
  obtain rfl : id = id' := hid
  obtain rfl : set = set' := hset
  obtain rfl : message = message' := hmessage
  obtain rfl : code = code' := hcode
  obtain rfl : data = data' := hdata
  rfl

end ResponseData

/-! ### The classes of a program -/

/-- The message classes of a program: two for each action, and its own. -/
inductive ActionMessage (A N : Type) where
  | action (a : A)
  | response (a : A)
  | other (name : N)
  deriving DecidableEq

/-- The file of `ACTION`s a program is compiled with, and its other message classes. -/
structure ActionFile (J : Json) (A N : Type) (Params Result : A → Type) where
  /-- `#_ns "::" #_name`. -/
  name : A → Str
  name_injective : Function.Injective name
  params : ∀ a, Declaration J (Params a)
  response : ∀ a, Declaration J (Result a)
  other : N → MessageType J
  rtti : ActionMessage A N → Str
  derives : ActionMessage A N → ActionMessage A N → Bool
  derives_self : ∀ T, derives T T = true

namespace ActionFile

variable {A N : Type} {Params Result : A → Type} (file : ActionFile J A N Params Result)

def types : MessageTypes J where
  Name := ActionMessage A N
  rtti := file.rtti
  derives := file.derives
  derives_self := file.derives_self
  type
    | .action a =>
      ⟨ActionData (Params a), ActionData.members (file.params a), ⟨[], (file.params a).fresh⟩⟩
    | .response a =>
      ⟨ResponseData (Result a), ResponseData.allMembers (file.response a),
        ⟨[], .unset, (file.response a).fresh⟩⟩
    | .other name => file.other name

def actionId (a : A) : Str := file.name a ++ ascii "_action"

def responseId (a : A) : Str := file.name a ++ ascii "_response"

/-- The two calls of `Internals::Internals`. -/
def internals (a : A) : List (file.types.Name × Str) :=
  [(ActionMessage.action a, file.actionId a), (ActionMessage.response a, file.responseId a)]

def actionMessage (a : A) (data : ActionData (Params a)) : Message file.types :=
  ⟨ActionMessage.action a, data⟩

def responseMessage (a : A) (data : ResponseData (Result a)) : Message file.types :=
  ⟨ActionMessage.response a, data⟩

/-- What a process registers before `main`: the classes of each action by its `Internals` and by nobody else, in any order and among others. -/
structure Starts (calls : List (file.types.Name × Str)) : Prop where
  internals : ∀ a, ∀ call ∈ file.internals a, call ∈ calls
  action : ∀ a, ∀ call ∈ calls, call.1 = ActionMessage.action a → call.2 = file.actionId a
  response : ∀ a, ∀ call ∈ calls, call.1 = ActionMessage.response a → call.2 = file.responseId a

variable {file}

theorem eq_of_actionId_eq {a b : A} (h : file.actionId a = file.actionId b) : a = b :=
  file.name_injective (List.append_cancel_right h)

theorem eq_of_responseId_eq {a b : A} (h : file.responseId a = file.responseId b) : a = b :=
  file.name_injective (List.append_cancel_right h)

/-- The two suffixes end in different letters. -/
theorem actionId_ne_responseId (a b : A) : file.actionId a ≠ file.responseId b := by
  intro h
  have hlast := congrArg List.getLast? h
  rw [actionId, responseId, List.getLast?_append, List.getLast?_append] at hlast
  exact absurd hlast
    (by simp [(by decide : (ascii "_action").getLast? = some 110),
      (by decide : (ascii "_response").getLast? = some 101)])

/-- The identifiers of the actions of a file do not collide. -/
theorem nodup_ids_internals {actions : List A} (h : actions.Nodup) :
    ((actions.flatMap file.internals).map Prod.snd).Nodup := by
  rw [List.map_flatMap, List.nodup_flatMap]
  refine ⟨fun a _ => ?_, h.imp fun {a b} hne => ?_⟩
  · exact List.nodup_cons.2 ⟨fun hmem => actionId_ne_responseId a a (List.mem_singleton.1 hmem),
      List.nodup_singleton _⟩
  · intro id hmem hmem'
    simp only [internals, List.map_cons, List.map_nil, List.mem_cons, List.not_mem_nil,
      or_false] at hmem hmem'
    obtain rfl | rfl := hmem <;> obtain heq | heq := hmem'
    · exact hne (eq_of_actionId_eq heq)
    · exact actionId_ne_responseId a b heq
    · exact actionId_ne_responseId b a heq.symm
    · exact hne (eq_of_responseId_eq heq)

/-- A program that has no other message classes. -/
theorem starts_flatMap {actions : List A} (h : ∀ a, a ∈ actions) :
    file.Starts (actions.flatMap file.internals) where
  internals a call hcall := List.mem_flatMap.2 ⟨a, h a, hcall⟩
  action a call hcall htype := by
    obtain ⟨b, -, hmem⟩ := List.mem_flatMap.1 hcall
    simp only [internals, List.mem_cons, List.not_mem_nil, or_false] at hmem
    obtain rfl | rfl := hmem
    · rw [ActionMessage.action.inj htype]
    · cases htype
  response a call hcall htype := by
    obtain ⟨b, -, hmem⟩ := List.mem_flatMap.1 hcall
    simp only [internals, List.mem_cons, List.not_mem_nil, or_false] at hmem
    obtain rfl | rfl := hmem
    · cases htype
    · rw [ActionMessage.response.inj htype]

/-- In each process the classes of an action stand under the two identifiers made of its name. -/
structure Registered (file : ActionFile J A N Params Result) (r : Registry file.types) : Prop where
  action : ∀ a, r.typeIdentifier (ActionMessage.action a) = .ok (file.actionId a)
  response : ∀ a, r.typeIdentifier (ActionMessage.response a) = .ok (file.responseId a)
  actionCtor : ∀ a, r.ctors (file.actionId a) = some (ActionMessage.action a)
  responseCtor : ∀ a, r.ctors (file.responseId a) = some (ActionMessage.response a)

theorem registered_of_starts (hnames : Function.Injective file.rtti)
    {calls : List (file.types.Name × Str)} (h : file.Starts calls) {r : Registry file.types}
    (hr : Registry.empty.registerAll calls = .ok r) : file.Registered r where
  action a := Registry.typeIdentifier_eq_ok.2 (Registry.rttiMap_registerAll hnames hr (h.action a)
    (.inl (h.internals a _ List.mem_cons_self)))
  response a := Registry.typeIdentifier_eq_ok.2 (Registry.rttiMap_registerAll hnames hr (h.response a)
    (.inl (h.internals a _ (List.mem_cons_of_mem _ List.mem_cons_self))))
  actionCtor a := (Registry.ctors_registerAll hr).2 _ (h.internals a _ List.mem_cons_self)
  responseCtor a :=
    (Registry.ctors_registerAll hr).2 _ (h.internals a _ (List.mem_cons_of_mem _ List.mem_cons_self))

end ActionFile

/-! ### From one process to the other -/

namespace ActionFile

variable {A N : Type} {Params Result : A → Type} {file : ActionFile J A N Params Result}
    {O : Objects J} {near far : Registry file.types}

theorem action_crosses (hO : O.Lawful) (hnear : file.Registered near)
    (hfar : file.Registered far) (a : A) (data : ActionData (Params a)) :
    ∃ json, MessageFactory.serialize O near (file.actionMessage a data) = .ok json ∧
      MessageFactory.construct O far json = .ok (file.actionMessage a data, file.actionId a) := by
  obtain ⟨json, object, hjson, hconstruct, hagree⟩ :=
    MessageFactory.exists_construct hO (file.actionMessage a data) (hnear.action a)
      (hfar.actionCtor a)
  have hsame : object = data := ActionData.eq_of_agree hagree
  rw [hsame] at hconstruct
  exact ⟨json, hjson, hconstruct⟩

theorem response_crosses (hO : O.Lawful) (hnear : file.Registered near)
    (hfar : file.Registered far) (a : A) (data : ResponseData (Result a)) :
    ∃ json, MessageFactory.serialize O near (file.responseMessage a data) = .ok json ∧
      MessageFactory.construct O far json = .ok (file.responseMessage a data, file.responseId a) := by
  obtain ⟨json, object, hjson, hconstruct, hagree⟩ :=
    MessageFactory.exists_construct hO (file.responseMessage a data) (hnear.response a)
      (hfar.responseCtor a)
  have hsame : object = data := ResponseData.eq_of_agree hagree
  rw [hsame] at hconstruct
  exact ⟨json, hjson, hconstruct⟩

/-- **The messages of an action between two processes.** A process gets to `main` if and only if the maps of the factory are constructed before any class is registered and no identifier is taken twice; the classes of the file itself take different ones. Two processes compiled with the same file of actions, whose static objects are constructed in any order and register any other classes in between, and which get there, understand each other where no two classes share an RTTI name: every request and every response that one of them writes, for every action of the file, is restored by the other to the very same identifier, parameters, error and response. -/
theorem messages_cross_of_starts (hO : O.Lawful) (hnames : Function.Injective file.rtti)
    {u u' : StartUp file.types} (hstarts : file.Starts u.calls) (hstarts' : file.Starts u'.calls) :
    ((∃ client, u.run = .ok (some client)) ↔ u.mapsFirst ∧ (u.calls.map Prod.snd).Nodup) ∧
      (∀ actions : List A, actions.Nodup → u.calls.Perm (actions.flatMap file.internals) →
        (u.calls.map Prod.snd).Nodup) ∧
      ∀ client server, u.run = .ok (some client) → u'.run = .ok (some server) →
        (∀ a (data : ActionData (Params a)), ∃ json,
          MessageFactory.serialize O client (file.actionMessage a data) = .ok json ∧
            MessageFactory.construct O server json =
              .ok (file.actionMessage a data, file.actionId a)) ∧
        ∀ a (data : ResponseData (Result a)), ∃ json,
          MessageFactory.serialize O server (file.responseMessage a data) = .ok json ∧
            MessageFactory.construct O client json =
              .ok (file.responseMessage a data, file.responseId a) := by
  refine ⟨StartUp.exists_run_iff u, fun actions hactions hcalls => ?_,
    fun client server hclient hserver => ?_⟩
  · exact (hcalls.map Prod.snd).nodup_iff.2 (nodup_ids_internals hactions)
  · have hclientRegistered := registered_of_starts hnames hstarts (StartUp.run_eq_ok.1 hclient).2
    have hserverRegistered := registered_of_starts hnames hstarts' (StartUp.run_eq_ok.1 hserver).2
    exact ⟨action_crosses hO hclientRegistered hserverRegistered,
      response_crosses hO hserverRegistered hclientRegistered⟩

end ActionFile

/-- Two actions, the one with an empty `PARAMS` list and an empty `RESPONSE` list. -/
inductive CameraAction where
  | setZoom
  | home
  deriving DecidableEq

structure Zoom where
  foo : Int32
  bar : Str
  deriving DecidableEq

/-- `PARAMS(_(int, foo), _(std::string, bar))`. -/
def Zoom.declaration (J : Json) : Declaration J Zoom where
  members :=
    { list :=
        [.int (ascii "foo") ⟨Zoom.foo, fun v s => { s with foo := v }⟩ fun _ _ => rfl,
          .string (ascii "bar") ⟨Zoom.bar, fun v s => { s with bar := v }⟩ fun _ _ => rfl]
      keys := (by decide : [ascii "foo", ascii "bar"].Nodup)
      get_set m hm m' hm' hne v s := by
        simp only [List.mem_cons, List.not_mem_nil, or_false] at hm hm'
        rcases hm with rfl | rfl <;> rcases hm' with rfl | rfl <;> first | rfl | exact absurd rfl hne
      set_set m hm m' hm' hne v w s := by
        simp only [List.mem_cons, List.not_mem_nil, or_false] at hm hm'
        rcases hm with rfl | rfl <;> rcases hm' with rfl | rfl <;>
          first | rfl | exact absurd rfl hne }
  fresh := ⟨0, []⟩
  ext a s h := by
    have hfoo : s.foo = a.foo := h _ List.mem_cons_self
    have hbar : s.bar = a.bar := h _ (List.mem_cons_of_mem _ List.mem_cons_self)
    obtain ⟨foo, bar⟩ := s
    obtain rfl := hfoo
    obtain rfl := hbar
    rfl

def noMembers (J : Json) (σ : Type) : Members J σ where
  list := []
  keys := List.nodup_nil
  get_set _ hm := absurd hm List.not_mem_nil
  set_set _ hm := absurd hm List.not_mem_nil

/-- `PARAMS()`. -/
def Declaration.empty (J : Json) : Declaration J Unit := ⟨noMembers J Unit, (), fun _ _ _ => rfl⟩

/-- `RESPONSE(_(bool, baz))`. -/
def bazDeclaration (J : Json) : Declaration J Bool where
  members :=
    { list := [.bool (ascii "baz") ⟨fun s => s, fun v _ => v⟩ fun _ _ => rfl]
      keys := List.nodup_singleton _
      get_set m hm m' hm' hne :=
      absurd (by rw [List.mem_singleton.1 hm, List.mem_singleton.1 hm']) hne
      set_set m hm m' hm' hne :=
      absurd (by rw [List.mem_singleton.1 hm, List.mem_singleton.1 hm']) hne }
  fresh := false
  ext _ _ h := h _ List.mem_cons_self

def CameraAction.Params : CameraAction → Type
  | .setZoom => Zoom
  | .home => Unit

def CameraAction.Result : CameraAction → Type
  | .setZoom => Bool
  | .home => Unit

def cameraRtti : ActionMessage CameraAction Unit → Str
  | .action .setZoom => ascii "N4user6camera7SetZoom10ActionDataE"
  | .response .setZoom => ascii "N4user6camera7SetZoom12ResponseDataE"
  | .action .home => ascii "N4user6camera4Home10ActionDataE"
  | .response .home => ascii "N4user6camera4Home12ResponseDataE"
  | .other _ => ascii "4Ping"

theorem cameraRtti_injective : Function.Injective cameraRtti := by
  intro S T h
  rcases S with (_ | _) | (_ | _) | ⟨⟨⟩⟩ <;> rcases T with (_ | _) | (_ | _) | ⟨⟨⟩⟩ <;>
    first | rfl | exact absurd h (by decide)

def cameraFile (J : Json) :
    ActionFile J CameraAction Unit CameraAction.Params CameraAction.Result where
  name
    | .setZoom => ascii "camera::SetZoom"
    | .home => ascii "camera::Home"
  name_injective a b h := by cases a <;> cases b <;> first | rfl | exact absurd h (by decide)
  params
    | .setZoom => Zoom.declaration J
    | .home => .empty J
  response
    | .setZoom => bazDeclaration J
    | .home => .empty J
  other _ := ⟨Unit, noMembers J Unit, ()⟩
  rtti := cameraRtti
  derives S T := decide (S = T)
  derives_self _ := decide_eq_true rfl

/-- The one process constructs its static objects in the order of the file, the other the other way round, and registers a class of its own in between. -/
def cameraCalls (J : Json) : List ((cameraFile J).types.Name × Str) :=
  (cameraFile J).internals .setZoom ++ (cameraFile J).internals .home

def cameraCallsOther (J : Json) : List ((cameraFile J).types.Name × Str) :=
  (cameraFile J).internals .home ++
    ((ActionMessage.other (), ascii "ping") : (cameraFile J).types.Name × Str) ::
    (cameraFile J).internals .setZoom

theorem starts_cameraCalls (J : Json) : (cameraFile J).Starts (cameraCalls J) :=
  have hall : ∀ a, a ∈ [CameraAction.setZoom, CameraAction.home] := fun a => by cases a <;> decide
  @ActionFile.starts_flatMap J CameraAction Unit _ _ (cameraFile J) _ hall

theorem starts_cameraCallsOther (J : Json) : (cameraFile J).Starts (cameraCallsOther J) where
  internals a call hcall := by
    cases a with
    | setZoom => exact List.mem_append_right _ (List.mem_cons_of_mem _ hcall)
    | home => exact List.mem_append_left _ hcall
  action a call hcall htype := by
    simp only [cameraCallsOther, ActionFile.internals, List.cons_append, List.nil_append,
      List.mem_cons, List.not_mem_nil, or_false] at hcall
    rcases hcall with rfl | rfl | rfl | rfl | rfl <;>
      first | (obtain rfl := ActionMessage.action.inj htype; rfl) | cases htype
  response a call hcall htype := by
    simp only [cameraCallsOther, ActionFile.internals, List.cons_append, List.nil_append,
      List.mem_cons, List.not_mem_nil, or_false] at hcall
    rcases hcall with rfl | rfl | rfl | rfl | rfl <;>
      first | (obtain rfl := ActionMessage.response.inj htype; rfl) | cases htype

theorem messages_cross_of_starts_camera :
    ∃ client server : Registry (cameraFile (Tree.total .empty [])).types, ∃ json,
      (StartUp.of (cameraCalls _)).run = .ok (some client) ∧
      (StartUp.of (cameraCallsOther _)).run = .ok (some server) ∧
        MessageFactory.serialize (Tree.objects .empty []) client
          ((cameraFile _).actionMessage .setZoom ⟨ascii "1", (⟨123, ascii "banana"⟩ : Zoom)⟩) =
            .ok json ∧
        MessageFactory.construct (Tree.objects .empty []) server json =
          .ok ((cameraFile _).actionMessage .setZoom ⟨ascii "1", (⟨123, ascii "banana"⟩ : Zoom)⟩,
            ascii "camera::SetZoom_action") := by
  have hstarts : (cameraFile (Tree.total .empty [])).Starts (StartUp.of (cameraCalls _)).calls := by
    rw [StartUp.calls_of]
    exact starts_cameraCalls _
  have hstarts' : (cameraFile (Tree.total .empty [])).Starts
      (StartUp.of (cameraCallsOther _)).calls := by
    rw [StartUp.calls_of]
    exact starts_cameraCallsOther _
  obtain ⟨hiff, -, hcross⟩ :=
    ActionFile.messages_cross_of_starts (Tree.lawful_objects .empty []) cameraRtti_injective
      hstarts hstarts'
  obtain ⟨client, hclient⟩ := hiff.2 (StartUp.mapsFirst_of _ (by decide))
  obtain ⟨server, hserver⟩ := (StartUp.exists_run_iff _).2
    (StartUp.mapsFirst_of (cameraCallsOther (Tree.total .empty [])) (by decide))
  obtain ⟨haction, -⟩ := hcross client server hclient hserver
  obtain ⟨json, hjson, hconstruct⟩ := haction .setZoom ⟨ascii "1", (⟨123, ascii "banana"⟩ : Zoom)⟩
  exact ⟨client, server, json, hclient, hserver, hjson, hconstruct⟩

/-! ### What the threads work with -/

/-- What the receive thread catches. The rest ends the process; two processes that understand each other raise none of it. -/
def Exception.caught : Exception → RecoverableException
  | .recoverable exc => exc
  | .json what | .other what => .user what
  | .nullPointer => .user []

namespace ActionFile

variable {A N P R : Type} (file : ActionFile J A N (fun _ => P) (fun _ => R)) (O : Objects J)
  (client server : Registry file.types)

/-- What one process makes of a message and the other of its text, where all actions have structs of one type. A class that is none of the action's has no slot in the endpoint the text is for. -/
def codec : Codec A P R where
  name := file.name
  serializeRequest req :=
    MessageFactory.serialize O client (file.actionMessage req.action ⟨req.id, req.params⟩)
  serializeResponse resp :=
    MessageFactory.serialize O server (file.responseMessage resp.action resp.data)
  constructRequest json :=
    match MessageFactory.construct O server json with
    | .ok (⟨.action a, data⟩, _) => .ok ⟨a, data.id, data.data⟩
    | .ok (_, id) => .error (notConnectedToSlot id)
    | .error exc => .error exc.caught
  constructResponse json :=
    match MessageFactory.construct O client json with
    | .ok (⟨.response a, data⟩, _) => .ok ⟨a, data⟩
    | .ok (_, id) => .error (notConnectedToSlot id)
    | .error exc => .error exc.caught

variable {file O client server}

/-- `MessageFactory` restores the messages of the threads. -/
theorem restores_codec (hO : O.Lawful) (hclient : file.Registered client)
    (hserver : file.Registered server)
    (hnul : ∀ {pretty node text}, J.serialize pretty node = .ok text → 0 ∉ text) :
    (file.codec O client server).Restores where
  request req json h := by
    have hjson := (packet_eq_ok.1 h).1
    obtain ⟨json', hjson', hconstruct⟩ :=
      action_crosses hO hclient hserver req.action ⟨req.id, req.params⟩
    obtain rfl : json' = json := Except.ok.inj (hjson'.symm.trans hjson)
    obtain ⟨id, -, htext⟩ := MessageFactory.serialize_eq_ok hjson
    simp only [codec, cstr_eq_self (hnul htext), hconstruct, actionMessage]
  response resp json h := by
    have hjson := (packet_eq_ok.1 h).1
    obtain ⟨json', hjson', hconstruct⟩ := response_crosses hO hserver hclient resp.action resp.data
    obtain rfl : json' = json := Except.ok.inj (hjson'.symm.trans hjson)
    obtain ⟨id, -, htext⟩ := MessageFactory.serialize_eq_ok hjson
    simp only [codec, cstr_eq_self (hnul htext), hconstruct, responseMessage]

/-- **Two processes converse.** Two processes compiled with the same file of actions that both got to `main`, over a JSON library whose texts have no NUL in them: the threads of a client endpoint in the one and of a server endpoint in the other that do not meet at an unlocked map keep the action protocol, and where every `send` completes and no response handler calls `async` of its own type, they leave nothing behind and every request answered or refused when they come to rest. -/
theorem converses_of_starts [DecidableEq A] [Inhabited R] (hO : O.Lawful)
    (hnul : ∀ {pretty node text}, J.serialize pretty node = .ok text → 0 ∉ text)
    (hnames : Function.Injective file.rtti) {u u' : StartUp file.types}
    (hstarts : file.Starts u.calls) (hstarts' : file.Starts u'.calls)
    (hclient : u.run = .ok (some client)) (hserver : u'.run = .ok (some server))
    {serverExcHandler clientExcHandler : Bool} {acts : List (ThreadsAct A P R)}
    {s : ActionThreads A P R} (hrun : run (ActionThreads.definedStep (file.codec O client server))
      (.init A P R serverExcHandler clientExcHandler) acts = some s)
    {seen : List (Event A P R)}
    (hseen : trace (ActionThreads.definedStep (file.codec O client server))
      (ActionThreads.emits (file.codec O client server))
      (.init A P R serverExcHandler clientExcHandler) acts = seen)
    (hfresh : (seen.filterMap Event.generatedId?).Nodup) :
    Conversation s seen ∧
      (Along (ActionThreads.definedStep (file.codec O client server))
          (fun s a => s.completes (file.codec O client server) a = true)
          (.init A P R serverExcHandler clientExcHandler) acts →
        Along (ActionThreads.definedStep (file.codec O client server))
          (fun s a => s.callsForeign a = true) (.init A P R serverExcHandler clientExcHandler) acts →
        ¬ s.Enabled (file.codec O client server) →
        s.Idle ∧ ((seen.filterMap Event.asked?).map Request.key).Perm
          (((seen.filterMap Event.invoked?).map fun entry => (entry.1, entry.2.1)) ++
            (seen.filterMap Event.unserved?).map Request.key)) := by
  have hcodec : (file.codec O client server).Restores := restores_codec hO
    (registered_of_starts hnames hstarts (StartUp.run_eq_ok.1 hclient).2)
    (registered_of_starts hnames hstarts' (StartUp.run_eq_ok.1 hserver).2) hnul
  subst hseen
  obtain ⟨v, hreach, h⟩ := exists_refines_of_defined hcodec hfresh hrun
  refine ⟨h.conversation hreach, fun hsends hforeign hrest => ?_⟩
  have hidle := idle_of_rest hsends hforeign hrun hrest
  exact ⟨hidle, h.settled_perm (h.inFlight_eq_zero hidle)⟩

end ActionFile

/-- One action without parameters and without response members. -/
def homeFile (J : Json) : ActionFile J Unit Empty (fun _ => Unit) (fun _ => Unit) where
  name _ := ascii "camera::Home"
  name_injective _ _ _ := rfl
  params _ := .empty J
  response _ := .empty J
  other name := name.elim
  rtti
    | .action _ => ascii "N4user6camera4Home10ActionDataE"
    | .response _ => ascii "N4user6camera4Home12ResponseDataE"
  derives S T := decide (S = T)
  derives_self _ := decide_eq_true rfl

theorem homeFile_names (J : Json) : Function.Injective (homeFile J).rtti := by
  have hne : ascii "N4user6camera4Home10ActionDataE" ≠
      ascii "N4user6camera4Home12ResponseDataE" := by decide
  rintro (⟨⟨⟩⟩ | ⟨⟨⟩⟩ | ⟨⟨⟩⟩) (⟨⟨⟩⟩ | ⟨⟨⟩⟩ | ⟨⟨⟩⟩) h
  · rfl
  · exact absurd h hne
  · exact absurd h.symm hne
  · rfl

def homeStartUp (J : Json) : StartUp (homeFile J).types := .of ((homeFile J).internals ())

def homeRegistry (J : Json) : Registry (homeFile J).types := .after ((homeFile J).internals ())

theorem starts_homeStartUp (J : Json) : (homeFile J).Starts (homeStartUp J).calls := by
  have hstarts : (homeFile J).Starts ([()].flatMap (homeFile J).internals) :=
    ActionFile.starts_flatMap fun _ => List.mem_singleton_self ()
  rw [homeStartUp, StartUp.calls_of]
  exact hstarts

/-- The request of the action, and its text. -/
def homeTree : Tree :=
  .object [(ascii "id", .string (ascii "camera::Home_action")),
    (ascii "payload", .object [(ascii "id", .string (ascii "1"))])]

def homeText : Str := ascii "\x7b\"id\":\"camera::Home_action\",\"payload\":\x7b\"id\":\"1\"\x7d\x7d"

def homeCodec : Codec Unit Unit Unit :=
  (homeFile _).codec (Tree.objects homeTree homeText) (homeRegistry _) (homeRegistry _)

/-- The action is asked for, and the server has not registered it. -/
def askHome : List (ThreadsAct Unit Unit Unit) :=
  List.flatten [
    [.async () (), .call 0 [], .call 0 (ascii "1"), .call 0 [], .call 0 [], .call 0 []],
    List.replicate 5 (.sendRequest 0), [.call 0 [], .call 0 []], List.replicate 7 .serverReceive]

theorem converses_of_starts_askHome :
    ∃ s seen,
      run (ActionThreads.definedStep homeCodec) (.init Unit Unit Unit true true) askHome = some s ∧
      trace (ActionThreads.definedStep homeCodec) (ActionThreads.emits homeCodec)
        (.init Unit Unit Unit true true) askHome = seen ∧
      Conversation s seen ∧ s.Idle ∧
      (seen.filterMap Event.asked?).map Request.key = [((), ascii "1")] ∧
      ((seen.filterMap Event.asked?).map Request.key).Perm
        (((seen.filterMap Event.invoked?).map fun entry => (entry.1, entry.2.1)) ++
          (seen.filterMap Event.unserved?).map Request.key) := by
  obtain ⟨s, hrun, hresting⟩ :=
    exists_of_any_run (ActionThreads.definedStep homeCodec) (.init Unit Unit Unit true true)
    askHome (fun s => s.resting) (by decide +kernel)
  have hrest := ActionThreads.not_enabled_of_resting homeCodec hresting
  have hnul : ∀ {pretty : Bool} {node : Tree} {text : Str},
      (Tree.total homeTree homeText).serialize pretty node = .ok text → 0 ∉ text := by
    intro pretty node text htext
    rw [← Except.ok.inj htext]
    exact Tree.not_mem_textOf (by decide) (by decide) node
  have hmain : (homeStartUp (Tree.total homeTree homeText)).run = .ok (some (homeRegistry _)) := rfl
  obtain ⟨hconversation, hsettled⟩ :=
    ActionFile.converses_of_starts (Tree.lawful_objects homeTree homeText) hnul
    (homeFile_names _) (starts_homeStartUp _) (starts_homeStartUp _) hmain hmain hrun rfl
      (by decide +kernel)
  obtain ⟨hidle, hperm⟩ := hsettled (by decide +kernel) (by decide +kernel) hrest
  exact ⟨s, _, hrun, rfl, hconversation, hidle, by decide +kernel, hperm⟩

end Libesf.Ipc

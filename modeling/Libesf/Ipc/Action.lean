import Libesf.Json.Tree

/-!
# Results of actions

A server handler returns a `Response` or an `Error`, in an `Either` of two pointers. Which one it is travels as the flag `error.set` of a `ResponseData` message, and the client's response handler goes by that flag. The flag agrees with the `Either` unless the error was default-constructed.
-/

namespace Libesf.Ipc

open Json Binding

structure Error where
  set : Bool
  message : Str
  code : Int32
  deriving DecidableEq, Repr

def Error.unset : Error := ⟨false, [], 0⟩

/-- `Error(message, code)`. -/
def Error.make (message : Str) (code : Int32 := -1) : Error := ⟨true, message, code⟩

/-- `detail::Either`: two pointers, one of them null. -/
structure Either (U V : Type) where
  u : Option U
  v : Option V
  one : u.isSome ≠ v.isSome

namespace Either

variable {U V : Type}

def ofU (u : U) : Either U V := ⟨some u, none, by simp⟩

def ofV (v : V) : Either U V := ⟨none, some v, by simp⟩

theorem eq_ofU_or_eq_ofV (e : Either U V) : (∃ u, e = ofU u) ∨ ∃ v, e = ofV v := by
  obtain ⟨u, v, hone⟩ := e
  cases u with
  | some u =>
    cases v with
    | some v => exact absurd rfl hone
    | none => exact .inl ⟨u, rfl⟩
  | none =>
    cases v with
    | some v => exact .inr ⟨v, rfl⟩
    | none => exact absurd rfl hone

end Either

abbrev ResponseOrError (Response : Type) := Either Error Response

namespace ResponseOrError

variable {Response : Type}

def isError (r : ResponseOrError Response) : Bool := r.u.isSome

def isResponse (r : ResponseOrError Response) : Bool := r.v.isSome

def getError (r : ResponseOrError Response) : Option Error := r.u

def getResponse (r : ResponseOrError Response) : Option Response := r.v

end ResponseOrError

structure ResponseData (Response : Type) where
  id : Str
  error : Error
  data : Response
  deriving DecidableEq, Repr

namespace ResponseData

variable {Response : Type}

def ofResponse (id : Str) (data : Response) : ResponseData Response := ⟨id, .unset, data⟩

def ofError [Inhabited Response] (id : Str) (error : Error) : ResponseData Response :=
  ⟨id, error, default⟩

/-- What the thread of `ActionServer::registerAction` sends for what the handler returned. -/
def ofResult [Inhabited Response] (id : Str) (r : ResponseOrError Response) : ResponseData Response :=
  match r with
  | ⟨some error, _, _⟩ => ofError id error
  | ⟨none, some data, _⟩ => ofResponse id data

@[simp] theorem id_ofResult [Inhabited Response] (id : Str) (r : ResponseOrError Response) :
    (ofResult id r).id = id := by
  obtain ⟨e, rfl⟩ | ⟨data, rfl⟩ := r.eq_ofU_or_eq_ofV <;> rfl

/-- What `M_responseHandler` calls the handler with. -/
def result (resp : ResponseData Response) : ResponseOrError Response :=
  if resp.error.set then .ofU resp.error else .ofV resp.data

end ResponseData

/-! ### The message on the wire -/

/-- The members a `RESPONSE` or `PARAMS` list declares: each is bound, under a key of its own that starts with `data.`, and there are no others. -/
structure Declared (J : Json) (σ : Type) where
  bindings : List (Binding J σ)
  keys : (bindings.map key).Nodup
  under : ∀ b ∈ bindings, ascii "data." <+: b.key
  commute : ∀ b ∈ bindings, ∀ b' ∈ bindings, ∀ a s, b'.copy a (b.copy a s) = b.copy a (b'.copy a s)
  restores : Lawful J → ∀ b ∈ bindings, b.Restores
  complete : ∀ a s, copyAll bindings a s = a

section Wire

variable {J : Json} {Response : Type} (declared : Declared J Response)

def ResponseData.dataRef : Ref (ResponseData Response) Response :=
  ⟨ResponseData.data, fun v s => { s with data := v }⟩

def ResponseData.header (J : Json) (Response : Type) : List (Binding J (ResponseData Response)) :=
  [.string (ascii "id") ⟨ResponseData.id, fun v s => { s with id := v }⟩,
    .bool (ascii "error.set") ⟨fun s => s.error.set, fun v s => { s with error.set := v }⟩,
    .string (ascii "error.message") ⟨fun s => s.error.message,
      fun v s => { s with error.message := v }⟩,
    .int (ascii "error.code") ⟨fun s => s.error.code, fun v s => { s with error.code := v }⟩]

/-- `LESF_IPC_MEMBERS(id, error.set, error.message, error.code REFLIST(_response))`. -/
def ResponseData.members : List (Binding J (ResponseData Response)) :=
  header J Response ++ declared.bindings.map (via dataRef)

/-- `Message::M_push`: the template always has bindings. -/
def ResponseData.push (resp : ResponseData Response) : J.Node :=
  J.synthetize (template (members declared)) resp

/-- `Message::M_pull`, into the object the constructor starts from. -/
def ResponseData.pull (fresh : ResponseData Response) (data : J.Node) :
    Except Failure (ResponseData Response) :=
  J.extract (template (members declared)) data fresh

/-- What the client's handler is called with for what the server's handler returned. -/
def deliver [Inhabited Response] (fresh : ResponseData Response) (id : Str)
    (r : ResponseOrError Response) :
    Except Failure (ResponseOrError Response) := do
  let resp ← ResponseData.pull declared fresh (ResponseData.push declared (.ofResult id r))
  return resp.result

variable {declared}

private theorem map_key_members :
    (ResponseData.members declared).map key =
      [ascii "id", ascii "error.set", ascii "error.message", ascii "error.code"] ++
      declared.bindings.map key := by
  rw [ResponseData.members, List.map_append, List.map_map]
  rfl

theorem nodup_members : ((ResponseData.members declared).map key).Nodup := by
  rw [map_key_members, List.nodup_append]
  refine ⟨by decide, declared.keys, fun k hk k' hk' heq => ?_⟩
  obtain ⟨b, hb, rfl⟩ := List.mem_map.1 hk'
  have hprefix : ascii "data." <+: k := heq ▸ declared.under b hb
  simp only [List.mem_cons, List.not_mem_nil, or_false] at hk
  rcases hk with rfl | rfl | rfl | rfl <;> exact absurd hprefix (by decide)

theorem independent_members : Independent (ResponseData.members declared) where
  nonempty := List.cons_ne_nil _ _
  keys := nodup_members
  commute b hb b' hb' a s := by
    obtain hb | hb := List.mem_append.1 hb <;> obtain hb' | hb' := List.mem_append.1 hb'
    · simp only [ResponseData.header, List.mem_cons, List.not_mem_nil, or_false] at hb hb'
      rcases hb with rfl | rfl | rfl | rfl <;> rcases hb' with rfl | rfl | rfl | rfl <;> rfl
    · obtain ⟨b', _, rfl⟩ := List.mem_map.1 hb'
      simp only [ResponseData.header, List.mem_cons, List.not_mem_nil, or_false] at hb
      rcases hb with rfl | rfl | rfl | rfl <;> rfl
    · obtain ⟨b, _, rfl⟩ := List.mem_map.1 hb
      simp only [ResponseData.header, List.mem_cons, List.not_mem_nil, or_false] at hb'
      rcases hb' with rfl | rfl | rfl | rfl <;> rfl
    · obtain ⟨d, hd, rfl⟩ := List.mem_map.1 hb
      obtain ⟨d', hd', rfl⟩ := List.mem_map.1 hb'
      exact congrArg (fun data => { s with data := data })
        (declared.commute d hd d' hd' a.data s.data)

theorem restores_header (hJ : Lawful J) : ∀ b ∈ ResponseData.header J Response, b.Restores := by
  simp only [ResponseData.header, List.forall_mem_cons, restores_string hJ, restores_bool hJ,
    restores_int hJ, List.not_mem_nil, false_implies, implies_true, and_self]

theorem restores_members (hJ : Lawful J) : ∀ b ∈ ResponseData.members declared, b.Restores := by
  intro b hb
  obtain hb | hb := List.mem_append.1 hb
  · exact restores_header hJ b hb
  · obtain ⟨d, hd, rfl⟩ := List.mem_map.1 hb
    exact (declared.restores hJ d hd).via _

theorem copyAll_members (a s : ResponseData Response) :
    copyAll (ResponseData.members declared) a s = a := by
  rw [ResponseData.members, copyAll_append]
  have hheader : copyAll (ResponseData.header J Response) a s = { a with data := s.data } := rfl
  rw [hheader]
  cases hnil : declared.bindings with
  | nil =>
    have hsame := declared.complete a.data s.data
    rw [hnil] at hsame
    change { a with data := s.data } = a
    rw [show s.data = a.data from hsame]
  | cons b bindings =>
    rw [← hnil, copyAll_map_via (fun _ _ => rfl) (fun _ _ _ => rfl)
      (by rw [hnil]; exact List.cons_ne_nil b bindings), declared.complete]
    rfl

theorem pull_push (hJ : Lawful J) (fresh resp : ResponseData Response) :
    ResponseData.pull declared fresh (ResponseData.push declared resp) = .ok resp := by
  rw [ResponseData.pull, ResponseData.push,
    extract_synthetize hJ independent_members (restores_members hJ), copyAll_members]

/-! ### What the client is told -/

/-- The client is told what the server's handler returned. -/
structure KeepsMeaning (r r' : ResponseOrError Response) : Prop where
  isError : r'.isError = r.isError
  exclusive : r'.isError ≠ r'.isResponse
  error : ∀ e, r.getError = some e → ∃ e', r'.getError = some e' ∧ e'.message = e.message ∧
    e'.code = e.code
  response : ∀ data, r.getResponse = some data → r'.getResponse = some data

/-- **Results of actions.** What the client's handler is called with means what the server's handler returned, if and only if that is a response, or an error with its flag set. -/
theorem keepsMeaning_iff_set [Inhabited Response] (hJ : Lawful J)
    (fresh : ResponseData Response) (id : Str) (r : ResponseOrError Response) :
    (∃ r', deliver declared fresh id r = .ok r' ∧ KeepsMeaning r r') ↔ ∀ e, r.getError = some e →
      e.set = true := by
  have hdeliver : deliver declared fresh id r = .ok (ResponseData.ofResult id r).result := by
    rw [deliver, pull_push hJ]
    rfl
  simp only [hdeliver, Except.ok.injEq, exists_eq_left']
  obtain ⟨e, rfl⟩ | ⟨data, rfl⟩ := r.eq_ofU_or_eq_ofV
  · have hresult : (ResponseData.ofResult id (.ofU e)).result =
      if e.set then Either.ofU e else Either.ofV (default : Response) := rfl
    rw [hresult]
    constructor
    · intro hkeeps e' he'
      obtain rfl : e = e' := Option.some.inj he'
      by_contra hset
      have herror := hkeeps.isError
      rw [if_neg hset] at herror
      cases herror
    · intro hset
      rw [if_pos (hset e rfl)]
      exact ⟨rfl, nofun, fun e' he' => ⟨e', he', rfl, rfl⟩, nofun⟩
  · exact ⟨fun _ => nofun, fun _ => ⟨rfl, nofun, nofun, fun _ hdata => hdata⟩⟩

end Wire

/-- `RESPONSE(_(int, level))`. -/
def levelResponse (J : Json) : Declared J Int32 where
  bindings := [.int (ascii "data.level") ⟨id, fun v _ => v⟩]
  keys := List.nodup_singleton _
  under b hb := by
    rw [List.mem_singleton.1 hb]
    exact (by decide : ascii "data." <+: ascii "data.level")
  commute b hb b' hb' a s := by rw [List.mem_singleton.1 hb, List.mem_singleton.1 hb']
  restores hJ b hb := by
    rw [List.mem_singleton.1 hb]
    exact restores_int hJ _ _
  complete _ _ := rfl

theorem keepsMeaning_iff_set_error :
    ∃ r', deliver (levelResponse (Tree.library .empty [])) ⟨[], .unset, 0⟩ (ascii "1")
      (.ofU (.make (ascii "busy"))) = .ok r' ∧
      KeepsMeaning (.ofU (.make (ascii "busy"))) r' :=
  (keepsMeaning_iff_set (Tree.lawful_library .empty []) ⟨[], .unset, 0⟩ (ascii "1")
    (.ofU (.make (ascii "busy")))).2 fun e he => by
    obtain rfl : Error.make (ascii "busy") = e := Option.some.inj he
    rfl

/-- A default-constructed error arrives as a response, with data nobody returned. -/
theorem unset_error_becomes_response :
    deliver (levelResponse (Tree.library .empty [])) ⟨[], .unset, 0⟩ (ascii "1") (.ofU .unset) =
      .ok (.ofV 0) ∧
      ¬ KeepsMeaning (.ofU .unset : ResponseOrError Int32) (.ofV 0) := by
  refine ⟨?_, fun h => nomatch h.isError⟩
  rw [deliver, pull_push (Tree.lawful_library .empty [])]
  rfl

end Libesf.Ipc

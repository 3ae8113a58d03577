import Libesf.Base.CString

/-!
# Templates of the JSON library

`lconf::json` is not part of the repository. It is a parameter here: `Json` collects the operations the code calls, and `Lawful` what the code relies on. A template is the list of `bind` calls that made it; each binds a key to a reference into some object, of type `int`, `std::string`, `bool`, another template, or an element of the user's own.

Two things end an extraction. An exception can be caught, a null pointer that an element follows cannot: the process is gone.

What the development needs of templates is one fact: extracting into an object from a tree that holds, under the bound keys, what the same bindings synthesised from another object copies the bound members from the one to the other.
-/

namespace Libesf

/-- What ends an extraction: an exception, which is its `what()`, or a null pointer that is followed. -/
inductive Json.Failure where
  | throws (what : Str)
  | nullPointer
  deriving DecidableEq, Repr

/-- What is bound to a key: how it is written into a tree, and how it is read back into the object. -/
structure Json.Element (Node σ : Type) where
  synthetize : σ → Node
  extract : Node → σ → Except Json.Failure σ

/-- The `bind` calls of a template, in order. -/
abbrev Json.Template (Node σ : Type) := List (Str × Json.Element Node σ)

/-- The operations of `lconf::json`. An exception is its `what()`, a null pointer is `none`. -/
structure Json where
  Node : Type
  ofInt : Int32 → Node
  ofString : Str → Node
  ofBool : Bool → Node
  toInt : Node → Except Str Int32
  toString : Node → Except Str Str
  toBool : Node → Except Str Bool
  /-- `node->downcast<StringNode>()->value()`. -/
  stringValue : Node → Option Str
  /-- `node->downcast<ObjectNode>()`. -/
  downcastObject : Node → Option Node
  get : Node → Str → Option Node
  synthetize : {σ : Type} → Json.Template Node σ → σ → Node
  extract : {σ : Type} → Json.Template Node σ → Node → σ → Except Json.Failure σ
  /-- `node->serialize(ss, pretty)`. -/
  serialize : Bool → Node → Except Str Str
  /-- The text of the exception the library throws for a node. -/
  exceptionText : Node → Str → Str
  parse : Str → Except Str Node

namespace Json

/-- Extraction member by member. A key that is missing ends it. -/
def extractMembers {σ : Type} (J : Json) (node : J.Node) : Template J.Node σ → σ → Except Failure σ
  | [], s => .ok s
  | (key, element) :: rest, s =>
    match J.get node key with
    | some member => do
      let s ← element.extract member s
      J.extractMembers node rest s
    | none => .error (.throws key)

/-- What the code relies on. A template goes through its bindings in an order of its own, and through nothing else of the tree. -/
structure Lawful (J : Json) : Prop where
  parse_serialize : ∀ {pretty node text}, J.serialize pretty node = .ok text → J.parse text = .ok node
  toInt_ofInt : ∀ n, J.toInt (J.ofInt n) = .ok n
  toString_ofString : ∀ text, J.toString (J.ofString text) = .ok text
  toBool_ofBool : ∀ b, J.toBool (J.ofBool b) = .ok b
  stringValue_ofString : ∀ text, J.stringValue (J.ofString text) = some text
  downcast_synthetize : ∀ {σ : Type} (tpl : Template J.Node σ) (s : σ), tpl ≠ [] →
    J.downcastObject (J.synthetize tpl s) = some (J.synthetize tpl s)
  get_synthetize : ∀ {σ : Type} (tpl : Template J.Node σ) (s : σ) {key element},
    (tpl.map Prod.fst).Nodup →
    (key, element) ∈ tpl → J.get (J.synthetize tpl s) key = some (element.synthetize s)
  extract_eq : ∀ {σ : Type} (tpl : Template J.Node σ) (node : J.Node) (s : σ), tpl ≠ [] →
    (∀ b ∈ tpl, (J.get node b.1).isSome) →
    ∃ order, order.Perm tpl ∧ J.extract tpl node s = J.extractMembers node order s

/-! ### Bindings of references -/

/-- What the library reads of a node, as a failure of the extraction where it throws. -/
def reading {α : Type} (result : Except Str α) : Except Failure α := result.mapError .throws

@[simp] theorem reading_ok {α : Type} (a : α) : reading (.ok a) = .ok a := rfl

/-- A reference to a part of an object. -/
structure Ref (σ τ : Type) where
  get : σ → τ
  set : τ → σ → σ

/-- A `bind` call, with the copy of the bound part from one object into another. -/
structure Binding (J : Json) (σ : Type) where
  key : Str
  element : Element J.Node σ
  copy : σ → σ → σ

namespace Binding

variable {J : Json} {σ τ : Type}

def template (bindings : List (Binding J σ)) : Template J.Node σ :=
  bindings.map fun b => (b.key, b.element)

/-- All the bound parts of `a`, copied into `s`. -/
def copyAll (bindings : List (Binding J σ)) (a s : σ) : σ := bindings.foldl (fun s b => b.copy a s) s

def int (key : Str) (ref : Ref σ Int32) : Binding J σ where
  key := key
  element := ⟨fun s => J.ofInt (ref.get s), fun node s => (reading (J.toInt node)).map (ref.set · s)⟩
  copy a s := ref.set (ref.get a) s

def string (key : Str) (ref : Ref σ Str) : Binding J σ where
  key := key
  element := ⟨fun s => J.ofString (ref.get s),
    fun node s => (reading (J.toString node)).map (ref.set · s)⟩
  copy a s := ref.set (ref.get a) s

def bool (key : Str) (ref : Ref σ Bool) : Binding J σ where
  key := key
  element := ⟨fun s => J.ofBool (ref.get s),
    fun node s => (reading (J.toBool node)).map (ref.set · s)⟩
  copy a s := ref.set (ref.get a) s

/-- A template bound inside a template. -/
def object (key : Str) (bindings : List (Binding J τ)) (ref : Ref σ τ) : Binding J σ where
  key := key
  element := ⟨fun s => J.synthetize (template bindings) (ref.get s),
    fun node s => (J.extract (template bindings) node (ref.get s)).map (ref.set · s)⟩
  copy a s := ref.set (copyAll bindings (ref.get a) (ref.get s)) s

/-- A binding of a part of an object, as a binding of the object. -/
def via (ref : Ref σ τ) (b : Binding J τ) : Binding J σ where
  key := b.key
  element := ⟨fun s => b.element.synthetize (ref.get s),
    fun node s => (b.element.extract node (ref.get s)).map (ref.set · s)⟩
  copy a s := ref.set (b.copy (ref.get a) (ref.get s)) s

/-- Bindings of one object that do not get in each other's way. -/
structure Independent (bindings : List (Binding J σ)) : Prop where
  nonempty : bindings ≠ []
  keys : (bindings.map key).Nodup
  commute : ∀ b ∈ bindings, ∀ b' ∈ bindings, ∀ a s, b'.copy a (b.copy a s) = b.copy a (b'.copy a s)

/-- Extracting the member copies the bound part of `a`. -/
def Reads (b : Binding J σ) (member : J.Node) (a : σ) : Prop :=
  ∀ s, b.element.extract member s = .ok (b.copy a s)

/-- Reading back what was written copies the bound part. -/
def Restores (b : Binding J σ) : Prop := ∀ a, b.Reads (b.element.synthetize a) a

/-- The tree has, under every bound key, a member that reads as the bound part of `a`. -/
def Holds (bindings : List (Binding J σ)) (node : J.Node) (a : σ) : Prop :=
  ∀ b ∈ bindings, ∃ member, J.get node b.key = some member ∧ b.Reads member a

theorem copyAll_cons (b : Binding J σ) (bindings : List (Binding J σ)) (a s : σ) :
    copyAll (b :: bindings) a s = copyAll bindings a (b.copy a s) := rfl

theorem copyAll_append (bindings bindings' : List (Binding J σ)) (a s : σ) :
    copyAll (bindings ++ bindings') a s = copyAll bindings' a (copyAll bindings a s) := by
  rw [copyAll, List.foldl_append]
  rfl

theorem copyAll_map_via {ref : Ref σ τ} (hget : ∀ v s, ref.get (ref.set v s) = v)
    (hset : ∀ v w s, ref.set v (ref.set w s) = ref.set v s) {bindings : List (Binding J τ)}
    (hne : bindings ≠ []) (a s : σ) :
    copyAll (bindings.map (via ref)) a s = ref.set (copyAll bindings (ref.get a) (ref.get s)) s := by
  induction bindings generalizing s with
  | nil => exact absurd rfl hne
  | cons b bindings ih =>
    rw [List.map_cons, copyAll_cons, copyAll_cons]
    cases bindings with
    | nil => rfl
    | cons b' bindings =>
      rw [ih (List.cons_ne_nil b' bindings)]
      simp only [via, hget, hset]

theorem restores_int (hJ : Lawful J) (key : Str) (ref : Ref σ Int32) :
    (int (J := J) key ref).Restores := by
  intro a s
  simp only [int, hJ.toInt_ofInt, reading_ok]
  rfl

theorem restores_string (hJ : Lawful J) (key : Str) (ref : Ref σ Str) :
    (string (J := J) key ref).Restores := by
  intro a s
  simp only [string, hJ.toString_ofString, reading_ok]
  rfl

theorem restores_bool (hJ : Lawful J) (key : Str) (ref : Ref σ Bool) :
    (bool (J := J) key ref).Restores := by
  intro a s
  simp only [bool, hJ.toBool_ofBool, reading_ok]
  rfl

theorem Restores.via {b : Binding J τ} (h : b.Restores) (ref : Ref σ τ) : (b.via ref).Restores := by
  intro a s
  simp only [Binding.via, h (ref.get a) (ref.get s)]
  rfl

/-! ### Extraction copies -/

private theorem map_fst_template (bindings : List (Binding J σ)) :
    (template bindings).map Prod.fst = bindings.map key := by
  rw [template, List.map_map]
  rfl

private theorem template_ne_nil {bindings : List (Binding J σ)} (hne : bindings ≠ []) :
    template bindings ≠ [] :=
  fun h => hne (List.map_eq_nil_iff.1 h)

theorem get_synthetize (hJ : Lawful J) {bindings : List (Binding J σ)}
    (hkeys : (bindings.map key).Nodup) {b : Binding J σ} (hb : b ∈ bindings) (a : σ) :
    J.get (J.synthetize (template bindings) a) b.key = some (b.element.synthetize a) := by
  refine hJ.get_synthetize (template bindings) a ?_
    (List.mem_map_of_mem (f := fun b => (b.key, b.element)) hb)
  rw [map_fst_template]
  exact hkeys

theorem holds_of_subset (hJ : Lawful J) {bindings written : List (Binding J σ)}
    (hkeys : (written.map key).Nodup) (hsub : ∀ b ∈ bindings, b ∈ written)
    (hrestores : ∀ b ∈ bindings, b.Restores) (a : σ) :
    Holds bindings (J.synthetize (template written) a) a :=
  fun b hb => ⟨_, get_synthetize hJ hkeys (hsub b hb) a, hrestores b hb a⟩

private theorem extractMembers_eq_ok {bindings : List (Binding J σ)} {node : J.Node} {a : σ}
    (hholds : Holds bindings node a) (s : σ) :
    J.extractMembers node (template bindings) s = .ok (copyAll bindings a s) := by
  induction bindings generalizing s with
  | nil => rfl
  | cons b bindings ih =>
    obtain ⟨member, hmember, hreads⟩ := hholds b List.mem_cons_self
    rw [template, List.map_cons, extractMembers]
    simp only [hmember, hreads s]
    exact ih (fun b' hb' => hholds b' (List.mem_cons_of_mem b hb')) _

/-- Extracting from a tree that holds the bound parts of `a` copies them; what else the tree has does not matter. -/
theorem extract_eq_copyAll (hJ : Lawful J) {bindings : List (Binding J σ)}
    (hind : Independent bindings) {node : J.Node} {a : σ} (hholds : Holds bindings node a) (s : σ) :
    J.extract (template bindings) node s = .ok (copyAll bindings a s) := by
  have hpresent : ∀ entry ∈ template bindings, (J.get node entry.1).isSome := by
    intro entry hentry
    obtain ⟨b, hb, rfl⟩ := List.mem_map.1 hentry
    obtain ⟨member, hmember, _⟩ := hholds b hb
    rw [hmember]
    rfl
  obtain ⟨order, hperm, hextract⟩ :=
    hJ.extract_eq (template bindings) node s (template_ne_nil hind.nonempty) hpresent
  obtain ⟨ordered, rfl, hordered⟩ : ∃ ordered, order = template ordered ∧ ordered.Perm bindings :=
    (congrFun₂ (List.eq_map_comp_perm fun b : Binding J σ => (b.key, b.element)) order bindings).mpr
      hperm
  rw [hextract, extractMembers_eq_ok fun b hb => hholds b (hordered.mem_iff.1 hb)]
  refine congrArg Except.ok (hordered.foldl_eq' (fun b hb b' hb' t => ?_) s)
  exact hind.commute b (hordered.mem_iff.1 hb) b' (hordered.mem_iff.1 hb') a t

theorem extract_synthetize (hJ : Lawful J) {bindings : List (Binding J σ)}
    (hind : Independent bindings) (hrestores : ∀ b ∈ bindings, b.Restores) (a s : σ) :
    J.extract (template bindings) (J.synthetize (template bindings) a) s =
      .ok (copyAll bindings a s) :=
  extract_eq_copyAll hJ hind (holds_of_subset hJ hind.keys (fun _ hb => hb) hrestores a) s

theorem downcast_synthetize (hJ : Lawful J) {bindings : List (Binding J σ)}
    (hne : bindings ≠ []) (a : σ) :
    J.downcastObject (J.synthetize (template bindings) a) =
      some (J.synthetize (template bindings) a) :=
  hJ.downcast_synthetize _ a (template_ne_nil hne)

theorem reads_object (hJ : Lawful J) {bindings : List (Binding J τ)}
    (hind : Independent bindings) {key : Str} {ref : Ref σ τ} {member : J.Node} {a : σ}
    (hholds : Holds bindings member (ref.get a)) : (object key bindings ref).Reads member a := by
  intro s
  simp only [object, extract_eq_copyAll hJ hind hholds]
  rfl

theorem restores_object (hJ : Lawful J) {bindings : List (Binding J τ)} (hind : Independent bindings)
    (hrestores : ∀ b ∈ bindings, b.Restores) (key : Str) (ref : Ref σ τ) :
    (object key bindings ref).Restores :=
  fun a => reads_object hJ hind (holds_of_subset hJ hind.keys (fun _ hb => hb) hrestores (ref.get a))

end Binding

end Json

end Libesf

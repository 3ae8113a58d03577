import Libesf.Json.Tree

/-!
# Data members and object nodes

Two things the IPC layer needs on top of templates. A class lists the data members it exposes; each is a typed reference under a key of its own, and extracting what was synthesised restores every one of them. And an object node is not only synthesised: it can be created empty, and a member can be assigned through the reference `get` returns.
-/

namespace Libesf.Json

variable {J : Json} {σ : Type}

/-- A data member as `bind` sees it. -/
structure Member (J : Json) (σ : Type) where
  key : Str
  Value : Type
  ref : Ref σ Value
  write : Value → J.Node
  read : J.Node → Value → Except Str Value
  get_set : ∀ v s, ref.get (ref.set v s) = v
  read_write : Lawful J → ∀ v w, read (write v) w = .ok v

namespace Member

def binding (m : Member J σ) : Binding J σ where
  key := m.key
  element := ⟨fun s => m.write (m.ref.get s),
    fun node s => (reading (m.read node (m.ref.get s))).map (m.ref.set · s)⟩
  copy a s := m.ref.set (m.ref.get a) s

theorem restores_binding (hJ : Lawful J) (m : Member J σ) : m.binding.Restores := by
  intro a s
  simp only [binding, m.read_write hJ, reading_ok]
  rfl

def int (key : Str) (ref : Ref σ Int32) (get_set : ∀ v s, ref.get (ref.set v s) = v) :
    Member J σ where
  key := key
  Value := Int32
  ref := ref
  write := J.ofInt
  read node _ := J.toInt node
  get_set := get_set
  read_write hJ v _ := hJ.toInt_ofInt v

def string (key : Str) (ref : Ref σ Str) (get_set : ∀ v s, ref.get (ref.set v s) = v) :
    Member J σ where
  key := key
  Value := Str
  ref := ref
  write := J.ofString
  read node _ := J.toString node
  get_set := get_set
  read_write hJ v _ := hJ.toString_ofString v

def bool (key : Str) (ref : Ref σ Bool) (get_set : ∀ v s, ref.get (ref.set v s) = v) :
    Member J σ where
  key := key
  Value := Bool
  ref := ref
  write := J.ofBool
  read node _ := J.toBool node
  get_set := get_set
  read_write hJ v _ := hJ.toBool_ofBool v

end Member

/-- A part of an object that is replaced as a whole. -/
structure PartRef (σ τ : Type) extends Ref σ τ where
  get_set : ∀ v s, get (set v s) = v
  set_set : ∀ v w s, set v (set w s) = set v s

/-- A member of a part, as a member of the object, under a longer key. -/
def Member.under {τ : Type} (head : Str) (part : PartRef σ τ) (m : Member J τ) : Member J σ where
  key := head ++ m.key
  Value := m.Value
  ref := ⟨fun s => m.ref.get (part.get s), fun v s => part.set (m.ref.set v (part.get s)) s⟩
  write := m.write
  read := m.read
  get_set v s := (congrArg m.ref.get (part.get_set _ s)).trans (m.get_set v (part.get s))
  read_write := m.read_write

/-- The members a class exposes: under distinct keys, and each apart from the others. -/
structure Members (J : Json) (σ : Type) where
  list : List (Member J σ)
  keys : (list.map Member.key).Nodup
  get_set : ∀ m ∈ list, ∀ m' ∈ list, m.key ≠ m'.key → ∀ v s, m.ref.get (m'.ref.set v s) = m.ref.get s
  set_set : ∀ m ∈ list, ∀ m' ∈ list, m.key ≠ m'.key → ∀ v w s,
    m.ref.set v (m'.ref.set w s) = m'.ref.set w (m.ref.set v s)

namespace Members

variable (members : Members J σ)

def bindings : List (Binding J σ) := members.list.map Member.binding

/-- Two objects that cannot be told apart by the members. -/
def Agree (a s : σ) : Prop := ∀ m ∈ members.list, m.ref.get s = m.ref.get a

variable {members}

theorem eq_of_key_eq {m m' : Member J σ} (hm : m ∈ members.list) (hm' : m' ∈ members.list)
    (hkey : m.key = m'.key) : m = m' :=
  List.inj_on_of_nodup_map members.keys hm hm' hkey

theorem independent (hne : members.list ≠ []) : Binding.Independent members.bindings where
  nonempty h := hne (List.map_eq_nil_iff.1 h)
  keys := by
    rw [bindings, List.map_map]
    exact members.keys
  commute b hb b' hb' a s := by
    obtain ⟨m, hm, rfl⟩ := List.mem_map.1 hb
    obtain ⟨m', hm', rfl⟩ := List.mem_map.1 hb'
    by_cases hkey : m'.key = m.key
    · rw [eq_of_key_eq hm' hm hkey]
    · exact members.set_set m' hm' m hm hkey (m'.ref.get a) (m.ref.get a) s

theorem restores (hJ : Lawful J) : ∀ b ∈ members.bindings, b.Restores := by
  intro b hb
  obtain ⟨m, _, rfl⟩ := List.mem_map.1 hb
  exact m.restores_binding hJ

/-- Copying part of the members leaves the values of the others. -/
theorem get_copyAll_of_key_notMem {m : Member J σ} (hm : m ∈ members.list) (a : σ) :
    ∀ (list : List (Member J σ)) (s : σ), (∀ m' ∈ list, m' ∈ members.list) →
      m.key ∉ list.map Member.key →
      m.ref.get (Binding.copyAll (list.map Member.binding) a s) = m.ref.get s := by
  intro list
  induction list with
  | nil => exact fun s _ _ => rfl
  | cons m' list ih =>
    intro s hsub hkey
    rw [List.map_cons, List.mem_cons, not_or] at hkey
    rw [List.map_cons, Binding.copyAll_cons,
      ih _ (fun m'' h => hsub m'' (List.mem_cons_of_mem m' h)) hkey.2]
    exact members.get_set m hm m' (hsub m' List.mem_cons_self) hkey.1 (m'.ref.get a) s

theorem get_copyAll (a : σ) :
    ∀ (list : List (Member J σ)) (s : σ), (∀ m ∈ list, m ∈ members.list) →
      (list.map Member.key).Nodup →
      ∀ m ∈ list, m.ref.get (Binding.copyAll (list.map Member.binding) a s) = m.ref.get a := by
  intro list
  induction list with
  | nil => exact fun s _ _ m hm => absurd hm List.not_mem_nil
  | cons m' list ih =>
    intro s hsub hkeys m hm
    rw [List.map_cons, List.nodup_cons] at hkeys
    have hrest : ∀ m ∈ list, m ∈ members.list := fun m h => hsub m (List.mem_cons_of_mem m' h)
    rw [List.map_cons, Binding.copyAll_cons]
    obtain rfl | hm := List.mem_cons.1 hm
    · rw [get_copyAll_of_key_notMem (hsub m List.mem_cons_self) a list _ hrest hkeys.1]
      exact m.get_set (m.ref.get a) s
    · exact ih _ hrest hkeys.2 m hm

/-- Extracting what was synthesised from `a` makes the members those of `a`. -/
theorem extract_synthetize (hJ : Lawful J) (hne : members.list ≠ []) (a s : σ) :
    ∃ t, J.extract (Binding.template members.bindings)
      (J.synthetize (Binding.template members.bindings) a) s = .ok t ∧
      members.Agree a t :=
  ⟨_, Binding.extract_synthetize hJ (independent hne) (restores hJ) a s,
    get_copyAll a members.list s (fun _ h => h) members.keys⟩

/-- What an object has of its own next to a part: under keys of another kind, and apart from it. -/
structure Beside {τ : Type} (own : Members J σ) (head : Str) (part : PartRef σ τ) : Prop where
  keys : ∀ m ∈ own.list, ¬ head <+: m.key
  get_set : ∀ m ∈ own.list, ∀ v s, m.ref.get (part.set v s) = m.ref.get s
  part_set : ∀ m ∈ own.list, ∀ v s, part.get (m.ref.set v s) = part.get s
  set_set : ∀ m ∈ own.list, ∀ v w s, m.ref.set v (part.set w s) = part.set w (m.ref.set v s)

section

variable {τ : Type} {own : Members J σ} {head : Str} {part : PartRef σ τ}

/-- The members of an object, and those of a part of it. -/
def withPart (h : own.Beside head part) (inner : Members J τ) : Members J σ where
  list := own.list ++ inner.list.map (Member.under head part)
  keys := by
    have hunder : (inner.list.map (Member.under head part)).map Member.key =
        (inner.list.map Member.key).map (head ++ ·) := by
      rw [List.map_map, List.map_map]
      rfl
    rw [List.map_append, hunder, List.nodup_append]
    refine ⟨own.keys, inner.keys.map (List.append_right_injective head), fun k hk k' hk' heq => ?_⟩
    obtain ⟨m, hm, rfl⟩ := List.mem_map.1 hk
    obtain ⟨rest, -, rfl⟩ := List.mem_map.1 hk'
    exact h.keys m hm ⟨rest, heq.symm⟩
  get_set m hm m' hm' hne v s := by
    obtain hm | hm := List.mem_append.1 hm <;> obtain hm' | hm' := List.mem_append.1 hm'
    · exact own.get_set m hm m' hm' hne v s
    · obtain ⟨i', -, rfl⟩ := List.mem_map.1 hm'
      exact h.get_set m hm _ s
    · obtain ⟨i, -, rfl⟩ := List.mem_map.1 hm
      exact congrArg i.ref.get (h.part_set m' hm' v s)
    · obtain ⟨i, hi, rfl⟩ := List.mem_map.1 hm
      obtain ⟨i', hi', rfl⟩ := List.mem_map.1 hm'
      refine (congrArg i.ref.get (part.get_set _ s)).trans
        (inner.get_set i hi i' hi' (fun heq => hne ?_) v (part.get s))
      exact congrArg (head ++ ·) heq
  set_set m hm m' hm' hne v w s := by
    obtain hm | hm := List.mem_append.1 hm <;> obtain hm' | hm' := List.mem_append.1 hm'
    · exact own.set_set m hm m' hm' hne v w s
    · obtain ⟨i', -, rfl⟩ := List.mem_map.1 hm'
      exact (h.set_set m hm v _ s).trans
        (congrArg (fun r => part.set (i'.ref.set w r) (m.ref.set v s)) (h.part_set m hm v s).symm)
    · obtain ⟨i, -, rfl⟩ := List.mem_map.1 hm
      exact (congrArg (fun r => part.set (i.ref.set v r) (m'.ref.set w s))
        (h.part_set m' hm' w s)).trans (h.set_set m' hm' w _ s).symm
    · obtain ⟨i, hi, rfl⟩ := List.mem_map.1 hm
      obtain ⟨i', hi', rfl⟩ := List.mem_map.1 hm'
      have hkey : i.key ≠ i'.key := fun heq => hne (congrArg (head ++ ·) heq)
      simp only [Member.under, part.get_set, part.set_set]
      exact congrArg (part.set · s) (inner.set_set i hi i' hi' hkey v w (part.get s))

theorem agree_withPart {h : own.Beside head part} {inner : Members J τ} {a s : σ} :
    (withPart h inner).Agree a s ↔ own.Agree a s ∧ inner.Agree (part.get a) (part.get s) := by
  refine ⟨fun hagree => ⟨fun m hm => hagree m (List.mem_append_left _ hm), fun m hm => ?_⟩,
    fun ⟨hown, hinner⟩ m hm => ?_⟩
  · exact hagree _ (List.mem_append_right _ (List.mem_map_of_mem hm))
  · obtain hm | hm := List.mem_append.1 hm
    · exact hown m hm
    · obtain ⟨i, hi, rfl⟩ := List.mem_map.1 hm
      exact hinner i hi

end

end Members

/-! ### Object nodes -/

/-- What else of the library builds and asks for objects. -/
structure Objects (J : Json) where
  /-- `new ObjectNode()`. -/
  newObject : J.Node
  /-- `node->get(key) = value`. -/
  setMember : J.Node → Str → J.Node → J.Node
  /-- `tpl.bound()`. -/
  bound : {σ : Type} → Template J.Node σ → Bool

structure Objects.Lawful (O : Objects J) : Prop extends Json.Lawful J where
  serialize_ok : ∀ pretty node, ∃ text, J.serialize pretty node = .ok text
  bound_iff : ∀ {σ : Type} (tpl : Template J.Node σ), O.bound tpl = true ↔ tpl ≠ []
  downcast_setMember : ∀ {node} key value, J.downcastObject node = some node →
    J.downcastObject (O.setMember node key value) = some (O.setMember node key value)
  get_setMember_self : ∀ {node} key value, J.downcastObject node = some node →
    J.get (O.setMember node key value) key = some value
  get_setMember_of_ne : ∀ {node key key'} value, J.downcastObject node = some node → key' ≠ key →
    J.get (O.setMember node key value) key' = J.get node key'

namespace Tree

instance : Encodable UInt8 :=
  Encodable.ofLeftInverse UInt8.toNat UInt8.ofNat fun _ => UInt8.ofNat_toNat

instance : Encodable Int32 :=
  Encodable.ofLeftInverse Int32.toInt Int32.ofInt fun n => Int32.ofInt_toInt n

deriving instance Encodable for Tree

/-- The text of one tree is given, that of any other is the same text followed by blanks that number the tree. -/
def textOf (tree : Tree) (text : Str) (node : Tree) : Str :=
  if node = tree then text else text ++ List.replicate (Encodable.encode node + 1) 32

def parseText (tree : Tree) (text t : Str) : Except Str Tree :=
  if t = text then .ok tree
  else
    match Encodable.decode (t.length - text.length - 1) with
    | some node => .ok node
    | none => .error (ascii "syntax error")

/-- The library with one entry, made total. -/
def total (tree : Tree) (text : Str) : Json :=
  { library tree text with
    serialize := fun _ node => .ok (textOf tree text node)
    parse := parseText tree text }

def setMember (key : Str) (value : Tree) : Tree → Tree
  | member k old rest =>
    if k = key then member k value rest else member k old (setMember key value rest)
  | _ => member key value empty

def objects (tree : Tree) (text : Str) : Objects (total tree text) where
  newObject := (empty : Tree)
  setMember node key value := setMember key value node
  bound tpl := !tpl.isEmpty

theorem not_mem_textOf {tree : Tree} {text : Str} {c : UInt8} (hc : c ≠ 32) (htext : c ∉ text)
    (node : Tree) : c ∉ textOf tree text node := by
  rw [textOf]
  split
  · exact htext
  · rw [List.mem_append, not_or]
    exact ⟨htext, fun hmem => hc (List.eq_of_mem_replicate hmem)⟩

theorem parseText_textOf (tree : Tree) (text : Str) (node : Tree) :
    parseText tree text (textOf tree text node) = .ok node := by
  by_cases hnode : node = tree
  · rw [textOf, if_pos hnode, parseText, if_pos rfl, hnode]
  · have hlength : (textOf tree text node).length = text.length + (Encodable.encode node + 1) := by
      rw [textOf, if_neg hnode, List.length_append, List.length_replicate]
    have hlonger : textOf tree text node ≠ text := by
      intro h
      rw [h] at hlength
      omega
    have hnumber : (textOf tree text node).length - text.length - 1 =
        Encodable.encode node := by omega
    rw [parseText, if_neg hlonger, hnumber, Encodable.encodek]

theorem extractMembers_total (tree : Tree) (text : Str) (node : Tree)
    (tpl : Template Tree σ) (s : σ) :
    (library tree text).extractMembers node tpl s = (total tree text).extractMembers node tpl s := by
  induction tpl generalizing s with
  | nil => rfl
  | cons entry tpl ih =>
    obtain ⟨key, element⟩ := entry
    have hlibrary : (library tree text).get node key = node.get key := rfl
    have htotal : (total tree text).get node key = node.get key := rfl
    simp only [extractMembers, hlibrary, htotal]
    cases node.get key with
    | none => rfl
    | some value =>
      change (element.extract value s).bind _ = (element.extract value s).bind _
      cases element.extract value s with
      | error what => rfl
      | ok t => exact ih t

theorem lawful_total (tree : Tree) (text : Str) : Lawful (total tree text) where
  parse_serialize {_ node _} h := Except.ok.inj h ▸ parseText_textOf tree text node
  toInt_ofInt _ := rfl
  toString_ofString _ := rfl
  toBool_ofBool _ := rfl
  stringValue_ofString _ := rfl
  downcast_synthetize tpl s hne := (lawful_library tree text).downcast_synthetize tpl s hne
  get_synthetize tpl s _ _ hkeys hmem := (lawful_library tree text).get_synthetize tpl s hkeys hmem
  extract_eq tpl node s hne hpresent := by
    obtain ⟨order, hperm, hextract⟩ := (lawful_library tree text).extract_eq tpl node s hne hpresent
    exact ⟨order, hperm, hextract.trans (extractMembers_total tree text node order s)⟩

theorem downcast_setMember (key : Str) (value node : Tree) :
    (setMember key value node).downcastObject = some (setMember key value node) := by
  cases node with
  | member k old rest =>
    rw [setMember]
    split <;> rfl
  | _ => rfl

theorem get_setMember_self (key : Str) (value node : Tree) :
    (setMember key value node).get key = some value := by
  induction node with
  | member k old rest _ ih =>
    rw [setMember]
    split
    · next hkey => exact if_pos hkey
    · next hkey =>
      rw [get, if_neg hkey]
      exact ih
  | _ => exact if_pos rfl

theorem get_setMember_of_ne {key key' : Str} (hne : key' ≠ key) (value node : Tree) :
    (setMember key value node).get key' = node.get key' := by
  induction node with
  | member k old rest _ ih =>
    rw [setMember]
    split
    · next hkey => rw [get, get, if_neg (hkey.trans_ne hne.symm), if_neg (hkey.trans_ne hne.symm)]
    · rw [get, get, ih]
  | _ => exact if_neg hne.symm

theorem lawful_objects (tree : Tree) (text : Str) : (objects tree text).Lawful where
  toLawful := lawful_total tree text
  serialize_ok _ node := ⟨textOf tree text node, rfl⟩
  bound_iff tpl := by
    change (!tpl.isEmpty) = true ↔ tpl ≠ []
    rw [Bool.not_eq_true', List.isEmpty_eq_false_iff]
  downcast_setMember {node} key value _ := downcast_setMember key value node
  get_setMember_self {node} key value _ := get_setMember_self key value node
  get_setMember_of_ne {node _ _} value _ hne := get_setMember_of_ne hne value node

end Tree

end Libesf.Json

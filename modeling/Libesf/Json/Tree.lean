import Libesf.Json.Template

/-!
# A concrete JSON library

Trees of integers, strings, booleans and objects, on which templates do what their documentation says. Its text format is a table with one entry, a tree and the text of that tree, and it throws on everything else.
-/

namespace Libesf.Json

inductive Tree where
  | int (n : Int32)
  | string (text : Str)
  | bool (b : Bool)
  | empty
  | member (key : Str) (value rest : Tree)
  deriving DecidableEq

namespace Tree

def object (members : List (Str × Tree)) : Tree :=
  members.foldr (fun m rest => member m.1 m.2 rest) empty

variable {σ : Type}

def get (key : Str) : Tree → Option Tree
  | member k value rest => if k = key then some value else rest.get key
  | _ => none

def downcastObject : Tree → Option Tree
  | tree@empty | tree@(member _ _ _) => some tree
  | _ => none

def synthetize (s : σ) : Template Tree σ → Tree
  | [] => empty
  | (key, element) :: rest => member key (element.synthetize s) (synthetize s rest)

def extract (tree : Tree) : Template Tree σ → σ → Except Failure σ
  | [], s => .ok s
  | (key, element) :: rest, s =>
    match tree.get key with
    | some value => do
      let s ← element.extract value s
      extract tree rest s
    | none => .error (.throws key)

def library (tree : Tree) (text : Str) : Json where
  Node := Tree
  ofInt := int
  ofString := string
  ofBool := bool
  toInt
    | int n => .ok n
    | _ => .error (ascii "not an integer")
  toString
    | string text => .ok text
    | _ => .error (ascii "not a string")
  toBool
    | bool b => .ok b
    | _ => .error (ascii "not a boolean")
  stringValue
    | string text => some text
    | _ => none
  downcastObject := downcastObject
  get node key := node.get key
  synthetize tpl s := synthetize s tpl
  extract tpl node s := node.extract tpl s
  serialize _ node := if node = tree then .ok text else .error (ascii "no text for this tree")
  exceptionText _ what := what
  parse t := if t = text then .ok tree else .error (ascii "syntax error")

theorem serialize_library (tree : Tree) (text : Str) (pretty : Bool) :
    (library tree text).serialize pretty tree = .ok text := if_pos rfl

theorem get_synthetize {tpl : Template Tree σ} (s : σ) {key : Str} {element : Element Tree σ}
    (hkeys : (tpl.map Prod.fst).Nodup) (hmem : (key, element) ∈ tpl) :
    (synthetize s tpl).get key = some (element.synthetize s) := by
  induction tpl with
  | nil => cases hmem
  | cons entry tpl ih =>
    rw [List.map_cons, List.nodup_cons] at hkeys
    obtain rfl | htail := List.mem_cons.1 hmem
    · rw [synthetize, get, if_pos rfl]
    · have hne : entry.1 ≠ key := fun h => hkeys.1 (h ▸ List.mem_map_of_mem htail)
      rw [synthetize, get, if_neg hne]
      exact ih hkeys.2 htail

theorem extract_eq (tree : Tree) (text : Str) (node : Tree) (tpl : Template Tree σ) (s : σ) :
    node.extract tpl s = (library tree text).extractMembers node tpl s := by
  induction tpl generalizing s with
  | nil => rfl
  | cons entry tpl ih =>
    obtain ⟨key, element⟩ := entry
    have hget : (library tree text).get node key = node.get key := rfl
    simp only [extract, extractMembers, hget]
    cases node.get key with
    | none => rfl
    | some value =>
      change (element.extract value s).bind _ = (element.extract value s).bind _
      cases element.extract value s with
      | error what => rfl
      | ok t => exact ih t

theorem lawful_library (tree : Tree) (text : Str) : Lawful (library tree text) where
  parse_serialize {_ node t} h := by
    simp only [library] at h ⊢
    split at h
    · next hnode =>
      obtain rfl : text = t := Except.ok.inj h
      rw [if_pos rfl, hnode]
    · cases h
  toInt_ofInt _ := rfl
  toString_ofString _ := rfl
  toBool_ofBool _ := rfl
  stringValue_ofString _ := rfl
  downcast_synthetize tpl s hne := by
    cases tpl with
    | nil => exact absurd rfl hne
    | cons entry tpl => rfl
  get_synthetize _ s _ _ hkeys hmem := get_synthetize s hkeys hmem
  extract_eq tpl node s _ _ := ⟨tpl, .refl tpl, extract_eq tree text node tpl s⟩

end Tree

end Libesf.Json

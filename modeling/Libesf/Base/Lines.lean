import Mathlib

/-!
# Searching and replacing in place

A text is searched for a separator from a position on, and the separator that is found is replaced where it stands. A loop that replaces a separator by itself and a text without separators, and goes on behind it, comes to an end: each round leaves one separator less ahead.
-/

namespace Libesf.Lines

variable {α : Type*} {b : α} {text pad : List α} {pos q : Nat}

/-- `text.replace(q, 1, new)`. -/
def replaceAt (text : List α) (q : Nat) (new : List α) : List α :=
  text.take q ++ new ++ text.drop (q + 1)

theorem replaceAt_append_cons (done line rest new : List α) :
    replaceAt (done ++ (line ++ b :: rest)) (done.length + line.length) new = (done ++ line) ++
      (new ++ rest) := by
  have hsplit : done ++ (line ++ b :: rest) = (done ++ line) ++ [b] ++ rest := by simp
  have htake : ((done ++ line) ++ [b] ++ rest).take (done.length + line.length) = done ++ line := by
    rw [List.append_assoc]
    exact List.take_left' List.length_append
  have hdrop : ((done ++ line) ++ [b] ++ rest).drop (done.length + line.length + 1) = rest :=
    List.drop_left' (by simp [add_assoc])
  rw [replaceAt, hsplit, htake, hdrop, List.append_assoc]

theorem drop_replaceAt (hq : q < text.length) (c : α) (pad : List α) :
    (replaceAt text q (c :: pad)).drop (q + 1) = pad ++ text.drop (q + 1) := by
  have hlength : (text.take q ++ [c]).length = q + 1 := by
    rw [List.length_append, List.length_take_of_le hq.le, List.length_singleton]
  have hsplit : replaceAt text q (c :: pad) = (text.take q ++ [c]) ++
      (pad ++ text.drop (q + 1)) := by simp [replaceAt]
  rw [hsplit, List.drop_left' hlength]

/-- Every text but the first is behind a separator. -/
theorem intercalate_cons (sep text : List α) (texts : List (List α)) :
    List.intercalate sep (text :: texts) = text ++ texts.flatMap (sep ++ ·) := by
  induction texts generalizing text with
  | nil => rw [List.intercalate_singleton, List.flatMap_nil, List.append_nil]
  | cons text' texts ih =>
    rw [List.intercalate_cons_cons, ih, List.flatMap_cons, List.append_assoc, List.append_assoc]

variable [DecidableEq α]

/-- `text.find(b, pos)`. -/
def findFrom (b : α) (text : List α) (pos : Nat) : Option Nat :=
  ((text.drop pos).idxOf? b).map (pos + ·)

theorem idxOf?_append_cons {line : List α} (hline : b ∉ line) (rest : List α) :
    (line ++ b :: rest).idxOf? b = some line.length := by
  induction line with
  | nil => rw [List.nil_append, List.idxOf?_cons, beq_self_eq_true, if_pos rfl, List.length_nil]
  | cons c line ih =>
    obtain ⟨hc, hline⟩ := List.ne_and_not_mem_of_not_mem_cons hline
    rw [List.cons_append, List.idxOf?_cons, if_neg (by simpa using hc.symm), ih hline,
      List.length_cons]
    rfl

theorem findFrom_append_cons {line : List α} (hline : b ∉ line) (done rest : List α) :
    findFrom b (done ++ (line ++ b :: rest)) done.length = some (done.length + line.length) := by
  rw [findFrom, List.drop_left, idxOf?_append_cons hline, Option.map_some]

theorem lt_length_of_findFrom (h : findFrom b text pos = some q) : q < text.length := by
  obtain ⟨i, hi, rfl⟩ := Option.map_eq_some_iff.1 h
  obtain ⟨hlt, _, _⟩ := List.idxOf?_eq_some_iff.1 hi
  rw [List.length_drop] at hlt
  omega

theorem count_drop_lt (h : findFrom b text pos = some q) :
    (text.drop (q + 1)).count b < (text.drop pos).count b := by
  obtain ⟨i, hi, rfl⟩ := Option.map_eq_some_iff.1 h
  obtain ⟨hlt, hb, _⟩ := List.idxOf?_eq_some_iff.1 hi
  have hle : ((text.drop pos).drop i).count b ≤ (text.drop pos).count b :=
    (List.drop_sublist i _).count_le b
  have hcons : (text.drop pos).drop i = b :: text.drop (pos + i + 1) := by
    rw [List.drop_eq_getElem_cons hlt, hb, List.drop_drop, add_assoc]
  rw [hcons, List.count_cons_self] at hle
  omega

/-- A round that puts a text without separators behind the separator leaves one less ahead. -/
theorem count_replaceAt_lt (h : findFrom b text pos = some q) (hpad : b ∉ pad) :
    ((replaceAt text q (b :: pad)).drop (q + 1)).count b < (text.drop pos).count b := by
  rw [drop_replaceAt (lt_length_of_findFrom h), List.count_append,
    List.count_eq_zero_of_not_mem hpad, zero_add]
  exact count_drop_lt h

end Libesf.Lines

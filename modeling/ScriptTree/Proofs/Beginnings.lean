import Mathlib.Data.List.TakeWhile

/-!
# Beginnings of texts

A text that is put together from two parts can be taken apart again if one looks for the first character that does not
belong to the first part.
-/

namespace ScriptTree

variable {α : Type} {p : α → Bool} {l l' r r' : List α}

/-- A part whose elements have a property is taken as a whole, up to a rest that does not begin with one. -/
theorem takeWhile_append_of_head (hl : ∀ a ∈ l, p a = true) (hr : ∀ a ∈ r.head?, p a = false) :
    (l ++ r).takeWhile p = l := by
  rw [List.takeWhile_append_of_pos hl]
  cases r with
  | nil => simp
  | cons a r => simp [hr a rfl]

/-- Dropping such a part leaves the rest. -/
theorem dropWhile_append_of_head (hl : ∀ a ∈ l, p a = true) (hr : ∀ a ∈ r.head?, p a = false) :
    (l ++ r).dropWhile p = r := by
  rw [List.dropWhile_append_of_pos hl]
  cases r with
  | nil => simp
  | cons a r => simp [hr a rfl]

/-- Such a part and its rest are determined by the whole. -/
theorem append_inj_of_head (hl : ∀ a ∈ l, p a = true) (hl' : ∀ a ∈ l', p a = true) (hr : ∀ a ∈ r.head?, p a = false)
    (hr' : ∀ a ∈ r'.head?, p a = false) (h : l ++ r = l' ++ r') : l = l' ∧ r = r' := by
  have htake := congrArg (List.takeWhile p) h
  have hdrop := congrArg (List.dropWhile p) h
  rw [takeWhile_append_of_head hl hr, takeWhile_append_of_head hl' hr'] at htake
  rw [dropWhile_append_of_head hl hr, dropWhile_append_of_head hl' hr'] at hdrop
  exact ⟨htake, hdrop⟩

/-- What stands around the first occurrence of a character is determined by the whole. -/
theorem append_cons_inj_of_notMem_left {c : Char} {before before' rest rest' : List Char} (h : c ∉ before)
    (h' : c ∉ before') (heq : before ++ c :: rest = before' ++ c :: rest') : before = before' ∧ rest = rest' := by
  have hother {text : List Char} (hc : c ∉ text) : ∀ d ∈ text, (d != c) = true := fun d hd =>
    bne_iff_ne.mpr (ne_of_mem_of_not_mem hd hc)
  have hhead (tail : List Char) : ∀ d ∈ (c :: tail).head?, (d != c) = false := fun d hd => by
    cases hd
    exact bne_self_eq_false c
  obtain ⟨hbefore, htail⟩ := append_inj_of_head (hother h) (hother h') (hhead rest) (hhead rest') heq
  exact ⟨hbefore, (List.cons.inj htail).2⟩

end ScriptTree

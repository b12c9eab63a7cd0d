import Mathlib.Data.List.Basic
import Mathlib.Logic.Relation

set_option autoImplicit false

/-! # Lists with the latest use first

A list that has what was used last at its front: using an item takes it to the front (`useNow`), and
items are forgotten (`Forgets`). A search for the latest item of some kind does not see what happens
to the items of other kinds.
-/

namespace Swirl.Lib

variable {α : Type*} [DecidableEq α] {l l' l'' : List α} {a : α} {p : α → Bool}

/-- An item is used: it goes to the front. -/
def useNow (l : List α) (a : α) : List α := a :: l.erase a

/-! ## Searching -/

theorem find?_erase_of_neg (h : p a = false) : (l.erase a).find? p = l.find? p := by
  induction l with
  | nil => rfl
  | cons b l ih =>
      by_cases hb : b = a
      · subst hb
        rw [List.erase_cons_head, List.find?_cons_of_neg (by simp [h])]
      · rw [List.erase_cons_tail (by simpa using hb), List.find?_cons, List.find?_cons, ih]

theorem find?_useNow_of_neg (h : p a = false) : (useNow l a).find? p = l.find? p := by
  unfold useNow
  rw [List.find?_cons_of_neg (by simp [h]), find?_erase_of_neg h]

/-! ## Forgetting -/

/-- Items of a kind are forgotten, one after the other. -/
def Forgets (kind : α → Prop) : List α → List α → Prop :=
  Relation.ReflTransGen fun l l' => ∃ a, kind a ∧ l' = l.erase a

namespace Forgets

variable {kind : α → Prop}

theorem refl (l : List α) : Forgets kind l l := Relation.ReflTransGen.refl

theorem trans (h : Forgets kind l l') (h' : Forgets kind l' l'') : Forgets kind l l'' :=
  Relation.ReflTransGen.trans h h'

theorem erase (ha : kind a) (l : List α) : Forgets kind l (l.erase a) :=
  Relation.ReflTransGen.single ⟨a, ha, rfl⟩

/-- The latest item of another kind stays. -/
theorem find? (h : Forgets kind l l') (hp : ∀ a, kind a → p a = false) :
    l'.find? p = l.find? p := by
  induction h with
  | refl => rfl
  | tail _ hstep ih =>
      obtain ⟨a, ha, rfl⟩ := hstep
      rw [find?_erase_of_neg (hp a ha), ih]

/-- Items of other kinds that are at the front stay there. -/
theorem append {front rest : List α} (h : Forgets kind l l') (hl : l = front ++ rest)
    (hfront : ∀ a ∈ front, ¬ kind a) : ∃ rest', l' = front ++ rest' := by
  induction h with
  | refl => exact ⟨rest, hl⟩
  | tail _ hstep ih =>
      obtain ⟨a, ha, rfl⟩ := hstep
      obtain ⟨rest', rfl⟩ := ih
      have hnot : a ∉ front := fun hmem => hfront a hmem ha
      exact ⟨rest'.erase a, List.erase_append_right _ hnot⟩

end Forgets

end Swirl.Lib

import Mathlib.Data.List.InsertIdx
import Mathlib.Tactic

set_option autoImplicit false

/-! # Rankings by lists

A list ranks what its entries stand for: `p` is ranked by the first entry that satisfies it, the
earlier the better. An entry that is put in, or moved to the front of some place, is a promotion
(`Promotes`). Nothing gets a worse rank that the promoted entry stands for, and what it stands for
outranks whatever had its first entry at that place or behind it.
-/

namespace Swirl.Lib

variable {α : Type*} {l l' : List α} {a : α} {k : ℕ}

/-- The first entry of `p` is before the first one of `q`. -/
def Outranks (l : List α) (p q : α → Bool) : Prop := l.findIdx p < l.findIdx q

instance (l : List α) (p q : α → Bool) : Decidable (Outranks l p q) :=
  inferInstanceAs (Decidable (_ < _))

/-- Up to place `k` the lists agree, and there the second one has `a`. -/
def Promotes (l l' : List α) (a : α) (k : ℕ) : Prop :=
  ∃ front back back' : List α,
    front.length = k ∧ l = front ++ back ∧ l' = front ++ a :: back'

/-! ## Promotions -/

theorem promotes_insertIdx (hk : k ≤ l.length) : Promotes l (l.insertIdx k a) a k := by
  have hsplit : ∀ front back : List α,
      (front ++ back).insertIdx front.length a = front ++ a :: back := by
    intro front back
    induction front with
    | nil => rfl
    | cons b front ih => simpa using ih
  have hlen : (l.take k).length = k := List.length_take_of_le hk
  refine ⟨l.take k, l.drop k, l.drop k, hlen, (List.take_append_drop k l).symm, ?_⟩
  calc l.insertIdx k a = (l.take k ++ l.drop k).insertIdx (l.take k).length a := by
        rw [List.take_append_drop, hlen]
    _ = l.take k ++ a :: l.drop k := hsplit _ _

/-- An entry goes from place `j` to place `k`. -/
theorem promotes_move {j : ℕ} (hkj : k ≤ j) (hj : l[j]? = some a) :
    Promotes l ((l.eraseIdx j).insertIdx k a) a k := by
  have hlen : (l.eraseIdx j).length = l.length - 1 :=
    List.length_eraseIdx_of_lt (List.getElem?_eq_some_iff.1 hj).1
  have hlt : j < l.length := (List.getElem?_eq_some_iff.1 hj).1
  obtain ⟨front, back, back', hfront, herase, hinsert⟩ :=
    promotes_insertIdx (l := l.eraseIdx j) (a := a) (k := k) (by omega)
  -- up to the place the entry comes to, nothing has been erased
  have hsame : front = l.take k := by
    rw [← List.take_eraseIdx_eq_take_of_le l k j hkj, herase, ← hfront, List.take_left]
  refine ⟨front, l.drop k, back', hfront, ?_, hinsert⟩
  rw [hsame, List.take_append_drop]

/-! ## What a promotion does to the ranks -/

/-- What the entry stands for gets no worse rank. -/
theorem Promotes.findIdx_le (h : Promotes l l' a k) {p : α → Bool} (hp : p a = true) :
    l'.findIdx p ≤ l.findIdx p := by
  obtain ⟨front, back, back', -, rfl, rfl⟩ := h
  rw [List.findIdx_append, List.findIdx_append]
  split
  · exact Nat.le_refl _
  · rw [List.findIdx_cons, hp, cond_true, Nat.zero_add]
    exact Nat.le_add_left _ _

/-- What the entry stands for outranks what had its first entry at the place or behind it. -/
theorem Promotes.outranks (h : Promotes l l' a k) {p q : α → Bool} (hp : p a = true)
    (hq : q a = false) (hk : k ≤ l.findIdx q) : Outranks l' p q := by
  obtain ⟨front, back, back', hfront, rfl, rfl⟩ := h
  have hbehind : ¬ front.findIdx q < front.length := by
    intro hlt
    rw [List.findIdx_append, if_pos hlt] at hk
    omega
  have hfirst : (front ++ a :: back').findIdx p ≤ front.length := by
    rw [List.findIdx_append, List.findIdx_cons, hp, cond_true, Nat.zero_add]
    split
    · next hlt => exact hlt.le
    · exact Nat.le_refl _
  have hsecond : front.length < (front ++ a :: back').findIdx q := by
    rw [List.findIdx_append, if_neg hbehind, List.findIdx_cons, hq, cond_false]
    omega
  exact lt_of_le_of_lt hfirst hsecond

/-- Two kinds of entries are searched for together. -/
theorem findIdx_or (p q : α → Bool) (l : List α) :
    l.findIdx (fun b => p b || q b) = min (l.findIdx p) (l.findIdx q) := by
  induction l with
  | nil => rfl
  | cons b l ih =>
      rw [List.findIdx_cons, List.findIdx_cons, List.findIdx_cons, ih]
      cases p b <;> cases q b <;> simp [Nat.add_min_add_right]

end Swirl.Lib

import Mathlib.Tactic

set_option autoImplicit false

/-! # Lists without two elements that count as the same

A list is kept free of two elements that a comparison takes for the same by inserting through
`upsert`: a new element takes the place of the first one it is the same as, and goes to the end
when there is none. For a comparison that is an equivalence the list stays distinct, whatever is
inserted, and so does one that elements are taken from.
-/

namespace Swirl.Lib

variable {α : Type*} (same : α → α → Bool)

/-- No two elements of the list are the same. -/
def Distinct (l : List α) : Prop := l.Pairwise fun a b => same a b = false

instance (l : List α) : Decidable (Distinct same l) := inferInstanceAs (Decidable (List.Pairwise _ l))

/-- The list with `x` in the place of the first element it is the same as, or at the end; and the
element that made room. -/
def upsert (x : α) : List α → List α × Option α
  | [] => ([x], none)
  | a :: l =>
      if same x a then (x :: l, some a) else (a :: (upsert x l).1, (upsert x l).2)

/-- The comparison is an equivalence. -/
structure SameEquiv : Prop where
  symm : ∀ a b, same a b = same b a
  trans : ∀ a b c, same a b = true → same b c = true → same a c = true

variable {same}

/-- What an upsert leaves, with what it took out, is what was there, with the new element. -/
theorem upsert_perm (x : α) (l : List α) :
    ((upsert same x l).2.toList ++ (upsert same x l).1).Perm (x :: l) := by
  induction l with
  | nil => exact List.Perm.refl _
  | cons a l ih =>
      unfold upsert
      split
      · -- `x` takes the place of `a`, which comes out
        exact List.Perm.swap x a l
      · have hmid : ((upsert same x l).2.toList ++ a :: (upsert same x l).1).Perm
            (a :: ((upsert same x l).2.toList ++ (upsert same x l).1)) := List.perm_middle
        exact hmid.trans ((ih.cons a).trans (List.Perm.swap x a l))

theorem mem_of_mem_upsert {x y : α} {l : List α} (h : y ∈ (upsert same x l).1) :
    y = x ∨ y ∈ l := by
  have hm : y ∈ x :: l := (upsert_perm x l).subset (List.mem_append_right _ h)
  exact List.mem_cons.1 hm

/-- The element that makes room is the first one that is the same. -/
theorem upsert_replaces (x : α) (l : List α) : (upsert same x l).2 = l.find? (same x) := by
  induction l with
  | nil => rfl
  | cons a l ih =>
      unfold upsert
      cases hs : same x a with
      | true => simp [hs]
      | false => simp [hs, ih]

/-- What is found by a key that a map keeps. -/
theorem find?_map_key {κ : Type*} [DecidableEq κ] (key : α → κ) {f : α → α}
    (hf : ∀ a, key (f a) = key a) (l : List α) (k : κ) :
    (l.map f).find? (fun a => decide (key a = k)) =
      (l.find? fun a => decide (key a = k)).map f := by
  rw [List.find?_map]
  exact congrArg (Option.map f) (List.find?_congr fun a _ => by simp [hf])

/-- Where the comparison is by a key, what is found by a key after an upsert. -/
theorem find?_upsert {κ : Type*} [DecidableEq κ] (key : α → κ) (x : α) (l : List α) (k : κ) :
    (upsert (fun a b => decide (key a = key b)) x l).1.find? (fun a => decide (key a = k)) =
      if key x = k then some x else l.find? fun a => decide (key a = k) := by
  induction l with
  | nil => by_cases hx : key x = k <;> simp [upsert, hx]
  | cons a l ih =>
      by_cases hsame : key x = key a
      · by_cases hx : key x = k
        · simp [upsert, hsame, ← hx]
        · simp [upsert, hsame, hsame ▸ hx]
      · by_cases ha : key a = k
        · have hx : key x ≠ k := fun hx => hsame (hx.trans ha.symm)
          simp [upsert, ha, hx]
        · simp [upsert, hsame, ha, ih]

/-- Taking out the first element that satisfies a predicate takes out what the search finds. -/
theorem perm_cons_eraseP {p : α → Bool} {a : α} {l : List α} (h : l.find? p = some a) :
    (a :: l.eraseP p).Perm l := by
  induction l with
  | nil => simp at h
  | cons b l ih =>
      cases hb : p b with
      | true =>
          obtain rfl : b = a := by simpa [hb] using h
          simp [hb]
      | false =>
          have hl : l.find? p = some a := by simpa [hb] using h
          rw [List.eraseP_cons_of_neg (by simp [hb])]
          exact (List.Perm.swap b a _).trans ((ih hl).cons b)

/-- **A list stays distinct under upserts.** -/
theorem distinct_upsert (he : SameEquiv same) (x : α) {l : List α} (h : Distinct same l) :
    Distinct same (upsert same x l).1 := by
  induction l with
  | nil => exact List.pairwise_singleton _ x
  | cons a l ih =>
      obtain ⟨ha, hl⟩ := List.pairwise_cons.1 h
      unfold upsert
      split
      · next hs =>
        -- what is the same as `x` is the same as `a`, so the tail has none of it
        refine List.pairwise_cons.2 ⟨fun y hy => ?_, hl⟩
        cases hxy : same x y with
        | false => rfl
        | true =>
            have hax : same a x = true := by rw [he.symm]; exact hs
            have hay : same a y = true := he.trans a x y hax hxy
            rw [ha y hy] at hay
            exact absurd hay Bool.false_ne_true
      · next hs =>
        refine List.pairwise_cons.2 ⟨fun y hy => ?_, ih hl⟩
        rcases mem_of_mem_upsert hy with rfl | hy
        · rw [he.symm]
          exact Bool.not_eq_true _ ▸ hs
        · exact ha y hy

theorem distinct_eraseP (p : α → Bool) {l : List α} (h : Distinct same l) :
    Distinct same (l.eraseP p) :=
  h.sublist List.eraseP_sublist

theorem distinct_nil : Distinct same [] := List.Pairwise.nil

end Swirl.Lib

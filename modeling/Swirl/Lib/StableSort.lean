import Mathlib.Data.List.Sort
import Mathlib.Tactic

set_option autoImplicit false

/-! # Stable sorting

`StableSort le xs ys`: the list `ys` has the elements of `xs` in the order `le`, and those that tie
in the order they had. For a total preorder there is exactly one such list; insertion sort computes
it, and merging the lists of two halves gives that of the whole.
-/

namespace Swirl.Lib

variable {α : Type*}

/-- Neither of two elements comes before the other. -/
def tie (le : α → α → Bool) (a b : α) : Bool := le a b && le b a

/-- `ys` is `xs`, sorted, with the elements that tie in their order. -/
structure StableSort (le : α → α → Bool) (xs ys : List α) : Prop where
  perm : ys.Perm xs
  sorted : ys.Pairwise fun a b => le a b
  stable : ∀ a, ys.filter (tie le a) = xs.filter (tie le a)

namespace StableSort

variable {le : α → α → Bool} {xs xs' ys ys' zs : List α} {a b : α}

theorem of_pairwise (h : xs.Pairwise fun a b => le a b) : StableSort le xs xs :=
  { perm := List.Perm.refl _, sorted := h, stable := fun _ => rfl }

theorem append_left (h : StableSort le ys ys') (hsort : StableSort le (xs ++ ys') zs) :
    StableSort le (xs ++ ys) zs :=
  { perm := hsort.perm.trans (h.perm.append_left xs)
    sorted := hsort.sorted
    stable := fun a => by rw [hsort.stable, List.filter_append, List.filter_append, h.stable] }

theorem append_right (h : StableSort le xs xs') (hsort : StableSort le (xs' ++ ys) zs) :
    StableSort le (xs ++ ys) zs :=
  { perm := hsort.perm.trans (h.perm.append_right ys)
    sorted := hsort.sorted
    stable := fun a => by rw [hsort.stable, List.filter_append, List.filter_append, h.stable] }

section Preorder

variable (hle : ∀ a b c, le a b → le b c → le a c) (htotal : ∀ a b, le a b || le b a)

/-! ## Merging -/

include hle in
/-- What ties with an element comes out of a merge in its order. -/
theorem filter_merge (c : α) (hxs : xs.Pairwise fun a b => le a b) :
    (List.merge xs ys le).filter (tie le c) = xs.filter (tie le c) ++ ys.filter (tie le c) := by
  induction xs generalizing ys with
  | nil => rw [List.nil_merge, List.filter_nil, List.nil_append]
  | cons x xs ihx =>
      induction ys with
      | nil => rw [List.merge_right, List.filter_nil, List.append_nil]
      | cons y ys ihy =>
          obtain ⟨hfirst, htail⟩ := List.pairwise_cons.mp hxs
          by_cases hxy : le x y
          · rw [List.cons_merge_cons_pos _ _ _ hxy, List.filter_cons, ihx htail]
            by_cases hx : tie le c x
            · rw [if_pos hx, List.filter_cons_of_pos hx, List.cons_append]
            · rw [if_neg hx, List.filter_cons_of_neg hx]
          · rw [List.cons_merge_cons_neg _ _ _ hxy, List.filter_cons, ihy]
            by_cases hy : tie le c y
            · -- `y` comes before all that is left on the other side
              have hnone : (x :: xs).filter (tie le c) = [] := by
                rw [List.filter_eq_nil_iff]
                intro z hz htie
                unfold tie at hy htie
                rw [Bool.and_eq_true] at hy htie
                have hzy := hle _ _ _ htie.2 hy.1
                rcases List.mem_cons.mp hz with rfl | hz
                · exact hxy hzy
                · exact hxy (hle _ _ _ (hfirst z hz) hzy)
              rw [if_pos hy, hnone, List.nil_append, List.nil_append, List.filter_cons_of_pos hy]
            · rw [if_neg hy, List.filter_cons_of_neg hy]

include hle htotal in
theorem merge (hxs : StableSort le xs xs') (hys : StableSort le ys ys') :
    StableSort le (xs ++ ys) (List.merge xs' ys' le) := by
  refine append_right hxs (append_left hys ⟨List.merge_perm_append le, ?_, fun c => ?_⟩)
  · exact List.pairwise_merge hle htotal xs' ys' hxs.sorted hys.sorted
  · rw [filter_merge hle c hxs.sorted, List.filter_append]

include hle in
/-- Where the last element of the one list is no later than the first of the other, the lists are
merged already. -/
theorem merge_of_last (hxs : (xs ++ [a]).Pairwise fun a b => le a b)
    (hys : (b :: ys).Pairwise fun a b => le a b) (h : le a b) :
    List.merge (xs ++ [a]) (b :: ys) le = (xs ++ [a]) ++ b :: ys := by
  refine List.merge_of_le fun c d hc hd => ?_
  have hcb : le c b := by
    rcases List.mem_append.mp hc with hc | hc
    · exact hle _ _ _ ((List.pairwise_append.mp hxs).2.2 c hc a List.mem_cons_self) h
    · obtain rfl := List.mem_singleton.mp hc
      exact h
  rcases List.mem_cons.mp hd with rfl | hd
  · exact hcb
  · exact hle _ _ _ hcb ((List.pairwise_cons.mp hys).1 d hd)

/-! ## There is one -/

include htotal in
theorem tie_self (a : α) : tie le a a = true := by
  have h := htotal a a
  rw [Bool.or_self] at h
  unfold tie
  rw [h]
  rfl

include htotal in
theorem unique (h : StableSort le xs ys) (h' : StableSort le xs zs) : ys = zs := by
  have hperm : ys.Perm zs := h.perm.trans h'.perm.symm
  have hfilter : ∀ a, ys.filter (tie le a) = zs.filter (tie le a) :=
    fun a => (h.stable a).trans (h'.stable a).symm
  have hys := h.sorted
  have hzs := h'.sorted
  clear h h'
  induction ys generalizing zs with
  | nil => exact hperm.nil_eq
  | cons y ys ih =>
      cases zs with
      | nil => exact absurd hperm.symm.nil_eq (List.cons_ne_nil _ _).symm
      | cons z zs =>
          have hself := tie_self htotal y
          have htie : tie le y z = true := by
            unfold tie at hself ⊢
            rw [Bool.and_eq_true] at hself ⊢
            have hyz : le y z := by
              rcases List.mem_cons.mp (hperm.mem_iff.mpr List.mem_cons_self) with rfl | hz
              · exact hself.1
              · exact (List.pairwise_cons.mp hys).1 z hz
            have hzy : le z y := by
              rcases List.mem_cons.mp (hperm.mem_iff.mp List.mem_cons_self) with rfl | hy
              · exact hself.1
              · exact (List.pairwise_cons.mp hzs).1 y hy
            exact ⟨hyz, hzy⟩
          -- both heads are the first of those that tie with them
          have hheads := hfilter y
          rw [List.filter_cons_of_pos hself, List.filter_cons_of_pos htie] at hheads
          obtain rfl : y = z := (List.cons.inj hheads).1
          have htails : ∀ a, ys.filter (tie le a) = zs.filter (tie le a) := by
            intro a
            have ha := hfilter a
            rw [List.filter_cons, List.filter_cons] at ha
            split at ha
            · exact (List.cons.inj ha).2
            · exact ha
          rw [ih hperm.cons_inv htails hys.tail hzs.tail]

include hle htotal in
/-- Insertion sort is stable. -/
theorem insertionSort (xs : List α) :
    StableSort le xs (xs.insertionSort fun a b => le a b = true) := by
  have : IsTrans α fun a b => le a b = true := ⟨hle⟩
  have : Std.Total fun a b => le a b = true := ⟨fun a b => by
    have h := htotal a b
    rw [Bool.or_eq_true] at h
    exact h⟩
  refine ⟨List.perm_insertionSort _ _, List.pairwise_insertionSort _ _, fun a => ?_⟩
  have hpairwise : (xs.filter (tie le a)).Pairwise fun a b => le a b = true := by
    refine List.pairwise_iff_forall_sublist.mpr fun {b c} hsub => ?_
    have hb := List.of_mem_filter (hsub.subset List.mem_cons_self)
    have hc := List.of_mem_filter (hsub.subset (List.mem_cons_of_mem _ List.mem_cons_self))
    unfold tie at hb hc
    rw [Bool.and_eq_true] at hb hc
    exact hle _ _ _ hb.2 hc.1
  have hsub := (List.sublist_insertionSort hpairwise List.filter_sublist).filter (tie le a)
  rw [List.filter_filter] at hsub
  simp only [Bool.and_self] at hsub
  refine (hsub.eq_of_length ?_).symm
  exact ((List.perm_insertionSort _ xs).filter _).length_eq.symm

end Preorder

end StableSort

end Swirl.Lib

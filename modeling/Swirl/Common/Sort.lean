import Swirl.Common.List
import Swirl.Lib.StableSort

set_option autoImplicit false

/-! # `list_stable_sort`

The merge sort in place of `common/list.c`. The parts that are sorted are given by their first and
last index; merging moves one element at a time to the left.
-/

namespace Swirl

variable {α : Type}

/-- The loop of `list_rotate`: the items from `src` on move to the right, up to an index. -/
def rotateLoop (src : Nat) : List α → Nat → List α
  | items, 0 => items
  | items, dst + 1 =>
      if src < dst + 1 then
        match items[dst]? with
        | some item => rotateLoop src (items.set (dst + 1) item) dst
        | none => items
      else items

/-- `list_rotate` -/
def listRotate (items : List α) (src dst : Nat) : List α :=
  match items[dst]? with
  | some tmp => (rotateLoop src items dst).set src tmp
  | none => items

/-- `compare` puts the item of the first index no later than that of the second. -/
def inOrder (compare : α → α → Int) (items : List α) (i j : Nat) : Bool :=
  match items[i]?, items[j]? with
  | some a, some b => decide (compare a b ≤ 0)
  | _, _ => true

/-- The loop of `list_inplace_merge`. -/
def inplaceMergeLoop (compare : α → α → Int) (last : Nat) (items : List α)
    (left mid right : Nat) : List α :=
  if left ≤ mid ∧ right ≤ last then
    if inOrder compare items left right then
      inplaceMergeLoop compare last items (left + 1) mid right
    else
      inplaceMergeLoop compare last (listRotate items left right) (left + 1) (mid + 1) (right + 1)
  else items
termination_by (mid + 1 - left) + (last + 1 - right)

/-- `list_inplace_merge` -/
def listInplaceMerge (compare : α → α → Int) (items : List α) (left last mid : Nat) : List α :=
  let right := mid + 1
  if inOrder compare items mid right then items
  else inplaceMergeLoop compare last items left mid right

/-- `list_inplace_sort` -/
def listInplaceSort (compare : α → α → Int) (items : List α) (first last : Nat) : List α :=
  if last ≤ first then items
  else if last - first = 1 then
    if inOrder compare items first last then items else listSwap items first last
  else
    let mid := (last + first) / 2
    let items := listInplaceSort compare items first mid
    let items := listInplaceSort compare items (mid + 1) last
    listInplaceMerge compare items first last mid
termination_by last - first

/-- `list_stable_sort` -/
def listStableSort (compare : α → α → Int) (items : List α) : List α :=
  if 1 < items.length then listInplaceSort compare items 0 (items.length - 1) else items

/-! ## One element to the left -/

variable {compare : α → α → Int} {p q xs ys : List α} {x y : α}

theorem getElem?_middle (p q : List α) (x : α) : (p ++ x :: q)[p.length]? = some x := by
  rw [List.getElem?_append_right (Nat.le_refl _), Nat.sub_self]
  rfl

theorem set_middle (p q : List α) (x y : α) : (p ++ x :: q).set p.length y = p ++ y :: q := by
  rw [List.set_append_right _ _ (Nat.le_refl _), Nat.sub_self]
  rfl

theorem rotateLoop_eq (p xs q : List α) (y : α) : ∃ z,
    rotateLoop p.length (p ++ xs ++ y :: q) (p ++ xs).length = p ++ z :: (xs ++ q) := by
  induction xs using List.reverseRecOn generalizing y q with
  | nil =>
      refine ⟨y, ?_⟩
      rw [List.append_nil, List.nil_append]
      unfold rotateLoop
      cases hlen : p.length with
      | zero => rfl
      | succ n =>
          dsimp only
          rw [if_neg (Nat.lt_irrefl _)]
  | append_singleton xs x ih =>
      obtain ⟨z, hz⟩ := ih (x :: q) x
      refine ⟨z, ?_⟩
      have hlen : (p ++ (xs ++ [x])).length = (p ++ xs).length + 1 := by
        rw [← List.append_assoc, List.length_append]
        rfl
      have hlist : p ++ (xs ++ [x]) ++ y :: q = (p ++ xs) ++ x :: y :: q := by simp
      have hset : ((p ++ xs) ++ x :: y :: q).set ((p ++ xs).length + 1) x =
          (p ++ xs) ++ x :: x :: q := by
        have h := set_middle ((p ++ xs) ++ [x]) q y x
        rw [List.length_append] at h
        simpa using h
      have hlt : p.length < (p ++ xs).length + 1 := by
        rw [List.length_append]
        omega
      rw [hlen, rotateLoop, if_pos hlt, hlist, getElem?_middle]
      dsimp only
      rw [hset, hz]
      simp

/-- **`list_rotate`** moves one element in front of some others. -/
theorem listRotate_eq (p xs q : List α) (y : α) :
    listRotate (p ++ xs ++ y :: q) p.length (p ++ xs).length = p ++ y :: (xs ++ q) := by
  obtain ⟨z, hz⟩ := rotateLoop_eq p xs q y
  unfold listRotate
  rw [getElem?_middle]
  dsimp only
  rw [hz, set_middle]

theorem listSwap_middle (p q : List α) (x y : α) :
    listSwap (p ++ x :: y :: q) (p.length : Nat) (p.length + 1 : Nat) = p ++ y :: x :: q := by
  have hsecond : (p ++ x :: y :: q)[p.length + 1]? = some y := by
    have h := getElem?_middle (p ++ [x]) q y
    rw [List.length_append, List.append_assoc] at h
    exact h
  have hset : (p ++ y :: y :: q).set (p.length + 1) x = p ++ y :: x :: q := by
    have h := set_middle (p ++ [y]) q y x
    rw [List.length_append, List.append_assoc, List.append_assoc] at h
    exact h
  unfold listSwap
  rw [Int.toNat_natCast, Int.toNat_natCast, getElem?_middle, hsecond]
  dsimp only
  rw [set_middle, hset]

/-! ## Merging -/

/-- The order of `compare`. -/
def noLater (compare : α → α → Int) (a b : α) : Bool := decide (compare a b ≤ 0)

theorem inOrder_eq (compare : α → α → Int) (p xs q : List α) (x y : α) :
    inOrder compare (p ++ (x :: xs) ++ y :: q) p.length (p ++ (x :: xs)).length =
      noLater compare x y := by
  have hx : (p ++ (x :: xs) ++ y :: q)[p.length]? = some x := by
    rw [List.append_assoc, List.cons_append]
    exact getElem?_middle p _ x
  unfold inOrder
  rw [hx, getElem?_middle]
  rfl

/-- **The loop of `list_inplace_merge`** merges what is left of the two parts. -/
theorem inplaceMergeLoop_eq (compare : α → α → Int) {last mid : Nat} (p xs ys q : List α)
    (hmid : mid + 1 = (p ++ xs).length) (hlast : last + 1 = (p ++ xs ++ ys).length) :
    inplaceMergeLoop compare last (p ++ xs ++ ys ++ q) p.length mid (mid + 1) =
      p ++ List.merge xs ys (noLater compare) ++ q := by
  induction hn : xs.length + ys.length using Nat.strong_induction_on
      generalizing p xs ys mid with
  | _ n ih =>
      subst hn
      unfold inplaceMergeLoop
      cases xs with
      | nil =>
          rw [List.append_nil] at hmid ⊢
          rw [if_neg (by omega), List.nil_merge]
      | cons x xs =>
          cases ys with
          | nil =>
              rw [List.append_nil] at hlast
              rw [if_neg (by omega), List.merge_right, List.append_nil]
          | cons y ys =>
              have hin : p.length ≤ mid ∧ mid + 1 ≤ last := by
                simp only [List.length_append, List.length_cons] at hmid hlast
                omega
              have horder : inOrder compare (p ++ (x :: xs) ++ (y :: ys) ++ q) p.length (mid + 1) =
                  noLater compare x y := by
                rw [hmid, List.append_assoc]
                exact inOrder_eq compare p xs (ys ++ q) x y
              rw [if_pos hin, horder]
              by_cases hxy : noLater compare x y
              · -- `x` stays
                rw [if_pos hxy, List.cons_merge_cons_pos _ _ _ hxy]
                have hnext := ih (xs.length + (y :: ys).length)
                  (by simp only [List.length_cons]; omega) (p ++ [x]) xs (y :: ys)
                  (by simpa using hmid) (by simpa using hlast) rfl
                simpa using hnext
              · -- `y` moves in front of what is left of the first part
                rw [if_neg hxy, List.cons_merge_cons_neg _ _ _ hxy]
                have hrotate : listRotate (p ++ (x :: xs) ++ (y :: ys) ++ q) p.length (mid + 1) =
                    (p ++ [y]) ++ (x :: xs) ++ ys ++ q := by
                  rw [hmid, List.append_assoc _ (y :: ys) q, List.cons_append, listRotate_eq]
                  simp
                rw [hrotate]
                have hnext := ih ((x :: xs).length + ys.length)
                  (by simp only [List.length_cons]; omega) (p ++ [y]) (x :: xs) ys
                  (by rw [hmid]; simp; omega : mid + 1 + 1 = _)
                  (by rw [hlast]; simp; omega) rfl
                simpa using hnext

section Preorder

variable (htrans : ∀ a b c, compare a b ≤ 0 → compare b c ≤ 0 → compare a c ≤ 0)
  (htotal : ∀ a b, compare a b ≤ 0 ∨ compare b a ≤ 0)

include htrans in
theorem noLater_trans (a b c : α) (hab : noLater compare a b) (hbc : noLater compare b c) :
    noLater compare a c :=
  decide_eq_true (htrans a b c (of_decide_eq_true hab) (of_decide_eq_true hbc))

include htotal in
theorem noLater_total (a b : α) : noLater compare a b || noLater compare b a := by
  rw [Bool.or_eq_true]
  exact (htotal a b).imp decide_eq_true decide_eq_true

include htrans in
/-- **`list_inplace_merge`**, on two parts that are sorted. -/
theorem listInplaceMerge_eq {last mid : Nat} (hmid : mid + 1 = (p ++ xs).length)
    (hlast : last + 1 = (p ++ xs ++ ys).length) (hxs : xs.Pairwise fun a b => noLater compare a b)
    (hys : ys.Pairwise fun a b => noLater compare a b) (hxs' : xs ≠ []) (hys' : ys ≠ []) :
    listInplaceMerge compare (p ++ xs ++ ys ++ q) p.length last mid =
      p ++ List.merge xs ys (noLater compare) ++ q := by
  obtain ⟨xs, x, rfl⟩ := List.eq_nil_or_concat xs |>.resolve_left hxs'
  obtain ⟨y, ys, rfl⟩ := List.exists_cons_of_ne_nil hys'
  rw [List.concat_eq_append] at *
  have horder : inOrder compare (p ++ (xs ++ [x]) ++ (y :: ys) ++ q) mid (mid + 1) =
      noLater compare x y := by
    have h := inOrder_eq compare (p ++ xs) [] (ys ++ q) x y
    have hlen : (p ++ xs).length = mid := by
      rw [← List.append_assoc, List.length_append] at hmid
      exact (Nat.succ.inj hmid).symm
    have hlen' : ((p ++ xs) ++ [x]).length = mid + 1 := by
      rw [List.append_assoc, hmid]
    rw [hlen, hlen'] at h
    rw [← h]
    simp
  unfold listInplaceMerge
  dsimp only
  rw [horder]
  by_cases hxy : noLater compare x y
  · rw [if_pos hxy, Lib.StableSort.merge_of_last (noLater_trans htrans) hxs hys hxy]
    simp
  · rw [if_neg hxy]
    exact inplaceMergeLoop_eq compare p (xs ++ [x]) (y :: ys) q hmid hlast

include htrans htotal in
/-- **`list_inplace_sort`** sorts the part, and leaves the rest alone. -/
theorem listInplaceSort_spec (p xs q : List α) (hxs : xs ≠ []) : ∃ zs,
    listInplaceSort compare (p ++ xs ++ q) p.length ((p ++ xs).length - 1) = p ++ zs ++ q ∧
      Lib.StableSort (noLater compare) xs zs := by
  induction hn : xs.length using Nat.strong_induction_on generalizing p xs q with
  | _ n ih =>
      subst hn
      have hpos := List.length_pos_iff.mpr hxs
      have hlen : (p ++ xs).length = p.length + xs.length := List.length_append
      unfold listInplaceSort
      by_cases hone : (p ++ xs).length - 1 ≤ p.length
      · -- one element
        rw [if_pos hone]
        refine ⟨xs, rfl, Lib.StableSort.of_pairwise ?_⟩
        obtain ⟨x, rfl⟩ := List.length_eq_one_iff.mp (by omega : xs.length = 1)
        exact List.pairwise_singleton _ _
      · rw [if_neg hone]
        by_cases htwo : (p ++ xs).length - 1 - p.length = 1
        · -- two elements
          rw [if_pos htwo]
          obtain ⟨x, y, rfl⟩ := List.length_eq_two.mp (by omega : xs.length = 2)
          have hfirst : p ++ [x, y] ++ q = p ++ (x :: []) ++ y :: q := by simp
          have hlast : (p ++ [x, y]).length - 1 = (p ++ [x]).length := by simp
          rw [hfirst, hlast, inOrder_eq]
          by_cases hxy : noLater compare x y
          · rw [if_pos hxy]
            exact ⟨[x, y], by simp, Lib.StableSort.of_pairwise (List.pairwise_pair.mpr hxy)⟩
          · rw [if_neg hxy]
            have hsorted := Lib.StableSort.merge (noLater_trans htrans) (noLater_total htotal)
              (Lib.StableSort.of_pairwise (List.pairwise_singleton _ x))
              (Lib.StableSort.of_pairwise (List.pairwise_singleton _ y))
            rw [List.cons_merge_cons_neg _ _ _ hxy, List.merge_right] at hsorted
            refine ⟨[y, x], ?_, hsorted⟩
            have hswap := listSwap_middle p q x y
            rw [List.length_append]
            simpa using hswap
        · -- two parts
          rw [if_neg htwo]
          obtain ⟨mid, hmid⟩ : ∃ mid, mid = ((p ++ xs).length - 1 + p.length) / 2 := ⟨_, rfl⟩
          obtain ⟨k, hk⟩ : ∃ k, k = mid + 1 - p.length := ⟨_, rfl⟩
          have hkpos : 0 < k := by omega
          have hklt : k < xs.length := by omega
          have hleft : (xs.take k).length = k := List.length_take_of_le hklt.le
          have hright : (xs.drop k).length = xs.length - k := List.length_drop
          obtain ⟨zs, hzs, hsort⟩ := ih (xs.take k).length (by omega) p (xs.take k)
            (xs.drop k ++ q) (List.length_pos_iff.mp (by omega)) rfl
          have hlenzs : zs.length = k := hsort.perm.length_eq.trans hleft
          obtain ⟨zs', hzs', hsort'⟩ := ih (xs.drop k).length (by omega) (p ++ zs) (xs.drop k) q
            (List.length_pos_iff.mp (by omega)) rfl
          have hlenzs' : zs'.length = xs.length - k := hsort'.perm.length_eq.trans hright
          have hlist : p ++ xs ++ q = p ++ xs.take k ++ (xs.drop k ++ q) := by
            rw [List.append_assoc, List.append_assoc, ← List.append_assoc (xs.take k),
              List.take_append_drop]
          have hlastLeft : (p ++ xs.take k).length - 1 = mid := by
            rw [List.length_append]
            omega
          have hfirstRight : (p ++ zs).length = mid + 1 := by
            rw [List.length_append]
            omega
          have hlastRight : (p ++ zs ++ xs.drop k).length - 1 = (p ++ xs).length - 1 := by
            rw [List.length_append, List.length_append, hright, hlen]
            omega
          rw [hlastLeft, ← hlist, ← List.append_assoc] at hzs
          rw [hlastRight, hfirstRight] at hzs'
          have hsorted := Lib.StableSort.merge (noLater_trans htrans) (noLater_total htotal)
            hsort hsort'
          rw [List.take_append_drop] at hsorted
          refine ⟨_, ?_, hsorted⟩
          dsimp only
          rw [← hmid, hzs, hzs']
          refine listInplaceMerge_eq htrans hfirstRight.symm ?_ hsort.sorted hsort'.sorted
            (List.length_pos_iff.mp (by omega)) (List.length_pos_iff.mp (by omega))
          rw [List.length_append, List.length_append]
          omega

include htrans htotal in
/-- **`list_stable_sort`** gives the items in the order of `compare`, and those that tie in the
order they had. -/
theorem listStableSort_spec (items : List α) :
    Lib.StableSort (noLater compare) items (listStableSort compare items) := by
  unfold listStableSort
  by_cases hone : 1 < items.length
  · rw [if_pos hone]
    obtain ⟨zs, hzs, hsort⟩ := listInplaceSort_spec htrans htotal [] items []
      (List.length_pos_iff.mp (by omega))
    rw [List.append_nil, List.append_nil] at hzs
    exact hzs ▸ hsort
  · rw [if_neg hone]
    refine Lib.StableSort.of_pairwise ?_
    cases items with
    | nil => exact List.Pairwise.nil
    | cons a items =>
        obtain rfl : items = [] := List.length_eq_zero_iff.mp (by
          rw [List.length_cons] at hone
          omega)
        exact List.pairwise_singleton _ _

include htrans htotal in
/-- **`list_stable_sort` is a stable sort**: the items are the same, none comes after one it is
before, and equal ones keep their order. -/
theorem listStableSort_stable (items : List α) :
    (listStableSort compare items).Perm items ∧
      (listStableSort compare items).Pairwise (fun a b => compare a b ≤ 0) ∧
      ∀ a, (listStableSort compare items).filter (fun b => compare a b ≤ 0 ∧ compare b a ≤ 0) =
        items.filter fun b => compare a b ≤ 0 ∧ compare b a ≤ 0 := by
  have hsort := listStableSort_spec htrans htotal items
  have htie : ∀ a, (fun b => decide (compare a b ≤ 0 ∧ compare b a ≤ 0)) =
      Lib.tie (noLater compare) a := fun a => funext fun b => Bool.decide_and _ _
  refine ⟨hsort.perm, hsort.sorted.imp of_decide_eq_true, fun a => ?_⟩
  rw [htie a]
  exact hsort.stable a

end Preorder

/-- Pairs in the order of their first parts. -/
theorem listStableSort_stable_pairs :
    (listStableSort (fun a b : Int × Int => a.1 - b.1) [(2, 0), (1, 0), (2, 1), (1, 1)]).filter
        (fun b => (1 : Int) - b.1 ≤ 0 ∧ b.1 - 1 ≤ 0) = [(1, 0), (1, 1)] := by
  have htrans : ∀ a b c : Int × Int, a.1 - b.1 ≤ 0 → b.1 - c.1 ≤ 0 → a.1 - c.1 ≤ 0 := by
    intro a b c hab hbc
    omega
  have htotal : ∀ a b : Int × Int, a.1 - b.1 ≤ 0 ∨ b.1 - a.1 ≤ 0 := by
    intro a b
    omega
  exact (listStableSort_stable htrans htotal [(2, 0), (1, 0), (2, 1), (1, 1)]).2.2 (1, 0)

end Swirl

import Mathlib.Order.Interval.Set.OrdConnected
import Mathlib.Tactic

set_option autoImplicit false

/-! # The closest value within limits

A value is brought within limits by a chain of `max` and `min`, one a limit. As long as the limits
can be met together, each link gives the value closest to the wanted one among those that meet the
limits so far, so the order of the chain does not matter.
-/

namespace Swirl.Lib

/-- The values within a limit that may be absent have no gaps. -/
theorem ordConnected_lowerIf {β : Type*} [Preorder β] (p : Prop) (l : β) :
    {y : β | p → l ≤ y}.OrdConnected :=
  ⟨fun _ hx _ _ _ hz hp => (hx hp).trans hz.1⟩

variable {α : Type*} [AddCommGroup α] [LinearOrder α] [IsOrderedAddMonoid α]

/-- `x` is a value of the set that is closest to `v`. -/
structure Closest (s : Set α) (v x : α) : Prop where
  mem : x ∈ s
  le : ∀ y ∈ s, |x - v| ≤ |y - v|

namespace Closest

variable {s : Set α} {v x y l u : α}

theorem univ (v : α) : Closest Set.univ v v :=
  ⟨trivial, fun y _ => by rw [sub_self, abs_zero]; exact abs_nonneg _⟩

/-- Without gaps in the set, there is one closest value. -/
theorem unique (hs : s.OrdConnected) (hx : Closest s v x) (hy : Closest s v y) : x = y := by
  have hle : ∀ {x y : α}, Closest s v x → Closest s v y → y ≤ x := by
    intro x y hx hy
    by_contra hlt
    rw [not_le] at hlt
    rcases le_or_gt v x with hv | hv
    · have hxy := hy.le x hx.mem
      rw [abs_of_nonneg (sub_nonneg.2 hv), abs_of_nonneg (sub_nonneg.2 (hv.trans hlt.le))] at hxy
      exact absurd (sub_le_sub_iff_right v |>.1 hxy) (not_le.2 hlt)
    rcases le_or_gt v y with hvy | hvy
    · -- the wanted value is in the set
      have hmem : v ∈ s := hs.out hx.mem hy.mem ⟨hv.le, hvy⟩
      have hzero := hx.le v hmem
      rw [sub_self, abs_zero, abs_nonpos_iff, sub_eq_zero] at hzero
      exact absurd hzero hv.ne
    · have hxy := hx.le y hy.mem
      rw [abs_of_nonpos (sub_nonpos.2 hv.le), abs_of_nonpos (sub_nonpos.2 hvy.le),
        neg_sub, neg_sub] at hxy
      exact absurd (sub_le_sub_iff_left v |>.1 hxy) (not_le.2 hlt)
  exact le_antisymm (hle hy hx) (hle hx hy)

/-- One more lower limit. -/
theorem max (hs : s.OrdConnected) (h : Closest s v x) (hne : (s ∩ Set.Ici l).Nonempty) :
    Closest (s ∩ Set.Ici l) v (max x l) := by
  rcases le_or_gt l x with hl | hl
  · rw [max_eq_left hl]
    exact ⟨⟨h.mem, hl⟩, fun y hy => h.le y hy.1⟩
  · rw [max_eq_right hl.le]
    obtain ⟨z, hz, hlz⟩ := hne
    have hmem : l ∈ s := hs.out h.mem hz ⟨hl.le, hlz⟩
    have hv : v ≤ l := by
      by_contra hlt
      rw [not_le] at hlt
      have hxl := h.le l hmem
      rw [abs_of_nonpos (sub_nonpos.2 hlt.le), abs_of_nonpos (sub_nonpos.2 (hl.trans hlt).le),
        neg_sub, neg_sub] at hxl
      exact absurd (sub_le_sub_iff_left v |>.1 hxl) (not_le.2 hl)
    refine ⟨⟨hmem, le_rfl⟩, fun y hy => ?_⟩
    have hly : l ≤ y := hy.2
    rw [abs_of_nonneg (sub_nonneg.2 hv), abs_of_nonneg (sub_nonneg.2 (hv.trans hly))]
    exact sub_le_sub_right hly v

/-- One more upper limit. -/
theorem min (hs : s.OrdConnected) (h : Closest s v x) (hne : (s ∩ Set.Iic u).Nonempty) :
    Closest (s ∩ Set.Iic u) v (min x u) := by
  rcases le_or_gt x u with hu | hu
  · rw [min_eq_left hu]
    exact ⟨⟨h.mem, hu⟩, fun y hy => h.le y hy.1⟩
  · rw [min_eq_right hu.le]
    obtain ⟨z, hz, hzu⟩ := hne
    have hmem : u ∈ s := hs.out hz h.mem ⟨hzu, hu.le⟩
    have hv : u ≤ v := by
      by_contra hlt
      rw [not_le] at hlt
      have hxu := h.le u hmem
      rw [abs_of_nonneg (sub_nonneg.2 hlt.le), abs_of_nonneg (sub_nonneg.2 (hlt.trans hu).le)] at hxu
      exact absurd (sub_le_sub_iff_right v |>.1 hxu) (not_le.2 hu)
    refine ⟨⟨hmem, le_rfl⟩, fun y hy => ?_⟩
    have hyu : y ≤ u := hy.2
    rw [abs_of_nonpos (sub_nonpos.2 hv), abs_of_nonpos (sub_nonpos.2 (hyu.trans hv)), neg_sub,
      neg_sub]
    exact sub_le_sub_left hyu v

/-- A lower limit that may be absent. -/
theorem maxIf (p : Prop) [Decidable p] (hs : s.OrdConnected) (h : Closest s v x)
    (hne : (s ∩ {y | p → l ≤ y}).Nonempty) :
    Closest (s ∩ {y | p → l ≤ y}) v (if p then Max.max x l else x) := by
  by_cases hp : p
  · have hset : {y | p → l ≤ y} = Set.Ici l := Set.ext fun y => forall_prop_of_true hp
    rw [if_pos hp, hset]
    rw [hset] at hne
    exact h.max hs hne
  · rw [if_neg hp]
    exact ⟨⟨h.mem, fun hp' => absurd hp' hp⟩, fun y hy => h.le y hy.1⟩

/-- An upper limit that may be absent. -/
theorem minIf (p : Prop) [Decidable p] (hs : s.OrdConnected) (h : Closest s v x)
    (hne : (s ∩ {y | p → y ≤ u}).Nonempty) :
    Closest (s ∩ {y | p → y ≤ u}) v (if p then Min.min x u else x) := by
  by_cases hp : p
  · have hset : {y | p → y ≤ u} = Set.Iic u := Set.ext fun y => forall_prop_of_true hp
    rw [if_pos hp, hset]
    rw [hset] at hne
    exact h.min hs hne
  · rw [if_neg hp]
    exact ⟨⟨h.mem, fun hp' => absurd hp' hp⟩, fun y hy => h.le y hy.1⟩

end Closest

end Swirl.Lib

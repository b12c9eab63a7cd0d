import Swirl.Tree.ColumnFill

set_option autoImplicit false

/-! # The shares of a column that gets a window

`container_fit_vertical_children` gives the newcomer an equal share, scales the windows that were
there down when the column is full, lifts those that went below their minimum, and takes what that
costs out of the share of the newcomer. The result is as it should be exactly if the newcomer can
pay.
-/

namespace Swirl

open Lib

section Shares

variable {usable : ℚ} {l : List StackWindow} {w v : StackWindow}

/-- The windows that were there. -/
def oldWindows (l : List StackWindow) : List StackWindow := l.filter fun w => !w.isNew

/-- What the windows that were there start from together. -/
def oldSum (usable : ℚ) (l : List StackWindow) : ℚ :=
  ((oldWindows l).map (StackWindow.start usable l.length)).sum

/-- What the newcomer is to get. -/
def newcomerTarget (l : List StackWindow) (w : StackWindow) : ℚ := max (1 / l.length) w.minShare

/-- The factor by which a full column is scaled down. -/
def shareScale (usable : ℚ) (l : List StackWindow) (w : StackWindow) : ℚ :=
  (1 - newcomerTarget l w) / oldSum usable l

/-- What the windows that were there lack to their minimum shares once they are scaled down. -/
def shareDeficit (usable : ℚ) (l : List StackWindow) (w : StackWindow) : ℚ :=
  ((oldWindows l).map fun v =>
    max 0 (v.minShare - v.start usable l.length * shareScale usable l w)).sum

/-- The minimum shares of all windows. -/
def minShareSum (l : List StackWindow) : ℚ := (l.map StackWindow.minShare).sum

/-- The condition under which the shares come out as they should: the column is not full; or the
newcomer leaves something to the others and pays for their minimums, with something left for itself
and without going below its own minimum while all minimums fit; or it leaves nothing, and all others
have minimums. -/
def SharesFit (usable : ℚ) (l : List StackWindow) (w : StackWindow) : Prop :=
  oldSum usable l ≤ 1 - newcomerTarget l w ∨
    (newcomerTarget l w < 1 ∧ (shareDeficit usable l w = 0 ∨
      ((0 < w.minShare ∨ shareDeficit usable l w < newcomerTarget l w) ∧
        (1 ≤ minShareSum l ∨ shareDeficit usable l w + w.minShare ≤ newcomerTarget l w)))) ∨
    (1 ≤ newcomerTarget l w ∧ ∀ v ∈ oldWindows l, 0 < v.minShare)

/-- The factor that is applied. -/
def appliedScale (usable : ℚ) (l : List StackWindow) (w : StackWindow) : ℚ :=
  if 1 - newcomerTarget l w < oldSum usable l ∧ 0 < oldSum usable l then shareScale usable l w
  else 1

/-- What a window that was there gets. -/
def liftedShare (usable : ℚ) (l : List StackWindow) (w v : StackWindow) : ℚ :=
  v.lifted (appliedScale usable l w) (v.start usable l.length)

/-- What the newcomer pays. -/
def paidShare (usable : ℚ) (l : List StackWindow) (w : StackWindow) : ℚ :=
  ((oldWindows l).map fun v =>
    liftedShare usable l w v - v.start usable l.length * appliedScale usable l w).sum

/-- What is left to a newcomer that pays. -/
def afterPaying (target paid minShare : ℚ) : ℚ :=
  if 0 < paid then max (target - paid) minShare else target

/-- The share of a window. -/
def fittedShare (usable : ℚ) (l : List StackWindow) (w v : StackWindow) : ℚ :=
  if v.isNew then afterPaying (newcomerTarget l w) (paidShare usable l w) w.minShare
  else liftedShare usable l w v

theorem fitShares_eq (hnew : l.filter StackWindow.isNew = [w]) :
    fitShares usable l = l.map (fittedShare usable l w) := by
  have hfind : l.find? StackWindow.isNew = some w := by
    rw [← List.head?_filter, hnew]
    rfl
  unfold fitShares
  dsimp only
  rw [hfind]
  rfl

/-- A sum over all windows: the newcomer, and the windows that were there. -/
theorem sum_windows (hnew : l.filter StackWindow.isNew = [w]) (f : StackWindow → ℚ) :
    (l.map f).sum = f w + ((oldWindows l).map f).sum := by
  have hperm := List.filter_append_perm StackWindow.isNew l
  rw [hnew] at hperm
  rw [← (hperm.map f).sum_eq, List.map_append, List.sum_append, List.map_singleton,
    List.sum_singleton]
  rfl

theorem forall_windows (hnew : l.filter StackWindow.isNew = [w]) (P : StackWindow → Prop) :
    (∀ v ∈ l, P v) ↔ P w ∧ ∀ v ∈ oldWindows l, P v := by
  have hperm := List.filter_append_perm StackWindow.isNew l
  rw [hnew] at hperm
  constructor
  · intro h
    exact ⟨h w (hperm.mem_iff.mp List.mem_cons_self),
      fun v hv => h v (List.mem_of_mem_filter hv)⟩
  · rintro ⟨hw, hold⟩ v hv
    rcases List.mem_cons.mp (hperm.mem_iff.mpr hv) with rfl | hv
    · exact hw
    · exact hold v hv

theorem isNew_newcomer (hnew : l.filter StackWindow.isNew = [w]) : w.isNew = true := by
  have hmem : w ∈ l.filter StackWindow.isNew := by
    rw [hnew]
    exact List.mem_singleton_self w
  exact (List.mem_filter.mp hmem).2

theorem isNew_oldWindow (hv : v ∈ oldWindows l) : v.isNew = false := by
  simpa using (List.mem_filter.mp hv).2

/-- A column with a newcomer and another window has two windows at least. -/
theorem two_le_length (hnew : l.filter StackWindow.isNew = [w]) (hv : v ∈ oldWindows l) :
    2 ≤ l.length := by
  have hperm := List.filter_append_perm StackWindow.isNew l
  rw [hnew] at hperm
  have hlen := hperm.length_eq
  have hpos := List.length_pos_of_mem hv
  unfold oldWindows at hpos
  rw [List.length_append, List.length_singleton] at hlen
  omega

/-- A window that was there starts from a positive share. -/
theorem start_pos (husable : 0 < usable) (hnew : l.filter StackWindow.isNew = [w])
    (hv : v ∈ oldWindows l) : 0 < v.start usable l.length := by
  have hlen : (2 : ℚ) ≤ l.length := by exact_mod_cast two_le_length hnew hv
  have hold := isNew_oldWindow hv
  refine lt_max_of_lt_left ?_
  rw [hold, if_neg Bool.false_ne_true]
  split
  next hheight => exact div_pos hheight husable
  next => exact div_pos one_pos (by linarith)

theorem oldSum_nonneg (husable : 0 < usable) (hnew : l.filter StackWindow.isNew = [w]) :
    0 ≤ oldSum usable l := by
  refine List.sum_nonneg fun x hx => ?_
  obtain ⟨v, hv, rfl⟩ := List.mem_map.mp hx
  exact (start_pos husable hnew hv).le

theorem newcomerTarget_pos (hnew : l.filter StackWindow.isNew = [w]) : 0 < newcomerTarget l w := by
  have hmem : w ∈ l.filter StackWindow.isNew := by
    rw [hnew]
    exact List.mem_singleton_self w
  have hlen : (0 : ℚ) < l.length :=
    Nat.cast_pos.mpr (List.length_pos_of_mem (List.mem_of_mem_filter hmem))
  exact (div_pos one_pos hlen).trans_le (le_max_left _ _)

/-- What the claim on the shares is about: all are positive, and when the minimum shares fit, the
shares fit as well and none is below its minimum. -/
def SharesGood (usable : ℚ) (l : List StackWindow) (w : StackWindow) : Prop :=
  (∀ v ∈ l, 0 < fittedShare usable l w v) ∧
    (minShareSum l < 1 → (l.map (fittedShare usable l w)).sum ≤ 1 ∧
      ∀ v ∈ l, v.minShare ≤ fittedShare usable l w v)

/-- The shares, told apart: the one of the newcomer and those of the windows that were there. -/
theorem sharesGood_iff (hnew : l.filter StackWindow.isNew = [w]) :
    SharesGood usable l w ↔
      (0 < afterPaying (newcomerTarget l w) (paidShare usable l w) w.minShare ∧
        ∀ v ∈ oldWindows l, 0 < liftedShare usable l w v) ∧
      (minShareSum l < 1 →
        afterPaying (newcomerTarget l w) (paidShare usable l w) w.minShare +
            ((oldWindows l).map (liftedShare usable l w)).sum ≤ 1 ∧
          w.minShare ≤ afterPaying (newcomerTarget l w) (paidShare usable l w) w.minShare ∧
          ∀ v ∈ oldWindows l, v.minShare ≤ liftedShare usable l w v) := by
  have hself : fittedShare usable l w w =
      afterPaying (newcomerTarget l w) (paidShare usable l w) w.minShare :=
    if_pos (isNew_newcomer hnew)
  have hold : ∀ v ∈ oldWindows l, fittedShare usable l w v = liftedShare usable l w v :=
    fun v hv => if_neg (by rw [isNew_oldWindow hv]; exact Bool.false_ne_true)
  have hmap : (oldWindows l).map (fittedShare usable l w) =
      (oldWindows l).map (liftedShare usable l w) := List.map_congr_left hold
  unfold SharesGood
  rw [forall_windows hnew, forall_windows hnew, sum_windows hnew, hself, hmap]
  refine and_congr (and_congr_right fun _ => forall₂_congr fun v hv => by rw [hold v hv])
    (imp_congr_right fun _ => and_congr_right fun _ => and_congr_right fun _ =>
      forall₂_congr fun v hv => by rw [hold v hv])

/-- What a newcomer that pays has left. -/
theorem afterPaying_pos_iff {target paid minShare : ℚ} (htarget : 0 < target) (hpaid : 0 ≤ paid) :
    0 < afterPaying target paid minShare ↔ paid = 0 ∨ 0 < minShare ∨ paid < target := by
  unfold afterPaying
  split
  next h =>
    rw [lt_max_iff, sub_pos, or_iff_right h.ne', or_comm]
  next h => exact iff_of_true htarget (Or.inl (le_antisymm (not_lt.mp h) hpaid))

theorem minShare_le_afterPaying {target paid minShare : ℚ} (h : minShare ≤ target) :
    minShare ≤ afterPaying target paid minShare := by
  unfold afterPaying
  split
  · exact le_max_right _ _
  · exact h

theorem afterPaying_le_iff {target paid minShare : ℚ} (hpaid : 0 ≤ paid) :
    afterPaying target paid minShare + (1 - target + paid) ≤ 1 ↔
      paid = 0 ∨ paid + minShare ≤ target := by
  unfold afterPaying
  split
  next h =>
    rw [or_iff_right h.ne']
    constructor
    · intro hle
      linarith [le_max_right (target - paid) minShare]
    · intro hle
      rcases max_choice (target - paid) minShare with hmax | hmax
      · rw [hmax]
        linarith
      · rw [hmax]
        linarith
  next h =>
    have hzero := le_antisymm (not_lt.mp h) hpaid
    rw [hzero]
    exact iff_of_true (by linarith) (Or.inl rfl)

/-! ## A column with room -/

/-- With room the windows that were there keep their shares. -/
theorem sharesGood_of_room (husable : 0 < usable) (hnew : l.filter StackWindow.isNew = [w])
    (hroom : oldSum usable l ≤ 1 - newcomerTarget l w) : SharesGood usable l w := by
  have hscale : appliedScale usable l w = 1 := if_neg fun h => absurd h.1 (not_lt.mpr hroom)
  have hkeep : ∀ v, liftedShare usable l w v = v.start usable l.length := by
    intro v
    have hmin : v.minShare ≤ v.start usable l.length := le_max_right _ _
    unfold liftedShare StackWindow.lifted
    rw [hscale, mul_one]
    exact if_neg fun h => absurd h.2 (not_lt.mpr hmin)
  have hpaid : paidShare usable l w = 0 := by
    unfold paidShare
    refine List.sum_eq_zero fun x hx => ?_
    obtain ⟨v, -, rfl⟩ := List.mem_map.mp hx
    rw [hkeep, hscale, mul_one, sub_self]
  have htarget : afterPaying (newcomerTarget l w) (paidShare usable l w) w.minShare =
      newcomerTarget l w := by
    rw [hpaid]
    exact if_neg (lt_irrefl 0)
  rw [sharesGood_iff hnew, htarget]
  refine ⟨⟨newcomerTarget_pos hnew, fun v hv => ?_⟩, fun _ => ⟨?_, le_max_right _ _, fun v _ => ?_⟩⟩
  · rw [hkeep]
    exact start_pos husable hnew hv
  · have hsum : ((oldWindows l).map (liftedShare usable l w)).sum = oldSum usable l := by
      unfold oldSum
      exact congrArg List.sum (List.map_congr_left fun v _ => hkeep v)
    rw [hsum]
    linarith
  · rw [hkeep]
    exact le_max_right _ _

/-! ## A full column -/

theorem shareDeficit_nonneg : 0 ≤ shareDeficit usable l w := by
  refine List.sum_nonneg fun x hx => ?_
  obtain ⟨v, -, rfl⟩ := List.mem_map.mp hx
  exact le_max_left _ _

/-- A full column, and a newcomer that leaves something to the windows that were there. -/
structure FullStack (usable : ℚ) (l : List StackWindow) (w : StackWindow) : Prop where
  new : l.filter StackWindow.isNew = [w]
  usable_pos : 0 < usable
  min_nonneg : ∀ v ∈ l, 0 ≤ v.minShare
  full : 1 - newcomerTarget l w < oldSum usable l
  target_lt : newcomerTarget l w < 1

section FullStack

variable (h : FullStack usable l w)

include h

theorem FullStack.sum_pos : 0 < oldSum usable l := (sub_pos.mpr h.target_lt).trans h.full

theorem FullStack.appliedScale_eq : appliedScale usable l w = shareScale usable l w :=
  if_pos ⟨h.full, h.sum_pos⟩

/-- The factor is positive, so the windows that were there keep something. -/
theorem FullStack.scaled_pos (hv : v ∈ oldWindows l) :
    0 < v.start usable l.length * shareScale usable l w :=
  mul_pos (start_pos h.usable_pos h.new hv) (div_pos (sub_pos.mpr h.target_lt) h.sum_pos)

/-- Each of them gets its scaled share, and what this lacks to its minimum. -/
theorem FullStack.liftedShare_eq (hv : v ∈ oldWindows l) :
    liftedShare usable l w v = v.start usable l.length * shareScale usable l w +
      max 0 (v.minShare - v.start usable l.length * shareScale usable l w) := by
  have hscaled := h.scaled_pos hv
  have hnonneg := h.min_nonneg v (List.mem_of_mem_filter hv)
  unfold liftedShare StackWindow.lifted
  rw [h.appliedScale_eq]
  generalize v.start usable l.length * shareScale usable l w = scaled at hscaled ⊢
  split
  next hlow =>
    rw [max_eq_right (sub_nonneg.mpr hlow.2.le)]
    ring
  next hhigh =>
    rw [max_eq_left, add_zero]
    by_contra hpos
    have hlow : scaled < v.minShare := sub_pos.mp (not_le.mp hpos)
    exact hhigh ⟨hscaled.trans hlow, hlow⟩

theorem FullStack.liftedShare_pos (hv : v ∈ oldWindows l) : 0 < liftedShare usable l w v := by
  rw [h.liftedShare_eq hv]
  exact add_pos_of_pos_of_nonneg (h.scaled_pos hv) (le_max_left _ _)

theorem FullStack.minShare_le (hv : v ∈ oldWindows l) : v.minShare ≤ liftedShare usable l w v := by
  rw [h.liftedShare_eq hv]
  linarith [le_max_right 0 (v.minShare - v.start usable l.length * shareScale usable l w)]

/-- The newcomer pays what the others lack. -/
theorem FullStack.paidShare_eq : paidShare usable l w = shareDeficit usable l w := by
  unfold paidShare shareDeficit
  refine congrArg List.sum (List.map_congr_left fun v hv => ?_)
  rw [h.liftedShare_eq hv, h.appliedScale_eq]
  ring

/-- Together they get what the newcomer leaves, and what it pays. -/
theorem FullStack.sum_lifted : ((oldWindows l).map (liftedShare usable l w)).sum =
    1 - newcomerTarget l w + shareDeficit usable l w := by
  have hscaled : ((oldWindows l).map fun v =>
      v.start usable l.length * shareScale usable l w).sum = 1 - newcomerTarget l w := by
    rw [List.sum_map_mul_right]
    exact mul_div_cancel₀ _ h.sum_pos.ne'
  have hparts : (oldWindows l).map (liftedShare usable l w) =
      (oldWindows l).map fun v => v.start usable l.length * shareScale usable l w +
        max 0 (v.minShare - v.start usable l.length * shareScale usable l w) :=
    List.map_congr_left fun v hv => h.liftedShare_eq hv
  rw [hparts, List.sum_map_add, hscaled]
  rfl

/-- **In a full column the shares are good exactly if the newcomer can pay.** -/
theorem FullStack.sharesGood_iff : SharesGood usable l w ↔ shareDeficit usable l w = 0 ∨
    ((0 < w.minShare ∨ shareDeficit usable l w < newcomerTarget l w) ∧
      (1 ≤ minShareSum l ∨ shareDeficit usable l w + w.minShare ≤ newcomerTarget l w)) := by
  have hpositive : ∀ v ∈ oldWindows l, 0 < liftedShare usable l w v := fun v hv =>
    h.liftedShare_pos hv
  have habove : ∀ v ∈ oldWindows l, v.minShare ≤ liftedShare usable l w v := fun v hv =>
    h.minShare_le hv
  have hself : w.minShare ≤
      afterPaying (newcomerTarget l w) (shareDeficit usable l w) w.minShare :=
    minShare_le_afterPaying (le_max_right _ _)
  rw [Swirl.sharesGood_iff h.new, h.paidShare_eq, h.sum_lifted,
    afterPaying_pos_iff (newcomerTarget_pos h.new) shareDeficit_nonneg,
    afterPaying_le_iff shareDeficit_nonneg, and_iff_left hpositive,
    and_iff_left (And.intro hself habove)]
  have hsum : minShareSum l < 1 ↔ ¬ 1 ≤ minShareSum l := not_le.symm
  have hdistrib : ∀ P Q R S T : Prop,
      ((P ∨ Q ∨ R) ∧ (¬ S → P ∨ T)) ↔ (P ∨ ((Q ∨ R) ∧ (S ∨ T))) := by
    intro P Q R S T
    tauto
  rw [hsum]
  exact hdistrib _ _ _ _ _

end FullStack

/-! ## A newcomer that leaves nothing -/

/-- Such a newcomer needs the whole column. -/
theorem one_le_minShare (hnew : l.filter StackWindow.isNew = [w])
    (hfull : 1 - newcomerTarget l w < oldSum usable l) (htarget : 1 ≤ newcomerTarget l w) :
    1 ≤ w.minShare := by
  rcases max_choice (1 / (l.length : ℚ)) w.minShare with hmax | hmax
  · -- an equal share is the whole column only when nobody else is there
    have hequal : newcomerTarget l w = 1 / l.length := hmax
    rw [hequal] at hfull htarget
    rcases List.eq_nil_or_concat' (oldWindows l) with hnil | ⟨front, v, hold⟩
    · have hsum : oldSum usable l = 0 := by
        unfold oldSum
        rw [hnil]
        rfl
      have hlen : l.length = 1 := by
        have hperm := List.filter_append_perm StackWindow.isNew l
        have hlength := hperm.length_eq
        unfold oldWindows at hnil
        rw [hnew, hnil] at hlength
        exact hlength.symm
      rw [hsum, hlen] at hfull
      norm_num at hfull
    · have hmem : v ∈ oldWindows l := by
        rw [hold]
        exact List.mem_append_right front List.mem_cons_self
      have hlen : (2 : ℚ) ≤ l.length := by exact_mod_cast two_le_length hnew hmem
      have hless : 1 / (l.length : ℚ) < 1 := (div_lt_one (by linarith)).mpr (by linarith)
      exact absurd htarget (not_le.mpr hless)
  · exact htarget.trans_eq hmax

/-- A newcomer whose minimum is the whole column leaves factor zero, or a negative one: the windows
that were there end with their minimums, and without one with nothing. -/
theorem sharesGood_of_greedy (husable : 0 < usable) (hnew : l.filter StackWindow.isNew = [w])
    (hmin : ∀ v ∈ l, 0 ≤ v.minShare) (hfull : 1 - newcomerTarget l w < oldSum usable l) (htarget : 1 ≤ newcomerTarget l w) :
    SharesGood usable l w ↔ ∀ v ∈ oldWindows l, 0 < v.minShare := by
  have hnonneg := oldSum_nonneg husable hnew
  have hneeds := one_le_minShare hnew hfull htarget
  -- the factor is at most zero, unless nobody was there
  have hold : ∀ v ∈ oldWindows l, 0 < liftedShare usable l w v ↔ 0 < v.minShare := by
    intro v hv
    have hstart := start_pos husable hnew hv
    have hsum : 0 < oldSum usable l := by
      refine hstart.trans_le (List.single_le_sum (fun x hx => ?_) _ (List.mem_map_of_mem hv))
      obtain ⟨u, hu, rfl⟩ := List.mem_map.mp hx
      exact (start_pos husable hnew hu).le
    have hscale : appliedScale usable l w ≤ 0 := by
      unfold appliedScale
      rw [if_pos ⟨hfull, hsum⟩]
      exact div_nonpos_of_nonpos_of_nonneg (by linarith) hnonneg
    have hscaled : v.start usable l.length * appliedScale usable l w ≤ 0 :=
      mul_nonpos_of_nonneg_of_nonpos hstart.le hscale
    unfold liftedShare StackWindow.lifted
    split
    next h => exact Iff.rfl
    next h =>
      refine iff_of_false (not_lt.mpr hscaled) fun hpos => h ⟨hpos, ?_⟩
      exact hscaled.trans_lt hpos
  have hpay : 0 < afterPaying (newcomerTarget l w) (paidShare usable l w) w.minShare := by
    unfold afterPaying
    split
    · exact lt_max_of_lt_right (by linarith)
    · linarith
  have hmins : ¬ minShareSum l < 1 := by
    have hsum := sum_windows hnew StackWindow.minShare
    have hothers : 0 ≤ ((oldWindows l).map StackWindow.minShare).sum := by
      refine List.sum_nonneg fun x hx => ?_
      obtain ⟨v, hv, rfl⟩ := List.mem_map.mp hx
      exact hmin v (List.mem_of_mem_filter hv)
    unfold minShareSum
    linarith
  rw [sharesGood_iff hnew, and_iff_right hpay]
  constructor
  · rintro ⟨hpos, -⟩ v hv
    exact (hold v hv).mp (hpos v hv)
  · intro hpos
    exact ⟨fun v hv => (hold v hv).mpr (hpos v hv), fun h => absurd h hmins⟩

/-- **The shares are good exactly under `SharesFit`.** -/
theorem sharesGood_iff_fit (husable : 0 < usable) (hnew : l.filter StackWindow.isNew = [w])
    (hmin : ∀ v ∈ l, 0 ≤ v.minShare) : SharesGood usable l w ↔ SharesFit usable l w := by
  unfold SharesFit
  by_cases hroom : oldSum usable l ≤ 1 - newcomerTarget l w
  · exact iff_of_true (sharesGood_of_room husable hnew hroom) (Or.inl hroom)
  · have hfull := not_le.mp hroom
    rw [or_iff_right hroom]
    rcases lt_or_ge (newcomerTarget l w) 1 with htarget | htarget
    · have hiff := FullStack.sharesGood_iff ⟨hnew, husable, hmin, hfull, htarget⟩
      have hnot : ¬ (1 ≤ newcomerTarget l w ∧ ∀ v ∈ oldWindows l, 0 < v.minShare) :=
        fun h => absurd htarget (not_lt.mpr h.1)
      rw [hiff, and_iff_right htarget, or_iff_left hnot]
    · rw [sharesGood_of_greedy husable hnew hmin hfull htarget, and_iff_right htarget]
      exact (or_iff_right fun h => absurd h.1 (not_lt.mpr htarget)).symm

end Shares

/-! ## In the tree -/

section Children

variable {s : State} {col c : ConId}

/-- The children get the fractions that are written. -/
theorem heightFraction_setHeightFractions (rs : List (ConId × ℚ)) (s : State)
    (hnodup : (rs.map Prod.fst).Nodup) :
    rs.map (fun r => ((rs.foldl (fun s r =>
      s.modGeo r.1 fun g => { g with heightFraction := r.2 }) s).geo r.1).heightFraction) =
        rs.map Prod.snd := by
  induction rs generalizing s with
  | nil => rfl
  | cons r rs ih =>
      obtain ⟨hr, hnodup'⟩ := List.nodup_cons.mp hnodup
      have hkeep : ∀ t : State, Writes (· ∈ rs.map Prod.fst) t (rs.foldl (fun s r =>
          s.modGeo r.1 fun g => { g with heightFraction := r.2 }) t) := by
        intro t
        refine Writes.foldl fun u _ q hq => ?_
        refine (Writes.modGeo u q.1 _).mono ?_
        rintro d rfl
        exact List.mem_map_of_mem hq
      rw [List.foldl_cons, List.map_cons, List.map_cons, (hkeep _).geo r.1 hr]
      refine congrArg₂ (· :: ·) ?_ (ih _ hnodup')
      simp [State.modGeo]

/-- `usable` of `container_fit_vertical_children`. -/
def stackUsable (s : State) (col : ConId) : ℚ :=
  if 0 < (s.geo col).height then columnUsable s col else (s.geo col).height

/-- What `container_fit_vertical_children` reads of a child. -/
def stackWindow (s : State) (col c d : ConId) : StackWindow :=
  { isNew := decide (d = c), height := (s.geo d).height,
    minShare := minShare s (stackUsable s col) d }

/-- What it reads of all children. -/
def stackWindows (s : State) (col c : ConId) : List StackWindow :=
  (s.tree.con col).children.map (stackWindow s col c)

theorem filter_stackWindows (hnodup : (s.tree.con col).children.Nodup)
    (hc : c ∈ (s.tree.con col).children) :
    (stackWindows s col c).filter StackWindow.isNew = [stackWindow s col c c] := by
  have hone : (s.tree.con col).children.filter (fun d => decide (d = c)) = [c] := by
    rw [List.filter_eq, List.count_eq_one_of_mem hnodup hc]
    rfl
  unfold stackWindows
  rw [List.filter_map]
  have hsame : (StackWindow.isNew ∘ stackWindow s col c) = fun d => decide (d = c) := rfl
  rw [hsame, hone]
  rfl

/-- **The fractions are the ones of the share arithmetic.** -/
theorem heightFractions_containerFitVerticalChildren (hnodup : (s.tree.con col).children.Nodup)
    (hc : c ∈ (s.tree.con col).children) (hview : (s.tree.con col).view = none)
    (hvert : (s.geo col).layout = .vert) (husable : 0 < stackUsable s col) :
    (s.tree.con col).children.map (fun d =>
        ((containerFitVerticalChildren s (some col) c).geo d).heightFraction) =
      fitShares (stackUsable s col) (stackWindows s col c) := by
  have hne : ¬ ((s.tree.con col).view.isSome ∨ (s.geo col).layout ≠ .vert ∨
      (s.tree.con col).children = []) := by
    rintro (h | h | h)
    · rw [hview] at h
      cases h
    · exact h hvert
    · rw [h] at hc
      cases hc
  have hset : containerFitVerticalChildren s (some col) c =
      setHeightFractions s (s.tree.con col).children
        (fitShares (stackUsable s col) (stackWindows s col c)) :=
    (if_neg hne).trans (if_neg (not_le.mpr husable))
  have hlen : (fitShares (stackUsable s col) (stackWindows s col c)).length =
      (s.tree.con col).children.length := by
    unfold fitShares stackWindows
    rw [List.length_map, List.length_map]
  rw [hset]
  generalize fitShares (stackUsable s col) (stackWindows s col c) = fractions at hlen ⊢
  have hfst : ((s.tree.con col).children.zip fractions).map Prod.fst =
      (s.tree.con col).children := List.map_fst_zip hlen.ge
  have hsnd : ((s.tree.con col).children.zip fractions).map Prod.snd = fractions :=
    List.map_snd_zip hlen.le
  have hfractions := heightFraction_setHeightFractions ((s.tree.con col).children.zip fractions) s
    (by rwa [hfst])
  rw [hsnd] at hfractions
  unfold setHeightFractions
  generalize ((s.tree.con col).children.zip fractions).foldl
    (fun s r => s.modGeo r.1 fun g => { g with heightFraction := r.2 }) s = t at hfractions ⊢
  calc (s.tree.con col).children.map (fun d => (t.geo d).heightFraction)
      = (((s.tree.con col).children.zip fractions).map Prod.fst).map
          fun d => (t.geo d).heightFraction := by rw [hfst]
    _ = ((s.tree.con col).children.zip fractions).map fun r => (t.geo r.1).heightFraction :=
        List.map_map
    _ = fractions := hfractions

/-- **A column that gets a window has positive fractions, which fit when the minimums do, exactly
under `SharesFit`.** -/
theorem containerFitVerticalChildren_good_iff (hnodup : (s.tree.con col).children.Nodup)
    (hc : c ∈ (s.tree.con col).children) (hview : (s.tree.con col).view = none)
    (hvert : (s.geo col).layout = .vert) (husable : 0 < stackUsable s col)
    (hmin : ∀ d ∈ (s.tree.con col).children, 0 ≤ minShare s (stackUsable s col) d) :
    ((∀ d ∈ (s.tree.con col).children,
        0 < ((containerFitVerticalChildren s (some col) c).geo d).heightFraction) ∧
      (((s.tree.con col).children.map (minShare s (stackUsable s col))).sum < 1 →
        ((s.tree.con col).children.map fun d =>
          ((containerFitVerticalChildren s (some col) c).geo d).heightFraction).sum ≤ 1 ∧
        ∀ d ∈ (s.tree.con col).children, minShare s (stackUsable s col) d ≤
          ((containerFitVerticalChildren s (some col) c).geo d).heightFraction)) ↔
      SharesFit (stackUsable s col) (stackWindows s col c) (stackWindow s col c c) := by
  have hnew := filter_stackWindows hnodup hc
  have hmin' : ∀ v ∈ stackWindows s col c, 0 ≤ v.minShare := by
    intro v hv
    obtain ⟨d, hd, rfl⟩ := List.mem_map.mp hv
    exact hmin d hd
  have hfractions := heightFractions_containerFitVerticalChildren hnodup hc hview hvert husable
  rw [fitShares_eq hnew] at hfractions
  rw [← sharesGood_iff_fit husable hnew hmin']
  have heach : ∀ d ∈ (s.tree.con col).children,
      ((containerFitVerticalChildren s (some col) c).geo d).heightFraction =
        fittedShare (stackUsable s col) (stackWindows s col c) (stackWindow s col c c)
          (stackWindow s col c d) := by
    have hmaps := hfractions
    conv_rhs at hmaps => rw [stackWindows, List.map_map]
    exact List.map_inj_left.mp hmaps
  have hsum : minShareSum (stackWindows s col c) =
      ((s.tree.con col).children.map (minShare s (stackUsable s col))).sum := by
    unfold minShareSum stackWindows
    rw [List.map_map]
    rfl
  unfold SharesGood
  rw [hfractions, hsum]
  unfold stackWindows at heach ⊢
  rw [List.forall_mem_map, List.forall_mem_map]
  refine and_congr (forall₂_congr fun d hd => by rw [heach d hd])
    (imp_congr_right fun _ => and_congr_right fun _ =>
      forall₂_congr fun d hd => by rw [heach d hd]; rfl)

end Children

/-- A full column of two windows, 40 and 60 pixels high, of which the first one is at least 40
pixels high, and a third window of some minimum height that is new in it. -/
def stackWithNewcomer (minHeight : Int) : State :=
  { State.start configDefaults ⟨0, 0, 1000, 800⟩ with
    tree := ((Tree.outlined [⟨[(0, [1, 2, 3])], []⟩]).modCon 1 fun k =>
      { k with view := some { View.plain with minHeight := 40 } }).modCon 3 fun k =>
      { k with view := some { View.plain with minHeight } }
    geo := fun c =>
      { Geometry.blank with
        layout := .vert
        height := if c = 0 then 100 else if c = 1 then 40 else if c = 2 then 60 else 0 } }

/-- A newcomer that needs half of the column cannot pay for the first window: the fractions add up
to more than the column, although the minimums fit. -/
theorem containerFitVerticalChildren_overruns :
    ¬ ∀ (s : State) (col c : ConId), (s.tree.con col).children.Nodup →
      c ∈ (s.tree.con col).children → (s.tree.con col).view = none →
      (s.geo col).layout = .vert → 0 < stackUsable s col →
      (∀ d ∈ (s.tree.con col).children, 0 ≤ minShare s (stackUsable s col) d) →
      ((s.tree.con col).children.map (minShare s (stackUsable s col))).sum < 1 →
      ((s.tree.con col).children.map fun d =>
        ((containerFitVerticalChildren s (some col) c).geo d).heightFraction).sum ≤ 1 := by
  intro h
  have hsum := h (stackWithNewcomer 50) 0 3 (by decide +kernel) (by decide +kernel) rfl rfl
    (by decide +kernel) (by decide +kernel) (by decide +kernel)
  exact absurd hsum (by decide +kernel)

/-- A newcomer without a minimum pays. -/
theorem containerFitVerticalChildren_good_paying :
    (∀ d ∈ ((stackWithNewcomer 0).tree.con 0).children,
      0 < ((containerFitVerticalChildren (stackWithNewcomer 0) (some 0) 3).geo d).heightFraction) ∧
    (((stackWithNewcomer 0).tree.con 0).children.map fun d =>
      ((containerFitVerticalChildren (stackWithNewcomer 0) (some 0) 3).geo d).heightFraction).sum
        ≤ 1 := by
  have hfit : SharesFit (stackUsable (stackWithNewcomer 0) 0) (stackWindows (stackWithNewcomer 0) 0 3)
      (stackWindow (stackWithNewcomer 0) 0 3 3) := by
    unfold SharesFit
    decide +kernel
  have hgood := (containerFitVerticalChildren_good_iff (by decide +kernel) (by decide +kernel) rfl
    rfl (by decide +kernel) (by decide +kernel)).mpr hfit
  exact ⟨hgood.1, (hgood.2 (by decide +kernel)).1⟩

end Swirl

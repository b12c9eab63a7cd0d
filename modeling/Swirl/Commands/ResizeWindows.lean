import Swirl.Commands.Resize
import Swirl.Tree.Absorb
import Swirl.Tree.WellFormed

set_option autoImplicit false

/-! # A window that is resized in its column

What `tiled_resize_vertical_px` does to the heights of a column: in which order it asks the other
windows, and when the heights it assigns stay within the column.
-/

namespace Swirl

open Lib

/-! ## The order in which the windows are asked -/

section Order

variable {n : Nat} {index : Int} {edge : UInt32}

/-- Another window of the column. -/
def IsSibling (n : Nat) (index k : Int) : Prop := 0 ≤ k ∧ k < n ∧ k ≠ index

/-- What holds of the array while it is filled: it is written from the front, and its items are
different siblings. -/
structure Listed (n : Nat) (index : Int) (order : OrderArray) : Prop where
  writes : order.writes = List.range order.items.length
  nodup : order.items.Nodup
  sibling : ∀ k ∈ order.items, IsSibling n index k

theorem Listed.push {order : OrderArray} (h : Listed n index order) {k : Int}
    (hk : IsSibling n index k) (hnew : k ∉ order.items) : Listed n index (order.push k) where
  writes := by
    unfold OrderArray.push
    dsimp only
    rw [h.writes, List.length_append, List.length_singleton, List.range_succ]
  nodup := by
    refine List.nodup_append.mpr ⟨h.nodup, List.nodup_singleton k, fun a ha b hb heq => hnew ?_⟩
    rw [← List.mem_singleton.mp hb, ← heq]
    exact ha
  sibling j hj := by
    rcases List.mem_append.mp hj with hj | hj
    · exact h.sibling j hj
    · rw [List.mem_singleton.mp hj]
      exact hk

/-- One round of the loop: the array stays as it should be, and a sibling is in it afterwards. -/
theorem Listed.step {order : OrderArray} (h : Listed n index order) (k : Int) :
    Listed n index (orderStep n index order k) ∧
      ∀ j, j ∈ (orderStep n index order k).items ↔
        j ∈ order.items ∨ (j = k ∧ IsSibling n index j) := by
  unfold orderStep
  split
  next hno =>
    refine ⟨h, fun j => ⟨Or.inl, ?_⟩⟩
    rintro (hj | ⟨rfl, hj⟩)
    · exact hj
    · obtain ⟨hnonneg, hlt, hne⟩ := hj
      omega
  next hyes =>
    have hk : IsSibling n index k := by
      unfold IsSibling
      omega
    split
    next hmem =>
      refine ⟨h, fun j => ⟨Or.inl, ?_⟩⟩
      rintro (hj | ⟨rfl, -⟩)
      · exact hj
      · exact hmem
    next hnew =>
      refine ⟨h.push hk hnew, fun j => ?_⟩
      unfold OrderArray.push
      rw [List.mem_append, List.mem_singleton]
      constructor
      · rintro (hj | rfl)
        · exact Or.inl hj
        · exact Or.inr ⟨rfl, hk⟩
      · rintro (hj | ⟨rfl, -⟩)
        · exact Or.inl hj
        · exact Or.inr rfl

/-- The loop over some indices adds the siblings among them. -/
theorem Listed.loop {order : OrderArray} (h : Listed n index order) (tried : List Int) :
    Listed n index (tried.foldl (orderStep n index) order) ∧
      ∀ j, j ∈ (tried.foldl (orderStep n index) order).items ↔
        j ∈ order.items ∨ (j ∈ tried ∧ IsSibling n index j) := by
  induction tried generalizing order with
  | nil => exact ⟨h, fun j => by simp⟩
  | cons k tried ih =>
      obtain ⟨hstep, hmem⟩ := h.step k
      obtain ⟨hloop, hmem'⟩ := ih hstep
      refine ⟨hloop, fun j => ?_⟩
      rw [List.foldl_cons, hmem', hmem, List.mem_cons]
      tauto

/-- The loops try the indices up to a distance. -/
theorem mem_triedIndices {d : Nat} {k : Int} :
    k ∈ triedIndices index d ↔ k ≠ index ∧ index - d ≤ k ∧ k ≤ index + d := by
  induction d with
  | zero =>
      rw [triedIndices]
      constructor
      · intro h
        exact absurd h List.not_mem_nil
      · rintro ⟨hne, hlo, hhi⟩
        exact absurd (by omega) hne
  | succ d ih =>
      rw [triedIndices, List.mem_cons, List.mem_cons, ih]
      constructor
      · rintro (rfl | rfl | ⟨hne, hlo, hhi⟩) <;> omega
      · rintro ⟨hne, hlo, hhi⟩
        omega

theorem listed_edgeNeighbour (n : Nat) (index : Int) (edge : UInt32) :
    Listed n index (edgeNeighbour n index edge ⟨[], []⟩) := by
  have hnil : Listed n index ⟨[], []⟩ :=
    ⟨rfl, List.nodup_nil, fun k hk => absurd hk List.not_mem_nil⟩
  unfold edgeNeighbour
  dsimp only
  generalize index + (if hasEdge edge wlrEdgeBottom = true then 1 else -1) = adj
  split
  · split
    next hadj => exact hnil.push hadj List.not_mem_nil
    next => exact hnil
  · exact hnil

/-- **The array lists the siblings, each once, and is written from the front.** -/
theorem listed_absorptionOrder (edge : UInt32) (hlo : 0 ≤ index) (hhi : index < n) :
    Listed n index (absorptionOrder n index edge) ∧
      ∀ k, k ∈ (absorptionOrder n index edge).items ↔ IsSibling n index k := by
  have hstart := listed_edgeNeighbour n index edge
  obtain ⟨hlisted, hmem⟩ := hstart.loop (triedIndices index (n - 1))
  refine ⟨hlisted, fun k => (hmem k).trans ?_⟩
  constructor
  · rintro (hk | ⟨-, hk⟩)
    · exact hstart.sibling k hk
    · exact hk
  · intro hk
    refine Or.inr ⟨mem_triedIndices.mpr ?_, hk⟩
    obtain ⟨hnonneg, hlt, hne⟩ := hk
    omega

/-- There are as many items as siblings. -/
theorem absorptionOrder_length (edge : UInt32) (hlo : 0 ≤ index) (hhi : index < n) :
    (absorptionOrder n index edge).items.length = n - 1 := by
  obtain ⟨hlisted, hmem⟩ := listed_absorptionOrder edge hlo hhi
  have hset : (absorptionOrder n index edge).items.toFinset =
      (Finset.Ico 0 (n : Int)).erase index := by
    ext k
    rw [List.mem_toFinset, hmem, Finset.mem_erase, Finset.mem_Ico]
    unfold IsSibling
    tauto
  have hindex : index ∈ Finset.Ico 0 (n : Int) := Finset.mem_Ico.mpr ⟨hlo, hhi⟩
  rw [← List.toFinset_card_of_nodup hlisted.nodup, hset, Finset.card_erase_of_mem hindex,
    Int.card_Ico, sub_zero, Int.toNat_natCast]

/-- **The array is long enough for columns of up to 65 windows.** Then no write is past its end,
and it ends up with all siblings, each once. -/
theorem absorptionOrder_fits_iff (hn : 2 ≤ n) (hlo : 0 ≤ index) (hhi : index < n) :
    ((∀ i ∈ (absorptionOrder n index edge).writes, i < orderLength) ∧
        (absorptionOrder n index edge).items.Nodup ∧
        ∀ k, k ∈ (absorptionOrder n index edge).items ↔ 0 ≤ k ∧ k < n ∧ k ≠ index) ↔
      n ≤ 65 := by
  obtain ⟨hlisted, hmem⟩ := listed_absorptionOrder edge hlo hhi
  have hlength := absorptionOrder_length edge hlo hhi
  have hwrites : (∀ i ∈ (absorptionOrder n index edge).writes, i < orderLength) ↔
      n - 1 ≤ orderLength := by
    rw [hlisted.writes, hlength]
    constructor
    · intro h
      have hlast := h (n - 2) (List.mem_range.mpr (by omega))
      omega
    · intro h i hi
      exact (List.mem_range.mp hi).trans_le h
  rw [hwrites, and_iff_left ⟨hlisted.nodup, hmem⟩]
  unfold orderLength
  omega

end Order

/-- In a column of 66 windows the 65th sibling is written past the end of the array. -/
theorem absorptionOrder_overruns :
    ¬ ∀ (n : Nat) (index : Int) (edge : UInt32), 2 ≤ n → 0 ≤ index → index < n →
      ∀ i ∈ (absorptionOrder n index edge).writes, i < orderLength := by
  intro h
  have hfirst : (0 : Int) < (66 : Nat) := by decide
  obtain ⟨hlisted, -⟩ := listed_absorptionOrder 0 le_rfl hfirst
  have hlength := absorptionOrder_length 0 le_rfl hfirst
  have hmem : 64 ∈ (absorptionOrder 66 0 0).writes := by
    rw [hlisted.writes, hlength]
    decide
  have hlt := h 66 0 0 (by decide) (by decide) (by decide) 64 hmem
  exact absurd hlt (by decide)

/-- A column of 65 windows is the largest one. -/
theorem absorptionOrder_fits_full :
    ((∀ i ∈ (absorptionOrder 65 64 wlrEdgeTop).writes, i < orderLength) ∧
        (absorptionOrder 65 64 wlrEdgeTop).items.Nodup ∧
        ∀ k, k ∈ (absorptionOrder 65 64 wlrEdgeTop).items ↔ 0 ≤ k ∧ k < (65 : Nat) ∧ k ≠ 64) :=
  (absorptionOrder_fits_iff (by decide) (by decide) (by decide)).mpr (by decide)

/-! ## A window that grows -/

section Grow

variable {b : Store ℚ} {bs : List (Store ℚ)} {U δ : ℚ}

/-- What the windows of a column would be too high together after one of them has grown. -/
def excessHeight (b : Store ℚ) (bs : List (Store ℚ)) (U δ : ℚ) : ℚ :=
  b.clamp (b.amount + δ) + (bs.map Store.amount).sum - U

/-- The condition under which a window grows as it should: it is as high as it can be, or it is
lower, reaches its floor, and the others have room for it. They have when the column is not full,
or when every window that is asked gives, and either those at the front have enough or all floors
fit into the column. -/
def GrowthFits (b : Store ℚ) (bs : List (Store ℚ)) (U δ : ℚ) : Prop :=
  b.amount = max b.floor b.ceil ∨
    (b.amount < max b.floor b.ceil ∧ b.floor ≤ b.amount + δ ∧
      (excessHeight b bs U δ ≤ 0 ∨
        (AllGive bs (excessHeight b bs U δ) ∧
          (CoveredBy bs (excessHeight b bs U δ) ∨ b.floor + (bs.map Store.floor).sum ≤ U))))

/-- What a window that has grown keeps. -/
def keptHeight (b : Store ℚ) (grown left : ℚ) : ℚ :=
  if 0 < left then b.clamp (grown - left) else grown

/-- What the claim on a growing window is about: the heights fit, no other window has grown, and
the window is between its old height and the one that was asked for. -/
def GrownWithin (b : Store ℚ) (bs : List (Store ℚ)) (U δ need : ℚ) : Prop :=
  let kept := keptHeight b (b.clamp (b.amount + δ)) (drain bs need).2
  kept + (drain bs need).1.sum ≤ U ∧ NoneGrows bs need ∧ b.amount ≤ kept ∧ kept ≤ b.amount + δ

theorem clamp_le_iff {x : ℚ} : b.clamp x ≤ x ↔ b.floor ≤ x := by
  unfold Store.clamp
  grind

theorem lt_clamp_add (hδ : 0 < δ) (h : b.amount < max b.floor b.ceil) :
    b.amount < b.clamp (b.amount + δ) := by
  unfold Store.clamp
  grind

theorem clamp_add_lt (hδ : 0 < δ) (h : max b.floor b.ceil < b.amount) :
    b.clamp (b.amount + δ) < b.amount := by
  unfold Store.clamp
  grind

theorem clamp_add_eq (hδ : 0 < δ) (h : b.amount = max b.floor b.ceil) :
    b.clamp (b.amount + δ) = b.amount := by
  unfold Store.clamp
  grind

theorem eq_max_of_clamp_add (hδ : 0 < δ) (h : b.clamp (b.amount + δ) = b.amount) :
    b.amount = max b.floor b.ceil := by
  unfold Store.clamp at h
  grind

theorem keptHeight_le {x left : ℚ} : keptHeight b (b.clamp x) left ≤ b.clamp x := by
  unfold keptHeight
  split
  next hleft =>
    unfold Store.clamp
    grind
  next => exact le_rfl

/-- What is taken back is taken back down to the floor. -/
theorem clamp_clamp_sub {x left : ℚ} (hleft : 0 < left) :
    b.clamp (b.clamp x - left) = max b.floor (b.clamp x - left) := by
  unfold Store.clamp
  grind

/-- The slack of some stores is what their amounts are above their floors. -/
theorem sum_slack (bs : List (Store ℚ)) :
    (bs.map Store.slack).sum = (bs.map Store.amount).sum - (bs.map Store.floor).sum := by
  induction bs with
  | nil => simp
  | cons b bs ih =>
      rw [List.map_cons, List.map_cons, List.map_cons, List.sum_cons, List.sum_cons, List.sum_cons,
        ih, Store.slack]
      ring

/-- Stores that all give and cannot cover the need are all at their floors or above. -/
theorem sum_slack_nonneg {need : ℚ} (hgive : AllGive bs need) (hno : ¬ CoveredBy bs need) :
    0 ≤ (bs.map Store.slack).sum := by
  have hfloor : ∀ pre post, bs = pre ++ post → ∀ b ∈ pre, b.floor ≤ b.amount := by
    intro pre
    induction pre using List.reverseRecOn with
    | nil => exact fun _ _ b hb => absurd hb List.not_mem_nil
    | append_singleton pre c ih =>
        intro post heq b hb
        have hpre := ih (c :: post) (by rw [heq, List.append_assoc]; rfl)
        rcases List.mem_append.mp hb with hb | hb
        · exact hpre b hb
        · rw [List.mem_singleton.mp hb]
          refine (hgive pre c post (by rw [heq, List.append_assoc]; rfl) hpre ?_).1
          by_contra hcovered
          exact hno ⟨pre, ⟨c :: post, by rw [heq, List.append_assoc]; rfl⟩, not_lt.mp hcovered⟩
  refine List.sum_nonneg fun x hx => ?_
  obtain ⟨c, hc, rfl⟩ := List.mem_map.mp hx
  exact sub_nonneg.mpr (hfloor bs [] (List.append_nil bs).symm c hc)

/-- What the other windows of a column are to give. -/
def growNeed (b : Store ℚ) (bs : List (Store ℚ)) (U δ : ℚ) : ℚ :=
  let realDelta := b.clamp (b.amount + δ) - b.amount
  if realDelta < 0 then realDelta
  else max 0 (b.amount + (bs.map Store.amount).sum + realDelta - U)

theorem growNeed_of_le (h : b.amount ≤ b.clamp (b.amount + δ)) :
    growNeed b bs U δ = max 0 (excessHeight b bs U δ) := by
  have hneg : ¬ b.clamp (b.amount + δ) - b.amount < 0 := not_lt.mpr (sub_nonneg.mpr h)
  have hsum : b.amount + (bs.map Store.amount).sum + (b.clamp (b.amount + δ) - b.amount) - U =
      excessHeight b bs U δ := by
    unfold excessHeight
    ring
  unfold growNeed
  dsimp only
  rw [if_neg hneg, hsum]

/-- A column with room for the whole growth. -/
theorem grown_of_room (h : b.amount ≤ b.clamp (b.amount + δ)) (hroom : excessHeight b bs U δ ≤ 0) :
    GrownWithin b bs U δ (growNeed b bs U δ) ↔ b.floor ≤ b.amount + δ := by
  have hneed : growNeed b bs U δ = 0 := by
    rw [growNeed_of_le h, max_eq_left hroom]
  have hkept : keptHeight b (b.clamp (b.amount + δ)) (drain bs (0 : ℚ)).2 =
      b.clamp (b.amount + δ) := by
    rw [drain_zero]
    exact if_neg (lt_irrefl 0)
  unfold GrownWithin
  dsimp only
  rw [hneed, hkept, drain_zero]
  unfold excessHeight at hroom
  constructor
  · rintro ⟨-, -, -, hle⟩
    exact clamp_le_iff.mp hle
  · intro hfloor
    exact ⟨by linarith, noneGrows_zero bs, h, clamp_le_iff.mpr hfloor⟩

/-- A full column whose windows at the front have enough to give. -/
theorem grown_of_covered (h : b.amount ≤ b.clamp (b.amount + δ))
    (hneed : 0 < excessHeight b bs U δ) (hcovered : CoveredBy bs (excessHeight b bs U δ)) :
    GrownWithin b bs U δ (growNeed b bs U δ) ↔
      AllGive bs (excessHeight b bs U δ) ∧ b.floor ≤ b.amount + δ := by
  have hmax : growNeed b bs U δ = excessHeight b bs U δ := by
    rw [growNeed_of_le h, max_eq_right hneed.le]
  have hsum := sum_drain bs (excessHeight b bs U δ)
  unfold GrownWithin
  dsimp only
  rw [hmax, noneGrows_iff hneed]
  have hkept : AllGive bs (excessHeight b bs U δ) →
      (drain bs (excessHeight b bs U δ)).2 ≤ 0 ∧
      keptHeight b (b.clamp (b.amount + δ)) (drain bs (excessHeight b bs U δ)).2 =
        b.clamp (b.amount + δ) := by
    intro hgive
    have hleft := (drain_need_of_noneGrows hneed ((noneGrows_iff hneed).mpr hgive)).1 hcovered
    exact ⟨hleft, if_neg (not_lt.mpr hleft)⟩
  constructor
  · rintro ⟨-, hgive, -, hle⟩
    rw [(hkept hgive).2] at hle
    exact ⟨hgive, clamp_le_iff.mp hle⟩
  · rintro ⟨hgive, hfloor⟩
    obtain ⟨hleft, hkept⟩ := hkept hgive
    rw [hkept]
    refine ⟨?_, hgive, h, clamp_le_iff.mpr hfloor⟩
    have hexcess : excessHeight b bs U δ =
        b.clamp (b.amount + δ) + (bs.map Store.amount).sum - U := rfl
    linarith

/-- A full column whose windows cannot give enough: all end at their floors, and the window gives
back what is still needed, down to its own floor. -/
theorem grown_of_uncovered (hO : b.amount + (bs.map Store.amount).sum ≤ U)
    (h : b.amount ≤ b.clamp (b.amount + δ)) (hneed : 0 < excessHeight b bs U δ)
    (hno : ¬ CoveredBy bs (excessHeight b bs U δ)) :
    GrownWithin b bs U δ (growNeed b bs U δ) ↔
      AllGive bs (excessHeight b bs U δ) ∧ b.floor ≤ b.amount + δ ∧
        b.floor + (bs.map Store.floor).sum ≤ U := by
  have hmax : growNeed b bs U δ = excessHeight b bs U δ := by
    rw [growNeed_of_le h, max_eq_right hneed.le]
  have hsum := sum_drain bs (excessHeight b bs U δ)
  have hslack := sum_slack bs
  have hexcess : excessHeight b bs U δ =
      b.clamp (b.amount + δ) + (bs.map Store.amount).sum - U := rfl
  have hlack : (bs.map Store.slack).sum < excessHeight b bs U δ := by
    by_contra hle
    exact hno ⟨bs, List.prefix_rfl, not_lt.mp hle⟩
  unfold GrownWithin
  dsimp only
  rw [hmax, noneGrows_iff hneed]
  have hkept : AllGive bs (excessHeight b bs U δ) →
      (drain bs (excessHeight b bs U δ)).2 =
        excessHeight b bs U δ - (bs.map Store.slack).sum ∧
      keptHeight b (b.clamp (b.amount + δ)) (drain bs (excessHeight b bs U δ)).2 =
        max b.floor (U - (bs.map Store.floor).sum) ∧
      b.amount ≤ U - (bs.map Store.floor).sum := by
    intro hgive
    have hnonneg := sum_slack_nonneg hgive hno
    have hleft := (drain_need_of_noneGrows hneed ((noneGrows_iff hneed).mpr hgive)).2 hno
    have hpos : 0 < excessHeight b bs U δ - (bs.map Store.slack).sum := sub_pos.mpr hlack
    refine ⟨hleft, ?_, by linarith⟩
    have hback : b.clamp (b.amount + δ) - (excessHeight b bs U δ - (bs.map Store.slack).sum) =
        U - (bs.map Store.floor).sum := by linarith
    rw [hleft, keptHeight, if_pos hpos, clamp_clamp_sub hpos, hback]
  constructor
  · rintro ⟨hfits, hgive, -, hle⟩
    obtain ⟨hleft, hkept, -⟩ := hkept hgive
    rw [hkept] at hfits hle
    have hfloor := le_max_left b.floor (U - (bs.map Store.floor).sum)
    exact ⟨hgive, hfloor.trans hle, by linarith⟩
  · rintro ⟨hgive, hfloor, hfits⟩
    obtain ⟨hleft, hkept, hroom⟩ := hkept hgive
    have hge : b.floor ≤ U - (bs.map Store.floor).sum := by linarith
    rw [hkept, max_eq_right hge]
    refine ⟨by linarith, hgive, hroom, ?_⟩
    have hle := clamp_le_iff.mpr hfloor
    linarith

/-- **A window grows as it should exactly under `GrowthFits`.** -/
theorem grown_iff (hδ : 0 < δ) (hO : b.amount + (bs.map Store.amount).sum ≤ U) :
    GrownWithin b bs U δ (growNeed b bs U δ) ↔ GrowthFits b bs U δ := by
  unfold GrowthFits
  rcases lt_trichotomy b.amount (max b.floor b.ceil) with hlt | heq | hgt
  · -- below its largest height it grows
    have hgrow := (lt_clamp_add hδ hlt).le
    rw [or_iff_right hlt.ne, and_iff_right hlt]
    by_cases hroom : excessHeight b bs U δ ≤ 0
    · rw [grown_of_room hgrow hroom, and_iff_left (Or.inl hroom)]
    · have hneed := not_le.mp hroom
      rw [or_iff_right hroom]
      by_cases hcovered : CoveredBy bs (excessHeight b bs U δ)
      · rw [grown_of_covered hgrow hneed hcovered]
        tauto
      · rw [grown_of_uncovered hO hgrow hneed hcovered]
        tauto
  · -- at its largest height nothing happens
    have hsame := clamp_add_eq hδ heq
    have hroom : excessHeight b bs U δ ≤ 0 := by
      unfold excessHeight
      linarith
    rw [grown_of_room hsame.ge hroom]
    refine iff_of_true ?_ (Or.inl heq)
    rw [← clamp_le_iff, hsame]
    linarith
  · -- above its largest height it shrinks
    have hshrink := clamp_add_lt hδ hgt
    refine iff_of_false ?_ ?_
    · rintro ⟨-, -, hge, -⟩
      exact absurd (hge.trans keptHeight_le) (not_le.mpr hshrink)
    · rintro (heq | ⟨hlt, -⟩)
      · exact hgt.ne' heq
      · exact hgt.not_gt hlt

end Grow

/-! ## The heights of a column -/

section Heights

variable {s : State} {w : WsId} {col con : ConId} {edge : UInt32}

/-- The height of a window and the bounds that the clamp for resizing keeps it within. -/
def heightStore (usable : ℚ) (s : State) (c : ConId) : Store ℚ :=
  let k := containerGetSizeConstraints s c
  { floor := if k.minHeight ≠ dblMin then k.minHeight else minSaneH
    ceil := min usable (if k.maxHeight ≠ dblMax then k.maxHeight else usable)
    amount := (s.geo c).height }

theorem clamp_heightStore (usable : ℚ) (s : State) (c : ConId) (x : ℚ) :
    (heightStore usable s c).clamp x = containerClampTiledHeightResize s c x usable := rfl

theorem containerGetSizeConstraints_setWindowHeight (w : WsId) (s : State) (c d : ConId) (x : ℚ) :
    containerGetSizeConstraints (setWindowHeight w s c x) d = containerGetSizeConstraints s d :=
  containerGetSizeConstraints_geo s _ d

/-- A window that gets a height changes no other window and no bounds. -/
theorem writesAmount_height (usable : ℚ) (w : WsId) :
    WritesAmount (heightStore usable) (setWindowHeight w) where
  self s c x := by
    unfold heightStore
    rw [containerGetSizeConstraints_setWindowHeight]
    simp [setWindowHeight, State.modGeo]
  other s c x d hd := by
    unfold heightStore
    rw [containerGetSizeConstraints_setWindowHeight]
    simp [setWindowHeight, State.modGeo, hd]

/-- The absorption loop is a drain of the heights. -/
theorem absorbHeights_eq (w : WsId) (usable : ℚ) (cs : List ConId) (s : State) (remaining : ℚ) :
    absorbHeights w usable cs s remaining =
      drainEach (heightStore usable) (setWindowHeight w) cs s remaining := by
  induction cs generalizing s remaining with
  | nil => rfl
  | cons c cs ih =>
      rw [absorbHeights, drainEach]
      split
      · rfl
      · exact ih _ _

/-- **All other windows of the column are asked, each once.** -/
theorem absorbing_perm (hcon : con ∈ (s.tree.con col).children) (edge : UInt32) :
    (absorbing s col con edge).Perm ((s.tree.con col).children.erase con) := by
  have hlt := listFind_lt_length hcon
  obtain ⟨hlisted, hmem⟩ := listed_absorptionOrder edge (listFind_nonneg.mpr hcon) hlt
  have hrange : ((List.range (s.tree.con col).children.length).map Int.ofNat).Nodup :=
    List.nodup_range.map fun a b h => Int.ofNat.inj h
  have hperm : (absorptionOrder (s.tree.con col).children.length
      (listFind (s.tree.con col).children con) edge).items.Perm
        (((List.range (s.tree.con col).children.length).map Int.ofNat).filter
          fun i => decide (i ≠ listFind (s.tree.con col).children con)) := by
    refine (List.perm_ext_iff_of_nodup hlisted.nodup (hrange.filter _)).mpr fun k => ?_
    rw [hmem, List.mem_filter, List.mem_map]
    unfold IsSibling
    constructor
    · rintro ⟨hnonneg, hlt, hne⟩
      refine ⟨⟨k.toNat, List.mem_range.mpr (by omega), Int.toNat_of_nonneg hnonneg⟩, ?_⟩
      simpa using hne
    · rintro ⟨⟨j, hj, rfl⟩, hne⟩
      have hj' := List.mem_range.mp hj
      refine ⟨Int.natCast_nonneg j, Int.ofNat_lt.mpr hj', ?_⟩
      simpa using hne
  have hitems := hperm.filterMap fun k : Int => (s.tree.con col).children[k.toNat]?
  refine hitems.trans (List.Perm.of_eq ?_)
  rw [← otherColumns_listFind, ← columnsAt_filter_ne]
  rfl

/-- The other windows of the column, as stores in the order in which they are asked. -/
def otherHeights (s : State) (col con : ConId) (edge : UInt32) (usable : ℚ) : List (Store ℚ) :=
  (absorbing s col con edge).map (heightStore usable s)

/-- A sum over the windows of the column: the window itself, and the others in that order. -/
theorem sum_children (hcon : con ∈ (s.tree.con col).children) (edge : UInt32) (f : ConId → ℚ) :
    ((s.tree.con col).children.map f).sum =
      f con + ((absorbing s col con edge).map f).sum := by
  have hperm := (List.perm_cons_erase hcon).trans ((absorbing_perm hcon edge).symm.cons con)
  rw [(hperm.map f).sum_eq, List.map_cons, List.sum_cons]

theorem heightNeed_eq (hcon : con ∈ (s.tree.con col).children) (edge : UInt32) (usable δ : ℚ) :
    heightNeed s col usable
        (containerClampTiledHeightResize s con ((s.geo con).height + δ) usable -
          (s.geo con).height) =
      growNeed (heightStore usable s con) (otherHeights s col con edge usable) usable δ := by
  have hsum := sum_children hcon edge fun c => (s.geo c).height
  unfold heightNeed growNeed otherHeights
  rw [hsum, List.map_map]
  rfl

/-- **The heights that are assigned are the ones of the drain.** -/
theorem verticalHeights_spec (hnodup : (s.tree.con col).children.Nodup)
    (hcon : con ∈ (s.tree.con col).children) (edge : UInt32) (newH : ℚ) :
    let usable := usableHeight s w col
    let need := heightNeed s col usable (newH - (s.geo con).height)
    let t := verticalHeights s w col con edge newH
    (t.geo con).height = keptHeight (heightStore usable s con) newH
        (drain (otherHeights s col con edge usable) need).2 ∧
      (absorbing s col con edge).map (fun c => (t.geo c).height) =
        (drain (otherHeights s col con edge usable) need).1 := by
  dsimp only
  have hw := writesAmount_height (usableHeight s w col) w
  have hperm := absorbing_perm hcon edge
  have hout : con ∉ absorbing s col con edge := fun hmem =>
    hnodup.not_mem_erase (hperm.mem_iff.mp hmem)
  have hks : (absorbing s col con edge).Nodup := hperm.nodup_iff.mpr (hnodup.erase con)
  unfold verticalHeights otherHeights
  dsimp only
  generalize usableHeight s w col = usable at hw ⊢
  generalize heightNeed s col usable (newH - (s.geo con).height) = need
  rw [absorbHeights_eq]
  -- the window itself is written before the others are asked, and none of them reads it
  have hstores : (absorbing s col con edge).map (heightStore usable (setWindowHeight w s con newH)) =
      (absorbing s col con edge).map (heightStore usable s) :=
    List.map_congr_left fun c hc => hw.other s con newH c fun heq => hout (heq ▸ hc)
  obtain ⟨hleft, hamounts⟩ := drainEach_eq hw hks (setWindowHeight w s con newH) need
  have hself := drainEach_other hw hout (setWindowHeight w s con newH) need
  rw [hstores] at hleft hamounts
  rw [hw.self] at hself
  generalize drainEach (heightStore usable) (setWindowHeight w) (absorbing s col con edge)
    (setWindowHeight w s con newH) need = r at hleft hamounts hself ⊢
  obtain ⟨u, left⟩ := r
  dsimp only at hleft hamounts hself ⊢
  have hcur : (u.geo con).height = newH := congrArg Store.amount hself
  rw [← hleft, ← hamounts]
  unfold keptHeight
  split
  next hpos =>
    have hback : containerClampTiledHeightResize u con ((u.geo con).height - left) usable =
        (heightStore usable s con).clamp (newH - left) := by
      rw [hcur, ← clamp_heightStore, hself]
      rfl
    refine ⟨?_, List.map_congr_left fun c hc => ?_⟩
    · rw [hback]
      simp [setWindowHeight, State.modGeo]
    · exact congrArg Store.amount (hw.other u con _ c fun heq => hout (heq ▸ hc))
  next => exact ⟨hcur, rfl⟩

/-- The heights that are assigned are as they should be exactly when the drain is. -/
theorem grownWithin_iff (hnodup : (s.tree.con col).children.Nodup)
    (hcon : con ∈ (s.tree.con col).children) (edge : UInt32) (δ : ℚ) :
    let usable := usableHeight s w col
    let t := verticalHeights s w col con edge
      (containerClampTiledHeightResize s con ((s.geo con).height + δ) usable)
    (((s.tree.con col).children.map fun c => (t.geo c).height).sum ≤ usable ∧
        (∀ c ∈ (s.tree.con col).children, c ≠ con → (t.geo c).height ≤ (s.geo c).height) ∧
        (s.geo con).height ≤ (t.geo con).height ∧
        (t.geo con).height ≤ (s.geo con).height + δ) ↔
      GrownWithin (heightStore usable s con) (otherHeights s col con edge usable) usable δ
        (growNeed (heightStore usable s con) (otherHeights s col con edge usable) usable δ) := by
  dsimp only
  have hperm := absorbing_perm hcon edge
  obtain ⟨hkept, hothers⟩ := verticalHeights_spec (w := w) hnodup hcon edge
    (containerClampTiledHeightResize s con ((s.geo con).height + δ) (usableHeight s w col))
  generalize verticalHeights s w col con edge _ = t at hkept hothers ⊢
  rw [heightNeed_eq hcon edge] at hkept hothers
  generalize usableHeight s w col = usable at hkept hothers ⊢
  have hsum := sum_children hcon edge fun c => (t.geo c).height
  rw [hothers] at hsum
  have hgrows : NoneGrows (otherHeights s col con edge usable)
        (growNeed (heightStore usable s con) (otherHeights s col con edge usable) usable δ) ↔
      ∀ c ∈ (s.tree.con col).children, c ≠ con → (t.geo c).height ≤ (s.geo c).height := by
    unfold NoneGrows Drained
    rw [← hothers]
    conv_lhs => rw [otherHeights]
    rw [List.forall₂_map_left_iff, List.forall₂_map_right_iff, List.forall₂_same]
    constructor
    · intro h c hc hne
      exact h c (hperm.mem_iff.mpr ((List.mem_erase_of_ne hne).mpr hc))
    · intro h c hc
      have hc' := hperm.mem_iff.mp hc
      exact h c (List.mem_of_mem_erase hc') (ne_of_mem_of_not_mem hc' hnodup.not_mem_erase)
  unfold GrownWithin
  dsimp only
  rw [hgrows, hsum, hkept]
  rfl

/-- A child of a column that stacks its windows is resized in that column. -/
theorem verticalColumn_of_child (ht : s.tree.WellFormed) (hcon : con ∈ (s.tree.con col).children)
    (hvert : (s.geo col).layout = .vert) (hws : (s.tree.con col).workspace = some w) :
    verticalColumn s con = some col := by
  have hparent := ht.linked.of_children hcon
  have hlt : con < s.tree.nextCon :=
    ht.lt_of_workspace ((ht.below con col hparent).trans hws)
  obtain ⟨n, hn⟩ := Nat.exists_eq_succ_of_ne_zero (Nat.ne_of_gt (Nat.zero_lt_of_lt hlt))
  unfold verticalColumn Tree.ancestors
  rw [hn, Tree.ancestorsWithin, hparent]
  exact List.find?_cons_of_pos (by simpa using hvert)

/-- **Growing a window takes space from the others exactly under `GrowthFits`.** A window without
siblings and a column without height are left as they are. -/
theorem verticalResized_grows_iff {δ : ℚ} (ht : s.tree.WellFormed)
    (hcon : con ∈ (s.tree.con col).children) (hvert : (s.geo col).layout = .vert)
    (hws : (s.tree.con col).workspace = some w) (hδ : 0 < δ)
    (hfits : ((s.tree.con col).children.map fun c => (s.geo c).height).sum ≤
      usableHeight s w col) :
    let t := verticalResized s con edge δ
    (((s.tree.con col).children.map fun c => (t.geo c).height).sum ≤ usableHeight s w col ∧
        (∀ c ∈ (s.tree.con col).children, c ≠ con → (t.geo c).height ≤ (s.geo c).height) ∧
        (s.geo con).height ≤ (t.geo con).height ∧
        (t.geo con).height ≤ (s.geo con).height + δ) ↔
      (s.tree.con col).children.length < 2 ∨ usableHeight s w col ≤ 0 ∨
        GrowthFits (heightStore (usableHeight s w col) s con)
          (otherHeights s col con edge (usableHeight s w col)) (usableHeight s w col) δ := by
  dsimp only
  have hnodup := ht.linked.nodup (.children col)
  have hO := hfits
  rw [sum_children hcon edge] at hO
  have hO' : (heightStore (usableHeight s w col) s con).amount +
      ((otherHeights s col con edge (usableHeight s w col)).map Store.amount).sum ≤
        usableHeight s w col := by
    unfold otherHeights
    rw [List.map_map]
    exact hO
  have hiff := grown_iff hδ hO'
  have hspec := grownWithin_iff (w := w) hnodup hcon edge δ
  dsimp only at hspec
  unfold verticalResized verticalResize
  rw [verticalColumn_of_child ht hcon hvert hws]
  dsimp only
  rw [hws]
  dsimp only
  by_cases hearly : (s.tree.con col).children.length < 2 ∨ con ∉ (s.tree.con col).children ∨
      usableHeight s w col ≤ 0
  · rw [if_pos hearly]
    refine iff_of_true ⟨hfits, fun c _ _ => le_rfl, le_rfl, by linarith⟩ ?_
    rcases hearly with h | h | h
    · exact Or.inl h
    · exact absurd hcon h
    · exact Or.inr (Or.inl h)
  · rw [if_neg hearly]
    push Not at hearly
    obtain ⟨hn, -, hpos⟩ := hearly
    rw [or_iff_right (not_lt.mpr hn), or_iff_right (not_le.mpr hpos)]
    by_cases hzero : containerClampTiledHeightResize s con ((s.geo con).height + δ)
        (usableHeight s w col) - (s.geo con).height = 0
    · rw [if_pos hzero]
      exact iff_of_true ⟨hfits, fun c _ _ => le_rfl, le_rfl, by linarith⟩
        (Or.inl (eq_max_of_clamp_add hδ (sub_eq_zero.mp hzero)))
    · rw [if_neg hzero, ← hiff, ← hspec]

end Heights

/-- A column with two windows of these heights, which fill it. -/
def stackedPair (first second : ℚ) : State :=
  { State.start configDefaults ⟨0, 0, 1000, 800⟩ with
    tree := Tree.outlined [⟨[(0, [1, 2])], []⟩]
    geo := fun c =>
      if c = 0 then { Geometry.blank with layout := .vert, height := first + second }
      else { Geometry.blank with height := if c = 1 then first else second } }

/-- A window that the layout has compressed below the floor for resizing gets taller when it is
asked to give. -/
theorem verticalResized_raises :
    ¬ ∀ (s : State) (w : WsId) (col con : ConId) (edge : UInt32) (δ : ℚ), s.tree.WellFormed →
      con ∈ (s.tree.con col).children → (s.geo col).layout = .vert →
      (s.tree.con col).workspace = some w → 0 < δ →
      ((s.tree.con col).children.map fun c => (s.geo c).height).sum ≤ usableHeight s w col →
      ∀ c ∈ (s.tree.con col).children, c ≠ con →
        ((verticalResized s con edge δ).geo c).height ≤ (s.geo c).height := by
  intro h
  have hle := h (stackedPair 60 40) 0 0 1 0 10
    (Tree.wellFormed_outlined (Tree.linked_outlined (by decide +kernel) (by decide +kernel))
      (by decide +kernel))
    (by decide +kernel) (by decide +kernel) (by decide +kernel) (by decide +kernel)
    (by decide +kernel) 2 (by decide +kernel) (by decide)
  exact absurd hle (by decide +kernel)

/-- In a column of two high windows one grows by 50 pixels, and the other one gives them. -/
theorem verticalResized_grows_pair :
    ([1, 2].map fun c => ((verticalResized (stackedPair 400 400) 1 0 50).geo c).height) =
        [450, 350] ∧
      (((stackedPair 400 400).tree.con 0).children.length < 2 ∨
        usableHeight (stackedPair 400 400) 0 0 ≤ 0 ∨
        GrowthFits (heightStore (usableHeight (stackedPair 400 400) 0 0) (stackedPair 400 400) 1)
          (otherHeights (stackedPair 400 400) 0 1 0 (usableHeight (stackedPair 400 400) 0 0))
          (usableHeight (stackedPair 400 400) 0 0) 50) :=
  ⟨by decide +kernel,
    (verticalResized_grows_iff (s := stackedPair 400 400) (w := 0)
      (Tree.wellFormed_outlined (Tree.linked_outlined (by decide +kernel) (by decide +kernel))
        (by decide +kernel))
      (by decide +kernel) (by decide +kernel) (by decide +kernel) (by decide +kernel)
      (by decide +kernel)).mp (by decide +kernel)⟩

end Swirl

import Mathlib.Tactic

set_option autoImplicit false

/-! # Sharing an amount out in rounds

An amount is shared out among takers, each with a weight and with room for so much. In a round one
taker after the other takes its part, by weight, of what is left *at its turn*, as far as it has
room. The rules say that nothing is lost, how much is left at the most, and that of two takers of
the same weight the one that comes first ends with less room.
-/

namespace Swirl.Lib

variable {α : Type*}

/-- Something that takes a part of an amount. -/
structure Taker (α : Type*) where
  weight : α
  room : α

namespace Taker

variable [Field α] [LinearOrder α]

/-- What a taker takes of what is left at its turn, with the weights of a round. -/
def part (k : Taker α) (weights left : α) : α := min k.room (left * (k.weight / weights))

/-- The taker after it has taken. -/
def taken (k : Taker α) (weights left : α) : Taker α :=
  { k with room := k.room - k.part weights left }

/-- A taker with a weight and no less than no room. -/
def Fit (k : Taker α) : Prop := 0 < k.weight ∧ 0 ≤ k.room

end Taker

section Rounds

variable [Field α] [LinearOrder α]

/-- One round over some takers: the takers afterwards, and what is left. -/
def shareRound (weights : α) : α → List (Taker α) → List (Taker α) × α
  | left, [] => ([], left)
  | left, k :: ks =>
      let rest := shareRound weights (left - k.part weights left) ks
      (k.taken weights left :: rest.1, rest.2)

/-- The weights of the takers that have room. -/
def openWeight (ks : List (Taker α)) : α :=
  (ks.map fun k => if 0 < k.room then k.weight else 0).sum

/-- Some rounds, as long as something is left and somebody has room. -/
def shareRounds : Nat → α → List (Taker α) → List (Taker α) × α
  | 0, left, ks => (ks, left)
  | n + 1, left, ks =>
      if left = 0 then (ks, left)
      else if openWeight ks ≤ 0 then (ks, left)
      else
        let rest := shareRound (openWeight ks) left ks
        shareRounds n rest.2 rest.1

theorem shareRound_length (weights left : α) (ks : List (Taker α)) :
    (shareRound weights left ks).1.length = ks.length := by
  induction ks generalizing left with
  | nil => rfl
  | cons k ks ih => exact congrArg Nat.succ (ih _)

/-- What is left in a round when it is the turn of a taker. -/
def leftAt (weights left : α) (ks : List (Taker α)) (i : Nat) : α :=
  (shareRound weights left (ks.take i)).2

/-- Every taker takes its part of what is left at its turn. -/
theorem shareRound_getElem? (weights left : α) (ks : List (Taker α)) (i : Nat) :
    (shareRound weights left ks).1[i]? =
      ks[i]?.map fun k => k.taken weights (leftAt weights left ks i) := by
  induction ks generalizing left i with
  | nil => rfl
  | cons k ks ih =>
      cases i with
      | zero => rfl
      | succ i => exact ih _ i

theorem leftAt_succ {weights left : α} {ks : List (Taker α)} {i : Nat} {k : Taker α}
    (hk : ks[i]? = some k) :
    leftAt weights left ks (i + 1) =
      leftAt weights left ks i - k.part weights (leftAt weights left ks i) := by
  induction ks generalizing left i with
  | nil => cases hk
  | cons j ks ih =>
      cases i with
      | zero =>
          obtain rfl : j = k := Option.some.inj hk
          rfl
      | succ i => exact ih hk

theorem leftAt_length (weights left : α) (ks : List (Taker α)) :
    leftAt weights left ks ks.length = (shareRound weights left ks).2 := by
  unfold leftAt
  rw [List.take_length]

variable {ks : List (Taker α)} {left : α}

theorem openWeight_append (ks ls : List (Taker α)) :
    openWeight (ks ++ ls) = openWeight ks + openWeight ls := by
  unfold openWeight
  rw [List.map_append, List.sum_append]

/-- What sharing keeps: something or nothing is left, the takers stay fit and have no more room
than before, and whatever a taker has taken is no longer left. -/
structure Shared (ks : List (Taker α)) (left : α) (ks' : List (Taker α)) (left' : α) : Prop where
  nonneg : 0 ≤ left'
  le : left' ≤ left
  length : ks'.length = ks.length
  fit : ∀ k ∈ ks', k.Fit
  each : ∀ (i : Nat) (k : Taker α), ks[i]? = some k → ∃ k' : Taker α, ks'[i]? = some k' ∧
    k'.weight = k.weight ∧ k'.room ≤ k.room ∧ left' - k'.room ≤ left - k.room

theorem Shared.refl (hks : ∀ k ∈ ks, k.Fit) (hleft : 0 ≤ left) : Shared ks left ks left :=
  ⟨hleft, le_rfl, rfl, hks, fun _ k hk => ⟨k, hk, rfl, le_rfl, le_rfl⟩⟩

theorem Shared.trans {ks' ks'' : List (Taker α)} {left' left'' : α} (h : Shared ks left ks' left')
    (h' : Shared ks' left' ks'' left'') : Shared ks left ks'' left'' where
  nonneg := h'.nonneg
  le := h'.le.trans h.le
  length := h'.length.trans h.length
  fit := h'.fit
  each i k hk := by
    obtain ⟨k', hk', hweight, hroom, hout⟩ := h.each i k hk
    obtain ⟨k'', hk'', hweight', hroom', hout'⟩ := h'.each i k' hk'
    exact ⟨k'', hk'', hweight'.trans hweight, hroom'.trans hroom, hout'.trans hout⟩

theorem openPart_nonneg (hks : ∀ k ∈ ks, k.Fit) :
    ∀ x ∈ ks.map fun k => if 0 < k.room then k.weight else 0, 0 ≤ x := by
  intro x hx
  obtain ⟨k, hk, rfl⟩ := List.mem_map.mp hx
  split
  · exact (hks k hk).1.le
  · exact le_rfl

end Rounds

variable [Field α] [LinearOrder α] [IsStrictOrderedRing α]

/-! ## One round -/

section Round

variable {weights left : α} {k : Taker α} {ks : List (Taker α)}

/-- The weights of a round include those of all takers with room. -/
def Weighed (weights : α) (ks : List (Taker α)) : Prop := ∀ k ∈ ks, 0 < k.room → k.weight ≤ weights

theorem part_nonneg (hk : k.Fit) (hleft : 0 ≤ left) (hw : 0 < weights) :
    0 ≤ k.part weights left :=
  le_min hk.2 (mul_nonneg hleft (div_nonneg hk.1.le hw.le))

theorem part_le_left (hk : k.Fit) (hleft : 0 ≤ left) (hw : 0 < weights)
    (hin : 0 < k.room → k.weight ≤ weights) : k.part weights left ≤ left := by
  rcases hk.2.eq_or_lt with hroom | hroom
  · exact (min_le_left _ _).trans (hroom ▸ hleft)
  · have hle : k.weight / weights ≤ 1 := (div_le_one hw).mpr (hin hroom)
    calc k.part weights left ≤ left * (k.weight / weights) := min_le_right _ _
      _ ≤ left * 1 := mul_le_mul_of_nonneg_left hle hleft
      _ = left := mul_one left

theorem taken_fit (hk : k.Fit) : (k.taken weights left).Fit :=
  ⟨hk.1, sub_nonneg.mpr (min_le_left _ _)⟩

/-- What is left is never negative, and goes down from turn to turn. -/
theorem leftAt_antitone (hks : ∀ k ∈ ks, k.Fit) (hw : 0 < weights) (hin : Weighed weights ks)
    (hleft : 0 ≤ left) {i j : Nat} (hij : i ≤ j) (hj : j ≤ ks.length) :
    0 ≤ leftAt weights left ks j ∧ leftAt weights left ks j ≤ leftAt weights left ks i := by
  have hstep : ∀ n, n < ks.length → 0 ≤ leftAt weights left ks n →
      0 ≤ leftAt weights left ks (n + 1) ∧
        leftAt weights left ks (n + 1) ≤ leftAt weights left ks n := by
    intro n hn hnonneg
    have hk := List.getElem?_eq_getElem hn
    have hmem := List.getElem_mem hn
    have hpart := part_nonneg (hks _ hmem) hnonneg hw
    have hpartLe := part_le_left (hks _ hmem) hnonneg hw (hin _ hmem)
    rw [leftAt_succ hk]
    exact ⟨by linarith, by linarith⟩
  have hnonneg : ∀ n, n ≤ ks.length → 0 ≤ leftAt weights left ks n := by
    intro n
    induction n with
    | zero => exact fun _ => hleft
    | succ n ih => exact fun hn => (hstep n hn (ih (Nat.le_of_succ_le hn))).1
  refine ⟨hnonneg j hj, ?_⟩
  induction j, hij using Nat.le_induction with
  | base => exact le_rfl
  | succ j hij ih =>
      exact ((hstep j hj (hnonneg j (Nat.le_of_succ_le hj))).2).trans (ih (Nat.le_of_succ_le hj))

/-- **A round shares.** -/
theorem shared_shareRound (hks : ∀ k ∈ ks, k.Fit) (hw : 0 < weights) (hin : Weighed weights ks)
    (hleft : 0 ≤ left) :
    Shared ks left (shareRound weights left ks).1 (shareRound weights left ks).2 := by
  have hend := leftAt_antitone hks hw hin hleft (Nat.zero_le ks.length) le_rfl
  rw [leftAt_length] at hend
  have htaken : ∀ (i : Nat) (k : Taker α), ks[i]? = some k → (shareRound weights left ks).1[i]? =
      some (k.taken weights (leftAt weights left ks i)) := by
    intro i k hk
    rw [shareRound_getElem?, hk]
    rfl
  refine ⟨hend.1, hend.2, shareRound_length weights left ks, fun k' hk' => ?_, fun i k hk => ?_⟩
  · obtain ⟨i, hi⟩ := List.mem_iff_getElem?.mp hk'
    obtain ⟨hlt, -⟩ := List.getElem?_eq_some_iff.mp hi
    rw [shareRound_length] at hlt
    rw [htaken i _ (List.getElem?_eq_getElem hlt)] at hi
    rw [← Option.some.inj hi]
    exact taken_fit (hks _ (List.getElem_mem hlt))
  · obtain ⟨hlt, rfl⟩ := List.getElem?_eq_some_iff.mp hk
    have hmem := List.getElem_mem hlt
    have hturn := leftAt_antitone hks hw hin hleft (Nat.zero_le i) hlt.le
    have hafter := leftAt_antitone hks hw hin hleft (Nat.succ_le_of_lt hlt) le_rfl
    rw [leftAt_length, leftAt_succ hk] at hafter
    have hpart := part_nonneg (hks _ hmem) hturn.1 hw
    have hstart : leftAt weights left ks 0 = left := rfl
    rw [hstart] at hturn
    refine ⟨_, htaken i _ hk, rfl, ?_, ?_⟩
    · unfold Taker.taken
      dsimp only
      linarith
    · unfold Taker.taken
      dsimp only
      linarith [hafter.2, hturn.2]

end Round

/-! ## Some rounds -/

section Rounds

variable {ks : List (Taker α)} {left : α}

/-- The weights of a round are the sum over those with room. -/
theorem weighed_openWeight (hks : ∀ k ∈ ks, k.Fit) : Weighed (openWeight ks) ks := by
  intro k hk hroom
  have hmem : k.weight ∈ ks.map fun k => if 0 < k.room then k.weight else 0 :=
    List.mem_map.mpr ⟨k, hk, if_pos hroom⟩
  exact List.single_le_sum (openPart_nonneg hks) _ hmem

/-- **Rounds share.** -/
theorem shared_shareRounds (n : Nat) (hks : ∀ k ∈ ks, k.Fit) (hleft : 0 ≤ left) :
    Shared ks left (shareRounds n left ks).1 (shareRounds n left ks).2 := by
  induction n generalizing ks left with
  | zero => exact Shared.refl hks hleft
  | succ n ih =>
      rw [shareRounds]
      split
      · exact Shared.refl hks hleft
      · split
        · exact Shared.refl hks hleft
        next hopen =>
          have hround := shared_shareRound hks (not_le.mp hopen) (weighed_openWeight hks) hleft
          exact hround.trans (ih hround.fit hround.nonneg)

end Rounds

/-! ## Two takers of the same weight -/

section Behind

variable {ks : List (Taker α)} {left : α} {a b : Taker α} {i j : Nat}

/-- One taker ends with less room than another, unless both end with none. -/
def Behind (a b : Taker α) : Prop := a.room < b.room ∨ (a.room = 0 ∧ b.room = 0)

/-- A taker that has less room and takes first still has less room afterwards. -/
theorem Behind.taken {weights x y : α} (h : Behind a b) (hweight : a.weight = b.weight)
    (ha : a.Fit) (hb : b.Fit) (hw : 0 < weights) (hy : 0 ≤ y) (hxy : y ≤ x) :
    Behind (a.taken weights x) (b.taken weights y) := by
  have hfit : (b.taken weights y).Fit := taken_fit hb
  have hshare : y * (b.weight / weights) ≤ x * (a.weight / weights) := by
    rw [hweight]
    exact mul_le_mul_of_nonneg_right hxy (div_nonneg hb.1.le hw.le)
  have hpos : 0 ≤ y * (b.weight / weights) := mul_nonneg hy (div_nonneg hb.1.le hw.le)
  have hnonneg := ha.2
  have hroom := hfit.2
  unfold Behind at h ⊢
  unfold Taker.taken Taker.part at hroom ⊢
  dsimp only at hroom ⊢
  grind

/-- Of two takers with the same room the one that takes first ends with less. -/
theorem behind_of_room_eq {weights x y : α} (hroom : a.room = b.room)
    (hweight : a.weight = b.weight) (ha : a.Fit) (hb : b.Fit) (hw : 0 < weights) (hx : 0 < x)
    (hy : 0 ≤ y) (hxy : y ≤ x - a.part weights x) :
    Behind (a.taken weights x) (b.taken weights y) := by
  rcases ha.2.eq_or_lt with hnone | hsome
  · exact Behind.taken (Or.inr ⟨hnone.symm, hroom.symm.trans hnone.symm⟩) hweight ha hb hw hy
      (hxy.trans (sub_le_self x (part_nonneg ha hx.le hw)))
  · have hshare : 0 < a.weight / weights := div_pos ha.1 hw
    have hfirst : 0 < a.part weights x := lt_min hsome (mul_pos hx hshare)
    have hless : y * (b.weight / weights) < x * (a.weight / weights) := by
      rw [← hweight]
      exact mul_lt_mul_of_pos_right (by linarith) hshare
    have hbfit : (b.taken weights y).Fit := taken_fit hb
    have hnonneg := hbfit.2
    unfold Behind
    unfold Taker.taken Taker.part at hnonneg ⊢
    dsimp only at hnonneg ⊢
    grind

/-- Something is left at the turn of a taker with room, if something was to be shared. -/
theorem leftAt_pos (hks : ∀ k ∈ ks, k.Fit) (hleft : 0 < left) (ha : ks[i]? = some a)
    (hroom : 0 < a.room) : 0 < leftAt (openWeight ks) left ks i := by
  obtain ⟨hlt, rfl⟩ := List.getElem?_eq_some_iff.mp ha
  have hsplit := openWeight_append (ks.take i) (ks.drop i)
  rw [List.take_append_drop] at hsplit
  have hfront : ∀ k ∈ ks.take i, k.Fit := fun k hk => hks k (List.mem_of_mem_take hk)
  have hback : ∀ k ∈ ks.drop i, k.Fit := fun k hk => hks k (List.mem_of_mem_drop hk)
  have hmem : ks[i] ∈ ks.drop i := by
    rw [List.mem_iff_getElem?]
    exact ⟨0, by rw [List.getElem?_drop, Nat.add_zero]; exact ha⟩
  have hweight := weighed_openWeight hback ks[i] hmem hroom
  have hpos := (hks _ (List.getElem_mem hlt)).1
  -- every taker before it weighs less than all together
  have hstep : ∀ n, n ≤ i → 0 < leftAt (openWeight ks) left ks n := by
    intro n
    induction n with
    | zero => exact fun _ => hleft
    | succ n ih =>
        intro hn
        have hx := ih (Nat.le_of_succ_le hn)
        have hnlt : n < ks.length := (Nat.lt_of_succ_le hn).trans hlt
        have hk := List.getElem?_eq_getElem hnlt
        have hkfit := hks _ (List.getElem_mem hnlt)
        rw [leftAt_succ hk, sub_pos]
        rcases hkfit.2.eq_or_lt with hnone | hsome
        · exact (min_le_left _ _).trans_lt (hnone ▸ hx)
        · have hkmem : ks[n] ∈ ks.take i := by
            rw [List.mem_iff_getElem?]
            exact ⟨n, by rw [List.getElem?_take_of_lt (Nat.lt_of_succ_le hn)]; exact hk⟩
          have hkweight := weighed_openWeight hfront ks[n] hkmem hsome
          have hall : ks[n].weight < openWeight ks := by linarith
          have hratio : ks[n].weight / openWeight ks < 1 :=
            (div_lt_one (hkfit.1.trans hall)).mpr hall
          calc ks[n].part (openWeight ks) (leftAt (openWeight ks) left ks n)
              ≤ leftAt (openWeight ks) left ks n * (ks[n].weight / openWeight ks) :=
                min_le_right _ _
            _ < leftAt (openWeight ks) left ks n * 1 := mul_lt_mul_of_pos_left hratio hx
            _ = leftAt (openWeight ks) left ks n := mul_one _
  exact hstep i le_rfl

/-- What two takers are after a round. -/
theorem shareRound_pair {weights : α} (hks : ∀ k ∈ ks, k.Fit) (hw : 0 < weights)
    (hin : Weighed weights ks) (hleft : 0 ≤ left) (hij : i < j) (ha : ks[i]? = some a)
    (hb : ks[j]? = some b) :
    ∃ x y, (shareRound weights left ks).1[i]? = some (a.taken weights x) ∧
      (shareRound weights left ks).1[j]? = some (b.taken weights y) ∧
      x = leftAt weights left ks i ∧ 0 ≤ y ∧ y ≤ x - a.part weights x ∧ y ≤ x := by
  obtain ⟨hlt, -⟩ := List.getElem?_eq_some_iff.mp hb
  have hy := leftAt_antitone hks hw hin hleft (Nat.succ_le_of_lt hij) hlt.le
  have hx := leftAt_antitone hks hw hin hleft hij.le hlt.le
  rw [Nat.succ_eq_add_one, leftAt_succ ha] at hy
  refine ⟨_, _, ?_, ?_, rfl, hy.1, hy.2, hx.2⟩
  · rw [shareRound_getElem?, ha]
    rfl
  · rw [shareRound_getElem?, hb]
    rfl

/-- Rounds leave a taker behind another where it was. -/
theorem Behind.shareRounds (n : Nat) (h : Behind a b) (hks : ∀ k ∈ ks, k.Fit) (hleft : 0 ≤ left)
    (hij : i < j) (ha : ks[i]? = some a) (hb : ks[j]? = some b) (hweight : a.weight = b.weight) :
    ∃ a' b', (shareRounds n left ks).1[i]? = some a' ∧ (shareRounds n left ks).1[j]? = some b' ∧
      Behind a' b' := by
  induction n generalizing ks left a b with
  | zero => exact ⟨a, b, ha, hb, h⟩
  | succ n ih =>
      rw [Lib.shareRounds]
      split
      · exact ⟨a, b, ha, hb, h⟩
      · split
        · exact ⟨a, b, ha, hb, h⟩
        next hopen =>
          have hw := not_le.mp hopen
          have hin := weighed_openWeight hks
          have hround := shared_shareRound hks hw hin hleft
          obtain ⟨x, y, ha', hb', -, hy, -, hxy⟩ := shareRound_pair hks hw hin hleft hij ha hb
          have hafit := hks a (List.mem_of_getElem? ha)
          have hbfit := hks b (List.mem_of_getElem? hb)
          exact ih (h.taken hweight hafit hbfit hw hy hxy) hround.fit hround.nonneg ha' hb' hweight

/-- **Of two takers that are alike the first one ends with less room**, unless both end with
none. -/
theorem shareRounds_behind (n : Nat) (hks : ∀ k ∈ ks, k.Fit) (hleft : 0 < left) (hij : i < j)
    (ha : ks[i]? = some a) (hb : ks[j]? = some b) (hweight : a.weight = b.weight)
    (hroom : a.room = b.room) :
    ∃ a' b', (shareRounds (n + 1) left ks).1[i]? = some a' ∧
      (shareRounds (n + 1) left ks).1[j]? = some b' ∧ Behind a' b' := by
  have hafit := hks a (List.mem_of_getElem? ha)
  have hbfit := hks b (List.mem_of_getElem? hb)
  rcases hafit.2.eq_or_lt with hnone | hsome
  · exact Behind.shareRounds (n + 1) (Or.inr ⟨hnone.symm, hroom.symm.trans hnone.symm⟩) hks
      hleft.le hij ha hb hweight
  · have hin := weighed_openWeight hks
    have hw : 0 < openWeight ks := hafit.1.trans_le (hin a (List.mem_of_getElem? ha) hsome)
    have hround := shared_shareRound hks hw hin hleft.le
    obtain ⟨x, y, ha', hb', hx, hy, hxy, -⟩ := shareRound_pair hks hw hin hleft.le hij ha hb
    have hpos : 0 < x := hx ▸ leftAt_pos hks hleft ha hsome
    have hbehind := behind_of_room_eq hroom hweight hafit hbfit hw hpos hy hxy
    rw [shareRounds, if_neg hleft.ne', if_neg (not_le.mpr hw)]
    exact hbehind.shareRounds n hround.fit hround.nonneg hij ha' hb' hweight

end Behind

end Swirl.Lib

import Swirl.Lib.Sharing
import Swirl.Tree.Containment

set_option autoImplicit false

/-! # The heights of the windows of a column

`viewport_arrange_windows` divides the height of a column by the height fractions, clamps, and
shares out what is left over in two rounds. Both directions, height that is left and height that is
missing, are the sharing of `Swirl/Lib/Sharing.lean`: the takers are the windows, with the room up to
their largest height or down to their smallest.
-/

namespace Swirl

open Lib

/-! ## Sharing out what is left over -/

section Sharing

variable {usableH : ℚ} {up : Bool} {l : WindowLimits} {h : ℚ}

/-- The height is one that the limits allow. -/
def WindowLimits.Allows (l : WindowLimits) (usableH h : ℚ) : Prop := l.clamp h usableH = h

/-- How much a window can still grow, or shrink. -/
def windowRoom (usableH : ℚ) (up : Bool) (l : WindowLimits) (h : ℚ) : ℚ :=
  if up then l.clamp usableH usableH - h else h - l.lo

/-- Windows as takers. -/
def windowTaker (usableH : ℚ) (up : Bool) (l : WindowLimits) (h : ℚ) : Taker ℚ :=
  ⟨l.hf, windowRoom usableH up l h⟩

def windowTakers (usableH : ℚ) (up : Bool) (limits : List WindowLimits) (hs : List ℚ) :
    List (Taker ℚ) :=
  List.zipWith (windowTaker usableH up) limits hs

/-- An amount of height that is left, or missing. -/
def signedBy (up : Bool) (x : ℚ) : ℚ := if up then x else -x

theorem signedBy_zero (up : Bool) : signedBy up 0 = 0 := by
  unfold signedBy
  split
  · rfl
  · exact neg_zero

theorem signedBy_mul (up : Bool) (x y : ℚ) : signedBy up x * y = signedBy up (x * y) := by
  unfold signedBy
  split
  · rfl
  · exact neg_mul x y

theorem signedBy_sub (up : Bool) (x y : ℚ) :
    signedBy up x - signedBy up y = signedBy up (x - y) := by
  unfold signedBy
  split
  · rfl
  · ring

theorem allows_clamp (l : WindowLimits) (usableH x : ℚ) :
    l.Allows usableH (l.clamp x usableH) := by
  unfold WindowLimits.Allows WindowLimits.clamp clampTiled
  grind

theorem WindowLimits.Allows.between (hl : l.Allows usableH h) :
    l.lo ≤ h ∧ h ≤ l.clamp usableH usableH := by
  unfold WindowLimits.Allows WindowLimits.clamp clampTiled at hl
  unfold WindowLimits.clamp clampTiled
  constructor <;> grind

theorem windowRoom_nonneg (hl : l.Allows usableH h) : 0 ≤ windowRoom usableH up l h := by
  obtain ⟨hlo, hhi⟩ := hl.between
  unfold windowRoom
  split
  · exact sub_nonneg.mpr hhi
  · exact sub_nonneg.mpr hlo

/-- A window that is asked to take an amount takes what it has room for. -/
theorem clamp_add_signedBy (hl : l.Allows usableH h) {y : ℚ} (hy : 0 ≤ y) :
    l.clamp (h + signedBy up y) usableH =
      h + signedBy up (min (windowRoom usableH up l h) y) := by
  unfold WindowLimits.Allows WindowLimits.clamp clampTiled at hl
  unfold windowRoom signedBy WindowLimits.clamp clampTiled
  cases up with
  | true =>
      simp only [if_true]
      grind
  | false =>
      simp only [Bool.false_eq_true, if_false]
      grind

theorem windowRoom_add_signedBy (x : ℚ) :
    windowRoom usableH up l (h + signedBy up x) = windowRoom usableH up l h - x := by
  unfold windowRoom signedBy
  cases up with
  | true =>
      simp only [if_true]
      ring
  | false =>
      simp only [Bool.false_eq_true, if_false]
      ring

/-- What the loop skips has no room. -/
theorem windowRoom_of_skipped {x : ℚ} (hx : 0 ≤ x) (hl : l.Allows usableH h)
    (hskip : (0 < signedBy up x ∧ l.clamp usableH usableH ≤ h) ∨
      (signedBy up x < 0 ∧ h ≤ l.lo)) : windowRoom usableH up l h = 0 := by
  obtain ⟨hlo, hhi⟩ := hl.between
  unfold signedBy at hskip
  unfold windowRoom
  cases up with
  | true =>
      simp only [if_true] at hskip ⊢
      rcases hskip with ⟨-, hle⟩ | ⟨hneg, -⟩
      · linarith
      · linarith
  | false =>
      simp only [Bool.false_eq_true, if_false] at hskip ⊢
      rcases hskip with ⟨hpos, -⟩ | ⟨-, hle⟩
      · linarith
      · linarith

/-- A window is flexible when it has room. -/
theorem windowFlexible_iff {x : ℚ} (hx : 0 < x) :
    windowFlexible usableH (signedBy up x) l h = true ↔ 0 < windowRoom usableH up l h := by
  unfold windowFlexible signedBy windowRoom
  have hneg : ¬ x < 0 := not_lt.mpr hx.le
  cases up with
  | true => simp [hx, hneg]
  | false => simp [hx, hneg]

/-- Every window has a height that its limits allow. -/
def AllAllow (usableH : ℚ) (limits : List WindowLimits) (hs : List ℚ) : Prop :=
  List.Forall₂ (fun l h => l.Allows usableH h) limits hs

theorem windowTakers_fit (up : Bool) {limits : List WindowLimits} {hs : List ℚ}
    (hall : AllAllow usableH limits hs) (hf : ∀ l ∈ limits, 0 < l.hf) :
    ∀ k ∈ windowTakers usableH up limits hs, k.Fit := by
  unfold windowTakers
  induction hall with
  | nil => exact fun k hk => absurd hk List.not_mem_nil
  | cons hl hrest ih =>
      intro k hk
      rcases List.mem_cons.mp hk with rfl | hk
      · exact ⟨hf _ List.mem_cons_self, windowRoom_nonneg hl⟩
      · exact ih (fun l hl' => hf l (List.mem_cons_of_mem _ hl')) k hk

/-- The weights of those with room are the fractions of the flexible windows. -/
theorem openWeight_windowTakers (usableH : ℚ) (up : Bool) (limits : List WindowLimits) (hs : List ℚ) {x : ℚ} (hx : 0 < x) :
    openWeight (windowTakers usableH up limits hs) =
      (List.zipWith (fun l h =>
        if windowFlexible usableH (signedBy up x) l h then l.hf else 0) limits hs).sum := by
  unfold openWeight windowTakers
  rw [List.map_zipWith]
  congr 2
  funext l h
  exact if_congr (windowFlexible_iff hx).symm rfl rfl

/-- **One pass over the windows is one round.** -/
theorem redistribute_shares {limits : List WindowLimits} {hs : List ℚ}
    (hall : AllAllow usableH limits hs) (hf : ∀ l ∈ limits, 0 < l.hf) {weights x : ℚ}
    (hw : 0 < weights) (hin : Weighed weights (windowTakers usableH up limits hs)) (hx : 0 ≤ x) :
    let r := redistribute usableH weights (signedBy up x) (limits.zip hs)
    AllAllow usableH limits r.1 ∧
      r.2 = signedBy up (shareRound weights x (windowTakers usableH up limits hs)).2 ∧
      windowTakers usableH up limits r.1 =
        (shareRound weights x (windowTakers usableH up limits hs)).1 := by
  dsimp only
  induction hall generalizing x with
  | nil => exact ⟨List.Forall₂.nil, rfl, rfl⟩
  | @cons l h limits hs hl hrest ih =>
      have hfit : (windowTaker usableH up l h).Fit :=
        ⟨hf l List.mem_cons_self, windowRoom_nonneg hl⟩
      have hpart := part_nonneg hfit hx hw
      have hpartLe := part_le_left hfit hx hw (hin _ List.mem_cons_self)
      have hshare : 0 ≤ x * (l.hf / weights) := mul_nonneg hx (div_nonneg hfit.1.le hw.le)
      have hstep : redistribute usableH weights (signedBy up x) ((l :: limits).zip (h :: hs)) =
          ((h + signedBy up ((windowTaker usableH up l h).part weights x)) ::
            (redistribute usableH weights
              (signedBy up (x - (windowTaker usableH up l h).part weights x)) (limits.zip hs)).1,
            (redistribute usableH weights
              (signedBy up (x - (windowTaker usableH up l h).part weights x))
              (limits.zip hs)).2) := by
        rw [List.zip_cons_cons, redistribute]
        split
        next hskip =>
          -- a window that is skipped takes nothing
          have hroom := windowRoom_of_skipped hx hl hskip
          have hzero : (windowTaker usableH up l h).part weights x = 0 := by
            unfold Taker.part windowTaker
            dsimp only
            rw [hroom]
            exact min_eq_left hshare
          rw [hzero, sub_zero, signedBy_zero, add_zero]
        next =>
          have hnext : l.clamp (h + signedBy up x * (l.hf / weights)) usableH =
              h + signedBy up ((windowTaker usableH up l h).part weights x) := by
            rw [signedBy_mul, clamp_add_signedBy hl hshare]
            rfl
          dsimp only
          rw [hnext, add_sub_cancel_left, signedBy_sub]
      obtain ⟨hallow, hleft, htakers⟩ := ih (fun l' hl' => hf l' (List.mem_cons_of_mem l hl'))
        (fun k hk => hin k (List.mem_cons_of_mem _ hk)) (sub_nonneg.mpr hpartLe)
      rw [hstep]
      refine ⟨List.Forall₂.cons ?_ hallow, hleft, ?_⟩
      · unfold Taker.part windowTaker
        dsimp only
        rw [← clamp_add_signedBy hl hshare]
        exact allows_clamp l usableH _
      · unfold windowTakers at htakers ⊢
        rw [List.zipWith_cons_cons, List.zipWith_cons_cons, htakers, shareRound]
        dsimp only
        unfold Taker.taken windowTaker
        rw [windowRoom_add_signedBy]

/-- A pass gives to the windows what it takes off the leftover. -/
theorem sum_redistribute (usableH flexSum leftover : ℚ) (rest : List (WindowLimits × ℚ)) :
    (redistribute usableH flexSum leftover rest).1.sum +
      (redistribute usableH flexSum leftover rest).2 = (rest.map Prod.snd).sum + leftover := by
  induction rest generalizing leftover with
  | nil => simp [redistribute]
  | cons r rest ih =>
      obtain ⟨l, h⟩ := r
      rw [redistribute]
      dsimp only
      split
      · rw [List.map_cons, List.sum_cons, List.sum_cons]
        linarith [ih leftover]
      · rw [List.map_cons, List.sum_cons, List.sum_cons]
        linarith [ih (leftover - (l.clamp (h + leftover * (l.hf / flexSum)) usableH - h))]

theorem allAllow_length {limits : List WindowLimits} {hs : List ℚ}
    (hall : AllAllow usableH limits hs) : hs.length = limits.length := hall.length_eq.symm

/-- **The passes are rounds.** -/
theorem redistributePasses_shares (up : Bool) (n : Nat) {limits : List WindowLimits} {hs : List ℚ}
    (hall : AllAllow usableH limits hs) (hf : ∀ l ∈ limits, 0 < l.hf) {x : ℚ} (hx : 0 ≤ x) :
    let r := redistributePasses usableH limits n (signedBy up x) hs
    AllAllow usableH limits r.1 ∧
      r.2 = signedBy up (shareRounds n x (windowTakers usableH up limits hs)).2 ∧
      windowTakers usableH up limits r.1 =
        (shareRounds n x (windowTakers usableH up limits hs)).1 ∧
      r.1.sum + r.2 = hs.sum + signedBy up x := by
  dsimp only
  induction n generalizing hs x with
  | zero => exact ⟨hall, rfl, rfl, rfl⟩
  | succ n ih =>
      rw [redistributePasses, shareRounds]
      by_cases hzero : x = 0
      · subst hzero
        rw [signedBy_zero, if_pos rfl, if_pos rfl, signedBy_zero]
        exact ⟨hall, rfl, rfl, rfl⟩
      · have hpos : 0 < x := lt_of_le_of_ne hx (Ne.symm hzero)
        have hne : signedBy up x ≠ 0 := by
          unfold signedBy
          split
          · exact hzero
          · exact neg_ne_zero.mpr hzero
        have hopen := openWeight_windowTakers usableH up limits hs hpos
        rw [if_neg hne, if_neg hzero]
        dsimp only
        rw [← hopen]
        split
        · exact ⟨hall, rfl, rfl, rfl⟩
        next hsome =>
          have hw := not_le.mp hsome
          have hfit := windowTakers_fit up hall hf
          have hin := weighed_openWeight hfit
          obtain ⟨hallow, hleft, htakers⟩ := redistribute_shares hall hf hw hin hx
          have hround := shared_shareRound hfit hw hin hx
          have hsum := sum_redistribute usableH
            (openWeight (windowTakers usableH up limits hs)) (signedBy up x) (limits.zip hs)
          have hsnd : (limits.zip hs).map Prod.snd = hs :=
            List.map_snd_zip (allAllow_length hall).le
          rw [hsnd] at hsum
          obtain ⟨hallow', hleft', htakers', hsum'⟩ := ih hallow hround.nonneg
          rw [← hleft] at hallow' hleft' htakers' hsum'
          rw [htakers] at hleft' htakers'
          exact ⟨hallow', hleft', htakers', hsum'.trans hsum⟩

end Sharing

/-! ## The whole column -/

section Column

variable {limits : List WindowLimits} {usableH : ℚ}

/-- `total_hf` -/
def totalShare (limits : List WindowLimits) : ℚ :=
  let total := (limits.map WindowLimits.hf).sum
  if total ≤ 0 then limits.length else total

/-- The minimum heights do not fit. -/
def MinimumsOverflow (limits : List WindowLimits) (usableH : ℚ) : Prop :=
  usableH < (limits.map WindowLimits.lo).sum

/-- The height of a window by its fraction alone. -/
def firstHeight (limits : List WindowLimits) (usableH : ℚ) (l : WindowLimits) : ℚ :=
  l.clamp (usableH * (l.hf / totalShare limits)) usableH

/-- What dividing by fractions leaves over; it is negative when height is missing. -/
def firstLeftover (limits : List WindowLimits) (usableH : ℚ) : ℚ :=
  usableH - (limits.map (firstHeight limits usableH)).sum

/-- The windows of a column after the first division, as takers of what is left over or missing. -/
def columnTakers (limits : List WindowLimits) (usableH : ℚ) : List (Taker ℚ) :=
  limits.map fun l =>
    windowTaker usableH (decide (0 ≤ firstLeftover limits usableH)) l (firstHeight limits usableH l)

/-- Two rounds of sharing leave no more than the last window has room for. -/
def RemainderFits (limits : List WindowLimits) (usableH : ℚ) : Prop :=
  let r := shareRounds 2 |firstLeftover limits usableH| (columnTakers limits usableH)
  ∀ k ∈ r.1.getLast?, r.2 ≤ k.room

instance (limits : List WindowLimits) (usableH : ℚ) : Decidable (RemainderFits limits usableH) :=
  inferInstanceAs (Decidable (∀ k ∈ _, _))

theorem signedBy_abs (x : ℚ) : signedBy (decide (0 ≤ x)) |x| = x := by
  unfold signedBy
  split
  next h => exact abs_of_nonneg (of_decide_eq_true h)
  next h =>
    have hneg : x < 0 := by simpa using h
    rw [abs_of_neg hneg, neg_neg]

theorem allAllow_firstHeight (limits : List WindowLimits) (usableH : ℚ) :
    AllAllow usableH limits (limits.map (firstHeight limits usableH)) := by
  unfold AllAllow
  rw [List.forall₂_map_right_iff, List.forall₂_same]
  exact fun l _ => allows_clamp l usableH _

theorem columnTakers_eq (limits : List WindowLimits) (usableH : ℚ) :
    windowTakers usableH (decide (0 ≤ firstLeftover limits usableH)) limits
      (limits.map (firstHeight limits usableH)) = columnTakers limits usableH := by
  unfold windowTakers columnTakers
  rw [List.zipWith_map_right, List.zipWith_self]

/-- What the two passes leave: the heights, and the sharing that they amount to. -/
structure AfterPasses (limits : List WindowLimits) (usableH : ℚ) (hs : List ℚ) (leftover : ℚ) :
    Prop where
  allow : AllAllow usableH limits hs
  sum : hs.sum + leftover = usableH
  leftover_eq : leftover = signedBy (decide (0 ≤ firstLeftover limits usableH))
    (shareRounds 2 |firstLeftover limits usableH| (columnTakers limits usableH)).2
  takers_eq : windowTakers usableH (decide (0 ≤ firstLeftover limits usableH)) limits hs =
    (shareRounds 2 |firstLeftover limits usableH| (columnTakers limits usableH)).1

theorem afterPasses (usableH : ℚ) (hf : ∀ l ∈ limits, 0 < l.hf) :
    let r := redistributePasses usableH limits 2 (firstLeftover limits usableH)
      (limits.map (firstHeight limits usableH))
    AfterPasses limits usableH r.1 r.2 := by
  dsimp only
  obtain ⟨hallow, hleft, htakers, hsum⟩ := redistributePasses_shares
    (decide (0 ≤ firstLeftover limits usableH)) 2 (allAllow_firstHeight limits usableH) hf
    (abs_nonneg (firstLeftover limits usableH))
  rw [signedBy_abs, columnTakers_eq] at hleft htakers
  rw [signedBy_abs] at hallow hsum
  refine ⟨hallow, hsum.trans ?_, hleft, htakers⟩
  unfold firstLeftover
  ring

theorem forall₂_concat_iff {β γ : Type} {R : β → γ → Prop} {bs : List β} {cs : List γ} {b : β}
    {c : γ} : List.Forall₂ R (bs ++ [b]) (cs ++ [c]) ↔ List.Forall₂ R bs cs ∧ R b c := by
  rw [← List.forall₂_reverse_iff, List.reverse_append, List.reverse_append, List.reverse_singleton,
    List.reverse_singleton, List.singleton_append, List.singleton_append, List.forall₂_cons,
    List.forall₂_reverse_iff]
  exact and_comm

/-- The last step: what is left over is added to the height of the last window. -/
theorem columnHeights_dump {r : List ℚ × ℚ} {l : WindowLimits} {h : ℚ}
    (hfit : ¬ MinimumsOverflow limits usableH)
    (hr : redistributePasses usableH limits 2 (firstLeftover limits usableH)
      (limits.map (firstHeight limits usableH)) = r)
    (hl : limits.getLast? = some l) (hh : r.1.getLast? = some h) :
    columnHeights limits usableH =
      if r.2 ≠ 0 then r.1.dropLast ++ [l.clamp (h + r.2) usableH] else r.1 := by
  subst hr
  have hdump : columnHeights limits usableH = _ := if_neg hfit
  refine hdump.trans ?_
  split
  next l' h' hl' hh' =>
    obtain rfl := Option.some.inj (hl.symm.trans hl')
    obtain rfl := Option.some.inj (hh.symm.trans hh')
    rfl
  next hnone => exact (hnone l h hl hh).elim

/-- What is left after the passes goes to the last window. -/
theorem columnHeights_concat {front : List WindowLimits} {last : WindowLimits}
    (hf : ∀ l ∈ front ++ [last], 0 < l.hf) (hfit : ¬ MinimumsOverflow (front ++ [last]) usableH) :
    ∃ hs h leftover, AfterPasses (front ++ [last]) usableH (hs ++ [h]) leftover ∧
      hs.length = front.length ∧
      columnHeights (front ++ [last]) usableH = hs ++ [last.clamp (h + leftover) usableH] := by
  have hafter := afterPasses usableH hf
  dsimp only at hafter
  obtain ⟨r, hr⟩ : ∃ r, redistributePasses usableH (front ++ [last]) 2
      (firstLeftover (front ++ [last]) usableH)
      ((front ++ [last]).map (firstHeight (front ++ [last]) usableH)) = r := ⟨_, rfl⟩
  rw [hr] at hafter
  have hlen := allAllow_length hafter.allow
  rw [List.length_append, List.length_singleton] at hlen
  rcases List.eq_nil_or_concat' r.1 with hnil | ⟨hs, h, hconcat⟩
  · rw [hnil] at hlen
    cases hlen
  · rw [hconcat] at hafter
    refine ⟨hs, h, r.2, hafter, ?_, ?_⟩
    · rw [hconcat, List.length_append, List.length_singleton] at hlen
      exact Nat.succ.inj hlen
    · have hlast : r.1.getLast? = some h := by
        rw [hconcat]
        exact List.getLast?_concat
      rw [columnHeights_dump hfit hr List.getLast?_concat hlast, hconcat]
      split
      · rw [List.dropLast_append_of_ne_nil (List.cons_ne_nil h []), List.dropLast_singleton,
          List.append_nil]
      next hzero =>
        have hallow := (forall₂_concat_iff.mp hafter.allow).2
        rw [not_not.mp hzero, add_zero, hallow]

theorem windowTakers_concat {up : Bool} {front : List WindowLimits} {last : WindowLimits}
    {hs : List ℚ} {h : ℚ} (hlen : hs.length = front.length) :
    windowTakers usableH up (front ++ [last]) (hs ++ [h]) =
      windowTakers usableH up front hs ++ [windowTaker usableH up last h] := by
  unfold windowTakers
  rw [List.zipWith_append hlen.symm]
  rfl

theorem signedBy_inj {up : Bool} {x y : ℚ} : signedBy up x = signedBy up y ↔ x = y := by
  unfold signedBy
  split
  · exact Iff.rfl
  · exact neg_inj

/-- **The heights are within their limits, and they fill the column exactly if the last window has
room for the remainder.** -/
theorem columnHeights_fill_iff (hne : limits ≠ []) (hf : ∀ l ∈ limits, 0 < l.hf)
    (hfit : ¬ MinimumsOverflow limits usableH) :
    List.Forall₂ (fun l h => l.lo ≤ h ∧ h ≤ l.clamp usableH usableH) limits
        (columnHeights limits usableH) ∧
      ((columnHeights limits usableH).sum = usableH ↔ RemainderFits limits usableH) := by
  rcases List.eq_nil_or_concat' limits with hnil | ⟨front, last, rfl⟩
  · exact absurd hnil hne
  obtain ⟨hs, h, leftover, hafter, hlen, heq⟩ := columnHeights_concat hf hfit
  obtain ⟨hallow, hlast⟩ := forall₂_concat_iff.mp hafter.allow
  have hfitTakers : ∀ k ∈ columnTakers (front ++ [last]) usableH, k.Fit := by
    rw [← columnTakers_eq]
    exact windowTakers_fit _ (allAllow_firstHeight _ usableH) hf
  have hshared := shared_shareRounds 2 hfitTakers
    (abs_nonneg (firstLeftover (front ++ [last]) usableH))
  have htakers := hafter.takers_eq
  rw [windowTakers_concat hlen] at htakers
  have hsum := hafter.sum
  rw [heq]
  constructor
  · exact forall₂_concat_iff.mpr
      ⟨hallow.imp fun l h hl => hl.between, (allows_clamp last usableH _).between⟩
  · unfold RemainderFits
    dsimp only
    rw [← htakers, List.getLast?_append, List.getLast?_singleton, Option.some_or]
    have hleft := hafter.leftover_eq
    have hnonneg := hshared.nonneg
    generalize (shareRounds 2 |firstLeftover (front ++ [last]) usableH|
      (columnTakers (front ++ [last]) usableH)).2 = x at hleft hnonneg ⊢
    generalize decide (0 ≤ firstLeftover (front ++ [last]) usableH) = up at hleft ⊢
    rw [hleft, clamp_add_signedBy hlast hnonneg]
    rw [hleft] at hsum
    rw [List.sum_append, List.sum_singleton] at hsum ⊢
    constructor
    · intro hfull k hk
      obtain rfl := Option.some.inj hk
      have hall : signedBy up (min (windowRoom usableH up last h) x) = signedBy up x := by linarith
      exact min_eq_right_iff.mp (signedBy_inj.mp hall)
    · intro hroom
      have hall : min (windowRoom usableH up last h) x = x := min_eq_right_iff.mpr (hroom _ rfl)
      rw [hall]
      linarith

/-- The remainder fits when the last window has room for all that the first division leaves. -/
theorem remainderFits_of_room (hf : ∀ l ∈ limits, 0 < l.hf)
    (hroom : ∀ l ∈ limits.getLast?, |firstLeftover limits usableH| ≤
      windowRoom usableH (decide (0 ≤ firstLeftover limits usableH)) l
        (firstHeight limits usableH l)) : RemainderFits limits usableH := by
  rcases List.eq_nil_or_concat' limits with rfl | ⟨front, last, rfl⟩
  · intro k hk
    have hnone : (shareRounds 2 |firstLeftover [] usableH| (columnTakers [] usableH)).1 = [] :=
      List.eq_nil_of_length_eq_zero (shared_shareRounds 2 (fun k hk => absurd hk List.not_mem_nil)
        (abs_nonneg _)).length
    rw [hnone] at hk
    cases hk
  · have hfitTakers : ∀ k ∈ columnTakers (front ++ [last]) usableH, k.Fit := by
      rw [← columnTakers_eq]
      exact windowTakers_fit _ (allAllow_firstHeight _ usableH) hf
    have hshared := shared_shareRounds 2 hfitTakers
      (abs_nonneg (firstLeftover (front ++ [last]) usableH))
    have hlast : (columnTakers (front ++ [last]) usableH)[front.length]? =
        some (windowTaker usableH (decide (0 ≤ firstLeftover (front ++ [last]) usableH)) last
          (firstHeight (front ++ [last]) usableH last)) := by
      unfold columnTakers
      rw [List.getElem?_map, List.getElem?_concat_length]
      rfl
    obtain ⟨k', hk', -, -, hout⟩ := hshared.each _ _ hlast
    intro k hk
    have hlength : (columnTakers (front ++ [last]) usableH).length = front.length + 1 := by
      unfold columnTakers
      rw [List.length_map, List.length_append, List.length_singleton]
    rw [List.getLast?_eq_getElem?, hshared.length, hlength, Nat.add_sub_cancel, hk'] at hk
    obtain rfl := Option.some.inj hk
    have hle := hroom last (by rw [List.getLast?_append]; rfl)
    unfold windowTaker at hout
    dsimp only at hout
    linarith

/-! ## Windows with the same fraction -/

/-- Nothing is shared out when the first division leaves nothing over. -/
theorem columnHeights_of_exact (hfit : ¬ MinimumsOverflow limits usableH)
    (hzero : firstLeftover limits usableH = 0) :
    columnHeights limits usableH = limits.map (firstHeight limits usableH) := by
  have hpasses : redistributePasses usableH limits 2 (firstLeftover limits usableH)
      (limits.map (firstHeight limits usableH)) = (limits.map (firstHeight limits usableH), 0) := by
    rw [hzero]
    exact if_pos rfl
  cases hl : limits.getLast? with
  | none =>
      rw [List.getLast?_eq_none_iff.mp hl]
      exact List.eq_nil_of_length_eq_zero (columnHeights_length [] usableH)
  | some l =>
      cases hh : (limits.map (firstHeight limits usableH)).getLast? with
      | none =>
          rw [List.getLast?_eq_none_iff, List.map_eq_nil_iff] at hh
          rw [hh] at hl
          cases hl
      | some h =>
          rw [columnHeights_dump hfit hpasses hl hh]
          exact if_neg (not_not.mpr rfl)

/-- A window without minimum and maximum. -/
def WindowLimits.Free (l : WindowLimits) : Prop := l.lo = 0 ∧ l.cap = dblMax

theorem WindowLimits.Free.clamp_max {l : WindowLimits} (hfree : l.Free) (husable : 0 ≤ usableH) :
    l.clamp usableH usableH = usableH := by
  unfold WindowLimits.clamp clampTiled
  rw [hfree.1, hfree.2]
  simp only [ne_eq, not_true_eq_false, if_false, min_self]
  exact max_eq_right husable

/-- Windows alike have the same height when the fractions alone decide. -/
theorem columnHeights_alike {i j : Nat} {l : WindowLimits} (hi : limits[i]? = some l)
    (hj : limits[j]? = some l)
    (hexact : MinimumsOverflow limits usableH ∨ firstLeftover limits usableH = 0) :
    (columnHeights limits usableH)[i]? = (columnHeights limits usableH)[j]? := by
  by_cases hfit : MinimumsOverflow limits usableH
  · have hmin : columnHeights limits usableH = limits.map WindowLimits.lo := if_pos hfit
    rw [hmin, List.getElem?_map, List.getElem?_map, hi, hj]
  · rw [columnHeights_of_exact hfit (hexact.resolve_left hfit), List.getElem?_map,
      List.getElem?_map, hi, hj]

/-- Two items of a list of numbers that are not negative are at most its sum. -/
theorem add_le_sum_of_lt {xs : List ℚ} (hxs : ∀ x ∈ xs, 0 ≤ x) {i j : Nat} (hij : i < j) {x y : ℚ}
    (hi : xs[i]? = some x) (hj : xs[j]? = some y) : x + y ≤ xs.sum := by
  have hx : x ∈ xs.take j := List.mem_iff_getElem?.mpr
    ⟨i, by rw [List.getElem?_take_of_lt hij]; exact hi⟩
  have hy : y ∈ xs.drop j := List.mem_iff_getElem?.mpr
    ⟨0, by rw [List.getElem?_drop, Nat.add_zero]; exact hj⟩
  have hfront := List.single_le_sum (fun z hz => hxs z (List.mem_of_mem_take hz)) x hx
  have hback := List.single_le_sum (fun z hz => hxs z (List.mem_of_mem_drop hz)) y hy
  rw [← List.take_append_drop j xs, List.sum_append]
  exact add_le_add hfront hback

theorem windowTakers_getElem? {up : Bool} {hs : List ℚ} {i : Nat} {l : WindowLimits} {h : ℚ}
    (hl : limits[i]? = some l) (hh : hs[i]? = some h) :
    (windowTakers usableH up limits hs)[i]? = some (windowTaker usableH up l h) := by
  unfold windowTakers
  rw [List.getElem?_zipWith, hl, hh]

/-- No window can take all that is left over when another one has a height. -/
theorem room_of_free {i j : Nat} {l : WindowLimits} (hfree : l.Free)
    (hlo : ∀ l ∈ limits, 0 ≤ l.lo) (husable : 0 < usableH) (hshare : 0 < l.hf / totalShare limits)
    (hij : i < j) (hi : limits[i]? = some l) (hj : limits[j]? = some l)
    (hpos : 0 ≤ firstLeftover limits usableH) :
    |firstLeftover limits usableH| < windowRoom usableH true l (firstHeight limits usableH l) := by
  have hfirst : ∀ x ∈ limits.map (firstHeight limits usableH), 0 ≤ x := by
    intro x hx
    obtain ⟨k, hk, rfl⟩ := List.mem_map.mp hx
    exact (hlo k hk).trans (le_max_left _ _)
  have hi' : (limits.map (firstHeight limits usableH))[i]? = some (firstHeight limits usableH l) := by
    rw [List.getElem?_map, hi]
    rfl
  have hj' : (limits.map (firstHeight limits usableH))[j]? = some (firstHeight limits usableH l) := by
    rw [List.getElem?_map, hj]
    rfl
  have hsum := add_le_sum_of_lt hfirst hij hi' hj'
  have hheight : 0 < firstHeight limits usableH l := by
    have hraw : 0 < usableH * (l.hf / totalShare limits) := mul_pos husable hshare
    unfold firstHeight WindowLimits.clamp clampTiled
    rw [hfree.2]
    simp only [ne_eq, not_true_eq_false, if_false, min_self]
    exact lt_max_of_lt_right (lt_min hraw husable)
  rw [abs_of_nonneg hpos]
  unfold windowRoom
  rw [if_pos rfl, hfree.clamp_max husable.le]
  unfold firstLeftover
  linarith

theorem totalShare_pos (hne : limits ≠ []) :
    0 < totalShare limits := by
  unfold totalShare
  dsimp only
  split
  · exact_mod_cast List.length_pos_iff.mpr hne
  next h => exact not_le.mp h

/-- **Windows alike have different heights once something is shared out**, unless they end with no
height; the last window is another matter. -/
theorem columnHeights_unfair {i j : Nat} {l : WindowLimits} (hf : ∀ l ∈ limits, 0 < l.hf)
    (hlo : ∀ l ∈ limits, 0 ≤ l.lo) (husable : 0 ≤ usableH)
    (hfit : ¬ MinimumsOverflow limits usableH) (hleft : firstLeftover limits usableH ≠ 0)
    (hfree : l.Free) (hij : i < j) (hj' : j + 1 < limits.length) (hi : limits[i]? = some l)
    (hj : limits[j]? = some l)
    (hsame : (columnHeights limits usableH)[i]? = (columnHeights limits usableH)[j]?) :
    (columnHeights limits usableH)[i]? = some 0 := by
  rcases List.eq_nil_or_concat' limits with hnil | ⟨front, last, rfl⟩
  · rw [hnil] at hi
    cases hi
  obtain ⟨hs, h, leftover, hafter, hlen, heq⟩ := columnHeights_concat hf hfit
  rw [List.length_append, List.length_singleton] at hj'
  have hjs : j < hs.length := by omega
  have his : i < hs.length := by omega
  have hfront : ∀ n, n < hs.length → ∀ z : ℚ, (hs ++ [z])[n]? = hs[n]? := fun n hn z =>
    List.getElem?_append_left hn
  obtain ⟨x, hx⟩ : ∃ x, hs[i]? = some x := ⟨_, List.getElem?_eq_getElem his⟩
  obtain ⟨y, hy⟩ : ∃ y, hs[j]? = some y := ⟨_, List.getElem?_eq_getElem hjs⟩
  rw [heq, hfront i his, hfront j hjs, hx, hy] at hsame
  rw [heq, hfront i his, hx]
  obtain rfl := Option.some.inj hsame
  -- the two windows as takers, before and after
  have hfitTakers : ∀ k ∈ columnTakers (front ++ [last]) usableH, k.Fit := by
    rw [← columnTakers_eq]
    exact windowTakers_fit _ (allAllow_firstHeight _ usableH) hf
  have hstart : ∀ n : Nat, (front ++ [last])[n]? = some l →
      (columnTakers (front ++ [last]) usableH)[n]? =
        some (windowTaker usableH (decide (0 ≤ firstLeftover (front ++ [last]) usableH)) l
          (firstHeight (front ++ [last]) usableH l)) := by
    intro n hn
    unfold columnTakers
    rw [List.getElem?_map, hn]
    rfl
  obtain ⟨a, b, ha, hb, hbehind⟩ := shareRounds_behind 1 hfitTakers (abs_pos.mpr hleft) hij
    (hstart i hi) (hstart j hj) rfl rfl
  obtain ⟨a', ha', -, -, hout⟩ := (shared_shareRounds 2 hfitTakers (abs_nonneg _)).each i _
    (hstart i hi)
  have hnonneg := (shared_shareRounds 2 hfitTakers
    (abs_nonneg (firstLeftover (front ++ [last]) usableH))).nonneg
  rw [← hafter.takers_eq] at ha hb ha'
  rw [windowTakers_getElem? hi (by rw [hfront i his]; exact hx)] at ha ha'
  rw [windowTakers_getElem? hj (by rw [hfront j hjs]; exact hy)] at hb
  obtain rfl := Option.some.inj ha
  obtain rfl := Option.some.inj hb
  obtain rfl := Option.some.inj ha'
  rcases hbehind with hlt | ⟨hzero, -⟩
  · exact absurd hlt (lt_irrefl _)
  · have hshare := div_pos (hf l (List.mem_of_getElem? hi))
      (totalShare_pos (List.append_ne_nil_of_right_ne_nil front (List.cons_ne_nil last [])))
    unfold windowTaker at hzero hout
    dsimp only at hzero hout
    by_cases hpos : 0 ≤ firstLeftover (front ++ [last]) usableH
    · rcases husable.eq_or_lt with hnone | hsome
      · -- in a column without height there is no room from the start
        rw [decide_eq_true hpos] at hzero
        unfold windowRoom at hzero
        rw [if_pos rfl, hfree.clamp_max husable, ← hnone, zero_sub, neg_eq_zero] at hzero
        rw [hzero]
      · -- a window that takes all that is left over still has room
        have hroom := room_of_free hfree hlo hsome hshare hij hi hj hpos
        rw [decide_eq_true hpos] at hzero hout
        linarith
    · rw [decide_eq_false hpos] at hzero
      unfold windowRoom at hzero
      rw [if_neg Bool.false_ne_true, hfree.1, sub_zero] at hzero
      rw [hzero]

end Column

end Swirl

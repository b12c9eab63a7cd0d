import Mathlib.Tactic

set_option autoImplicit false

/-! # Taking an amount out of stores with bounds

Some stores hold amounts, each kept within bounds of its own. An amount that is needed is taken
from one store after the other, as far as the bounds let it; a negative need is put into them.
`drain` is that loop, for any ordered group of amounts. The rules say what it leaves of the need,
what it does to the sum, and when no store ends with more than it had.
-/

namespace Swirl.Lib

variable {α : Type*}

/-- An amount and the bounds it is kept within when it changes. The floor wins. -/
structure Store (α : Type*) where
  floor : α
  ceil : α
  amount : α

namespace Store

section Clamp

variable [LinearOrder α]

/-- The amount closest to `x` that the bounds allow. -/
def clamp (b : Store α) (x : α) : α := max b.floor (min x b.ceil)

/-- The amount is one that the bounds allow. -/
def Bounded (b : Store α) : Prop := b.clamp b.amount = b.amount

/-- Nothing fits into the store: it is at its upper bound, or above it. -/
def Full (b : Store α) : Prop := b.floor ≤ b.amount ∧ b.ceil ≤ b.amount

theorem clamp_clamp (b : Store α) (x : α) : b.clamp (b.clamp x) = b.clamp x := by
  unfold clamp
  grind

theorem Bounded.floor_le {b : Store α} (h : b.Bounded) : b.floor ≤ b.amount :=
  h ▸ le_max_left _ _

/-- What lies between two amounts that the bounds allow is allowed too. -/
theorem clamp_between {b : Store α} {x y z : α} (hx : b.clamp x = x) (hz : b.clamp z = z)
    (hxy : x ≤ y) (hyz : y ≤ z) : b.clamp y = y := by
  unfold clamp at *
  grind

end Clamp

variable [AddCommGroup α]

/-- What a store can give. -/
def slack (b : Store α) : α := b.amount - b.floor

variable [LinearOrder α] [IsOrderedAddMonoid α]

theorem Bounded.slack_nonneg {b : Store α} (h : b.Bounded) : 0 ≤ b.slack :=
  sub_nonneg.mpr h.floor_le

/-- A store within its bounds gives all that is needed, or all it has above its floor. -/
theorem Bounded.clamp_sub {b : Store α} (h : b.Bounded) {need : α} (hneed : 0 ≤ need) :
    b.clamp (b.amount - need) = b.amount - min need b.slack := by
  unfold Bounded clamp at h
  unfold clamp slack
  grind

/-- A store within its bounds takes in no more than is put into it. -/
theorem Bounded.clamp_add {b : Store α} (h : b.Bounded) {need : α} (hneed : need ≤ 0) :
    b.amount ≤ b.clamp (b.amount - need) ∧ b.clamp (b.amount - need) ≤ b.amount - need := by
  unfold Bounded clamp at h
  unfold clamp
  constructor <;> grind

end Store

open Store

section Loop

variable [AddCommGroup α] [LinearOrder α]

/-- One store after the other gives what is needed: the amounts, and what is still needed. -/
def drain : List (Store α) → α → List α × α
  | [], need => ([], need)
  | b :: bs, need =>
      if need = 0 then ((b :: bs).map amount, 0)
      else
        let rest := drain bs (need - (b.amount - b.clamp (b.amount - need)))
        (b.clamp (b.amount - need) :: rest.1, rest.2)

theorem drain_zero (bs : List (Store α)) : drain bs 0 = (bs.map amount, 0) := by
  cases bs with
  | nil => rfl
  | cons b bs => rw [drain, if_pos rfl]

theorem drain_cons {need : α} (hneed : need ≠ 0) (b : Store α) (bs : List (Store α)) :
    drain (b :: bs) need =
      (b.clamp (b.amount - need) ::
        (drain bs (need - (b.amount - b.clamp (b.amount - need)))).1,
      (drain bs (need - (b.amount - b.clamp (b.amount - need)))).2) := by
  rw [drain, if_neg hneed]

/-- **What the stores give is what the need goes down by.** -/
theorem sum_drain (bs : List (Store α)) (need : α) :
    (drain bs need).1.sum + need = (bs.map amount).sum + (drain bs need).2 := by
  induction bs generalizing need with
  | nil => simp [drain]
  | cons b bs ih =>
      by_cases h : need = 0
      · subst h
        rw [drain_zero]
      · rw [drain_cons h, List.sum_cons, List.map_cons, List.sum_cons]
        have hrest := ih (need - (b.amount - b.clamp (b.amount - need)))
        grind

/-- The amounts after a drain, each beside its store. -/
def Drained (R : Store α → α → Prop) (bs : List (Store α)) (need : α) : Prop :=
  List.Forall₂ R bs (drain bs need).1

/-- No store ends with more than it had. -/
def NoneGrows (bs : List (Store α)) (need : α) : Prop := Drained (fun b a => a ≤ b.amount) bs need

theorem noneGrows_zero (bs : List (Store α)) : NoneGrows bs (0 : α) := by
  unfold NoneGrows Drained
  rw [drain_zero]
  exact List.forall₂_map_right_iff.mpr (List.forall₂_same.mpr fun b _ => le_rfl)

theorem noneGrows_cons {need : α} (hneed : need ≠ 0) (b : Store α) (bs : List (Store α)) :
    NoneGrows (b :: bs) need ↔ b.clamp (b.amount - need) ≤ b.amount ∧
      NoneGrows bs (need - (b.amount - b.clamp (b.amount - need))) := by
  unfold NoneGrows Drained
  rw [drain_cons hneed, List.forall₂_cons]

/-- A store that is asked for `need` gives without growing, and nothing that it gives beyond the
need makes a store behind it grow. -/
def Store.Gives (b : Store α) (need : α) (behind : List (Store α)) : Prop :=
  b.floor ≤ b.amount ∧
    (need < b.slack → need < b.amount - b.ceil → ∀ d ∈ behind, d.Full)

/-- Every store that is asked gives: those before it are at or above their floors and have less
than is needed. -/
def AllGive (bs : List (Store α)) (need : α) : Prop :=
  ∀ pre b post, bs = pre ++ b :: post → (∀ c ∈ pre, c.floor ≤ c.amount) →
    (pre.map slack).sum < need → b.Gives (need - (pre.map slack).sum) post

theorem AllGive.head {b : Store α} {bs : List (Store α)} {need : α} (h : AllGive (b :: bs) need)
    (hneed : 0 < need) : b.Gives need bs := by
  have hb := h [] b bs rfl (fun c hc => absurd hc List.not_mem_nil) (by simpa using hneed)
  simpa using hb

/-- Some stores at the front have what is needed. -/
def CoveredBy (bs : List (Store α)) (need : α) : Prop :=
  ∃ p, p <+: bs ∧ need ≤ (p.map slack).sum

end Loop

/-! ## Stores within their bounds -/

variable [AddCommGroup α] [LinearOrder α] [IsOrderedAddMonoid α]

/-- What stores within their bounds leave of a need: what they lack. -/
theorem drain_need {bs : List (Store α)} (hbs : ∀ b ∈ bs, b.Bounded) {need : α}
    (hneed : 0 ≤ need) : (drain bs need).2 = max 0 (need - (bs.map slack).sum) := by
  induction bs generalizing need with
  | nil => simp [drain, hneed]
  | cons b bs ih =>
      have hb := hbs b List.mem_cons_self
      have hrest : ∀ c ∈ bs, c.Bounded := fun c hc => hbs c (List.mem_cons_of_mem b hc)
      have hsum : 0 ≤ (bs.map slack).sum := List.sum_nonneg fun x hx => by
        obtain ⟨c, hc, rfl⟩ := List.mem_map.mp hx
        exact (hrest c hc).slack_nonneg
      have hslack := hb.slack_nonneg
      by_cases h : need = 0
      · subst h
        rw [drain_zero, zero_sub]
        refine (max_eq_left (neg_nonpos.mpr ?_)).symm
        rw [List.map_cons, List.sum_cons]
        exact add_nonneg hslack hsum
      · rw [drain_cons h, hb.clamp_sub hneed, List.map_cons, List.sum_cons, ih hrest]
        · grind
        · grind

/-- A negative need goes into the stores at most as a whole. -/
theorem drain_put {bs : List (Store α)} (hbs : ∀ b ∈ bs, b.Bounded) {need : α}
    (hneed : need ≤ 0) : need ≤ (drain bs need).2 ∧ (drain bs need).2 ≤ 0 := by
  induction bs generalizing need with
  | nil => exact ⟨le_rfl, hneed⟩
  | cons b bs ih =>
      by_cases h : need = 0
      · subst h
        rw [drain_zero]
        exact ⟨le_rfl, le_rfl⟩
      · rw [drain_cons h]
        obtain ⟨hlo, hhi⟩ := (hbs b List.mem_cons_self).clamp_add hneed
        have hneg : need - (b.amount - b.clamp (b.amount - need)) ≤ 0 := by grind
        have hrest := ih (fun c hc => hbs c (List.mem_cons_of_mem b hc)) hneg
        exact ⟨by grind, hrest.2⟩

/-! ## No store ends with more than it had -/

/-- What is put into stores makes none grow only if nothing fits into any of them. -/
theorem noneGrows_of_neg {bs : List (Store α)} {need : α} (hneed : need < 0) :
    NoneGrows bs need ↔ ∀ b ∈ bs, b.Full := by
  induction bs generalizing need with
  | nil => simp [NoneGrows, Drained, drain]
  | cons b bs ih =>
      rw [noneGrows_cons hneed.ne, List.forall_mem_cons]
      have hfull : b.clamp (b.amount - need) ≤ b.amount ↔ b.Full := by
        unfold clamp Full
        grind
      rw [hfull]
      refine and_congr_right fun hb => ih ?_
      have hle := hfull.mpr hb
      grind

/-- Full stores take nothing in. -/
theorem drain_of_full {bs : List (Store α)} {need : α} (hneed : need < 0)
    (h : ∀ b ∈ bs, b.Full) : (drain bs need).2 < 0 := by
  induction bs generalizing need with
  | nil => exact hneed
  | cons b bs ih =>
      obtain ⟨hfloor, hceil⟩ := h b List.mem_cons_self
      rw [drain_cons hneed.ne]
      refine ih ?_ fun c hc => h c (List.mem_cons_of_mem b hc)
      unfold clamp
      grind

/-- Behind a store that gives all it has, the others are asked for the rest. -/
theorem allGive_cons {b : Store α} {bs : List (Store α)} {need : α}
    (hb : b.floor ≤ b.amount) (hless : b.slack ≤ need) :
    AllGive (b :: bs) need ↔ AllGive bs (need - b.slack) := by
  constructor
  · intro h pre c post heq hpre hsum
    have hc := h (b :: pre) c post (by rw [heq]; rfl) ?_ ?_
    · rwa [List.map_cons, List.sum_cons, ← sub_sub] at hc
    · intro d hd
      rcases List.mem_cons.mp hd with rfl | hd
      · exact hb
      · exact hpre d hd
    · rw [List.map_cons, List.sum_cons]
      grind
  · intro h pre c post heq hpre hsum
    cases pre with
    | nil =>
        obtain ⟨rfl, rfl⟩ := List.cons_eq_cons.mp heq
        refine ⟨hb, fun hlt => ?_⟩
        simp only [List.map_nil, List.sum_nil, sub_zero] at hlt
        exact absurd hlt (not_lt.mpr hless)
    | cons d pre =>
        obtain ⟨rfl, rfl⟩ := List.cons_eq_cons.mp heq
        rw [List.map_cons, List.sum_cons] at hsum ⊢
        rw [← sub_sub]
        exact h pre c post rfl (fun e he => hpre e (List.mem_cons_of_mem b he)) (by grind)

/-- **No store grows exactly if every store that is asked gives.** -/
theorem noneGrows_iff {bs : List (Store α)} {need : α} (hneed : 0 < need) :
    NoneGrows bs need ↔ AllGive bs need := by
  induction bs generalizing need with
  | nil =>
      refine iff_of_true List.Forall₂.nil fun pre b post heq => ?_
      exact absurd heq.symm (List.append_ne_nil_of_right_ne_nil _ (List.cons_ne_nil b post))
  | cons b bs ih =>
      rw [noneGrows_cons hneed.ne']
      by_cases hfloor : b.floor ≤ b.amount
      · have hle : b.clamp (b.amount - need) ≤ b.amount := by
          unfold clamp
          grind
        rw [and_iff_right hle]
        rcases lt_trichotomy b.slack need with hlt | heq | hgt
        · -- it gives all it has, and the rest is still needed
          have hgive : b.clamp (b.amount - need) = b.floor := by
            unfold clamp
            unfold slack at hlt
            grind
          rw [hgive, allGive_cons hfloor hlt.le, ← ih (sub_pos.mpr hlt)]
          rfl
        · -- it gives all it has, and that is enough
          have hgive : b.clamp (b.amount - need) = b.floor := by
            unfold clamp
            unfold slack at heq
            grind
          have hrest : need - (b.amount - b.floor) = 0 := by
            unfold slack at heq
            grind
          rw [hgive, hrest]
          refine iff_of_true (noneGrows_zero bs) ?_
          rw [allGive_cons hfloor heq.le, heq, sub_self]
          intro pre c post _ hpre hsum
          refine absurd hsum (not_lt.mpr (List.sum_nonneg fun x hx => ?_))
          obtain ⟨d, hd, rfl⟩ := List.mem_map.mp hx
          exact sub_nonneg.mpr (hpre d hd)
        · -- it has more than is needed; its upper bound may make it give too much
          have hbefore : AllGive (b :: bs) need ↔ b.Gives need bs := by
            refine ⟨fun h => h.head hneed, fun h pre c post heq hpre hsum => ?_⟩
            cases pre with
            | nil =>
                obtain ⟨rfl, rfl⟩ := List.cons_eq_cons.mp heq
                simpa using h
            | cons d pre =>
                obtain ⟨rfl, rfl⟩ := List.cons_eq_cons.mp heq
                have hrest : 0 ≤ (pre.map slack).sum := List.sum_nonneg fun x hx => by
                  obtain ⟨e, he, rfl⟩ := List.mem_map.mp hx
                  exact sub_nonneg.mpr (hpre e (List.mem_cons_of_mem b he))
                rw [List.map_cons, List.sum_cons] at hsum
                grind
          rw [hbefore]
          by_cases hceil : need < b.amount - b.ceil
          · have hneg : need - (b.amount - b.clamp (b.amount - need)) < 0 := by
              unfold clamp
              unfold slack at hgt
              grind
            rw [noneGrows_of_neg hneg]
            exact ⟨fun h => ⟨hfloor, fun _ _ => h⟩, fun h => h.2 hgt hceil⟩
          · have hexact : need - (b.amount - b.clamp (b.amount - need)) = 0 := by
              unfold clamp
              unfold slack at hgt
              grind
            rw [hexact]
            exact iff_of_true (noneGrows_zero bs) ⟨hfloor, fun _ h => absurd h hceil⟩
      · -- below its floor it is raised
        refine iff_of_false (fun h => hfloor ?_) fun h => hfloor (h.head hneed).1
        exact (le_max_left _ _).trans h.1

/-! ## What is left when no store grows -/

theorem coveredBy_cons {b : Store α} {bs : List (Store α)} {need : α} (hneed : 0 < need) :
    CoveredBy (b :: bs) need ↔ CoveredBy bs (need - b.slack) := by
  constructor
  · rintro ⟨p, hp, hsum⟩
    cases p with
    | nil => exact absurd hsum (not_le.mpr hneed)
    | cons c p =>
        obtain ⟨rfl, hp'⟩ := List.cons_prefix_cons.mp hp
        rw [List.map_cons, List.sum_cons] at hsum
        exact ⟨p, hp', by grind⟩
  · rintro ⟨p, hp, hsum⟩
    refine ⟨b :: p, List.cons_prefix_cons.mpr ⟨rfl, hp⟩, ?_⟩
    rw [List.map_cons, List.sum_cons]
    grind

/-- When no store grows, nothing is needed any more once stores at the front had enough; else all
have given what they had. -/
theorem drain_need_of_noneGrows {bs : List (Store α)} {need : α} (hneed : 0 < need)
    (h : NoneGrows bs need) :
    (CoveredBy bs need → (drain bs need).2 ≤ 0) ∧
      (¬ CoveredBy bs need → (drain bs need).2 = need - (bs.map slack).sum) := by
  induction bs generalizing need with
  | nil =>
      refine ⟨?_, fun _ => by simp [drain]⟩
      rintro ⟨p, hp, hsum⟩
      rw [List.prefix_nil.mp hp] at hsum
      exact absurd hsum (not_le.mpr hneed)
  | cons b bs ih =>
      obtain ⟨hle, hrest⟩ := (noneGrows_cons hneed.ne' b bs).mp h
      have hfloor : b.floor ≤ b.amount := (le_max_left _ _).trans hle
      rw [coveredBy_cons hneed, drain_cons hneed.ne', List.map_cons, List.sum_cons]
      by_cases hless : b.slack < need
      · -- all it has is not enough
        have hgive : b.clamp (b.amount - need) = b.floor := by
          unfold clamp
          unfold slack at hless
          grind
        rw [hgive] at hrest ⊢
        have htail := ih (sub_pos.mpr hless) hrest
        exact ⟨htail.1, fun hno => (htail.2 hno).trans (sub_sub _ _ _)⟩
      · have hcovered : CoveredBy bs (need - b.slack) :=
          ⟨[], List.nil_prefix, by simpa using not_lt.mp hless⟩
        refine ⟨fun _ => ?_, fun hno => absurd hcovered hno⟩
        have hleft : need - (b.amount - b.clamp (b.amount - need)) ≤ 0 := by
          unfold clamp
          unfold slack at hless
          grind
        rcases hleft.eq_or_lt with hzero | hneg
        · rw [hzero, drain_zero]
        · exact (drain_of_full hneg ((noneGrows_of_neg hneg).mp hrest)).le

/-! ## Stores that are read from a state and written back -/

section State

variable {α σ κ : Type*} [AddCommGroup α] [LinearOrder α]

/-- The loop over stores that a state holds under keys. -/
def drainEach (stores : σ → κ → Store α) (write : σ → κ → α → σ) : List κ → σ → α → σ × α
  | [], s, need => (s, need)
  | k :: ks, s, need =>
      if need = 0 then (s, need)
      else
        let b := stores s k
        let new := b.clamp (b.amount - need)
        drainEach stores write ks (write s k new) (need - (b.amount - new))

/-- Writing an amount changes this amount and nothing else of any store. -/
structure WritesAmount (stores : σ → κ → Store α) (write : σ → κ → α → σ) : Prop where
  self : ∀ s k x, stores (write s k x) k = { stores s k with amount := x }
  other : ∀ s k x j, j ≠ k → stores (write s k x) j = stores s j

variable {stores : σ → κ → Store α} {write : σ → κ → α → σ}

/-- The other stores are left alone. -/
theorem drainEach_other (hw : WritesAmount stores write) {k : κ} {ks : List κ} (hk : k ∉ ks)
    (s : σ) (need : α) : stores (drainEach stores write ks s need).1 k = stores s k := by
  induction ks generalizing s need with
  | nil => rfl
  | cons j ks ih =>
      rw [drainEach]
      dsimp only
      split
      · rfl
      · rw [ih (fun hmem => hk (List.mem_cons_of_mem j hmem))]
        exact hw.other _ _ _ _ fun heq => hk (heq ▸ List.mem_cons_self)

/-- **The loop over a state computes what the loop over its stores computes.** -/
theorem drainEach_eq (hw : WritesAmount stores write) {ks : List κ} (hks : ks.Nodup) (s : σ)
    (need : α) :
    (drainEach stores write ks s need).2 = (drain (ks.map (stores s)) need).2 ∧
      ks.map (fun k => (stores (drainEach stores write ks s need).1 k).amount) =
        (drain (ks.map (stores s)) need).1 := by
  induction ks generalizing s need with
  | nil => exact ⟨rfl, rfl⟩
  | cons k ks ih =>
      obtain ⟨hk, hks'⟩ := List.nodup_cons.mp hks
      by_cases h : need = 0
      · subst h
        rw [drainEach, if_pos rfl, drain_zero, List.map_map]
        exact ⟨rfl, rfl⟩
      · rw [drainEach, if_neg h, List.map_cons (f := stores s), drain_cons h]
        dsimp only
        have hrest := ih hks' (write s k ((stores s k).clamp ((stores s k).amount - need)))
          (need - ((stores s k).amount - (stores s k).clamp ((stores s k).amount - need)))
        have hsame : ks.map (stores (write s k ((stores s k).clamp ((stores s k).amount - need)))) =
            ks.map (stores s) :=
          List.map_congr_left fun j hj => hw.other s k _ j fun heq => hk (heq ▸ hj)
        rw [hsame] at hrest
        refine ⟨hrest.1, ?_⟩
        rw [List.map_cons, hrest.2, drainEach_other hw hk, hw.self]

/-- What the stores of a list give is what the need goes down by, whatever else is in the list. -/
theorem sum_drainEach (hw : WritesAmount stores write) {ks rest l : List κ} (hks : ks.Nodup)
    (hrest : ∀ k ∈ rest, k ∉ ks) (hl : l.Perm (ks ++ rest)) (s : σ) (need : α) :
    (l.map fun k => (stores (drainEach stores write ks s need).1 k).amount).sum + need =
      (l.map fun k => (stores s k).amount).sum + (drainEach stores write ks s need).2 := by
  have hsame : rest.map (fun k => (stores (drainEach stores write ks s need).1 k).amount) =
      rest.map fun k => (stores s k).amount :=
    List.map_congr_left fun k hk => by rw [drainEach_other hw (hrest k hk)]
  obtain ⟨hneed, hamounts⟩ := drainEach_eq hw hks s need
  have hsum := sum_drain (ks.map (stores s)) need
  rw [List.map_map] at hsum
  rw [(hl.map _).sum_eq, (hl.map fun k => (stores s k).amount).sum_eq, List.map_append,
    List.map_append, List.sum_append, List.sum_append, hsame, hamounts, hneed, add_right_comm, hsum]
  exact add_right_comm _ _ _

/-- The bounds of all stores stay. -/
theorem drainEach_bounds (hw : WritesAmount stores write) (ks : List κ) (s : σ) (need : α) (k : κ) :
    (stores (drainEach stores write ks s need).1 k).floor = (stores s k).floor ∧
      (stores (drainEach stores write ks s need).1 k).ceil = (stores s k).ceil := by
  induction ks generalizing s need with
  | nil => exact ⟨rfl, rfl⟩
  | cons j ks ih =>
      rw [drainEach]
      dsimp only
      split
      · exact ⟨rfl, rfl⟩
      · have hstep : ∀ x, (stores (write s j x) k).floor = (stores s k).floor ∧
            (stores (write s j x) k).ceil = (stores s k).ceil := by
          intro x
          by_cases hkj : k = j
          · subst hkj
            rw [hw.self]
            exact ⟨rfl, rfl⟩
          · rw [hw.other s j x k hkj]
            exact ⟨rfl, rfl⟩
        exact ⟨(ih _ _).1.trans (hstep _).1, (ih _ _).2.trans (hstep _).2⟩

/-- Stores within their bounds stay there, the ones that are asked and the others. -/
theorem drainEach_bounded (hw : WritesAmount stores write) (ks : List κ) {s : σ} (need : α) {k : κ}
    (hk : (stores s k).Bounded) : (stores (drainEach stores write ks s need).1 k).Bounded := by
  induction ks generalizing s need with
  | nil => exact hk
  | cons j ks ih =>
      rw [drainEach]
      dsimp only
      split
      · exact hk
      · refine ih _ ?_
        by_cases hkj : k = j
        · subst hkj
          rw [hw.self]
          exact (stores s k).clamp_clamp _
        · rw [hw.other s j _ k hkj]
          exact hk

end State

end Swirl.Lib

import Mathlib.Algebra.BigOperators.Group.Finset.Basic
import Swirl.Lib.Drain

set_option autoImplicit false

/-! # Stores that are asked in order

A drain asks one store after the other. It is greedy: a store gives or takes something only if
those before it can do no more. The rules hold for any list of keys, also one in which a key is
repeated, of stores within their bounds.
-/

namespace Swirl.Lib

open Store

variable {α : Type*} [AddCommGroup α] [LinearOrder α]

/-- A need becomes another one that is between it and zero. -/
def Shrinks (need need' : α) : Prop :=
  (0 ≤ need → 0 ≤ need' ∧ need' ≤ need) ∧ (need ≤ 0 → need ≤ need' ∧ need' ≤ 0)

namespace Shrinks

variable {a b c : α}

theorem refl (a : α) : Shrinks a a := ⟨fun h => ⟨h, le_rfl⟩, fun h => ⟨le_rfl, h⟩⟩

theorem trans (h : Shrinks a b) (h' : Shrinks b c) : Shrinks a c := by
  constructor
  · intro ha
    obtain ⟨hb, hba⟩ := h.1 ha
    obtain ⟨hc, hcb⟩ := h'.1 hb
    exact ⟨hc, hcb.trans hba⟩
  · intro ha
    obtain ⟨hab, hb⟩ := h.2 ha
    obtain ⟨hbc, hc⟩ := h'.2 hb
    exact ⟨hab.trans hbc, hc⟩

end Shrinks

/-- The store can do no more about a need: it is at its floor when something is taken, and at its
upper bound when something is put in. -/
def Store.Spent (b : Store α) (need : α) : Prop :=
  (0 < need → b.amount = b.floor) ∧ (need < 0 → b.amount = max b.floor b.ceil)

theorem Store.Spent.shrinks {b : Store α} {need need' : α} (h : b.Spent need')
    (hs : Shrinks need need') (hne : need' ≠ 0) : b.Spent need := by
  constructor
  · intro hpos
    exact h.1 (lt_of_le_of_ne (hs.1 hpos.le).1 hne.symm)
  · intro hneg
    exact h.2 (lt_of_le_of_ne (hs.2 hneg.le).2 hne)

theorem Store.Spent.of_shrinks {b : Store α} {need need' : α} (h : b.Spent need)
    (hs : Shrinks need need') : b.Spent need' := by
  constructor
  · intro hpos
    refine h.1 (lt_of_not_ge fun hle => ?_)
    exact absurd (hs.2 hle).2 (not_le.2 hpos)
  · intro hneg
    refine h.2 (lt_of_not_ge fun hle => ?_)
    exact absurd (hs.1 hle).1 (not_le.2 hneg)

section Turn

variable [IsOrderedAddMonoid α] {b : Store α} {need : α} (h : b.Bounded)
include h

/-- A store takes over some of the need, and no more than all of it. -/
theorem Store.Bounded.shrinks (need : α) :
    Shrinks need (need - (b.amount - b.clamp (b.amount - need))) := by
  unfold Bounded clamp at h
  unfold Shrinks clamp
  constructor <;> intro hneed <;> constructor <;> grind

/-- If something is left, the store can do no more. -/
theorem Store.Bounded.spent (hleft : need - (b.amount - b.clamp (b.amount - need)) ≠ 0) :
    ({ b with amount := b.clamp (b.amount - need) } : Store α).Spent need := by
  unfold Bounded clamp at h
  unfold clamp at hleft
  unfold Spent clamp
  constructor <;> intro hneed <;> grind

/-- A store that can do no more stays as it is. -/
theorem Store.Spent.stays (hs : b.Spent need) (hne : need ≠ 0) :
    b.clamp (b.amount - need) = b.amount := by
  obtain ⟨htake, hput⟩ := hs
  unfold Bounded clamp at h
  unfold clamp
  rcases lt_or_gt_of_ne hne with hneg | hpos
  · have hfull := hput hneg
    grind
  · have hempty := htake hpos
    grind

end Turn

/-! ## The loop over a state -/

section State

variable {σ κ : Type*} {stores : σ → κ → Store α} {write : σ → κ → α → σ}

theorem drainEach_zero (ks : List κ) (s : σ) : drainEach stores write ks s 0 = (s, 0) := by
  cases ks with
  | nil => rfl
  | cons k ks => rw [drainEach, if_pos rfl]

theorem drainEach_cons {need : α} (hneed : need ≠ 0) (k : κ) (ks : List κ) (s : σ) :
    drainEach stores write (k :: ks) s need =
      drainEach stores write ks
        (write s k ((stores s k).clamp ((stores s k).amount - need)))
        (need - ((stores s k).amount - (stores s k).clamp ((stores s k).amount - need))) := by
  rw [drainEach, if_neg hneed]

theorem drainEach_append (pre post : List κ) (s : σ) (need : α) :
    drainEach stores write (pre ++ post) s need =
      drainEach stores write post (drainEach stores write pre s need).1
        (drainEach stores write pre s need).2 := by
  induction pre generalizing s need with
  | nil => rfl
  | cons k pre ih =>
      by_cases hneed : need = 0
      · subst hneed
        rw [drainEach_zero, drainEach_zero, drainEach_zero]
      · rw [List.cons_append, drainEach_cons hneed, drainEach_cons hneed, ih]

variable [IsOrderedAddMonoid α] (hw : WritesAmount stores write)
include hw

omit [AddCommGroup α] [IsOrderedAddMonoid α] in
/-- One turn leaves every store within its bounds. -/
theorem bounded_turn {s : σ} {j k : κ} (h : (stores s j).Bounded) (x : α) :
    (stores (write s k ((stores s k).clamp x)) j).Bounded := by
  by_cases hjk : j = k
  · subst hjk
    rw [hw.self]
    exact (stores s j).clamp_clamp x
  · rw [hw.other s k _ j hjk]
    exact h

/-- **The need is not exceeded.** -/
theorem drainEach_shrinks {ks : List κ} {s : σ} (hb : ∀ k ∈ ks, (stores s k).Bounded) (need : α) :
    Shrinks need (drainEach stores write ks s need).2 := by
  induction ks generalizing s need with
  | nil => exact Shrinks.refl need
  | cons k ks ih =>
      by_cases hneed : need = 0
      · subst hneed
        rw [drainEach_zero]
        exact Shrinks.refl 0
      · rw [drainEach_cons hneed]
        refine ((hb k List.mem_cons_self).shrinks need).trans (ih (fun j hj => ?_) _)
        exact bounded_turn hw (hb j (List.mem_cons_of_mem k hj)) _

/-- A store that can do no more stays as it is, also when it is asked again. -/
theorem drainEach_stays {ks : List κ} {s : σ} (hb : ∀ k ∈ ks, (stores s k).Bounded) {need : α}
    {j : κ} (hj : (stores s j).Spent need) :
    stores (drainEach stores write ks s need).1 j = stores s j := by
  induction ks generalizing s need with
  | nil => rfl
  | cons k ks ih =>
      by_cases hneed : need = 0
      · subst hneed
        rw [drainEach_zero]
      · have hk := hb k List.mem_cons_self
        -- asked again, the store is written with what it has
        have hsame : stores (write s k ((stores s k).clamp ((stores s k).amount - need))) j =
            stores s j := by
          by_cases hjk : j = k
          · subst hjk
            rw [hj.stays hk hneed, hw.self]
          · exact hw.other s k _ j hjk
        rw [drainEach_cons hneed, ← hsame]
        refine ih (fun i hi => bounded_turn hw (hb i (List.mem_cons_of_mem k hi)) _) ?_
        rw [hsame]
        exact hj.of_shrinks (hk.shrinks need)

/-- **If something is left, all stores have done what they can.** -/
theorem drainEach_spent {ks : List κ} {s : σ} (hb : ∀ k ∈ ks, (stores s k).Bounded) {need : α}
    (hleft : (drainEach stores write ks s need).2 ≠ 0) {j : κ} (hj : j ∈ ks) :
    (stores (drainEach stores write ks s need).1 j).Spent need := by
  induction ks generalizing s need with
  | nil => exact absurd hj List.not_mem_nil
  | cons k ks ih =>
      have hneed : need ≠ 0 := by
        rintro rfl
        rw [drainEach_zero] at hleft
        exact hleft rfl
      have hk := hb k List.mem_cons_self
      have hrest : ∀ i ∈ ks,
          (stores (write s k ((stores s k).clamp ((stores s k).amount - need))) i).Bounded :=
        fun i hi => bounded_turn hw (hb i (List.mem_cons_of_mem k hi)) _
      have hshrinks := hk.shrinks need
      rw [drainEach_cons hneed] at hleft ⊢
      have hnext : need - ((stores s k).amount - (stores s k).clamp ((stores s k).amount - need)) ≠
          0 := by
        intro hzero
        rw [hzero, drainEach_zero] at hleft
        exact hleft rfl
      rcases List.mem_cons.1 hj with rfl | hj
      · -- the first store can do no more, and stays so
        have hspent := hk.spent hnext
        rw [← hw.self] at hspent
        rw [drainEach_stays hw hrest (hspent.of_shrinks hshrinks)]
        exact hspent
      · exact (ih hrest hleft hj).shrinks hshrinks hnext

/-- **The order is kept**: a store changes only if those before it have done what they can. -/
theorem drainEach_greedy {pre post : List κ} {k : κ} (hk : k ∉ pre) {s : σ}
    (hb : ∀ j ∈ pre ++ k :: post, (stores s j).Bounded) {need : α}
    (hchanged : (stores (drainEach stores write (pre ++ k :: post) s need).1 k).amount ≠
      (stores s k).amount) {j : κ} (hj : j ∈ pre) :
    (stores (drainEach stores write (pre ++ k :: post) s need).1 j).Spent need := by
  have hpre : ∀ i ∈ pre, (stores s i).Bounded := fun i hi => hb i (List.mem_append_left _ hi)
  have hpost : ∀ i ∈ k :: post,
      (stores (drainEach stores write pre s need).1 i).Bounded :=
    fun i hi => drainEach_bounded hw pre need (hb i (List.mem_append_right _ hi))
  rw [drainEach_append] at hchanged ⊢
  -- had the stores before it met the need, the store would not have been asked
  have hleft : (drainEach stores write pre s need).2 ≠ 0 := by
    intro hzero
    rw [hzero, drainEach_zero, drainEach_other hw hk] at hchanged
    exact hchanged rfl
  have hspent := drainEach_spent hw hpre hleft hj
  have hshrinks := drainEach_shrinks hw hpre need
  rw [drainEach_stays hw hpost (hspent.of_shrinks hshrinks)]
  exact hspent

/-! ## The sum -/

variable [DecidableEq κ]

omit [LinearOrder α] [IsOrderedAddMonoid α] in
/-- A write changes one summand. -/
theorem sum_write {S : Finset κ} {k : κ} (hk : k ∈ S) (s : σ) (x : α) :
    ∑ j ∈ S, (stores (write s k x) j).amount + (stores s k).amount =
      ∑ j ∈ S, (stores s j).amount + x := by
  have hsame : ∑ j ∈ S.erase k, (stores (write s k x) j).amount =
      ∑ j ∈ S.erase k, (stores s j).amount :=
    Finset.sum_congr rfl fun j hj => by rw [hw.other s k x j (Finset.ne_of_mem_erase hj)]
  rw [← Finset.add_sum_erase S (fun j => (stores (write s k x) j).amount) hk,
    ← Finset.add_sum_erase S (fun j => (stores s j).amount) hk, hsame, hw.self]
  abel

/-- **What the stores give is what the need goes down by**, however often they are asked. -/
theorem sum_drainEach_finset {S : Finset κ} {ks : List κ} (hks : ∀ k ∈ ks, k ∈ S) (s : σ)
    (need : α) :
    ∑ k ∈ S, (stores (drainEach stores write ks s need).1 k).amount + need =
      ∑ k ∈ S, (stores s k).amount + (drainEach stores write ks s need).2 := by
  induction ks generalizing s need with
  | nil => rfl
  | cons k ks ih =>
      by_cases hneed : need = 0
      · subst hneed
        rw [drainEach_zero]
      · have hrest := ih (fun j hj => hks j (List.mem_cons_of_mem k hj))
          (write s k ((stores s k).clamp ((stores s k).amount - need)))
          (need - ((stores s k).amount - (stores s k).clamp ((stores s k).amount - need)))
        have hwrite := sum_write hw (hks k List.mem_cons_self) s
          ((stores s k).clamp ((stores s k).amount - need))
        rw [drainEach_cons hneed]
        grind

end State

end Swirl.Lib

import Swirl.Lib.Greedy
import Swirl.Tree.FitColumn

set_option autoImplicit false

/-! # The farthest candidates absorb first

`viewport_absorb_farthest` marks the candidate it has picked in the list it searches, so it picks
every candidate once, and never one before another that is farther from the focus. Together with the
rules of a drain this gives what the widths come to, for any list of candidates.
-/

namespace Swirl

open Lib

/-! ## The order of the picks -/

/-- How far a position is from the focus. -/
def focusDistance (focusIdx i : Int) : Int := (i - focusIdx).natAbs

/-- What the search has found is as far as anything it has seen, and is one of the candidates it has
seen, if it is not what it began with. -/
theorem search_distance (focusIdx : Int) (l : List Int) (k : Nat) (best : Int × Int) :
    let found := (l.zipIdx k).foldl (fartherCandidate focusIdx) best
    best.2 ≤ found.2 ∧ (∀ r ∈ l, 0 ≤ r → focusDistance focusIdx r ≤ found.2) ∧
      (found = best ∨ ∃ (j : Nat) (r : Int), l[j]? = some r ∧
        found = (((k + j : Nat) : Int), focusDistance focusIdx r)) := by
  induction l generalizing k best with
  | nil => exact ⟨le_rfl, fun r hr => absurd hr List.not_mem_nil, Or.inl rfl⟩
  | cons a l ih =>
      rw [List.zipIdx_cons, List.foldl_cons]
      obtain ⟨hle, hall, hfound⟩ := ih (k + 1) (fartherCandidate focusIdx best (a, k))
      have hhere : best.2 ≤ (fartherCandidate focusIdx best (a, k)).2 ∧
          (0 ≤ a → focusDistance focusIdx a ≤ (fartherCandidate focusIdx best (a, k)).2) ∧
          (fartherCandidate focusIdx best (a, k) = best ∨
            fartherCandidate focusIdx best (a, k) = ((k : Int), focusDistance focusIdx a)) := by
        unfold fartherCandidate focusDistance
        dsimp only
        split
        next hneg => exact ⟨le_rfl, fun ha => absurd hneg (not_lt.2 ha), Or.inl rfl⟩
        next =>
          split
          next hfar => exact ⟨by omega, fun _ => le_rfl, Or.inr rfl⟩
          next hnear => exact ⟨le_rfl, fun _ => by omega, Or.inl rfl⟩
      refine ⟨hhere.1.trans hle, fun r hr hnonneg => ?_, ?_⟩
      · rcases List.mem_cons.1 hr with rfl | hr
        · exact (hhere.2.1 hnonneg).trans hle
        · exact hall r hr hnonneg
      · rcases hfound with hsame | ⟨j, r, hj, heq⟩
        · rw [hsame]
          rcases hhere.2.2 with hbest | hnew
          · exact Or.inl hbest
          · exact Or.inr ⟨0, a, rfl, hnew⟩
        · refine Or.inr ⟨j + 1, r, hj, heq.trans ?_⟩
          rw [Nat.add_right_comm, Nat.add_assoc]

/-- **The search finds a candidate that is as far from the focus as any.** -/
theorem farthestCandidate_farthest {candidates : List Int} {focusIdx r : Int} {i : Nat}
    (hfound : farthestCandidate candidates focusIdx = i) (hr : candidates[i]? = some r) :
    ∀ a ∈ candidates, 0 ≤ a → focusDistance focusIdx a ≤ focusDistance focusIdx r := by
  obtain ⟨-, hall, hcases⟩ := search_distance focusIdx candidates 0 (-1, -1)
  rw [farthestCandidate_eq] at hfound
  rcases hcases with hnone | ⟨j, a, hj, heq⟩
  · -- it began with no candidate, which is not what it has found
    rw [hnone] at hfound
    omega
  · rw [heq] at hfound hall
    have hij : j = i := by
      dsimp only at hfound
      omega
    rw [← hij, hj] at hr
    obtain rfl := Option.some.inj hr
    exact hall

/-- **Nothing is picked before something that is farther.** -/
theorem pickOrder_sorted (focusIdx : Int) {n : Nat} {candidates : List Int}
    (hn : (unused candidates).length ≤ n) :
    (pickOrder focusIdx n candidates).Pairwise fun a b =>
      focusDistance focusIdx b ≤ focusDistance focusIdx a := by
  induction n generalizing candidates with
  | zero => exact List.Pairwise.nil
  | succ n ih =>
      rw [pickOrder]
      rcases farthestCandidate_cases candidates focusIdx with ⟨hneg, -⟩ | ⟨i, r, hi, hr, hnonneg⟩
      · rw [if_pos hneg]
        exact List.Pairwise.nil
      · have hget : candidates.getD i 0 = r := by
          rw [List.getD_eq_getElem?_getD, hr]
          rfl
        have hperm := unused_set hr hnonneg
        have hlen := hperm.length_eq
        rw [List.length_cons] at hlen
        have hn' : (unused (candidates.set i (-1))).length ≤ n := by omega
        rw [if_neg (by omega), hi, Int.toNat_natCast, hget]
        refine List.pairwise_cons.2 ⟨fun a ha => ?_, ih hn'⟩
        -- what is picked later is still unused
        have hunused : a ∈ unused candidates :=
          hperm.mem_iff.2 (List.mem_cons_of_mem r ((pickOrder_perm focusIdx hn').mem_iff.1 ha))
        obtain ⟨hmem, hpos⟩ := List.mem_filter.1 hunused
        exact farthestCandidate_farthest hi hr a hmem (of_decide_eq_true hpos)

theorem mem_columnsAt {cols : List ConId} {positions : List Int} {c : ConId} :
    c ∈ columnsAt cols positions ↔ ∃ i ∈ positions, cols[i.toNat]? = some c :=
  List.mem_filterMap

/-- The picks up to a column, with every column that is farther among them. -/
theorem exists_pick (focusIdx : Int) {n : Nat} {candidates : List Int}
    (hn : (unused candidates).length ≤ n) {cols : List ConId} (hnodup : cols.Nodup) {i : Int}
    (hi : i ∈ unused candidates) {c : ConId} (hc : cols[i.toNat]? = some c) :
    ∃ pre post, columnsAt cols (pickOrder focusIdx n candidates) = pre ++ c :: post ∧ c ∉ pre ∧
      ∀ (j : Int) (d : ConId), j ∈ unused candidates → cols[j.toNat]? = some d →
        focusDistance focusIdx i < focusDistance focusIdx j → d ∈ pre := by
  have hperm := pickOrder_perm focusIdx hn
  have hsorted := pickOrder_sorted focusIdx hn
  obtain ⟨before, after, hsplit, hfirst⟩ := List.eq_append_cons_of_mem (hperm.mem_iff.2 hi)
  have hnonneg : ∀ {j}, j ∈ unused candidates → 0 ≤ j := fun hj =>
    of_decide_eq_true (List.mem_filter.1 hj).2
  rw [hsplit] at hperm hsorted ⊢
  refine ⟨columnsAt cols before, columnsAt cols after, ?_, fun hmem => ?_, fun j d hj hd hlt => ?_⟩
  · have hcons : columnsAt cols (i :: after) = c :: columnsAt cols after :=
      List.filterMap_cons_some hc
    rw [← hcons]
    exact List.filterMap_append
  · -- the column is in no other position
    obtain ⟨j, hj, hcol⟩ := mem_columnsAt.1 hmem
    have hjun : 0 ≤ j := hnonneg (hperm.mem_iff.1 (List.mem_append_left _ hj))
    have hiun : 0 ≤ i := hnonneg hi
    have hlt := (List.getElem?_eq_some_iff.1 hc).1
    have heq := (List.getElem?_inj hlt hnodup).1 (hc.trans hcol.symm)
    have hij : i = j := by omega
    exact hfirst (hij ▸ hj)
  · refine mem_columnsAt.2 ⟨j, ?_, hd⟩
    obtain ⟨-, hrest, -⟩ := List.pairwise_append.1 hsorted
    rcases List.mem_append.1 (hperm.mem_iff.2 hj) with hbefore | hbehind
    · exact hbefore
    · rcases List.mem_cons.1 hbehind with rfl | hafter
      · exact absurd hlt (lt_irrefl _)
      · exact absurd (List.rel_of_pairwise_cons hrest hafter) (not_le.2 hlt)

/-! ## What the widths come to -/

/-- The columns of the candidates that are not used up. -/
def candidateColumns (s : State) (w : WsId) (candidates : List Int) : List ConId :=
  columnsAt (s.tree.ws w).tiling (unused candidates)

/-- The least and the greatest width that the clamp of a column allows. -/
def leastWidth (s : State) (c : ConId) : ℚ := containerClampTiledWidthMin s c

def greatestWidth (s : State) (w : WsId) (c : ConId) : ℚ :=
  let available : ℚ := (s.wsGeo w).width
  let cap := (containerGetSizeConstraints s c).maxWidth
  max (leastWidth s c) (min available (if cap ≠ dblMax then cap else available))

/-- The sum of the widths of some columns, each taken once. -/
def widthSum (s : State) (cols : List ConId) : ℚ := ∑ c ∈ cols.toFinset, (s.geo c).width

/-- The columns of some candidates have absorbed a part of an amount, the farthest first: the sum
of their widths goes down by what the amount goes down by, the amount does not change its sign, the
widths are ones that the clamps allow, and where a column has changed, every candidate strictly
farther from the focus is at its bound. -/
structure AbsorbsFarthestFirst (w : WsId) (focusIdx : Int) (candidates : List Int) (s : State)
    (remaining : ℚ) (s' : State) (remaining' : ℚ) : Prop where
  conserves : widthSum s (candidateColumns s w candidates) -
    widthSum s' (candidateColumns s w candidates) = remaining - remaining'
  nonneg : 0 ≤ remaining → 0 ≤ remaining' ∧ remaining' ≤ remaining
  nonpos : remaining ≤ 0 → remaining ≤ remaining' ∧ remaining' ≤ 0
  bounded : WidthsBounded s' w (candidateColumns s w candidates)
  others : ∀ c, c ∉ candidateColumns s w candidates → (s'.geo c).width = (s.geo c).width
  farthestFirst : ∀ i ∈ unused candidates, ∀ j ∈ unused candidates, ∀ c d : ConId,
    (s.tree.ws w).tiling[i.toNat]? = some c → (s.tree.ws w).tiling[j.toNat]? = some d →
    focusDistance focusIdx i < focusDistance focusIdx j → (s'.geo c).width ≠ (s.geo c).width →
    (0 < remaining → (s'.geo d).width = leastWidth s d) ∧
      (remaining < 0 → (s'.geo d).width = greatestWidth s w d)

/-- **The farthest candidates absorb first.** -/
theorem absorbFarthest_farthestFirst {s : State} {w : WsId} (focusIdx : Int)
    {candidates : List Int} (hin : ∀ i ∈ candidates, i < (s.tree.ws w).tiling.length)
    (hnodup : (s.tree.ws w).tiling.Nodup)
    (hb : WidthsBounded s w (candidateColumns s w candidates)) (remaining : ℚ) :
    AbsorbsFarthestFirst w focusIdx candidates s remaining
      (absorbFarthest w focusIdx candidates.length candidates s remaining).1
      (absorbFarthest w focusIdx candidates.length candidates s remaining).2 := by
  have hrounds : (unused candidates).length ≤ candidates.length := List.length_filter_le _ _
  have hw := writesAmount_width w
  set cols := (s.tree.ws w).tiling with hcols
  set order := columnsAt cols (pickOrder focusIdx candidates.length candidates) with horder
  -- which columns are picked, and in which order, is known before any width changes
  have hperm : order.Perm (candidateColumns s w candidates) :=
    (pickOrder_perm focusIdx hrounds).filterMap _
  have hstores : ∀ c ∈ order, (widthStore w s c).Bounded := fun c hc => hb c (hperm.mem_iff.1 hc)
  have hrange : ∀ i ∈ candidates, i.toNat < cols.length ∨ i < 0 := by
    intro i hi
    have hlt := hin i hi
    omega
  rw [absorbFarthest_eq w focusIdx candidates.length candidates s remaining hcols.symm hrange,
    ← horder]
  have hshrinks := drainEach_shrinks hw hstores remaining
  constructor
  · have hsum := sum_drainEach_finset hw
      (fun c hc => List.mem_toFinset.2 (hperm.mem_iff.1 hc)) s remaining
    unfold widthSum
    exact sub_eq_sub_iff_add_eq_add.2 (hsum.symm.trans (add_comm _ _))
  · exact hshrinks.1
  · exact hshrinks.2
  · intro c hc
    exact drainEach_bounded hw order remaining (hb c hc)
  · intro c hc
    have hout : c ∉ order := fun hmem => hc (hperm.mem_iff.1 hmem)
    exact congrArg Store.amount (drainEach_other hw hout s remaining)
  · intro i hi j hj c d hc hd hlt hchanged
    obtain ⟨pre, post, hsplit, hfirst, hfarther⟩ := exists_pick focusIdx hrounds hnodup hi hc
    rw [← horder] at hsplit
    rw [hsplit] at hstores hchanged ⊢
    have hspent := drainEach_greedy hw hfirst hstores hchanged (hfarther j d hj hd hlt)
    obtain ⟨hfloor, hceil⟩ := drainEach_bounds hw (pre ++ c :: post) s remaining d
    unfold Store.Spent at hspent
    rw [hfloor, hceil] at hspent
    exact hspent

/-- On the workspace of `pinnedRow` the focused column keeps its 60 pixels, and the other one gives
up 50 of its 100. -/
theorem absorbFarthest_farthestFirst_pinned :
    AbsorbsFarthestFirst 0 0 [0, 1] pinnedRow 50
      (absorbFarthest 0 0 2 [0, 1] pinnedRow 50).1 (absorbFarthest 0 0 2 [0, 1] pinnedRow 50).2 :=
  absorbFarthest_farthestFirst 0 (by decide) (by decide) (by decide +kernel) 50

end Swirl

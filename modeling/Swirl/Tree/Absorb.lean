import Swirl.Lib.Drain
import Swirl.Tree.Column
import Swirl.Tree.RowWidths

set_option autoImplicit false

/-! # Columns that absorb a width

`viewport_absorb_farthest` picks one candidate after the other, the farthest from the focus first,
and lets it absorb what remains. Which columns it picks does not depend on their widths, so it is
a drain of their widths in the order of `pickOrder`, and every candidate is picked once.
-/

namespace Swirl

open Lib

/-! ## The order of the picks -/

/-- The positions in the order in which `viewport_absorb_farthest` picks them. -/
def pickOrder (focusIdx : Int) : Nat → List Int → List Int
  | 0, _ => []
  | n + 1, candidates =>
      let farthest := farthestCandidate candidates focusIdx
      if farthest < 0 then []
      else
        candidates.getD farthest.toNat 0 ::
          pickOrder focusIdx n (candidates.set farthest.toNat (-1))

/-- What the search for the farthest candidate has found so far: nothing yet, or the place of a
candidate that is not used up. -/
def FoundIn (candidates : List Int) (best : Int × Int) : Prop :=
  best = (-1, -1) ∨
    ∃ (i : Nat) (r : Int), best.1 = i ∧ candidates[i]? = some r ∧ 0 ≤ r ∧ 0 ≤ best.2

/-- The body of the search loop. -/
def fartherCandidate (focusIdx : Int) (best : Int × Int) (r : Int × Nat) : Int × Int :=
  let dist : Int := (r.1 - focusIdx).natAbs
  if r.1 < 0 then best
  else if best.2 < dist ∨ (dist = best.2 ∧ best.1 < r.1) then (r.2, dist)
  else best

theorem farthestCandidate_eq (candidates : List Int) (focusIdx : Int) :
    farthestCandidate candidates focusIdx =
      (candidates.zipIdx.foldl (fartherCandidate focusIdx) (-1, -1)).1 := rfl

theorem foundIn_search {candidates : List Int} (focusIdx : Int) (l : List Int) (k : Nat)
    (hl : ∀ j, j < l.length → candidates[k + j]? = l[j]?) (best : Int × Int)
    (hbest : FoundIn candidates best) :
    FoundIn candidates ((l.zipIdx k).foldl (fartherCandidate focusIdx) best) ∧
      (((l.zipIdx k).foldl (fartherCandidate focusIdx) best).1 < 0 →
        best = (-1, -1) ∧ ∀ r ∈ l, r < 0) := by
  induction l generalizing k best with
  | nil =>
      refine ⟨hbest, fun hneg => ⟨?_, fun r hr => absurd hr List.not_mem_nil⟩⟩
      rcases hbest with h | ⟨i, r, hi, -⟩
      · exact h
      · rw [List.zipIdx_nil, List.foldl_nil, hi] at hneg
        omega
  | cons r l ih =>
      rw [List.zipIdx_cons, List.foldl_cons]
      have hhere : candidates[k]? = some r := by simpa using hl 0 (by simp)
      have hrest : ∀ j, j < l.length → candidates[k + 1 + j]? = l[j]? := by
        intro j hj
        have hnext := hl (j + 1) (by simpa using hj)
        rwa [List.getElem?_cons_succ, Nat.add_comm j 1, ← Nat.add_assoc] at hnext
      have hstep : FoundIn candidates (fartherCandidate focusIdx best (r, k)) ∧
          (fartherCandidate focusIdx best (r, k) = (-1, -1) → best = (-1, -1) ∧ r < 0) := by
        unfold fartherCandidate
        dsimp only
        split
        next hneg => exact ⟨hbest, fun h => ⟨h, hneg⟩⟩
        next hnonneg =>
          split
          next =>
            refine ⟨Or.inr ⟨k, r, rfl, hhere, by omega, by simp⟩, fun h => ?_⟩
            have := congrArg Prod.fst h
            simp only at this
            omega
          next hnear =>
            refine ⟨hbest, fun h => ?_⟩
            rw [h] at hnear
            omega
      obtain ⟨hfound, hnone⟩ := ih (k + 1) hrest _ hstep.1
      refine ⟨hfound, fun hneg => ?_⟩
      obtain ⟨hfirst, hall⟩ := hnone hneg
      obtain ⟨hb, hr⟩ := hstep.2 hfirst
      refine ⟨hb, fun x hx => ?_⟩
      rcases List.mem_cons.mp hx with rfl | hx
      · exact hr
      · exact hall x hx

/-- The search finds a candidate that is not used up, or there is none. -/
theorem farthestCandidate_cases (candidates : List Int) (focusIdx : Int) :
    (farthestCandidate candidates focusIdx < 0 ∧ ∀ r ∈ candidates, r < 0) ∨
      ∃ (i : Nat) (r : Int), farthestCandidate candidates focusIdx = i ∧
        candidates[i]? = some r ∧ 0 ≤ r := by
  have hstart : FoundIn candidates (-1, -1) := Or.inl rfl
  obtain ⟨hfound, hnone⟩ := foundIn_search focusIdx candidates 0
    (fun j _ => by rw [Nat.zero_add]) (-1, -1) hstart
  rw [← farthestCandidate_eq] at hnone
  rcases hfound with h | ⟨i, r, hi, hr, hnonneg, -⟩
  · left
    have hneg : farthestCandidate candidates focusIdx < 0 := by
      rw [farthestCandidate_eq, h]
      decide
    exact ⟨hneg, (hnone hneg).2⟩
  · right
    exact ⟨i, r, hi, hr, hnonneg⟩

/-- The candidates that are not used up. -/
def unused (candidates : List Int) : List Int := candidates.filter fun r => decide (0 ≤ r)

theorem unused_set {candidates : List Int} {i : Nat} {r : Int} (h : candidates[i]? = some r)
    (hr : 0 ≤ r) : (unused candidates).Perm (r :: unused (candidates.set i (-1))) := by
  obtain ⟨hi, rfl⟩ := List.getElem?_eq_some_iff.mp h
  have hset : candidates.set i (-1) = candidates.take i ++ (-1) :: candidates.drop (i + 1) :=
    List.set_eq_take_append_cons_drop.trans (if_pos hi)
  have hsplit : candidates = candidates.take i ++ candidates[i] :: candidates.drop (i + 1) := by
    rw [List.getElem_cons_drop, List.take_append_drop]
  unfold unused
  rw [hset, List.filter_append, List.filter_cons_of_neg (by decide)]
  conv_lhs => rw [hsplit, List.filter_append, List.filter_cons_of_pos (by simpa using hr)]
  exact List.perm_middle

/-- Every candidate is picked once, when there are rounds enough. -/
theorem pickOrder_perm (focusIdx : Int) {n : Nat} {candidates : List Int}
    (hn : (unused candidates).length ≤ n) :
    (pickOrder focusIdx n candidates).Perm (unused candidates) := by
  induction n generalizing candidates with
  | zero =>
      rw [List.eq_nil_of_length_eq_zero (Nat.le_zero.mp hn)]
      exact List.Perm.refl []
  | succ n ih =>
      rw [pickOrder]
      rcases farthestCandidate_cases candidates focusIdx with ⟨hneg, hall⟩ | ⟨i, r, hi, hr, hnonneg⟩
      · have hnil : unused candidates = [] := by
          rw [unused, List.filter_eq_nil_iff]
          intro r hr
          simpa using hall r hr
        rw [if_pos hneg, hnil]
      · have hperm := unused_set hr hnonneg
        have hlen := hperm.length_eq
        rw [List.length_cons] at hlen
        have hget : candidates.getD i 0 = r := by
          rw [List.getD_eq_getElem?_getD, hr]
          rfl
        rw [if_neg (by omega), hi, Int.toNat_natCast, hget]
        exact (List.Perm.cons r (ih (by omega))).trans hperm.symm

/-! ## The candidates -/

/-- The columns at some positions. -/
def columnsAt (cols : List ConId) (positions : List Int) : List ConId :=
  positions.filterMap fun i => cols[i.toNat]?

theorem filterMap_range (l : List ConId) :
    (List.range l.length).filterMap (fun i => l[i]?) = l := by
  induction l with
  | nil => rfl
  | cons a l ih =>
      rw [List.length_cons, List.range_succ_eq_map, List.filterMap_cons, List.filterMap_map]
      exact congrArg (a :: ·) ih

/-- The items at all positions but one. -/
theorem filterMap_range_ne (l : List ConId) (e : Nat) :
    ((List.range l.length).filter fun i => decide (i ≠ e)).filterMap (fun i => l[i]?) =
      l.eraseIdx e := by
  induction l generalizing e with
  | nil => rfl
  | cons a l ih =>
      rw [List.length_cons, List.range_succ_eq_map]
      cases e with
      | zero =>
          rw [List.filter_cons_of_neg (by simp), List.filter_map, List.filterMap_map]
          have hall : (List.range l.length).filter
              ((fun i => decide (i ≠ 0)) ∘ Nat.succ) = List.range l.length := by
            rw [List.filter_eq_self]
            intro i _
            simp
          rw [hall]
          exact filterMap_range l
      | succ e =>
          rw [List.filter_cons_of_pos (by simp), List.filterMap_cons, List.filter_map,
            List.filterMap_map]
          have hsame : ((fun i => decide (i ≠ e + 1)) ∘ Nat.succ) = fun i => decide (i ≠ e) := by
            funext i
            simp
          rw [hsame]
          exact congrArg (a :: ·) (ih e)

/-- The columns other than one. -/
def otherColumns (cols : List ConId) (exclude : Int) : List ConId :=
  if 0 ≤ exclude then cols.eraseIdx exclude.toNat else cols

theorem otherColumns_listFind (cols : List ConId) (c : ConId) :
    otherColumns cols (listFind cols c) = cols.erase c := by
  unfold otherColumns
  by_cases hc : c ∈ cols
  · rw [listFind_of_mem hc, if_pos (Int.natCast_nonneg _), Int.toNat_natCast,
      List.erase_eq_eraseIdx_of_idxOf rfl]
  · rw [listFind_of_not_mem hc, if_neg (by decide), List.erase_of_not_mem hc]

theorem columnsAt_take {cols : List ConId} {positions : List Int}
    (h : ∀ i ∈ positions, i.toNat < cols.length) (k : Nat) :
    columnsAt cols (positions.take k) = (columnsAt cols positions).take k := by
  induction positions generalizing k with
  | nil => simp [columnsAt]
  | cons i positions ih =>
      cases k with
      | zero => rfl
      | succ k =>
          obtain ⟨c, hc⟩ : ∃ c, cols[i.toNat]? = some c :=
            ⟨_, List.getElem?_eq_getElem (h i List.mem_cons_self)⟩
          have hcons : ∀ l, columnsAt cols (i :: l) = c :: columnsAt cols l := fun l =>
            List.filterMap_cons_some hc
          rw [List.take_succ_cons, hcons, hcons, List.take_succ_cons,
            ih fun j hj => h j (List.mem_cons_of_mem i hj)]

theorem mem_scanVisible {n : Nat} {exclude i : Int} (h : i ∈ scanVisible n exclude) :
    0 ≤ i ∧ i < n ∧ i ≠ exclude := by
  have hmem := List.mem_of_mem_take h
  obtain ⟨hi, hne⟩ := List.mem_filter.mp hmem
  obtain ⟨j, hj, rfl⟩ := List.mem_map.mp hi
  refine ⟨Int.natCast_nonneg j, ?_, by simpa using hne⟩
  exact Int.ofNat_lt.mpr (List.mem_range.mp hj)

/-- The columns at all positions but one. -/
theorem columnsAt_filter_ne (cols : List ConId) (exclude : Int) :
    columnsAt cols (((List.range cols.length).map Int.ofNat).filter fun i => decide (i ≠ exclude)) =
      otherColumns cols exclude := by
  unfold columnsAt otherColumns
  rw [List.filter_map, List.filterMap_map]
  split
  next hexclude =>
    obtain ⟨e, rfl⟩ := Int.eq_ofNat_of_zero_le hexclude
    have hsame : (fun i : Int => decide (i ≠ e)) ∘ Int.ofNat = fun i => decide (i ≠ e) := by
      funext i
      simp
    rw [Int.toNat_natCast, ← filterMap_range_ne, hsame]
    rfl
  next hnone =>
    have hall : (List.range cols.length).filter
        ((fun i : Int => decide (i ≠ exclude)) ∘ Int.ofNat) = List.range cols.length := by
      rw [List.filter_eq_self]
      intro i _
      have hne : (i : Int) ≠ exclude := by omega
      simpa using hne
    rw [hall]
    exact filterMap_range cols

/-- **The candidates are the first columns of the row, without the excluded one.** -/
theorem columnsAt_scanVisible (cols : List ConId) (exclude : Int) :
    columnsAt cols (scanVisible cols.length exclude) =
      (otherColumns cols exclude).take maxCandidates := by
  unfold scanVisible
  rw [columnsAt_take, columnsAt_filter_ne]
  intro i hi
  obtain ⟨j, hj, rfl⟩ := List.mem_map.mp (List.mem_filter.mp hi).1
  exact List.mem_range.mp hj

theorem unused_scanVisible (n : Nat) (exclude : Int) :
    unused (scanVisible n exclude) = scanVisible n exclude := by
  unfold unused
  rw [List.filter_eq_self]
  intro i hi
  simpa using (mem_scanVisible hi).1

/-! ## The widths of the candidates -/

/-- The width of a column and the bounds that its clamp keeps it within. -/
def widthStore (w : WsId) (s : State) (c : ConId) : Store ℚ where
  floor := (columnLimits s c).lo
  ceil := min (s.wsGeo w).width ((columnLimits s c).hi (s.wsGeo w).width)
  amount := (s.geo c).width

theorem clamp_widthStore (w : WsId) (s : State) (c : ConId) (x : ℚ) :
    (widthStore w s c).clamp x = containerClampTiledWidth s c x (s.wsGeo w).width := rfl

theorem columnLimits_setColumnWidth (w : WsId) (s : State) (c d : ConId) (x : ℚ) :
    columnLimits (setColumnWidth w s c x) d = columnLimits s d := columnLimits_geo s _ d

/-- A column that gets a width changes no other column and no bounds. -/
theorem writesAmount_width (w : WsId) : WritesAmount (widthStore w) (setColumnWidth w) where
  self s c x := by
    unfold widthStore
    rw [columnLimits_setColumnWidth]
    simp [setColumnWidth, State.modGeo]
  other s c x d hd := by
    unfold widthStore
    rw [columnLimits_setColumnWidth]
    simp [setColumnWidth, State.modGeo, hd]

/-- `viewport_absorb_farthest` drains the widths in the order of its picks. -/
theorem absorbFarthest_eq (w : WsId) (focusIdx : Int) {cols : List ConId} (n : Nat)
    (candidates : List Int) (s : State) (remaining : ℚ) (hcols : (s.tree.ws w).tiling = cols)
    (hc : ∀ i ∈ candidates, i.toNat < cols.length ∨ i < 0) :
    absorbFarthest w focusIdx n candidates s remaining =
      drainEach (widthStore w) (setColumnWidth w)
        (columnsAt cols (pickOrder focusIdx n candidates)) s remaining := by
  induction n generalizing candidates s remaining with
  | zero => rfl
  | succ n ih =>
      rw [absorbFarthest, pickOrder]
      dsimp only
      rcases farthestCandidate_cases candidates focusIdx with ⟨hneg, -⟩ | ⟨i, r, hi, hr, hnonneg⟩
      · rw [if_pos hneg, if_pos hneg]
        exact ite_self _
      · have hget : candidates.getD i 0 = r := by
          rw [List.getD_eq_getElem?_getD, hr]
          rfl
        have hlt : r.toNat < cols.length :=
          (hc r (List.mem_of_getElem? hr)).resolve_right (not_lt.mpr hnonneg)
        obtain ⟨c, hcol⟩ : ∃ c, cols[r.toNat]? = some c :=
          ⟨_, List.getElem?_eq_getElem hlt⟩
        have hpicked : columnsAt cols (r :: pickOrder focusIdx n (candidates.set i (-1))) =
            c :: columnsAt cols (pickOrder focusIdx n (candidates.set i (-1))) :=
          List.filterMap_cons_some hcol
        have hnot : ¬ farthestCandidate candidates focusIdx < 0 := by omega
        rw [if_neg hnot, if_neg hnot, hi, Int.toNat_natCast, hget, hpicked, drainEach, hcols, hcol]
        split
        · rfl
        · refine ih _ _ _ hcols fun j hj => ?_
          rcases List.mem_or_eq_of_mem_set hj with hj | rfl
          · exact hc j hj
          · exact Or.inr (by decide)

/-- **What the candidates absorb is a drain of their widths.** -/
theorem exists_absorbing (s : State) (w : WsId) (focusIdx exclude : Int) :
    ∃ order : List ConId,
      order.Perm ((otherColumns (s.tree.ws w).tiling exclude).take maxCandidates) ∧
      ∀ t : State, t.tree = s.tree → ∀ remaining : ℚ,
        absorbFarthest w focusIdx (scanVisible (s.tree.ws w).tiling.length exclude).length
            (scanVisible (s.tree.ws w).tiling.length exclude) t remaining =
          drainEach (widthStore w) (setColumnWidth w) order t remaining := by
  have hunused := unused_scanVisible (s.tree.ws w).tiling.length exclude
  refine ⟨columnsAt (s.tree.ws w).tiling (pickOrder focusIdx _ _), ?_, fun t ht remaining =>
    absorbFarthest_eq w focusIdx _ _ t remaining (by rw [ht]) fun i hi => Or.inl ?_⟩
  · rw [← columnsAt_scanVisible]
    have hrounds : (unused (scanVisible (s.tree.ws w).tiling.length exclude)).length ≤
        (scanVisible (s.tree.ws w).tiling.length exclude).length := by rw [hunused]
    have hperm := pickOrder_perm focusIdx hrounds
    rw [hunused] at hperm
    exact hperm.filterMap _
  · have hrange := mem_scanVisible hi
    omega

end Swirl

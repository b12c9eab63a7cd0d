import Swirl.Lib.Cumulative
import Swirl.Tree.ArrangeColumns

set_option autoImplicit false

/-! # Columns on whole pixels

The placement loop of `workspace_arrange_columns` rounds where the columns end, not how wide they
are. Its two running values agree all the time: `prev_edge` is the rounded `pos`. So it computes the
places of `cumulativePlaces`, and the rounding never adds up.
-/

namespace Swirl

open Lib

/-- The widths of columns become whole numbers: neighbours are one gap apart, no width changes by a
pixel, and the last column ends where the rounded sum of all widths and the gaps do. -/
structure IntegerExact (gaps : Int) (ws : List ℚ) (places : List (Int × Int)) : Prop where
  length : places.length = ws.length
  nonneg : ∀ p ∈ places, 0 ≤ p.2
  start : ∀ p, places.head? = some p → p.1 = 0
  spaced : ∀ (i : ℕ) (p q : Int × Int), places[i]? = some p → places[i + 1]? = some q →
    q.1 = p.1 + p.2 + gaps
  apart : places.Pairwise fun p q => p.1 + p.2 ≤ q.1
  near : ∀ (i : ℕ) (p : Int × Int) (w : ℚ), places[i]? = some p → ws[i]? = some w →
    |(p.2 : ℚ) - w| < 1
  lastEdge : ∃ p, places.getLast? = some p ∧ p.1 + p.2 = lround ws.sum + gaps * (ws.length - 1)

section Loop

variable {gaps : Int} {ws : List ℚ}

/-- The loop from any position on: the edge so far is the rounded position. -/
theorem placeColumns_from (hgaps : 0 ≤ gaps) (hws : ∀ w ∈ ws, 0 ≤ w) {pos : ℚ} (hpos : 0 ≤ pos) :
    placeColumns gaps pos (lround pos) ws =
      cumulativePlaces (fun x => lround (pos + x)) gaps ws := by
  induction ws generalizing pos with
  | nil => rfl
  | cons w ws ih =>
      have hgaps' : (0 : ℚ) ≤ gaps := by exact_mod_cast hgaps
      have hw := hws w List.mem_cons_self
      have hrest : ∀ v ∈ ws, 0 ≤ v := fun v hv => hws v (List.mem_cons_of_mem w hv)
      have hnext : 0 ≤ pos + w := add_nonneg hpos hw
      -- the next round starts with both values a gap further
      have hedge : ∀ i, roundedEdge (fun x => lround (pos + w + gaps + x)) ws i =
          roundedEdge (fun x => lround (pos + x)) (w :: ws) (i + 1) + gaps := by
        intro i
        unfold roundedEdge
        rw [List.take_succ_cons, List.sum_cons,
          ← rounds_lround.shift (add_nonneg hpos (add_nonneg hw (take_sum_nonneg hrest i))) hgaps]
        exact congrArg lround (by ring)
      rw [placeColumns, ← rounds_lround.shift hnext hgaps, ih hrest (add_nonneg hnext hgaps')]
      unfold cumulativePlaces
      rw [List.length_cons, List.range_succ_eq_map, List.map_cons, List.map_map]
      -- the first place, and those behind it
      congr 1
      · unfold cumulativePlace roundedEdge
        simp
      · refine List.map_congr_left fun i _ => ?_
        unfold cumulativePlace
        dsimp only [Function.comp_apply]
        rw [hedge, hedge]
        push_cast
        refine Prod.ext ?_ ?_
        · ring
        · ring

/-- **The loop rounds cumulatively.** -/
theorem placeColumns_eq (hgaps : 0 ≤ gaps) (hws : ∀ w ∈ ws, 0 ≤ w) :
    placeColumns gaps 0 0 ws = cumulativePlaces lround gaps ws := by
  have hzero : lround 0 = 0 := rounds_lround.zero
  have hfrom := placeColumns_from hgaps hws le_rfl
  rw [hzero] at hfrom
  simpa only [zero_add] using hfrom

/-- **The placement is exact to the pixel** for any widths. -/
theorem placeColumns_integerExact (hne : ws ≠ []) (hws : ∀ w ∈ ws, 0 ≤ w) (hgaps : 0 ≤ gaps) :
    IntegerExact gaps ws (placeColumns gaps 0 0 ws) := by
  have hplace : ∀ {i : ℕ} {p : Int × Int}, (placeColumns gaps 0 0 ws)[i]? = some p →
      p = cumulativePlace lround gaps ws i := by
    intro i p hp
    rw [placeColumns_eq hgaps hws] at hp
    exact (cumulativePlaces_getElem? lround gaps ws hp).2
  constructor
  · exact placeColumns_length gaps 0 0 ws
  · intro p hp
    obtain ⟨i, hi⟩ := List.mem_iff_getElem?.1 hp
    rw [hplace hi]
    exact cumulativePlace_nonneg rounds_lround hws i
  · intro p hp
    rw [List.head?_eq_getElem?] at hp
    rw [hplace hp]
    show roundedEdge lround ws 0 + gaps * ((0 : ℕ) : ℤ) = 0
    rw [roundedEdge_zero rounds_lround, Nat.cast_zero, mul_zero, add_zero]
  · intro i p q hp hq
    rw [hplace hp, hplace hq]
    exact cumulativePlace_succ lround gaps ws i
  · rw [List.pairwise_iff_getElem]
    intro i j hi hj hij
    rw [hplace (List.getElem?_eq_getElem hi), hplace (List.getElem?_eq_getElem hj)]
    have hapart := cumulativePlace_apart rounds_lround hws hgaps hij
    unfold placeEnd at hapart
    omega
  · intro i p w hp hw
    rw [hplace hp]
    exact width_near rounds_lround hws hw
  · obtain ⟨p, hp, -⟩ := placeColumns_getLast gaps 0 0 ws hne
    refine ⟨p, hp, ?_⟩
    rw [List.getLast?_eq_getElem?, placeColumns_length] at hp
    rw [hplace hp]
    exact placeEnd_last lround gaps hne

/-- Three columns of a third of 100 pixels, 10 apart, become 33, 34 and 33 pixels wide. -/
theorem placeColumns_integerExact_thirds :
    IntegerExact 10 [100 / 3, 100 / 3, 100 / 3] (placeColumns 10 0 0 [100 / 3, 100 / 3, 100 / 3]) :=
  placeColumns_integerExact (List.cons_ne_nil _ _) (by decide +kernel) (by decide)

end Loop

/-! ## The columns of a workspace -/

section Workspace

variable {s : State} {w : WsId} {parent : Box}

/-- The widths that the pass places. -/
def rowWidths (s : State) (w : WsId) (parent : Box) : List ℚ :=
  (arrangeRow (rowRoom s w parent) (rowOf s w)).map RowColumn.w

theorem rowWidths_nonneg (hmin : BordersNonneg s w) : ∀ v ∈ rowWidths s w parent, 0 ≤ v := by
  intro v hv
  obtain ⟨c, hc, rfl⟩ := List.mem_map.mp hv
  exact arrangeRow_nonneg hmin.floorsNonneg (le_max_left _ _) c hc

theorem rowWidths_length : (rowWidths s w parent).length = (s.tree.ws w).tiling.length := by
  rw [rowWidths, List.length_map, arrangeRow_length, rowOf, List.length_map]

/-- The pass places the columns of every workspace exactly. -/
theorem rowPlaces_integerExact (hmin : BordersNonneg s w) (hgaps : 0 ≤ (s.wsGeo w).gapsInner)
    (hne : (s.tree.ws w).tiling ≠ []) :
    IntegerExact (s.wsGeo w).gapsInner (rowWidths s w parent) (rowPlaces s w parent) := by
  refine placeColumns_integerExact ?_ (rowWidths_nonneg hmin) hgaps
  rw [← List.length_pos_iff, rowWidths_length]
  exact List.length_pos_iff.2 hne

/-- Every column gets one of the places. -/
theorem exists_placedBox (parent : Box) (hshape : RowShape s.tree w) {i : ℕ} {c : ConId}
    (hc : (s.tree.ws w).tiling[i]? = some c) : ∃ p, (rowPlaces s w parent)[i]? = some p ∧
      columnBox (workspaceArrangeColumns s w parent) c = placedBox s w parent p := by
  have hi := (List.getElem?_eq_some_iff.1 hc).1
  rw [← rowPlaces_length s w parent] at hi
  refine ⟨_, List.getElem?_eq_getElem hi, ?_⟩
  refine columnBox_workspaceArrangeColumns hshape (List.mem_of_getElem? (i := i) ?_)
  rw [List.getElem?_zip_eq_some]
  exact ⟨hc, List.getElem?_eq_getElem hi⟩

/-- **Neighbours are one gap apart after the pass.** -/
theorem rightEdge_neighbours (hshape : RowShape s.tree w) (hmin : BordersNonneg s w)
    (hgaps : 0 ≤ (s.wsGeo w).gapsInner) {i : ℕ} {c d : ConId}
    (hc : (s.tree.ws w).tiling[i]? = some c) (hd : (s.tree.ws w).tiling[i + 1]? = some d) :
    ((workspaceArrangeColumns s w parent).geo d).x =
      rightEdge (workspaceArrangeColumns s w parent) c + (s.wsGeo w).gapsInner := by
  have hne : (s.tree.ws w).tiling ≠ [] := List.ne_nil_of_mem (List.mem_of_getElem? hc)
  obtain ⟨p, hp, hcBox⟩ := exists_placedBox parent hshape hc
  obtain ⟨q, hq, hdBox⟩ := exists_placedBox parent hshape hd
  have hspaced := (@rowPlaces_integerExact s w parent hmin hgaps hne).spaced i p q hp hq
  have hx := congrArg ColumnBox.x hcBox
  have hwidth := congrArg ColumnBox.width hcBox
  have hx' := congrArg ColumnBox.x hdBox
  simp only [columnBox, placedBox] at hx hwidth hx'
  rw [rightEdge, hx, hwidth, hx', hspaced]
  push_cast
  ring

end Workspace

end Swirl

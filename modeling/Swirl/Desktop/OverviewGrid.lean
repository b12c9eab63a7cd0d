import Swirl.Lib.Buckets
import Swirl.Lib.Grid
import Swirl.Tree.Arrange
import Swirl.Desktop.Overview

set_option autoImplicit false

/-! # The grid of the overview

`overview_layout_grid` gives every workspace a section of the height of the output, divides a
section into cells, and fits the thumbnails of the workspace into them. Floats are read as exact
rationals here. A section can come out thinner than what the gaps take; there is a fallback for
sections without any height, which places them below the output.
-/

namespace Swirl

open Lib

/-! ## The computation -/

/-- The output that the grid is for: the size and the scale of `wlr_output`, and the place of
`scene_output`. -/
structure GridOutput where
  width : Int
  height : Int
  scale : ℚ
  x : Int
  y : Int
  deriving DecidableEq, Repr

/-- The rectangle of the output: `ox`, `oy`, `ow` and `oh`. -/
def GridOutput.box (g : GridOutput) : Box :=
  ⟨g.x, g.y, truncInt (g.width / g.scale), truncInt (g.height / g.scale)⟩

/-- `MAX_SEC` -/
def maxSec : ℕ := 256

/-- `tile_gap` -/
def tileGap : ℚ := 16

/-- `sec_gap` -/
def secGap : ℚ := 24

/-- The sections: the workspaces in the order of the thumbnails, each with its tiles. A tile is a
thumbnail with its place in the list. -/
def overviewSections (ts : List Thumbnail) : List (WsId × List (Thumbnail × ℕ)) :=
  buckets (fun t => t.1.ws) maxSec ts.zipIdx

/-- What all sections share: `avail_w`, `avail_h`, `base_x`, `base_y` and `slice_h`. -/
structure GridPlan where
  availW : ℚ
  availH : ℚ
  baseX : ℚ
  baseY : ℚ
  sliceH : ℚ

def gridPlan (b : Box) (nSec : ℕ) : GridPlan :=
  let availW : ℚ := b.width * (9 / 10)
  let availH : ℚ := b.height * (17 / 20)
  let slice := (availH - secGap * (nSec - 1)) / nSec
  { availW, availH
    baseX := b.x + (b.width - availW) / 2
    baseY := b.y + (b.height - availH) / 2
    sliceH := if 1 < nSec then (if slice < 1 then availH else slice) else availH }

/-- `sec_y` -/
def GridPlan.secY (p : GridPlan) (si : ℕ) : ℚ := p.baseY + si * (p.sliceH + secGap)

/-- The cells of a section. -/
structure GridCells where
  cols : ℕ
  rows : ℕ
  cellW : ℚ
  cellH : ℚ

/-- The cells of a section with `sn` tiles. -/
def GridPlan.cells (p : GridPlan) (sn : ℕ) : GridCells :=
  let cols := ceilSqrt sn
  let rows := gridRows sn cols
  { cols, rows, cellW := p.availW / cols, cellH := p.sliceH / rows }

/-- `fit` -/
def tileFit (c : GridCells) (scale : ℚ) (t : Thumbnail) : ℚ :=
  min ((c.cellW - tileGap) / (t.width / scale)) ((c.cellH - tileGap) / (t.height / scale))

/-- Where a tile goes, and its badge. -/
structure GridTile where
  box : Box
  badge : Box
  deriving DecidableEq, Repr

/-- The `i`-th tile of a section with `sn` tiles. -/
def overviewTile (p : GridPlan) (scale : ℚ) (si sn i : ℕ) (t : Thumbnail) : GridTile :=
  let cells := p.cells sn
  let r := i / cells.cols
  let c := i % cells.cols
  let fit := tileFit cells scale t
  let tw := t.width / scale * fit
  let th := t.height / scale * fit
  let cx := truncInt (cellStart p.baseX cells.cellW tw c)
  let cy := truncInt (cellStart (p.secY si) cells.cellH th r)
  let bsz := max (truncInt (48 * fit)) 28
  let bpad := max (truncInt (2 * fit)) 1
  { box := ⟨cx, cy, truncInt tw, truncInt th⟩, badge := ⟨cx + bpad, cy + bpad, bsz, bsz⟩ }

/-- The tiles, with the places of their thumbnails in the list. -/
def overviewTiles (g : GridOutput) (ts : List Thumbnail) : List (ℕ × GridTile) :=
  let secs := overviewSections ts
  let p := gridPlan g.box secs.length
  secs.zipIdx.flatMap fun sec =>
    sec.1.2.zipIdx.map fun tt =>
      (tt.1.2, overviewTile p g.scale sec.2 sec.1.2.length tt.2 tt.1.1)

/-- The box the grid leaves a thumbnail with: one of a section too many stays where it is. -/
def thumbnailBox (g : GridOutput) (ts : List Thumbnail) (k : ℕ) : Box :=
  match (overviewTiles g ts).lookup k with
  | some tile => tile.box
  | none => ((ts[k]?).map Thumbnail.box).getD ⟨0, 0, 0, 0⟩

/-- The lines between the sections. -/
def overviewDividers (g : GridOutput) (ts : List Thumbnail) : List Box :=
  let nSec := (overviewSections ts).length
  let p := gridPlan g.box nSec
  (List.range (nSec - 1)).map fun (si : ℕ) =>
    let dy : ℚ := p.baseY + (si + 1) * (p.sliceH + secGap) - secGap / 2
    ⟨truncInt p.baseX, truncInt (dy - 1), truncInt p.availW, 2⟩

/-- The overview on outputs whose sizes are known. -/
def OverviewEnv.withGrid (env : OverviewEnv) (out : OutId → GridOutput) : OverviewEnv :=
  { env with gridBox := fun o => thumbnailBox (out o) }

/-! ## What is claimed -/

/-- The tiles have a size, lie in a box and do not overlap. -/
structure TilesLaidOut (b : Box) (ts : List Thumbnail) : Prop where
  size : ∀ t ∈ ts, 0 < t.box.width ∧ 0 < t.box.height
  inside : ∀ t ∈ ts, t.box.Inside b
  apart : ts.Pairwise fun t u => t.box.Apart u.box

/-! ## The condition -/

/-- The workspaces that have thumbnails. -/
def sectionCount (ts : List Thumbnail) : ℕ := (ts.map Thumbnail.ws).toFinset.card

/-- The thumbnails of a workspace. -/
def tileCount (ts : List Thumbnail) (w : WsId) : ℕ := ts.countP fun t => decide (t.ws = w)

/-- The width of a cell without the gap, with `n` tiles in the section. -/
def roomWidth (b : Box) (n : ℕ) : ℚ := b.width * (9 / 10) / ceilSqrt n - tileGap

/-- The height of one of `nSec` sections, with gaps between them. -/
def sliceHeight (b : Box) (nSec : ℕ) : ℚ := (b.height * (17 / 20) - secGap * (nSec - 1)) / nSec

/-- The height of a cell without the gap, with `n` tiles in one of `nSec` sections. -/
def roomHeight (b : Box) (nSec n : ℕ) : ℚ :=
  sliceHeight b nSec / gridRows n (ceilSqrt n) - tileGap

/-- There is room for a pixel each way when a thumbnail is fitted into a size. -/
def HasRoom (width height : ℚ) (t : Thumbnail) : Prop :=
  1 ≤ width ∧ 1 ≤ height ∧ t.width ≤ width * t.height ∧ t.height ≤ height * t.width

instance (width height : ℚ) (t : Thumbnail) : Decidable (HasRoom width height t) :=
  inferInstanceAs (Decidable (_ ∧ _))

/-- Every thumbnail has room in the cells of its section. -/
def TilesHaveRoom (b : Box) (ts : List Thumbnail) : Prop :=
  ∀ t ∈ ts, HasRoom (roomWidth b (tileCount ts t.ws))
    (roomHeight b (sectionCount ts) (tileCount ts t.ws)) t

instance (b : Box) (ts : List Thumbnail) : Decidable (TilesHaveRoom b ts) :=
  inferInstanceAs (Decidable (∀ t ∈ ts, _))

/-! ## The sections -/

section Sections

variable {ts : List Thumbnail}

/-- The `i`-th tile of the `si`-th section is the `k`-th thumbnail. -/
def PlacedAt (ts : List Thumbnail) (k : ℕ) (t : Thumbnail) (si i : ℕ) : Prop :=
  ∃ tiles, (overviewSections ts)[si]? = some (t.ws, tiles) ∧ tiles[i]? = some (t, k)

theorem isBuckets_sections (ts : List Thumbnail) :
    IsBuckets (fun t : Thumbnail × ℕ => t.1.ws) maxSec ts.zipIdx (overviewSections ts) :=
  isBuckets_buckets maxSec ts.zipIdx

theorem keys_zipIdx (ts : List Thumbnail) :
    ts.zipIdx.map (fun t => t.1.ws) = ts.map Thumbnail.ws := by
  conv_rhs => rw [← List.zipIdx_map_fst 0 ts, List.map_map]
  rfl

theorem length_sections (hsec : sectionCount ts ≤ maxSec) :
    (overviewSections ts).length = sectionCount ts := by
  have h := isBuckets_sections ts
  have hkeys := keys_zipIdx ts
  rw [h.length_eq (by rw [hkeys]; exact hsec), hkeys]
  rfl

/-- The tiles of a section are as many as the thumbnails of its workspace. -/
theorem length_tiles {w : WsId} {tiles : List (Thumbnail × ℕ)}
    (h : (w, tiles) ∈ overviewSections ts) : tiles.length = tileCount ts w := by
  have hlength := (isBuckets_sections ts).length_bucket h
  rw [tileCount, ← List.zipIdx_map_fst 0 ts, List.countP_map]
  exact hlength

/-- Every thumbnail has a place in the grid. -/
theorem exists_placedAt (hsec : sectionCount ts ≤ maxSec) {k : ℕ} {t : Thumbnail}
    (hk : ts[k]? = some t) : ∃ si i, PlacedAt ts k t si i := by
  have h := isBuckets_sections ts
  have hmem : (t, k) ∈ ts.zipIdx := List.mem_zipIdx_iff_getElem?.2 hk
  obtain ⟨⟨w, tiles⟩, hb, rfl⟩ :=
    List.mem_map.1 (h.mem_keys (by rw [keys_zipIdx]; exact hsec) hmem)
  obtain ⟨si, hsi⟩ := List.mem_iff_getElem?.1 hb
  obtain ⟨i, hi⟩ := List.mem_iff_getElem?.1 ((h.mem_bucket hb).2 ⟨hmem, rfl⟩)
  exact ⟨si, i, tiles, hsi, hi⟩

/-- No two thumbnails have the same place. -/
theorem PlacedAt.unique {k k' si i : ℕ} {t t' : Thumbnail} (h : PlacedAt ts k t si i)
    (h' : PlacedAt ts k' t' si i) : k = k' := by
  obtain ⟨tiles, hsi, hi⟩ := h
  obtain ⟨tiles', hsi', hi'⟩ := h'
  rw [hsi] at hsi'
  obtain ⟨-, rfl⟩ := Prod.mk.inj (Option.some.inj hsi')
  rw [hi] at hi'
  exact (Prod.mk.inj (Option.some.inj hi')).2

/-- A section is that of one workspace. -/
theorem PlacedAt.ws_eq {k k' si i j : ℕ} {t t' : Thumbnail} (h : PlacedAt ts k t si i)
    (h' : PlacedAt ts k' t' si j) : t.ws = t'.ws := by
  obtain ⟨tiles, hsi, -⟩ := h
  obtain ⟨tiles', hsi', -⟩ := h'
  rw [hsi] at hsi'
  exact (Prod.mk.inj (Option.some.inj hsi')).1

/-- The keys of the tiles are the places of the thumbnails in the sections. -/
theorem keys_overviewTiles (g : GridOutput) (ts : List Thumbnail) :
    (overviewTiles g ts).map Prod.fst = (overviewSections ts).flatMap fun s => s.2.map Prod.snd := by
  unfold overviewTiles
  conv_rhs => rw [← List.zipIdx_map_fst 0 (overviewSections ts), List.flatMap_map]
  rw [List.map_flatMap]
  refine List.flatMap_congr fun sec _ => ?_
  conv_rhs => rw [← List.zipIdx_map_fst 0 sec.1.2, List.map_map]
  rw [List.map_map]
  rfl

/-- No thumbnail is in the sections twice. -/
theorem nodup_tiles (ts : List Thumbnail) :
    ((overviewSections ts).flatMap fun s => s.2.map Prod.snd).Nodup := by
  have h := isBuckets_sections ts
  have hidx : (ts.zipIdx.map Prod.snd).Nodup := by
    rw [List.zipIdx_map_snd]
    exact List.nodup_range'
  rw [List.nodup_flatMap]
  constructor
  · intro s hs
    rw [h.holds s hs]
    exact hidx.sublist (List.filter_sublist.map _)
  · -- different sections hold different workspaces
    have hkeys : (overviewSections ts).Pairwise fun s u => s.1 ≠ u.1 :=
      List.pairwise_map.1 h.nodup
    refine hkeys.imp_of_mem fun {s u} hs hu hne => ?_
    intro k hk hk'
    obtain ⟨⟨t, k⟩, ht, rfl⟩ := List.mem_map.1 hk
    obtain ⟨⟨t', k'⟩, ht', rfl⟩ := List.mem_map.1 hk'
    obtain ⟨hmem, hkey⟩ := (h.mem_bucket hs).1 ht
    obtain ⟨hmem', hkey'⟩ := (h.mem_bucket hu).1 ht'
    rw [List.mem_zipIdx_iff_getElem?] at hmem hmem'
    rw [hmem] at hmem'
    apply hne
    rw [← hkey, ← hkey', Option.some.inj hmem']

theorem lookup_of_mem {β : Type*} {l : List (ℕ × β)} (hnodup : (l.map Prod.fst).Nodup) {k : ℕ}
    {v : β} (h : (k, v) ∈ l) : l.lookup k = some v := by
  obtain ⟨l₁, l₂, rfl⟩ := List.append_of_mem h
  rw [List.map_append, List.nodup_append] at hnodup
  refine List.lookup_eq_some_iff.2 ⟨l₁, l₂, rfl, fun p hp => ?_⟩
  have hne := hnodup.2.2 p.1 (List.mem_map_of_mem hp) k List.mem_cons_self
  exact bne_iff_ne.2 (Ne.symm hne)

/-- A thumbnail gets the box of its tile. -/
theorem thumbnailBox_placed (g : GridOutput) {k si i : ℕ} {t : Thumbnail} (h : PlacedAt ts k t si i) :
    thumbnailBox g ts k = (overviewTile (gridPlan g.box (overviewSections ts).length) g.scale si
      (tileCount ts t.ws) i t).box := by
  obtain ⟨tiles, hsi, hi⟩ := h
  have hlength := length_tiles (List.mem_of_getElem? hsi)
  have hmem : (k, overviewTile (gridPlan g.box (overviewSections ts).length) g.scale si
      tiles.length i t) ∈ overviewTiles g ts :=
    List.mem_flatMap.2 ⟨((t.ws, tiles), si), List.mem_zipIdx_iff_getElem?.2 hsi,
      List.mem_map.2 ⟨((t, k), i), List.mem_zipIdx_iff_getElem?.2 hi, rfl⟩⟩
  have hnodup : ((overviewTiles g ts).map Prod.fst).Nodup := by
    rw [keys_overviewTiles]
    exact nodup_tiles ts
  rw [thumbnailBox, lookup_of_mem hnodup hmem, hlength]

end Sections

/-! ## A tile -/

section Tile

variable {p : GridPlan} {scale : ℚ} {t : Thumbnail} {cells : GridCells}

/-- A thumbnail is as wide as the cell lets it be, or as high. -/
theorem fitted_width (hscale : 0 < scale) (hw : 0 < t.width) (hh : 0 < t.height) :
    t.width / scale * tileFit cells scale t =
      min (cells.cellW - tileGap) ((cells.cellH - tileGap) * t.width / t.height) := by
  have hw' : (0 : ℚ) < t.width := by exact_mod_cast hw
  have hh' : (0 : ℚ) < t.height := by exact_mod_cast hh
  rw [tileFit, mul_min_of_nonneg _ _ (by positivity)]
  congr 1
  · field_simp
  · field_simp

theorem fitted_height (hscale : 0 < scale) (hw : 0 < t.width) (hh : 0 < t.height) :
    t.height / scale * tileFit cells scale t =
      min ((cells.cellW - tileGap) * t.height / t.width) (cells.cellH - tileGap) := by
  have hw' : (0 : ℚ) < t.width := by exact_mod_cast hw
  have hh' : (0 : ℚ) < t.height := by exact_mod_cast hh
  rw [tileFit, mul_min_of_nonneg _ _ (by positivity)]
  congr 1
  · field_simp
  · field_simp

/-- With room a thumbnail keeps a pixel each way, and only then. -/
theorem hasRoom_iff (hscale : 0 < scale) (hw : 0 < t.width) (hh : 0 < t.height) :
    HasRoom (cells.cellW - tileGap) (cells.cellH - tileGap) t ↔
      1 ≤ t.width / scale * tileFit cells scale t ∧
        1 ≤ t.height / scale * tileFit cells scale t := by
  have hw' : (0 : ℚ) < t.width := by exact_mod_cast hw
  have hh' : (0 : ℚ) < t.height := by exact_mod_cast hh
  rw [fitted_width hscale hw hh, fitted_height hscale hw hh, le_min_iff, le_min_iff,
    le_div_iff₀ hh', le_div_iff₀ hw', one_mul, one_mul, HasRoom]
  tauto

theorem tile_size_iff (hscale : 0 < scale) (hw : 0 < t.width) (hh : 0 < t.height) (si sn i : ℕ) :
    0 < (overviewTile p scale si sn i t).box.width ∧
        0 < (overviewTile p scale si sn i t).box.height ↔
      HasRoom ((p.cells sn).cellW - tileGap) ((p.cells sn).cellH - tileGap) t := by
  rw [hasRoom_iff hscale hw hh, ← truncInt_pos, ← truncInt_pos]
  rfl

/-- A box lies in the cell of the `i`-th tile of a section. -/
structure InCell (p : GridPlan) (cells : GridCells) (si i : ℕ) (b : Box) : Prop where
  left : p.baseX + (i % cells.cols : ℕ) * cells.cellW ≤ b.x
  right : b.x + b.width ≤ p.baseX + ((i % cells.cols : ℕ) + 1) * cells.cellW
  top : p.secY si + (i / cells.cols : ℕ) * cells.cellH ≤ b.y
  bottom : b.y + b.height ≤ p.secY si + ((i / cells.cols : ℕ) + 1) * cells.cellH

/-- **A tile that has room lies in its cell.** -/
theorem tile_inCell (hscale : 0 < scale) (hw : 0 < t.width) (hh : 0 < t.height) {si sn i : ℕ}
    (hroom : HasRoom ((p.cells sn).cellW - tileGap) ((p.cells sn).cellH - tileGap) t) :
    InCell p (p.cells sn) si i (overviewTile p scale si sn i t).box := by
  obtain ⟨htw, hth⟩ := (hasRoom_iff hscale hw hh).1 hroom
  have hwidth : t.width / scale * tileFit (p.cells sn) scale t ≤ (p.cells sn).cellW - 2 := by
    rw [fitted_width hscale hw hh]
    exact (min_le_left _ _).trans (by unfold tileGap; linarith)
  have hheight : t.height / scale * tileFit (p.cells sn) scale t ≤ (p.cells sn).cellH - 2 := by
    rw [fitted_height hscale hw hh]
    exact (min_le_right _ _).trans (by unfold tileGap; linarith)
  have hx := cell_within (b := p.baseX) (i % (p.cells sn).cols) (zero_le_one.trans htw) hwidth
  have hy := cell_within (b := p.secY si) (i / (p.cells sn).cols) (zero_le_one.trans hth) hheight
  exact ⟨hx.1, hx.2, hy.1, hy.2⟩

/-- A tile of the fallback reaches below the middle of its cell. -/
theorem tile_low (hscale : 0 < scale) (hw : 0 < t.width) (hh : 0 < t.height) (si i : ℕ) {sn : ℕ}
    (hroom : HasRoom ((p.cells sn).cellW - tileGap) ((p.cells sn).cellH - tileGap) t) :
    p.secY si + (i / (p.cells sn).cols : ℕ) * (p.cells sn).cellH + (p.cells sn).cellH / 2 - 2 <
      (overviewTile p scale si sn i t).box.y + (overviewTile p scale si sn i t).box.height := by
  obtain ⟨-, hth⟩ := (hasRoom_iff hscale hw hh).1 hroom
  have hy := truncInt_gt (cellStart (p.secY si) (p.cells sn).cellH
    (t.height / scale * tileFit (p.cells sn) scale t) (i / (p.cells sn).cols))
  have hsize := truncInt_gt (t.height / scale * tileFit (p.cells sn) scale t)
  show _ < ((truncInt (cellStart (p.secY si) (p.cells sn).cellH
    (t.height / scale * tileFit (p.cells sn) scale t) (i / (p.cells sn).cols)) : ℤ) : ℚ) +
    (truncInt (t.height / scale * tileFit (p.cells sn) scale t) : ℤ)
  simp only [cellStart] at hy ⊢
  linarith

/-- A box in a lower row is below. -/
theorem InCell.apart_of_row_lt {b u : Box} {si i j : ℕ} (hb : InCell p cells si i b)
    (hu : InCell p cells si j u) (hh : 0 ≤ cells.cellH) (hlt : i / cells.cols < j / cells.cols) :
    b.Apart u := by
  apply Box.apart_of_above
  have hcell := cell_before (b := p.secY si) hh hlt
  have hle : (b.y + b.height : ℚ) ≤ u.y := hb.bottom.trans (hcell.trans hu.top)
  exact_mod_cast hle

/-- A box in a later column is to the right. -/
theorem InCell.apart_of_col_lt {b u : Box} {si i j : ℕ} (hb : InCell p cells si i b)
    (hu : InCell p cells si j u) (hw : 0 ≤ cells.cellW) (hlt : i % cells.cols < j % cells.cols) :
    b.Apart u := by
  apply Box.apart_of_left
  have hcell := cell_before (b := p.baseX) hw hlt
  have hle : (b.x + b.width : ℚ) ≤ u.x := hb.right.trans (hcell.trans hu.left)
  exact_mod_cast hle

/-- Boxes in two cells of a section do not overlap. -/
theorem InCell.apart {b u : Box} {si i j : ℕ} (hb : InCell p cells si i b)
    (hu : InCell p cells si j u) (hw : 0 ≤ cells.cellW) (hh : 0 ≤ cells.cellH) (hij : i ≠ j) :
    b.Apart u := by
  rcases cell_ne cells.cols hij with hne | hne
  · rcases lt_or_gt_of_ne hne with hlt | hlt
    · exact hb.apart_of_row_lt hu hh hlt
    · exact (hu.apart_of_row_lt hb hh hlt).symm
  · rcases lt_or_gt_of_ne hne with hlt | hlt
    · exact hb.apart_of_col_lt hu hw hlt
    · exact (hu.apart_of_col_lt hb hw hlt).symm

end Tile

/-! ## The sections on the output -/

section Plan

variable {b : Box} {nSec : ℕ}

/-- Without the fallback the sections are as high as the gaps leave them. -/
theorem sliceH_eq (hpos : 0 < nSec) (hslice : 1 < nSec → 1 ≤ sliceHeight b nSec) :
    (gridPlan b nSec).sliceH = sliceHeight b nSec := by
  show (if 1 < nSec then (if sliceHeight b nSec < 1 then _ else sliceHeight b nSec) else _) = _
  split
  · next hmany => exact if_neg (not_lt.2 (hslice hmany))
  · -- there is one section, without a gap
    obtain rfl : nSec = 1 := by omega
    simp [sliceHeight]

/-- The fallback gives every section the whole height. -/
theorem sliceH_fallback (hmany : 1 < nSec) (hslice : sliceHeight b nSec < 1) :
    (gridPlan b nSec).sliceH = (gridPlan b nSec).availH := by
  show (if 1 < nSec then (if sliceHeight b nSec < 1 then _ else sliceHeight b nSec) else _) = _
  rw [if_pos hmany, if_pos hslice]
  rfl

/-- The heights and the gaps of the sections add up to the height there is. -/
theorem sliceHeight_mul (hpos : 0 < nSec) :
    nSec * sliceHeight b nSec + secGap * (nSec - 1) = b.height * (17 / 20) := by
  have hpos' : (0 : ℚ) < nSec := by exact_mod_cast hpos
  rw [sliceHeight, mul_div_cancel₀ _ hpos'.ne']
  ring

/-- The numbers of a section that has room. -/
structure Roomy (p : GridPlan) (b : Box) (nSec : ℕ) : Prop where
  sections : nSec * p.sliceH + secGap * (nSec - 1) = b.height * (17 / 20)
  sliceH : 0 ≤ p.sliceH
  baseX : p.baseX = b.x + b.width / 20
  baseY : p.baseY = b.y + b.height * (3 / 40)
  availW : p.availW = b.width * (9 / 10)

theorem gridPlan_roomy (hpos : 0 < nSec) (hslice : 1 ≤ sliceHeight b nSec) :
    Roomy (gridPlan b nSec) b nSec := by
  have heq := sliceH_eq hpos fun _ => hslice
  refine ⟨?_, ?_, ?_, ?_, rfl⟩
  · rw [heq]
    exact sliceHeight_mul hpos
  · rw [heq]
    exact zero_le_one.trans hslice
  · show (b.x : ℚ) + (b.width - b.width * (9 / 10)) / 2 = _
    ring
  · show (b.y : ℚ) + (b.height - b.height * (17 / 20)) / 2 = _
    ring

theorem Roomy.cells_nonneg {p : GridPlan} (h : Roomy p b nSec) (hwidth : 0 ≤ b.width) (sn : ℕ) :
    0 ≤ (p.cells sn).cellW ∧ 0 ≤ (p.cells sn).cellH := by
  have hwidth' : (0 : ℚ) ≤ b.width := by exact_mod_cast hwidth
  have havail : 0 ≤ p.availW := by
    rw [h.availW]
    positivity
  exact ⟨div_nonneg havail (Nat.cast_nonneg _), div_nonneg h.sliceH (Nat.cast_nonneg _)⟩

variable {p : GridPlan} {cells : GridCells} {si sj i j sn sn' : ℕ} {u v : Box}

/-- The rows of a section lie within it. -/
theorem InCell.within_section (h : InCell p (p.cells sn) si i u) (hi : i < sn)
    (hslice : 0 ≤ p.sliceH) : p.secY si ≤ u.y ∧ (u.y : ℚ) + u.height ≤ p.secY si + p.sliceH := by
  have hcols : 0 < ceilSqrt sn := ceilSqrt_pos (by omega)
  obtain ⟨hfirst, hlast⟩ :=
    cell_in_line (b := p.secY si) hslice (div_lt_gridRows hcols hi)
  exact ⟨hfirst.trans h.top, h.bottom.trans hlast⟩

/-- The columns of a section lie within the width there is. -/
theorem InCell.within_width (h : InCell p (p.cells sn) si i u) (hi : i < sn)
    (hwidth : 0 ≤ p.availW) : p.baseX ≤ u.x ∧ (u.x : ℚ) + u.width ≤ p.baseX + p.availW := by
  have hcols : 0 < ceilSqrt sn := ceilSqrt_pos (by omega)
  obtain ⟨hfirst, hlast⟩ := cell_in_line (b := p.baseX) hwidth (Nat.mod_lt i hcols)
  exact ⟨hfirst.trans h.left, h.right.trans hlast⟩

/-- The sections follow each other, with a gap in between. -/
theorem section_before (hslice : 0 ≤ p.sliceH) (h : si < sj) :
    p.secY si + p.sliceH + secGap ≤ p.secY sj := by
  have hle : ((si + 1 : ℕ) : ℚ) ≤ sj := by exact_mod_cast h
  have hmul : ((si + 1 : ℕ) : ℚ) * (p.sliceH + secGap) ≤ sj * (p.sliceH + secGap) :=
    mul_le_mul_of_nonneg_right hle (by unfold secGap; linarith)
  push_cast at hmul
  unfold GridPlan.secY
  linarith

/-- A section lies within the height there is. -/
theorem Roomy.section_within (h : Roomy p b nSec) (hsi : si < nSec) :
    p.baseY ≤ p.secY si ∧ p.secY si + p.sliceH ≤ p.baseY + b.height * (17 / 20) := by
  have hslice := h.sliceH
  have hle : ((si : ℕ) : ℚ) ≤ nSec - 1 := by
    have : ((si + 1 : ℕ) : ℚ) ≤ nSec := by exact_mod_cast hsi
    push_cast at this
    linarith
  have hgap : (0 : ℚ) ≤ p.sliceH + secGap := by unfold secGap; linarith
  constructor
  · exact le_add_of_nonneg_right (by positivity)
  · have hmul : (si : ℚ) * (p.sliceH + secGap) ≤ (nSec - 1) * (p.sliceH + secGap) :=
      mul_le_mul_of_nonneg_right hle hgap
    have hsum := h.sections
    unfold GridPlan.secY
    linarith

/-- **A tile in its cell lies on the output.** -/
theorem Roomy.inside (h : Roomy p b nSec) (hu : InCell p (p.cells sn) si i u) (hi : i < sn)
    (hsi : si < nSec) (hwidth : 0 ≤ b.width) (hheight : 0 ≤ b.height) : u.Inside b := by
  have hwidth' : (0 : ℚ) ≤ b.width := by exact_mod_cast hwidth
  have hheight' : (0 : ℚ) ≤ b.height := by exact_mod_cast hheight
  have havail : 0 ≤ p.availW := by
    rw [h.availW]
    positivity
  obtain ⟨hleft, hright⟩ := hu.within_width hi havail
  obtain ⟨htop, hbottom⟩ := hu.within_section hi h.sliceH
  obtain ⟨hfirst, hlast⟩ := h.section_within hsi
  rw [h.baseX] at hleft hright
  rw [h.availW] at hright
  rw [h.baseY] at hfirst hlast
  have hx : (b.x : ℚ) ≤ u.x := by linarith
  have hx' : (u.x : ℚ) + u.width ≤ b.x + b.width := by linarith
  have hy : (b.y : ℚ) ≤ u.y := by linarith
  have hy' : (u.y : ℚ) + u.height ≤ b.y + b.height := by linarith
  exact ⟨⟨by exact_mod_cast hx, by exact_mod_cast hx'⟩, by exact_mod_cast hy,
    by exact_mod_cast hy'⟩

/-- Tiles of two sections do not overlap. -/
theorem apart_of_section_lt (hslice : 0 ≤ p.sliceH) (hu : InCell p (p.cells sn) si i u) (hi : i < sn)
    (hv : InCell p (p.cells sn') sj j v) (hj : j < sn') (h : si < sj) : u.Apart v := by
  apply Box.apart_of_above
  have hbefore := section_before hslice h
  have hend := (hu.within_section hi hslice).2
  have hstart := (hv.within_section hj hslice).1
  have hle : (u.y : ℚ) + u.height ≤ v.y := by
    unfold secGap at hbefore
    linarith
  exact_mod_cast hle

end Plan

/-! ## The grid -/

/-- The thumbnails on their tiles. -/
def laidOut (g : GridOutput) (ts : List Thumbnail) : List Thumbnail :=
  ts.zipIdx.map fun t => { t.1 with box := thumbnailBox g ts t.2 }

section Grid

variable {g : GridOutput} {ts : List Thumbnail}

theorem pairwise_zipIdx (ts : List Thumbnail) : ts.zipIdx.Pairwise fun a b => a.2 ≠ b.2 := by
  apply List.pairwise_map.1
  show (ts.zipIdx.map Prod.snd).Nodup
  rw [List.zipIdx_map_snd]
  exact List.nodup_range'

theorem mem_laidOut {u : Thumbnail} :
    u ∈ laidOut g ts ↔ ∃ (k : ℕ) (t : Thumbnail), ts[k]? = some t ∧
      u = { t with box := thumbnailBox g ts k } := by
  constructor
  · intro hu
    obtain ⟨⟨t, k⟩, ht, rfl⟩ := List.mem_map.1 hu
    exact ⟨k, t, List.mem_zipIdx_iff_getElem?.1 ht, rfl⟩
  · rintro ⟨k, t, ht, rfl⟩
    exact List.mem_map.2 ⟨(t, k), List.mem_zipIdx_iff_getElem?.2 ht, rfl⟩

/-- A section with a tile is one of the sections, and its tile one of its tiles. -/
theorem PlacedAt.lt {k si i : ℕ} {t : Thumbnail} (h : PlacedAt ts k t si i) :
    si < (overviewSections ts).length ∧ i < tileCount ts t.ws := by
  obtain ⟨tiles, hsi, hi⟩ := h
  rw [← length_tiles (List.mem_of_getElem? hsi)]
  exact ⟨(List.getElem?_eq_some_iff.1 hsi).1, (List.getElem?_eq_some_iff.1 hi).1⟩

theorem PlacedAt.getElem? {k si i : ℕ} {t : Thumbnail} (h : PlacedAt ts k t si i) :
    ts[k]? = some t := by
  obtain ⟨tiles, hsi, hi⟩ := h
  have hmem := ((isBuckets_sections ts).mem_bucket (List.mem_of_getElem? hsi)).1
    (List.mem_of_getElem? hi)
  exact List.mem_zipIdx_iff_getElem?.1 hmem.1

/-- Every section has a tile in its last row. -/
theorem exists_last_tile {si : ℕ} (hsi : si < (overviewSections ts).length) :
    ∃ k t, PlacedAt ts k t si (tileCount ts t.ws - 1) := by
  have h := isBuckets_sections ts
  obtain ⟨⟨w, tiles⟩, hs⟩ : ∃ s, (overviewSections ts)[si]? = some s :=
    ⟨_, List.getElem?_eq_getElem hsi⟩
  have hmem := List.mem_of_getElem? hs
  have hne : tiles ≠ [] := h.bucket_ne_nil hmem
  obtain ⟨⟨t, k⟩, hlast⟩ : ∃ x, tiles[tiles.length - 1]? = some x := by
    refine ⟨_, List.getElem?_eq_getElem ?_⟩
    have := List.length_pos_iff.2 hne
    omega
  obtain ⟨-, rfl⟩ := (h.mem_bucket hmem).1 (List.mem_of_getElem? hlast)
  refine ⟨k, t, tiles, hs, ?_⟩
  rw [← length_tiles hmem]
  exact hlast

/-- The hypotheses on what the grid is given: thumbnails with a size, on workspaces that all get a
section, and an output. -/
structure GridInput (g : GridOutput) (ts : List Thumbnail) : Prop where
  scale : 0 < g.scale
  height : 0 ≤ g.box.height
  size : ∀ t ∈ ts, 0 < t.width ∧ 0 < t.height
  sections : sectionCount ts ≤ maxSec

variable (h : GridInput g ts)

include h

/-- The tile of a placed thumbnail has a size where the cells of its section have room. -/
theorem placed_size_iff {k si i : ℕ} {t : Thumbnail} (hk : PlacedAt ts k t si i) :
    0 < (thumbnailBox g ts k).width ∧ 0 < (thumbnailBox g ts k).height ↔
      HasRoom (((gridPlan g.box (sectionCount ts)).cells (tileCount ts t.ws)).cellW - tileGap)
        (((gridPlan g.box (sectionCount ts)).cells (tileCount ts t.ws)).cellH - tileGap) t := by
  obtain ⟨hw, hh⟩ := h.size t (List.mem_of_getElem? hk.getElem?)
  rw [thumbnailBox_placed g hk, length_sections h.sections]
  exact tile_size_iff h.scale hw hh si (tileCount ts t.ws) i

/-- Without the fallback, the tile of a placed thumbnail has a size where the condition asks for
it. -/
theorem placed_size_iff_room
    (hslice : 1 < sectionCount ts → 1 ≤ sliceHeight g.box (sectionCount ts)) {k si i : ℕ}
    {t : Thumbnail} (hk : PlacedAt ts k t si i) :
    0 < (thumbnailBox g ts k).width ∧ 0 < (thumbnailBox g ts k).height ↔
      HasRoom (roomWidth g.box (tileCount ts t.ws))
        (roomHeight g.box (sectionCount ts) (tileCount ts t.ws)) t := by
  have hpos : 0 < sectionCount ts := by
    have hlt := hk.lt.1
    rw [length_sections h.sections] at hlt
    omega
  rw [placed_size_iff h hk]
  have hcell : ((gridPlan g.box (sectionCount ts)).cells (tileCount ts t.ws)).cellH =
      sliceHeight g.box (sectionCount ts) /
        gridRows (tileCount ts t.ws) (ceilSqrt (tileCount ts t.ws)) := by
    rw [← sliceH_eq hpos hslice]
    rfl
  rw [hcell]
  rfl

/-- **In the fallback the second section ends below the output.** -/
theorem fallback_outside (hmany : 1 < sectionCount ts)
    (hslice : sliceHeight g.box (sectionCount ts) < 1) : ¬ TilesLaidOut g.box (laidOut g ts) := by
  intro hlaid
  have hlength := length_sections h.sections
  obtain ⟨k, t, hk⟩ := exists_last_tile (by omega : 1 < (overviewSections ts).length)
  have hmem : ({ t with box := thumbnailBox g ts k } : Thumbnail) ∈ laidOut g ts :=
    mem_laidOut.2 ⟨k, t, hk.getElem?, rfl⟩
  have hroom := (placed_size_iff h hk).1 (hlaid.size _ hmem)
  obtain ⟨-, -, hbottom⟩ := hlaid.inside _ hmem
  obtain ⟨hw, hh⟩ := h.size t (List.mem_of_getElem? hk.getElem?)
  have hlow := tile_low h.scale hw hh 1 (tileCount ts t.ws - 1) hroom
  -- the tile is in the last row of a section as high as all there is
  set p := gridPlan g.box (sectionCount ts) with hp
  have hcount : 0 < tileCount ts t.ws := by
    have := hk.lt.2
    omega
  have hcols : 0 < ceilSqrt (tileCount ts t.ws) := ceilSqrt_pos hcount
  have hrows := gridRows_pos hcols hcount
  have hrows' : (1 : ℚ) ≤ gridRows (tileCount ts t.ws) (ceilSqrt (tileCount ts t.ws)) := by
    exact_mod_cast hrows
  have hlast : (((tileCount ts t.ws - 1) / (p.cells (tileCount ts t.ws)).cols : ℕ) : ℚ) + 1 =
      gridRows (tileCount ts t.ws) (ceilSqrt (tileCount ts t.ws)) := by
    exact_mod_cast last_div hcols hcount
  have hheight : (0 : ℚ) ≤ g.box.height := by exact_mod_cast h.height
  have hsliceH : p.sliceH = g.box.height * (17 / 20) := sliceH_fallback hmany hslice
  have hrow : gridRows (tileCount ts t.ws) (ceilSqrt (tileCount ts t.ws)) *
      (p.cells (tileCount ts t.ws)).cellH = p.sliceH :=
    mul_div_cancel₀ _ (by linarith)
  have hcell : (p.cells (tileCount ts t.ws)).cellH ≤ p.sliceH :=
    div_le_self (by rw [hsliceH]; positivity) hrows'
  have hsecY : p.secY 1 = g.box.y + g.box.height * (3 / 40) + (p.sliceH + secGap) := by
    have hbase : p.baseY = g.box.y + g.box.height * (3 / 40) := by
      show (g.box.y : ℚ) + (g.box.height - g.box.height * (17 / 20)) / 2 = _
      ring
    rw [GridPlan.secY, hbase, Nat.cast_one, one_mul]
  rw [← hlast] at hrow
  have hend : (g.box.y : ℚ) + g.box.height <
      (thumbnailBox g ts k).y + (thumbnailBox g ts k).height := by
    rw [thumbnailBox_placed g hk, hlength]
    unfold secGap at hsecY
    linarith
  have hend' : g.box.y + g.box.height < (thumbnailBox g ts k).y + (thumbnailBox g ts k).height := by
    exact_mod_cast hend
  exact absurd hbottom (not_le.2 hend')

/-- A placed thumbnail that has room lies in its cell. -/
theorem placed_inCell (hslice : 1 ≤ sliceHeight g.box (sectionCount ts)) {k si i : ℕ}
    {t : Thumbnail} (hk : PlacedAt ts k t si i)
    (hroom : HasRoom (roomWidth g.box (tileCount ts t.ws))
      (roomHeight g.box (sectionCount ts) (tileCount ts t.ws)) t) :
    InCell (gridPlan g.box (sectionCount ts))
      ((gridPlan g.box (sectionCount ts)).cells (tileCount ts t.ws)) si i
      (thumbnailBox g ts k) := by
  obtain ⟨hw, hh⟩ := h.size t (List.mem_of_getElem? hk.getElem?)
  have hcell := (placed_size_iff h hk).1 ((placed_size_iff_room h (fun _ => hslice) hk).2 hroom)
  rw [thumbnailBox_placed g hk, length_sections h.sections]
  exact tile_inCell h.scale hw hh hcell

/-- Where a thumbnail has room, the sections have some height. -/
theorem slice_of_room {t : Thumbnail} (ht : t ∈ ts)
    (hroom : HasRoom (roomWidth g.box (tileCount ts t.ws))
      (roomHeight g.box (sectionCount ts) (tileCount ts t.ws)) t) :
    1 ≤ sliceHeight g.box (sectionCount ts) ∧ 0 ≤ g.box.width := by
  obtain ⟨k, hk⟩ := List.mem_iff_getElem?.1 ht
  obtain ⟨si, i, hplaced⟩ := exists_placedAt h.sections hk
  have hcount : 0 < tileCount ts t.ws := by
    have := hplaced.lt.2
    omega
  have hcols : 0 < ceilSqrt (tileCount ts t.ws) := ceilSqrt_pos hcount
  have hrows : (1 : ℚ) ≤ gridRows (tileCount ts t.ws) (ceilSqrt (tileCount ts t.ws)) := by
    exact_mod_cast gridRows_pos hcols hcount
  have hcols' : (0 : ℚ) < ceilSqrt (tileCount ts t.ws) := by exact_mod_cast hcols
  obtain ⟨hwidth, hheight, -, -⟩ := hroom
  unfold roomWidth tileGap at hwidth
  unfold roomHeight tileGap at hheight
  constructor
  · have hle : (17 : ℚ) ≤ sliceHeight g.box (sectionCount ts) /
        gridRows (tileCount ts t.ws) (ceilSqrt (tileCount ts t.ws)) := by linarith
    rw [le_div_iff₀ (by linarith)] at hle
    linarith
  · have hle : (17 : ℚ) ≤ g.box.width * (9 / 10) / ceilSqrt (tileCount ts t.ws) := by linarith
    rw [le_div_iff₀ hcols'] at hle
    have hpos : (0 : ℚ) ≤ g.box.width := by linarith
    exact_mod_cast hpos

/-- Where all thumbnails have room, each one is in its cell. -/
theorem exists_inCell (hroom : TilesHaveRoom g.box ts) {k : ℕ} {t : Thumbnail}
    (hk : ts[k]? = some t) : ∃ si i, PlacedAt ts k t si i ∧
      1 ≤ sliceHeight g.box (sectionCount ts) ∧ 0 ≤ g.box.width ∧
      InCell (gridPlan g.box (sectionCount ts))
        ((gridPlan g.box (sectionCount ts)).cells (tileCount ts t.ws)) si i
        (thumbnailBox g ts k) := by
  have ht := List.mem_of_getElem? hk
  obtain ⟨hslice, hwidth⟩ := slice_of_room h ht (hroom t ht)
  obtain ⟨si, i, hplaced⟩ := exists_placedAt h.sections hk
  exact ⟨si, i, hplaced, hslice, hwidth, placed_inCell h hslice hplaced (hroom t ht)⟩

/-- Where all thumbnails have room, two of them are apart. -/
theorem tiles_apart (hroom : TilesHaveRoom g.box ts) {k l : ℕ} {t u : Thumbnail}
    (hk : ts[k]? = some t) (hl : ts[l]? = some u) (hne : k ≠ l) :
    (thumbnailBox g ts k).Apart (thumbnailBox g ts l) := by
  obtain ⟨si, i, hplaced, hslice, hwidth, hin⟩ := exists_inCell h hroom hk
  obtain ⟨sj, j, hplaced', -, -, hin'⟩ := exists_inCell h hroom hl
  obtain ⟨hsi, hi⟩ := hplaced.lt
  have hj := hplaced'.lt.2
  rw [length_sections h.sections] at hsi
  have hplan := gridPlan_roomy (by omega) hslice
  rcases lt_trichotomy si sj with hlt | rfl | hlt
  · exact apart_of_section_lt hplan.sliceH hin hi hin' hj hlt
  · -- in one section the cells are different
    have hij : i ≠ j := by
      rintro rfl
      exact hne (hplaced.unique hplaced')
    rw [← hplaced.ws_eq hplaced'] at hin'
    obtain ⟨hw, hh⟩ := hplan.cells_nonneg hwidth (tileCount ts t.ws)
    exact hin.apart hin' hw hh hij
  · exact (apart_of_section_lt hplan.sliceH hin' hj hin hi hlt).symm

/-- **The tiles are laid out well where every thumbnail has room**, and only there. -/
theorem tilesLaidOut_iff : TilesLaidOut g.box (laidOut g ts) ↔ TilesHaveRoom g.box ts := by
  constructor
  · intro hlaid t ht
    obtain ⟨k, hk⟩ := List.mem_iff_getElem?.1 ht
    obtain ⟨si, i, hplaced⟩ := exists_placedAt h.sections hk
    have hslice : 1 < sectionCount ts → 1 ≤ sliceHeight g.box (sectionCount ts) := by
      intro hmany
      by_contra hthin
      exact fallback_outside h hmany (not_le.1 hthin) hlaid
    exact (placed_size_iff_room h hslice hplaced).1
      (hlaid.size _ (mem_laidOut.2 ⟨k, t, hk, rfl⟩))
  · intro hroom
    have hlength := length_sections h.sections
    constructor
    · intro u hu
      obtain ⟨k, t, hk, rfl⟩ := mem_laidOut.1 hu
      obtain ⟨si, i, hplaced, hslice, -, -⟩ := exists_inCell h hroom hk
      exact (placed_size_iff_room h (fun _ => hslice) hplaced).2 (hroom t (List.mem_of_getElem? hk))
    · intro u hu
      obtain ⟨k, t, hk, rfl⟩ := mem_laidOut.1 hu
      obtain ⟨si, i, hplaced, hslice, hwidth, hin⟩ := exists_inCell h hroom hk
      obtain ⟨hsi, hi⟩ := hplaced.lt
      rw [hlength] at hsi
      exact (gridPlan_roomy (by omega) hslice).inside hin hi hsi hwidth h.height
    · refine List.pairwise_map.2 ((pairwise_zipIdx ts).imp_of_mem fun {a b} ha hb hne => ?_)
      exact tiles_apart h hroom (List.mem_zipIdx_iff_getElem?.1 ha)
        (List.mem_zipIdx_iff_getElem?.1 hb) hne

/-- The lines run between the tiles. -/
theorem dividers_apart (hroom : TilesHaveRoom g.box ts) {v : Box} (hv : v ∈ overviewDividers g ts)
    {u : Thumbnail} (hu : u ∈ laidOut g ts) : v.Apart u.box := by
  obtain ⟨k, t, hk, rfl⟩ := mem_laidOut.1 hu
  obtain ⟨sj, j, hplaced, hslice, -, hin⟩ := exists_inCell h hroom hk
  obtain ⟨hsj, hj⟩ := hplaced.lt
  obtain ⟨si, -, rfl⟩ := List.mem_map.1 hv
  rw [length_sections h.sections] at hsj ⊢
  have hplan := gridPlan_roomy (by omega) hslice
  set p := gridPlan g.box (sectionCount ts)
  obtain ⟨htop, hbottom⟩ := hin.within_section hj hplan.sliceH
  -- the line is in the middle of the gap above the next section
  have hnext : p.secY si + p.sliceH + secGap ≤ p.secY (si + 1) :=
    section_before hplan.sliceH (Nat.lt_succ_self si)
  have hline : p.baseY + (si + 1) * (p.sliceH + secGap) - secGap / 2 = p.secY (si + 1) - 12 := by
    simp only [GridPlan.secY, secGap, Nat.cast_add, Nat.cast_one]
    ring
  dsimp only
  rw [hline]
  have hlow := truncInt_gt (p.secY (si + 1) - 12 - 1)
  have hhigh := truncInt_lt (p.secY (si + 1) - 12 - 1)
  unfold secGap at hnext
  rcases lt_or_ge si sj with hlt | hge
  · apply Box.apart_of_above
    have hstart : p.secY (si + 1) ≤ p.secY sj := by
      rcases (Nat.succ_le_of_lt hlt).lt_or_eq with hlt' | heq
      · have hbefore := section_before hplan.sliceH hlt'
        have hslice' := hplan.sliceH
        unfold secGap at hbefore
        linarith
      · rw [← heq]
    have hle : (truncInt (p.secY (si + 1) - 12 - 1) : ℚ) + 2 ≤ (thumbnailBox g ts k).y := by
      linarith
    exact_mod_cast hle
  · apply Box.Apart.symm
    apply Box.apart_of_above
    have hbefore : p.secY sj + p.sliceH + secGap ≤ p.secY (si + 1) :=
      section_before hplan.sliceH (by omega)
    unfold secGap at hbefore
    have hle : ((thumbnailBox g ts k).y : ℚ) + (thumbnailBox g ts k).height ≤
        truncInt (p.secY (si + 1) - 12 - 1) := by linarith
    exact_mod_cast hle

end Grid

/-! ## The layout -/

/-- The overview lays its thumbnails out on their tiles. -/
theorem thumbnails_overviewLayoutGrid (env : OverviewEnv) (out : OutId → GridOutput) (d : Desk)
    (o : OutId) : (overviewLayoutGrid (env.withGrid out) d o).overview.thumbnails =
      laidOut (out o) d.overview.thumbnails := rfl

/-- **The overview lays its tiles out well exactly where every thumbnail has room**: in its cell,
without the gap, there is a pixel for the shorter side when the thumbnail is fitted in. -/
theorem overviewLayoutGrid_iff (env : OverviewEnv) (out : OutId → GridOutput) (d : Desk) (o : OutId)
    (h : GridInput (out o) d.overview.thumbnails) :
    TilesLaidOut (out o).box (overviewLayoutGrid (env.withGrid out) d o).overview.thumbnails ↔
      TilesHaveRoom (out o).box d.overview.thumbnails := by
  rw [thumbnails_overviewLayoutGrid]
  exact tilesLaidOut_iff h

/-! ## Many workspaces -/

/-- The output of 640 by 480 pixels. -/
def smallOutput : GridOutput := ⟨640, 480, 1, 0, 0⟩

/-- A window of 1600 by 900 pixels on each of some workspaces. -/
def oneWindowEach (n : ℕ) : List Thumbnail :=
  (List.range n).map fun w =>
    { con := w, ws := w, action := .focus, width := 1600, height := 900, box := ⟨0, 0, 0, 0⟩ }

/-- The overview with these windows. -/
def deskWith (ts : List Thumbnail) : Desk :=
  { overviewOpened with overview := { overviewOpened.overview with thumbnails := ts } }

/-- The windows of two workspaces have room on the small output. -/
theorem overviewLayoutGrid_iff_two :
    TilesLaidOut smallOutput.box (overviewLayoutGrid (singleOutput.withGrid fun _ => smallOutput)
      (deskWith (oneWindowEach 2)) 1).overview.thumbnails := by
  have hinput : GridInput smallOutput (oneWindowEach 2) :=
    ⟨by decide +kernel, by decide +kernel, by decide +kernel, by decide +kernel⟩
  exact (overviewLayoutGrid_iff singleOutput (fun _ => smallOutput) (deskWith (oneWindowEach 2)) 1
    hinput).2 (by decide +kernel)

/-- With eleven workspaces the sections are thinner than the gap around a tile, and the tiles are
given a negative size. -/
theorem overviewLayoutGrid_thin :
    ¬ TilesLaidOut smallOutput.box (overviewLayoutGrid (singleOutput.withGrid fun _ => smallOutput)
      (deskWith (oneWindowEach 11)) 1).overview.thumbnails := by
  intro hlaid
  have hbox : (thumbnailBox smallOutput (oneWindowEach 11) 0).width ≤ 0 := by decide +kernel
  have hfirst : (oneWindowEach 11)[0]? = some ⟨0, 0, .focus, 1600, 900, ⟨0, 0, 0, 0⟩⟩ := rfl
  have hmem := (mem_laidOut (g := smallOutput)).2 ⟨0, _, hfirst, rfl⟩
  exact absurd (hlaid.size _ hmem).1 (not_lt.2 hbox)

end Swirl

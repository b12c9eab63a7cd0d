import Swirl.Lib.Runs
import Swirl.Tree.Root
import Swirl.Desktop.OverviewActions

set_option autoImplicit false

/-! # The overview

The grid of thumbnails of `overview.c`, with the input it takes while it is open. A thumbnail
names the container it shows, and nothing tells the overview when that container is destroyed.
-/

namespace Swirl

open Lib

/-- `enum overview_scope` -/
inductive OverviewScope where
  | current | all | minimized
  deriving DecidableEq, Repr

/-- The bits of `enum overview_content`. -/
structure OverviewContent where
  tiled : Bool
  floating : Bool
  minimized : Bool
  deriving DecidableEq, Repr

/-- The modifiers a key can stand for. -/
inductive Modifier where
  | logo | alt | ctrl | shift | mod3
  deriving DecidableEq, Repr

/-- The keys the overview tells apart. -/
inductive Keysym where
  | tab | isoLeftTab | enter | escape | backSpace
  | digit (n : Fin 10)
  | modifier (m : Modifier)
  | other
  deriving DecidableEq, Repr

inductive Button where
  | left | middle | right | other
  deriving DecidableEq, Repr

/-- `struct overview_thumbnail`; the box is that of its scene buffer. -/
structure Thumbnail where
  con : ConId
  ws : WsId
  action : OverviewAction
  width : Int
  height : Int
  box : Box
  deriving DecidableEq, Repr

/-- `struct overview_state`, with `overview_active`. The box of the hover ring is `none` while the
ring is disabled; `hoverRect` tells whether there is a ring. -/
structure Overview where
  active : Bool
  thumbnails : List Thumbnail
  hoverRect : Bool
  hover : Option Box
  digitBuf : Nat
  digitCount : Nat
  focusCon : Option ConId
  seat : SeatId
  scope : OverviewScope
  action : OverviewAction
  content : OverviewContent
  triggerMods : List Modifier
  tabCycled : Bool

/-- What the scene holds: the containers in the layers of the workspaces, as the last transaction
left them, and the sizes of the snapshots of the containers that can be drawn. -/
structure Scene where
  tiling : WsId → List ConId
  floating : WsId → List ConId
  snapshot : ConId → Option (Int × Int)

/-- The compositor with its scene, the pointers of the seats, the modifiers held, and the
overview. -/
structure Desk where
  state : State
  scene : Scene
  pointer : SeatId → Pointer
  mods : List Modifier
  overview : Overview

/-- What the libraries provide: the output at a position, whether an output has a format to draw
with, whether the hover ring could be created, and the boxes of the grid, which are computed with
floating point numbers. -/
structure OverviewEnv where
  outputAt : OutputAt
  hasFormat : OutId → Bool
  ringCreated : Bool
  gridBox : OutId → List Thumbnail → Nat → Box

variable (fo : FocusOps) (env : OverviewEnv)

/-! ## Opening and closing -/

/-- `overview_resolve_content` -/
def overviewResolveContent (s : State) (scope : OverviewScope) (action : OverviewAction)
    (content : OverviewContent) : OverviewContent :=
  let content :=
    if content = ⟨false, false, false⟩ ∧ scope ≠ .minimized then ⟨true, true, true⟩ else content
  let content := if scope = .minimized then ⟨false, false, true⟩ else content
  match seatGetFocusedContainer s s.currentSeat with
  | some focus =>
      if action = .swap then
        if containerIsFloating s.tree (containerToplevelAncestor s.tree focus) then
          ⟨false, true, false⟩
        else ⟨true, false, false⟩
      else content
  | none => content

/-- `overview_set_params` -/
def overviewSetParams (d : Desk) (scope : OverviewScope) (action : OverviewAction)
    (content : OverviewContent) : Desk :=
  { d with
    overview :=
      { d.overview with
        scope, action, content := overviewResolveContent d.state scope action content } }

/-- `overview_collect`: a container that can be drawn gets a thumbnail. -/
def overviewCollect (scene : Scene) (action : OverviewAction) (w : WsId) (c : ConId) :
    Option Thumbnail :=
  (scene.snapshot c).map fun size =>
    { con := c, ws := w, action, width := size.1, height := size.2, box := ⟨0, 0, 0, 0⟩ }

/-- `overview_collect_workspace` -/
def overviewCollectWorkspace (d : Desk) (content : OverviewContent) (w : WsId) : List Thumbnail :=
  let action := d.overview.action
  (if content.tiled then (d.scene.tiling w).filterMap (overviewCollect d.scene action w) else []) ++
  (if content.floating then
    (d.scene.floating w).filterMap (overviewCollect d.scene action w) else []) ++
  (if content.minimized then
    (d.state.pool.pool w).filterMap (overviewCollect d.scene .restore w) else [])

/-- The workspaces of the active outputs. -/
def shownWorkspaces (s : State) : List WsId := s.tree.outputs.flatMap s.tree.workspaces

/-- The thumbnails `overview_toggle` collects. -/
def overviewThumbnails (d : Desk) (active : WsId) : List Thumbnail :=
  match d.overview.scope with
  | .minimized =>
      (shownWorkspaces d.state).flatMap (overviewCollectWorkspace d ⟨false, false, true⟩)
  | .all => (shownWorkspaces d.state).flatMap (overviewCollectWorkspace d d.overview.content)
  | .current => overviewCollectWorkspace d d.overview.content active

/-- `overview_layout_grid` -/
def overviewLayoutGrid (d : Desk) (o : OutId) : Desk :=
  let ts := d.overview.thumbnails
  { d with
    overview :=
      { d.overview with
        thumbnails := ts.zipIdx.map fun t => { t.1 with box := env.gridBox o ts t.2 }
        active := true } }

/-- `overview_teardown` -/
def overviewTeardown (d : Desk) : Desk :=
  { d with
    overview :=
      { d.overview with thumbnails := [], hoverRect := false, hover := none, active := false } }

/-- `overview_setup` -/
def overviewSetup (d : Desk) : Desk :=
  { d with
    overview :=
      { d.overview with
        seat := d.state.currentSeat
        focusCon := seatGetFocusedContainer d.state d.state.currentSeat
        digitBuf := 0, digitCount := 0, tabCycled := false, triggerMods := d.mods
        hoverRect := env.ringCreated, hover := none, thumbnails := [] } }

/-- The overview opens on an output. -/
def overviewOpen (d : Desk) (o : OutId) (w : WsId) : Desk :=
  let d := overviewSetup env d
  if env.hasFormat o then
    overviewLayoutGrid env
      { d with overview := { d.overview with thumbnails := overviewThumbnails d w } } o
  else overviewTeardown d

/-- `overview_toggle` -/
def overviewToggle (d : Desk) : Desk :=
  let k := d.state.currentSeat
  match overviewPickOutput env.outputAt d.state k (d.pointer k) with
  | none => d
  | some o =>
      if d.overview.active then overviewTeardown d
      else
        match outputGetActiveWorkspace d.state o with
        | none => d
        | some w => overviewOpen env d o w

/-! ## Hovering -/

/-- Whether a position lies in a box, the edges included. -/
def Box.covers (b : Box) (x y : ℚ) : Bool :=
  decide (b.x ≤ x ∧ x ≤ b.x + b.width ∧ b.y ≤ y ∧ y ≤ b.y + b.height)

/-- `overview_thumbnail_at`, as an index. -/
def overviewThumbnailAt (d : Desk) (k : SeatId) : Option Nat :=
  d.overview.thumbnails.findIdx? fun t => t.box.covers (d.pointer k).x (d.pointer k).y

/-- The hover ring around a thumbnail. -/
def Thumbnail.ring (t : Thumbnail) : Box :=
  ⟨t.box.x - 4, t.box.y - 4, t.box.width + 8, t.box.height + 8⟩

/-- `overview_find_hovered`, as an index. -/
def overviewFindHovered (o : Overview) : Option Nat :=
  o.hover.bind fun box => o.thumbnails.findIdx? fun t => decide (t.ring = box)

/-- `overview_set_hover` -/
def overviewSetHover (o : Overview) (i : Nat) : Overview :=
  match o.thumbnails[i]? with
  | some t => if o.hoverRect then { o with hover := some t.ring } else o
  | none => o

/-- `overview_cycle_hover` -/
def overviewCycleHover (o : Overview) (reverse : Bool) : Overview :=
  let n := o.thumbnails.length
  if n = 0 ∨ o.hoverRect = false then o
  else
    let next :=
      match overviewFindHovered o with
      | none => if reverse then n - 1 else 0
      | some i => if reverse then (if i = 0 then n - 1 else i - 1) else if i + 1 < n then i + 1 else 0
    { overviewSetHover o next with tabCycled := true }

/-- `overview_handle_motion`, after the pointer has moved. -/
def overviewHandleMotion (d : Desk) (k : SeatId) : Desk :=
  if d.overview.active ∧ d.overview.hoverRect then
    match overviewThumbnailAt d k with
    | some i => { d with overview := overviewSetHover d.overview i }
    | none => { d with overview := { d.overview with hover := none } }
  else d

/-! ## Picking -/

/-- `overview_dispatch_action` on a thumbnail. -/
def dispatchThumbnail (d : Desk) (t : Thumbnail) : State :=
  let k := d.overview.seat
  overviewDispatchAction fo env.outputAt d.state k (d.pointer k) d.overview.focusCon t.action t.con
    t.ws

/-- A picked thumbnail has its action run, and the overview closes. -/
def pickThumbnail (d : Desk) (t : Option Thumbnail) : Desk :=
  match t with
  | some t => overviewToggle env { d with state := dispatchThumbnail fo env d t }
  | none => overviewToggle env d

/-- `overview_close_thumbnail`; the clients are only asked to close their windows. -/
def overviewCloseThumbnail (d : Desk) (i : Nat) (o : OutId) : Desk :=
  let d := { d with
    overview :=
      { d.overview with thumbnails := d.overview.thumbnails.eraseIdx i, hover := none } }
  let d := overviewLayoutGrid env d o
  { d with
    overview :=
      { d.overview with focusCon := seatGetFocusedContainer d.state d.overview.seat } }

/-- The thumbnail Enter picks: the hovered one, else the first. -/
def enterThumbnail (o : Overview) : Option Thumbnail :=
  match overviewFindHovered o with
  | some i => o.thumbnails[i]?
  | none => o.thumbnails.head?

/-- The thumbnail with a number. -/
def numberedThumbnail (o : Overview) (idx : Nat) : Option Thumbnail :=
  if 1 ≤ idx then o.thumbnails[idx - 1]? else none

/-- The number a digit key completes, if it does. -/
def typedNumber (o : Overview) (n : Fin 10) : Option Nat :=
  if 2 ≤ o.digitCount + 1 then some (o.digitBuf * 10 + n) else none

/-- The thumbnail a pressed key picks: `some none` closes the overview without one. -/
def keyPick (o : Overview) : Keysym → Option (Option Thumbnail)
  | .enter => some (enterThumbnail o)
  | .escape => some none
  | .digit n => (typedNumber o n).map (numberedThumbnail o)
  | _ => none

/-- What a pressed key does that picks nothing. -/
def keyTyped (o : Overview) : Keysym → Overview
  | .tab => overviewCycleHover o false
  | .isoLeftTab => overviewCycleHover o true
  | .digit n =>
      match typedNumber o n with
      | some _ => { o with digitBuf := 0, digitCount := 0 }
      | none => { o with digitBuf := o.digitBuf * 10 + n, digitCount := o.digitCount + 1 }
  | .backSpace =>
      if 0 < o.digitCount then
        { o with digitBuf := o.digitBuf / 10, digitCount := o.digitCount - 1 }
      else { o with digitBuf := 0, digitCount := 0 }
  | .enter | .escape => o
  | .modifier _ | .other => { o with digitBuf := 0, digitCount := 0 }

/-- `overview_handle_key` -/
def overviewHandleKey (d : Desk) (sym : Keysym) : Desk :=
  if d.overview.active then
    let picked := keyPick d.overview sym
    let d := { d with overview := keyTyped d.overview sym }
    match picked with
    | some t => pickThumbnail fo env d t
    | none => d
  else d

/-- The thumbnail the release of a key picks. -/
def releasePick (o : Overview) : Keysym → Option (Option Thumbnail)
  | .modifier m =>
      if o.tabCycled ∧ (o.triggerMods = [] ∨ m ∈ o.triggerMods) then some (enterThumbnail o)
      else none
  | _ => none

/-- `overview_handle_key_release` -/
def overviewHandleKeyRelease (d : Desk) (sym : Keysym) : Desk :=
  if d.overview.active then
    match releasePick d.overview sym with
    | some t => pickThumbnail fo env d t
    | none => d
  else d

/-- The thumbnail a pressed button picks. -/
def buttonPick (d : Desk) (k : SeatId) : Button → Option (Option Thumbnail)
  | .right => some none
  | .left => ((overviewThumbnailAt d k).bind fun i => d.overview.thumbnails[i]?).map some
  | .middle | .other => none

/-- The thumbnail a pressed button closes, with the output for the grid. -/
def buttonClose (d : Desk) (k : SeatId) : Button → Option (Nat × OutId)
  | .middle =>
      match overviewThumbnailAt d k, overviewPickOutput env.outputAt d.state k (d.pointer k) with
      | some i, some o => some (i, o)
      | _, _ => none
  | _ => none

/-- `overview_handle_button`, for a button that is pressed; it is called while the overview is
open. -/
def overviewHandleButton (d : Desk) (k : SeatId) (button : Button) : Desk :=
  if d.overview.active then
    match buttonPick d k button, buttonClose env d k button with
    | some t, _ => pickThumbnail fo env d t
    | none, some (i, o) => overviewCloseThumbnail env d i o
    | none, none => d
  else d

/-! ## Sessions -/

/-- What can happen while the overview is open, and the command that opens it. `world` is any other
change of the compositor and of its scene: windows that open and close, commands, transactions. -/
inductive OverviewEvent where
  | world (state : State) (scene : Scene)
  | command (scope : OverviewScope) (action : OverviewAction) (content : OverviewContent)
  | mods (held : List Modifier)
  | motion (k : SeatId) (p : Pointer)
  | button (k : SeatId) (button : Button)
  | key (sym : Keysym)
  | keyRelease (sym : Keysym)

/-- One event. -/
def overviewStep (d : Desk) : OverviewEvent → Desk
  | .world state scene => { d with state, scene }
  | .command scope action content =>
      overviewToggle env (overviewSetParams d scope action content)
  | .mods held => { d with mods := held }
  | .motion k p => overviewHandleMotion { d with pointer := Function.update d.pointer k p } k
  | .button k button => overviewHandleButton fo env d k button
  | .key sym => overviewHandleKey fo env d sym
  | .keyRelease sym => overviewHandleKeyRelease fo env d sym

/-- What an event picks: nothing, or a thumbnail or none of them. -/
def eventPick (d : Desk) : OverviewEvent → Option (Option Thumbnail)
  | .button k button => if d.overview.active then buttonPick d k button else none
  | .key sym => if d.overview.active then keyPick d.overview sym else none
  | .keyRelease sym => if d.overview.active then releasePick d.overview sym else none
  | _ => none

/-- The thumbnail whose action an event runs. -/
def dispatched (d : Desk) (e : OverviewEvent) : Option Thumbnail := (eventPick d e).join

/-- The containers the overview names: those of the thumbnails, and `focus_con`. -/
def Overview.names (o : Overview) : List ConId :=
  o.thumbnails.map Thumbnail.con ++ o.focusCon.toList

/-- The workspaces an overview that opens may show. -/
def overviewWorkspaces (d : Desk) : List WsId :=
  let k := d.state.currentSeat
  shownWorkspaces d.state ++
    ((overviewPickOutput env.outputAt d.state k (d.pointer k)).bind
      (outputGetActiveWorkspace d.state)).toList

/-- What `container_begin_destroy` sees to: no seat the overview asks has a destroyed container
focused, and no minimize pool holds one. -/
def Swept (d : Desk) : Prop :=
  (∀ k ∈ [d.state.currentSeat, d.overview.seat], ∀ c ∈ (seatGetFocusedContainer d.state k).toList,
    Live d.state c) ∧
  ∀ w ∈ overviewWorkspaces env d, ∀ c ∈ d.state.pool.pool w, Live d.state c

instance (d : Desk) : Decidable (Swept env d) := inferInstanceAs (Decidable (_ ∧ _))

/-- No container of a list is destroyed on the way from one state to another. -/
def Spares (l : List ConId) (s s' : State) : Prop := ∀ c ∈ l, Live s c → Live s' c

instance (l : List ConId) (s s' : State) : Decidable (Spares l s s') :=
  inferInstanceAs (Decidable (∀ c ∈ l, _))

/-- **What the overview relies on**: while it is open, nothing destroys a container it names; an
action that does so leaves an output for the overview to close on; and when it opens, the layers
of the scene hold no destroyed container. -/
def Spared (d : Desk) (e : OverviewEvent) : Prop :=
  match e with
  | .world state _ => d.overview.active = true → Spares d.overview.names d.state state
  | .command .. =>
      d.overview.active = false → ∀ w ∈ overviewWorkspaces env d,
        ∀ c ∈ d.scene.tiling w ++ d.scene.floating w, Live d.state c
  | _ =>
      ∀ t ∈ (dispatched d e).toList,
        let s := dispatchThumbnail fo env d t
        let k := s.currentSeat
        (overviewPickOutput env.outputAt s k (d.pointer k)).isSome = true ∨
          Spares d.overview.names d.state s

/-- Every container an open overview names is alive. -/
def OverviewLive (d : Desk) : Prop :=
  d.overview.active = true → ∀ c ∈ d.overview.names, Live d.state c

/-! ## What the input changes -/

/-- What an overview names, and whether it is open. -/
structure SameNames (o o' : Overview) : Prop where
  active : o'.active = o.active
  thumbnails : o'.thumbnails = o.thumbnails
  focusCon : o'.focusCon = o.focusCon
  seat : o'.seat = o.seat

namespace SameNames

variable {o o' : Overview}

theorem refl (o : Overview) : SameNames o o := ⟨rfl, rfl, rfl, rfl⟩

theorem names (h : SameNames o o') : o'.names = o.names := by
  unfold Overview.names
  rw [h.thumbnails, h.focusCon]

theorem setHover (o : Overview) (i : Nat) : SameNames o (overviewSetHover o i) := by
  unfold overviewSetHover
  split
  · split
    · exact ⟨rfl, rfl, rfl, rfl⟩
    · exact refl o
  · exact refl o

theorem cycleHover (o : Overview) (reverse : Bool) :
    SameNames o (overviewCycleHover o reverse) := by
  unfold overviewCycleHover
  dsimp only
  split
  · exact refl o
  · have h := setHover o
    exact ⟨(h _).active, (h _).thumbnails, (h _).focusCon, (h _).seat⟩

theorem keyTyped (o : Overview) (sym : Keysym) : SameNames o (keyTyped o sym) := by
  cases sym with
  | tab => exact cycleHover o false
  | isoLeftTab => exact cycleHover o true
  | digit n =>
      unfold Swirl.keyTyped
      dsimp only
      split <;> exact ⟨rfl, rfl, rfl, rfl⟩
  | backSpace =>
      unfold Swirl.keyTyped
      dsimp only
      split <;> exact ⟨rfl, rfl, rfl, rfl⟩
  | _ => exact ⟨rfl, rfl, rfl, rfl⟩

end SameNames

section Step

variable {fo : FocusOps} {env : OverviewEnv} {d : Desk}

/-- An overview that names the same containers, in the same state. -/
theorem OverviewLive.congr (h : OverviewLive d) {d' : Desk} (hstate : d'.state = d.state)
    (ho : SameNames d.overview d'.overview) : OverviewLive d' := by
  intro hact c hc
  rw [hstate]
  exact h (ho.active ▸ hact) c (ho.names ▸ hc)

/-- Toggling an open overview closes it, if there is an output to close it on. -/
theorem overviewToggle_active (hact : d.overview.active = true) :
    overviewToggle env d =
      if (overviewPickOutput env.outputAt d.state d.state.currentSeat
        (d.pointer d.state.currentSeat)).isSome = true then overviewTeardown d else d := by
  unfold overviewToggle
  dsimp only
  cases overviewPickOutput env.outputAt d.state d.state.currentSeat
      (d.pointer d.state.currentSeat) with
  | none => rfl
  | some o => simp [hact]

theorem overviewLive_teardown : OverviewLive (overviewTeardown d) :=
  fun hact => absurd hact Bool.false_ne_true

/-- A pick runs an action that spares the named containers, or closes the overview. -/
theorem overviewLive_pickThumbnail (h : OverviewLive d) (hact : d.overview.active = true)
    (t : Option Thumbnail)
    (hok : ∀ u ∈ t.toList,
      let s := dispatchThumbnail fo env d u
      (overviewPickOutput env.outputAt s s.currentSeat (d.pointer s.currentSeat)).isSome = true ∨
        Spares d.overview.names d.state s) :
    OverviewLive (pickThumbnail fo env d t) := by
  unfold pickThumbnail
  cases t with
  | none =>
      dsimp only
      rw [overviewToggle_active hact]
      split
      · exact overviewLive_teardown
      · exact h
  | some u =>
      dsimp only
      rw [overviewToggle_active (d := { d with state := dispatchThumbnail fo env d u }) hact]
      split
      next => exact overviewLive_teardown
      next hno =>
        rcases hok u (by simp) with hsome | hspares
        · exact absurd hsome hno
        · exact fun _ c hc => hspares c hc (h hact c hc)

/-- The grid changes the boxes of the thumbnails only. -/
theorem overviewLayoutGrid_cons (env : OverviewEnv) (d : Desk) (o : OutId) :
    (overviewLayoutGrid env d o).overview.thumbnails.map Thumbnail.con =
      d.overview.thumbnails.map Thumbnail.con := by
  unfold overviewLayoutGrid
  dsimp only
  rw [List.map_map]
  have hcon : (Thumbnail.con ∘ fun t : Thumbnail × Nat =>
      { t.1 with box := env.gridBox o d.overview.thumbnails t.2 }) = Thumbnail.con ∘ Prod.fst := rfl
  rw [hcon, ← List.map_map, List.zipIdx_map_fst]

/-- A closed thumbnail is gone, and `focus_con` is asked for again. -/
theorem overviewLive_closeThumbnail (h : OverviewLive d) (hswept : Swept env d)
    (hact : d.overview.active = true) (i : Nat) (o : OutId) :
    OverviewLive (overviewCloseThumbnail env d i o) := by
  intro _ c hc
  rcases List.mem_append.mp hc with hc | hc
  · have hcons : c ∈ (d.overview.thumbnails.eraseIdx i).map Thumbnail.con := by
      rw [← overviewLayoutGrid_cons env { d with overview := { d.overview with
        thumbnails := d.overview.thumbnails.eraseIdx i, hover := none } } o]
      exact hc
    refine h hact c (List.mem_append_left _ ?_)
    exact ((List.eraseIdx_sublist _ i).map Thumbnail.con).subset hcons
  · exact hswept.1 d.overview.seat (by simp) c hc

theorem overviewCollect_con {scene : Scene} {action : OverviewAction} {w : WsId} {c : ConId}
    {t : Thumbnail} (h : overviewCollect scene action w c = some t) : t.con = c := by
  unfold overviewCollect at h
  obtain ⟨size, -, rfl⟩ := Option.map_eq_some_iff.mp h
  rfl

/-- The thumbnails of a workspace show containers of its layers or of its pool. -/
theorem overviewCollectWorkspace_con {content : OverviewContent} {w : WsId} {t : Thumbnail}
    (h : t ∈ overviewCollectWorkspace d content w) :
    t.con ∈ d.scene.tiling w ++ d.scene.floating w ++ d.state.pool.pool w := by
  have hmem : ∀ (action : OverviewAction) (b : Bool) (l : List ConId),
      t ∈ (if b then l.filterMap (overviewCollect d.scene action w) else []) → t.con ∈ l := by
    intro action b l ht
    split at ht
    · obtain ⟨c, hc, hct⟩ := List.mem_filterMap.mp ht
      rwa [overviewCollect_con hct]
    · exact absurd ht List.not_mem_nil
  unfold overviewCollectWorkspace at h
  dsimp only at h
  rw [List.mem_append, List.mem_append] at h ⊢
  rcases h with (h | h) | h
  · exact Or.inl (Or.inl (hmem _ _ _ h))
  · exact Or.inl (Or.inr (hmem _ _ _ h))
  · exact Or.inr (hmem _ _ _ h)

/-- The thumbnails of an overview that opens show containers of its workspaces. -/
theorem overviewThumbnails_con {active : WsId} {t : Thumbnail}
    (h : t ∈ overviewThumbnails d active) :
    ∃ w ∈ shownWorkspaces d.state ++ [active],
      t.con ∈ d.scene.tiling w ++ d.scene.floating w ++ d.state.pool.pool w := by
  unfold overviewThumbnails at h
  split at h
  · obtain ⟨w, hw, ht⟩ := List.mem_flatMap.mp h
    exact ⟨w, List.mem_append_left _ hw, overviewCollectWorkspace_con ht⟩
  · obtain ⟨w, hw, ht⟩ := List.mem_flatMap.mp h
    exact ⟨w, List.mem_append_left _ hw, overviewCollectWorkspace_con ht⟩
  · exact ⟨active, by simp, overviewCollectWorkspace_con h⟩

/-- An overview that opens names live containers, if the scene holds no destroyed one. -/
theorem overviewLive_toggle (h : OverviewLive d) (hswept : Swept env d)
    (hscene : d.overview.active = false → ∀ w ∈ overviewWorkspaces env d,
      ∀ c ∈ d.scene.tiling w ++ d.scene.floating w, Live d.state c) :
    OverviewLive (overviewToggle env d) := by
  cases hact : d.overview.active with
  | true =>
      rw [overviewToggle_active hact]
      split
      · exact overviewLive_teardown
      · exact h
  | false =>
      unfold overviewToggle
      dsimp only
      split
      next => exact h
      next o ho =>
        rw [hact, if_neg Bool.false_ne_true]
        split
        next => exact h
        next w hw =>
          unfold overviewOpen
          dsimp only
          split
          next =>
            intro _ c hc
            have hworkspaces : overviewWorkspaces env d = shownWorkspaces d.state ++ [w] := by
              unfold overviewWorkspaces
              dsimp only
              rw [ho, Option.bind_some, hw, Option.toList_some]
            rcases List.mem_append.mp hc with hc | hc
            · rw [overviewLayoutGrid_cons] at hc
              obtain ⟨t, ht, rfl⟩ := List.mem_map.mp hc
              obtain ⟨v, hv, hcon⟩ := overviewThumbnails_con ht
              have hv' : v ∈ overviewWorkspaces env d := hworkspaces ▸ hv
              rcases List.mem_append.mp hcon with hlayer | hpool
              · exact hscene hact v hv' _ hlayer
              · exact hswept.2 v hv' _ hpool
            · exact hswept.1 d.state.currentSeat (by simp) c hc
          next => exact overviewLive_teardown

/-- **The step lemma.** -/
theorem overviewLive_step (h : OverviewLive d) (e : OverviewEvent)
    (hok : Swept env d ∧ Spared fo env d e) : OverviewLive (overviewStep fo env d e) := by
  obtain ⟨hswept, hspared⟩ := hok
  cases e with
  | world state scene => exact fun hact c hc => hspared hact c hc (h hact c hc)
  | command scope action content =>
      exact overviewLive_toggle (h.congr rfl ⟨rfl, rfl, rfl, rfl⟩) hswept hspared
  | mods held => exact h.congr rfl (SameNames.refl _)
  | motion k p =>
      unfold overviewStep overviewHandleMotion
      dsimp only
      split
      · split
        · exact h.congr rfl (SameNames.setHover _ _)
        · exact h.congr rfl ⟨rfl, rfl, rfl, rfl⟩
      · exact h.congr rfl (SameNames.refl _)
  | button k button =>
      show OverviewLive (overviewHandleButton fo env d k button)
      unfold overviewHandleButton
      split
      next hact =>
        cases hpick : buttonPick d k button with
        | some t =>
            refine overviewLive_pickThumbnail h hact t fun u hu => hspared u ?_
            show u ∈ (if d.overview.active = true then buttonPick d k button else none).join.toList
            rw [if_pos hact, hpick]
            exact hu
        | none =>
            cases buttonClose env d k button with
            | some r => exact overviewLive_closeThumbnail h hswept hact r.1 r.2
            | none => exact h
      next => exact h
  | key sym =>
      unfold overviewStep overviewHandleKey
      dsimp only
      split
      next hact =>
        have hsame := SameNames.keyTyped d.overview sym
        have htyped : OverviewLive { d with overview := keyTyped d.overview sym } :=
          h.congr rfl hsame
        split
        next t hpick =>
          refine overviewLive_pickThumbnail htyped (hsame.active.trans hact) t fun u hu => ?_
          have hrun : dispatchThumbnail fo env { d with overview := keyTyped d.overview sym } u =
              dispatchThumbnail fo env d u := by
            unfold dispatchThumbnail
            dsimp only
            rw [hsame.seat, hsame.focusCon]
          have hu' : u ∈ (dispatched d (.key sym)).toList := by
            show u ∈ (if d.overview.active = true then keyPick d.overview sym else none).join.toList
            rw [if_pos hact, hpick]
            exact hu
          rw [hrun, hsame.names]
          exact hspared u hu'
        next => exact htyped
      next => exact h
  | keyRelease sym =>
      show OverviewLive (overviewHandleKeyRelease fo env d sym)
      unfold overviewHandleKeyRelease
      split
      next hact =>
        split
        next t hpick =>
          refine overviewLive_pickThumbnail h hact t fun u hu => hspared u ?_
          show u ∈ (if d.overview.active = true then releasePick d.overview sym
            else none).join.toList
          rw [if_pos hact, hpick]
          exact hu
        next => exact h
      next => exact h

/-- What an event picks is a thumbnail of the open overview. -/
theorem dispatched_mem {e : OverviewEvent} {t : Thumbnail} (h : dispatched d e = some t) :
    d.overview.active = true ∧ t ∈ d.overview.thumbnails := by
  have henter : ∀ o : Overview, enterThumbnail o = some t → t ∈ o.thumbnails := by
    intro o ho
    unfold enterThumbnail at ho
    split at ho
    · exact List.mem_of_getElem? ho
    · exact List.mem_of_head? ho
  unfold dispatched at h
  rw [Option.join_eq_some_iff] at h
  unfold eventPick at h
  split at h
  next k button =>
    split at h
    next hact =>
      refine ⟨hact, ?_⟩
      cases button with
      | left =>
          obtain ⟨u, hu, hut⟩ := Option.map_eq_some_iff.mp h
          obtain ⟨i, -, hi⟩ := Option.bind_eq_some_iff.mp hu
          obtain rfl := Option.some.inj hut
          exact List.mem_of_getElem? hi
      | right => cases h
      | middle => cases h
      | other => cases h
    next => cases h
  next sym =>
    split at h
    next hact =>
      refine ⟨hact, ?_⟩
      cases sym with
      | enter => exact henter _ (Option.some.inj h)
      | digit n =>
          obtain ⟨idx, -, hidx⟩ := Option.map_eq_some_iff.mp h
          unfold numberedThumbnail at hidx
          split at hidx
          · exact List.mem_of_getElem? hidx
          · cases hidx
      | _ => cases h
    next => cases h
  next sym =>
    split at h
    next hact =>
      refine ⟨hact, ?_⟩
      unfold releasePick at h
      split at h
      · split at h
        · exact henter _ (Option.some.inj h)
        · cases h
      · cases h
    next => cases h
  next => cases h

end Step

/-- The overview before it opens for the first time. -/
def Overview.closed : Overview where
  active := false
  thumbnails := []
  hoverRect := false
  hover := none
  digitBuf := 0
  digitCount := 0
  focusCon := none
  seat := 0
  scope := .current
  action := .focus
  content := ⟨false, false, false⟩
  triggerMods := []
  tabCycled := false

/-- The scene after all transactions have been applied, everything being drawn. -/
def Scene.settled (s : State) : Scene where
  tiling w := (s.tree.ws w).tiling
  floating w := (s.tree.ws w).floating
  snapshot _ := some (640, 480)

/-- A single output, and a grid that puts all thumbnails into a corner. -/
def singleOutput : OverviewEnv where
  outputAt _ _ _ := some 1
  hasFormat _ := true
  ringCreated := true
  gridBox _ _ _ := ⟨0, 0, 100, 100⟩

/-- A window is open, and so is the overview. -/
def overviewOpened : Desk :=
  overviewStep (focusOps 3) singleOutput
    { state := windowOpened, scene := Scene.settled windowOpened, pointer := fun _ => ⟨0, 0⟩,
      mods := [], overview := Overview.closed }
    (.command .all .focus ⟨false, false, false⟩)

/-- The client closes the window, container `0`, and its column goes with it. -/
def windowClosed : State := viewUnmap (focusOps 3) windowOpened 0

/-- Another window opens. -/
def secondOpened : State := viewMap (focusOps 3) windowOpened (.plain 0)

theorem overviewOpened_names : overviewOpened.overview.names = [1, 0] := by decide +kernel

end Swirl

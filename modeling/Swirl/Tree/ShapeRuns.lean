import Swirl.Tree.Root
import Swirl.Tree.ShapeCommands

set_option autoImplicit false

/-! # Runs of the tiling operations

From a tree whose rows hold columns and whose columns hold windows, sequences of the tiling
operations keep it so when every step meets its condition, `TileOp.Keeps`. There are two ways to
miss it. A floating column that stops floating is wrapped into a new column as a window would be,
and `split none` on the lone window of a column in a row leaves the window itself in the row.
-/

namespace Swirl

open Lib

/-- Every element of a row is a column, and every child of a column is a window. -/
structure RowsHoldColumns (t : Tree) : Prop where
  column : ∀ w c, c ∈ (t.ws w).tiling → (t.con c).view = none
  window : ∀ w p, p ∈ (t.ws w).tiling → ∀ c ∈ (t.con p).children, (t.con c).view.isSome

theorem Tree.Shaped.rowsHoldColumns {t : Tree} (h : t.Shaped) : RowsHoldColumns t :=
  ⟨h.row, fun _ p _ c hc => h.stack p c hc⟩

/-- The tiling operations, and windows that open and close. -/
inductive TileOp where
  | addTiling (w : WsId) (c : ConId)
  | insertTiling (w : WsId) (c : ConId) (index : Int)
  | insertColumn (w : WsId) (c : ConId) (index : Int)
  | insertWindow (w : WsId) (view target : ConId) (edge : Edge) (after : Bool)
  | fixOverflow (w : WsId)
  | setFloating (c : ConId) (enable : Bool)
  | swap (c d : ConId)
  | take (c : ConId)
  | release (c : ConId)
  | splitNone (c : ConId) (w : WsId)
  | minimizedHide (c : ConId)
  | minimizedShow (c : ConId)
  | minimizedShowOn (c : ConId) (w : WsId)
  | map (r : MapRequest)
  | unmap (c : ConId)

/-- What an operation does. -/
def TileOp.run (fo : FocusOps) (s : State) : TileOp → State
  | .addTiling w c => workspaceAddTiling fo s w c
  | .insertTiling w c index => workspaceInsertTiling fo s w c index
  | .insertColumn w c index => workspaceInsertColumn fo s w c index
  | .insertWindow w view target edge after => workspaceInsertWindow fo s w view target edge after
  | .fixOverflow w => workspaceFixOverflow fo s w
  | .setFloating c enable => containerSetFloating fo s c enable
  | .swap c d => containerSwap fo s c d
  | .take c => cmdTake fo s c
  | .release c => cmdRelease fo s c
  | .splitNone c w => doUnsplit fo s c w
  | .minimizedHide c => workspaceMinimizedHide fo s c
  | .minimizedShow c => workspaceMinimizedShow fo s c
  | .minimizedShowOn c w => workspaceMinimizedShowOn fo s c w
  | .map r => viewMap fo s r
  | .unmap c => viewUnmap fo s c

/-- What every caller promises: the containers exist, and a drag drops a window on a column or on
a window of one, never on what floats. -/
def TileOp.Possible (s : State) : TileOp → Prop
  | .addTiling _ c => c < s.tree.nextCon
  | .insertTiling _ c _ => c < s.tree.nextCon
  | .insertColumn _ c _ => c < s.tree.nextCon
  | .insertWindow _ view target _ _ =>
      view < s.tree.nextCon ∧ target < s.tree.nextCon ∧ (s.tree.con view).view.isSome ∧
        (s.tree.con (containerToplevelAncestor s.tree target)).view = none
  | .fixOverflow _ => True
  | .setFloating c _ => c < s.tree.nextCon
  | .swap c d => c < s.tree.nextCon ∧ d < s.tree.nextCon
  | .take _ => True
  | .release _ => True
  | .splitNone _ _ => True
  | .minimizedHide _ => True
  | .minimizedShow c => c < s.tree.nextCon
  | .minimizedShowOn c _ => c < s.tree.nextCon
  | .map _ => True
  | .unmap _ => True

/-- The steps that keep the shape: only windows stop floating, and `split none` is not used on the
lone window of a column in a row. -/
def TileOp.Keeps (s : State) : TileOp → Prop
  | .setFloating c enable => enable = false → containerIsFloating s.tree c = true →
      (s.tree.con c).workspace.isSome → (s.tree.con c).view.isSome
  | .splitNone c _ => SplitsFloating s.tree c
  | _ => True

/-- **One step keeps the shape.** -/
theorem TileOp.run_reshaped {n : Nat} {s : State} {op : TileOp} (hs : s.tree.Shaped)
    (hok : op.Possible s) (hkeep : op.Keeps s) :
    Tree.Reshaped s.tree (op.run (focusOps n) s).tree := by
  have h := focusThins_focusOps n
  cases op with
  | addTiling w c => exact reshaped_workspaceAddTiling h hs hok w
  | insertTiling w c index => exact reshaped_workspaceInsertTiling h hs hok w index
  | insertColumn w c index => exact reshaped_workspaceInsertColumn h hs hok w index
  | insertWindow w view target edge after =>
      obtain ⟨hview, htarget, hwindow, hcolumn⟩ := hok
      exact reshaped_workspaceInsertWindow h hs hview hwindow htarget hcolumn w edge after
  | fixOverflow w => exact reshaped_workspaceFixOverflow h hs w
  | setFloating c enable => exact reshaped_containerSetFloating h hs hok hkeep
  | swap c d => exact reshaped_containerSwap h hs hok.1 hok.2
  | take c => exact reshaped_cmdTake h hs c
  | release c => exact reshaped_cmdRelease h hs c
  | splitNone c w => exact reshaped_doUnsplit h hs hkeep w
  | minimizedHide c => exact reshaped_workspaceMinimizedHide h hs c
  | minimizedShow c => exact reshaped_workspaceMinimizedShow h hs hok
  | minimizedShowOn c w => exact reshaped_workspaceMinimizedShowOn h hs hok w
  | map r => exact reshaped_viewMap h hs r
  | unmap c => exact reshaped_viewUnmap h hs c

/-- At the start nothing is in a list. -/
theorem shaped_start (config : Config) (area : Box) : (State.start config area).tree.Shaped := by
  have hrow : ∀ w, (Tree.start.ws w).tiling = [] ∧ (Tree.start.ws w).floating = [] := by
    intro w
    unfold Tree.start
    dsimp only
    split <;> exact ⟨rfl, rfl⟩
  refine ⟨fun w c hc => ?_, fun p c hc => ?_, fun c p hp => ?_, fun r c hc => ?_⟩
  · rfl
  · cases hc
  · cases hp
  · cases r with
    | tiling w =>
        have hmem : c ∈ (Tree.start.ws w).tiling := hc
        rw [(hrow w).1] at hmem
        cases hmem
    | floating w =>
        have hmem : c ∈ (Tree.start.ws w).floating := hc
        rw [(hrow w).2] at hmem
        cases hmem
    | children p => cases hc

/-- **In every run whose steps meet their conditions, rows hold columns and columns hold
windows.** -/
theorem tileOps_rowsHoldColumns {n : Nat} {s s' : State} (hs : s.tree.Shaped)
    (hrun : Run (TileOp.run (focusOps n)) (fun s op => op.Possible s ∧ op.Keeps s) s s') :
    s'.tree.Shaped ∧ RowsHoldColumns s'.tree := by
  have hshaped : s'.tree.Shaped :=
    hrun.invariant (I := fun u => u.tree.Shaped)
      (fun u op hu hop => (TileOp.run_reshaped hu hop.1 hop.2).shaped) hs
  exact ⟨hshaped, hshaped.rowsHoldColumns⟩

/-- A window opens on the first workspace and is made floating. -/
theorem tileOps_rowsHoldColumns_floated :
    (containerSetFloating (focusOps 2) (viewMap (focusOps 2) freshState (.plain 0)) 0
        true).tree.Shaped ∧
      RowsHoldColumns (containerSetFloating (focusOps 2)
        (viewMap (focusOps 2) freshState (.plain 0)) 0 true).tree := by
  refine tileOps_rowsHoldColumns (n := 2) (s := freshState) (shaped_start _ _)
    (Run.step (TileOp.setFloating 0 true) (Run.step (TileOp.map (.plain 0)) Run.refl
      ⟨trivial, trivial⟩) ⟨?_, ?_⟩)
  · show 0 < (viewMap (focusOps 2) freshState (.plain 0)).tree.nextCon
    decide +kernel
  · intro hno
    cases hno

/-- Runs without the conditions do not: after `split none` the window stands in the row, and a
column that was floating becomes the child of a column. -/
theorem tileOps_bareWindow :
    ¬ (∀ s', Run (TileOp.run (focusOps 2)) (fun s op => op.Possible s) freshState s' →
      RowsHoldColumns s'.tree) ∧
    ¬ RowsHoldColumns (containerSetFloating (focusOps 2)
      (containerSetFloating (focusOps 2) (viewMap (focusOps 2) freshState (.plain 0)) 1 true) 1
        false).tree := by
  constructor
  · intro h
    have hrun : Run (TileOp.run (focusOps 2)) (fun s op => TileOp.Possible s op) freshState
        (doUnsplit (focusOps 2) (viewMap (focusOps 2) freshState (.plain 0)) 0 0) :=
      Run.step (TileOp.splitNone 0 0) (Run.step (TileOp.map (.plain 0)) Run.refl trivial) trivial
    have hcolumn := (h _ hrun).column 0 0 (by decide +kernel)
    revert hcolumn
    decide +kernel
  · intro h
    have hwindow := h.window 0 2 (by decide +kernel) 1 (by decide +kernel)
    revert hwindow
    decide +kernel

end Swirl

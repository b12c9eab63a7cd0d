import Swirl.Tree.Fullscreen
import Swirl.Tree.Start

set_option autoImplicit false

/-! # Putting containers into the tree and taking them out

`container_create`, `container_detach`, and the functions of `container.c` and `workspace.c` that
put one container into one list: as a child, as a sibling, as a floating container.
-/

namespace Swirl

variable (fo : FocusOps)

/-! ## Creating and detaching -/

/-- `container_create`; the name of the new container is `s.tree.nextCon`. -/
def containerCreate (s : State) (view : Option View) : State :=
  let c := s.tree.nextCon
  let s := s.modTree fun t => t.create view
  let s := s.modGeo c fun _ => Geometry.blank
  let s := s.modMax c fun _ => { maximized := false, snapshot := none }
  let s := s.modDeco c fun _ => { border := .none, borderThickness := 0, savedBorder := .none }
  let s := ((s.setMode c .none).setMinimized c false).setWasFloating c false
  emitNewNode s (.container c)

/-- The fullscreen container is a container or hangs below it. -/
def holdsFullscreen (t : Tree) (c : ConId) (fs : Option ConId) : Bool :=
  match fs with
  | some fs => decide (fs = c) || containerHasAncestor t fs c
  | none => false

/-- The fullscreen pointers that `container_detach` clears. -/
def clearFullscreen (s : State) (c : ConId) : State :=
  let s :=
    match (s.tree.con c).workspace with
    | some w =>
        if holdsFullscreen s.tree c (s.full.workspace w) then s.setWsFullscreen w none else s
    | none => s
  if holdsFullscreen s.tree c s.full.global then s.setFullscreenGlobal none else s

/-- `container_detach` -/
def containerDetach (s : State) (c : ConId) : State :=
  (clearFullscreen s c).modTree fun t => t.detach c

/-- `if (child->pending.workspace) container_detach(child)` -/
def detachIfPlaced (s : State) (c : ConId) : State :=
  if (s.tree.con c).workspace.isSome then containerDetach s c else s

/-! ## The minimize pools -/

/-- The scan of `workspace_minimized_owner`: the workspaces of the active outputs, then those of
the fallback output. -/
def minimizedOwner (t : Tree) (p : Pool) (c : ConId) : Option WsId :=
  ((t.outputs ++ [t.fallbackOutput]).flatMap t.workspaces).find? fun w => decide (c ∈ p.pool w)

/-- `workspace_minimized_owner` -/
def workspaceMinimizedOwner (s : State) (c : ConId) : Option WsId := minimizedOwner s.tree s.pool c

/-- `workspace_minimized_remove` -/
def workspaceMinimizedRemove (s : State) (c : ConId) : State :=
  match workspaceMinimizedOwner s c with
  | some w => s.modPool w fun l => l.erase c
  | none => s

/-- The guard of the functions that put a container into the tree: one that is parked leaves its
pool first. -/
def unpark (s : State) (c : ConId) : State :=
  if s.pool.minimized c then (workspaceMinimizedRemove s c).setMinimized c false else s

/-! ## The heights of a stack -/

/-- What `container_fit_vertical_children` reads of a child. -/
structure StackWindow where
  isNew : Bool
  height : ℚ
  minShare : ℚ

/-- The share a child starts from, of `n` children. -/
def StackWindow.start (usable n : ℚ) (w : StackWindow) : ℚ :=
  max (if w.isNew then 1 / n else if 0 < w.height then w.height / usable else 1 / (n - 1)) w.minShare

/-- A share that went below the minimum is lifted back. -/
def StackWindow.lifted (k share : ℚ) (w : StackWindow) : ℚ :=
  if 0 < w.minShare ∧ share * k < w.minShare then w.minShare else share * k

/-- The height fractions of the children of a stack of a positive usable height. -/
def fitShares (usable : ℚ) (l : List StackWindow) : List ℚ :=
  let n : ℚ := l.length
  let newMin := (l.find? StackWindow.isNew).map StackWindow.minShare
  let tNew := max (1 / n) (newMin.getD 0)
  let old := l.filter fun w => !w.isNew
  let sumOld := (old.map (StackWindow.start usable n)).sum
  let k := if 1 - tNew < sumOld ∧ 0 < sumOld then (1 - tNew) / sumOld else 1
  let deficit :=
    (old.map fun w => w.lifted k (w.start usable n) - w.start usable n * k).sum
  let tNew := if 0 < deficit then max (tNew - deficit) (newMin.getD 0) else tNew
  l.map fun w => if w.isNew then tNew else w.lifted k (w.start usable n)

/-- The children of a container get these height fractions. -/
def setHeightFractions (s : State) (children : List ConId) (fractions : List ℚ) : State :=
  (children.zip fractions).foldl
    (fun s r => s.modGeo r.1 fun g => { g with heightFraction := r.2 }) s

/-- The share of a stack that a child needs at least. -/
def minShare (s : State) (usable : ℚ) (c : ConId) : ℚ :=
  let k := containerGetSizeConstraints s c
  if k.minHeight ≠ dblMin then k.minHeight / usable else 0

/-- `container_fit_vertical_children` -/
def containerFitVerticalChildren (s : State) (col : Option ConId) (newChild : ConId) : State :=
  match col with
  | none => s
  | some col =>
      let children := (s.tree.con col).children
      let g := s.geo col
      if (s.tree.con col).view.isSome ∨ g.layout ≠ .vert ∨ children = [] then s
      else
        let n : ℚ := children.length
        let gap : ℚ :=
          match (s.tree.con col).workspace with
          | some w => (s.wsGeo w).gapsInner
          | none => 0
        let usable := if 0 < g.height then g.height - gap * (n - 1) else g.height
        if usable ≤ 0 then setHeightFractions s children (children.map fun _ => 1 / n)
        else
          setHeightFractions s children
            (fitShares usable (children.map fun d =>
              { isNew := decide (d = newChild), height := (s.geo d).height,
                minShare := minShare s usable d }))

theorem onlyGeometry_setHeightFractions (s : State) (children : List ConId) (fractions : List ℚ) :
    OnlyGeometry s (setHeightFractions s children fractions) :=
  OnlyGeometry.foldl fun t _ _ => OnlyGeometry.modGeo t _ _

theorem onlyGeometry_containerFitVerticalChildren (s : State) (col : Option ConId) (c : ConId) :
    OnlyGeometry s (containerFitVerticalChildren s col c) := by
  unfold containerFitVerticalChildren
  cases col with
  | none => exact OnlyGeometry.refl s
  | some col =>
      exact .ite (.refl s) (.ite (onlyGeometry_setHeightFractions s _ _)
        (onlyGeometry_setHeightFractions s _ _))

/-! ## Into a list -/

/-- `container_add_child` -/
def containerAddChild (s : State) (p c : ConId) : State :=
  let s := (detachIfPlaced s c).attachLast (.children p) c
  containerFitVerticalChildren (containerHandleFullscreenReparent fo s c) (some p) c

/-- `container_insert_child` -/
def containerInsertChild (s : State) (p c : ConId) (i : Int) : State :=
  let s := (detachIfPlaced s c).attach (.children p) i c
  containerFitVerticalChildren (containerHandleFullscreenReparent fo s c) (some p) c

/-- The links that `container_add_sibling` copies. -/
def copyLinks (s : State) (fixed c : ConId) : State :=
  s.modTree fun t =>
    (t.modCon c fun k =>
      { k with parent := (t.con fixed).parent, workspace := (t.con fixed).workspace }).setWorkspaceBelow
      c

/-- `container_add_sibling`, after the active container. -/
def containerAddSibling (s : State) (fixed active : ConId) (after : Bool) : State :=
  let s := detachIfPlaced s active
  match containerGetSiblings s.tree fixed with
  | none => s
  | some r =>
      let index := listFind (s.tree.items r) fixed
      let s := copyLinks (s.attach r (index + if after then 1 else 0) active) fixed active
      let s := containerHandleFullscreenReparent fo s active
      containerFitVerticalChildren s (s.tree.con active).parent active

/-- `workspace_add_floating` -/
def workspaceAddFloating (s : State) (w : WsId) (c : ConId) : State :=
  let s := (detachIfPlaced (unpark s c) c).attachLast (.floating w) c
  containerHandleFullscreenReparent fo s c

/-- `container_raise_floating` -/
def containerRaiseFloating (s : State) (c : ConId) : State :=
  let floater := containerToplevelAncestor s.tree c
  match (s.tree.con floater).workspace with
  | some w =>
      if containerIsFloating s.tree floater then
        s.modTree fun t => t.modList (.floating w) fun l => listMoveToEnd l floater
      else s
  | none => s

/-- `root_scratchpad_remove_container` -/
def rootScratchpadRemoveContainer (s : State) (c : ConId) : State :=
  if (s.tree.con c).scratchpad then
    s.modTree fun t =>
      { t.modCon c fun k => { k with scratchpad := false } with
        scratchpad := t.scratchpad.erase c }
  else s

end Swirl

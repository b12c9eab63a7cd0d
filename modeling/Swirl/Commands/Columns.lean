import Swirl.Tree.View

set_option autoImplicit false

/-! # The commands `take`, `release` and `split none`

`cmd_take` merges the column on the right into the column of the container, `cmd_release` splits
the column below the focused window, `split none` takes a lone window out of its column.
-/

namespace Swirl

variable (fo : FocusOps)

/-- The loop of `cmd_take`: the children of a column move, first child first. -/
def takeChildren (dst src : ConId) : Nat → State → State
  | 0, s => s
  | n + 1, s =>
      match (s.tree.con src).children with
      | [] => s
      | c :: _ => takeChildren dst src n (containerAddChild fo (containerDetach s c) dst c)

/-- The column on the right becomes part of a column. -/
def takeColumn (s : State) (col right : ConId) : State :=
  if (s.tree.con right).view.isSome then containerAddChild fo (containerDetach s right) col right
  else takeChildren fo col right (s.tree.con right).children.length s

/-- `cmd_take` -/
def cmdTake (s : State) (c : ConId) : State :=
  if containerIsFloating s.tree c ∨ s.full.mode c ≠ .none then s
  else
    let col := containerToplevelAncestor s.tree c
    match (s.tree.con col).workspace with
    | none => s
    | some w =>
        let idx := listFind (s.tree.ws w).tiling col
        match (if 0 ≤ idx then (s.tree.ws w).tiling[idx.toNat + 1]? else none) with
        | none => s
        | some right =>
            let s := takeColumn fo s col right
            let freed := (s.geo right).width
            arrangeWorkspace (viewportGrowEvenly (columnRemove fo s right false).1 w freed) w

/-- The loop of `cmd_release`: the windows below the split go to the new column, last one first. -/
def releaseChildren (newcol : ConId) (s : State) (children : List ConId) : State :=
  children.reverse.foldl
    (fun s c => containerInsertChild fo (containerDetach s c) newcol c 0) s

/-- `cmd_release`, from the split index on. -/
def releaseFrom (s : State) (w : WsId) (col : ConId) (start : Nat) : State :=
  match containerGetSiblings s.tree col with
  | none => s
  | some r =>
      let cidx := listFind (s.tree.items r) col
      let newcol := s.tree.nextCon
      let moved := (s.tree.con col).children.drop start
      let s := workspaceFitNewColumn (createColumn s (some w)) w newcol (cidx + 1)
      let s := (releaseChildren fo newcol s moved).listInsertAt r (cidx + 1) newcol
      let s := clearParent s newcol
      let s :=
        if (s.tree.con col).children.length = 1 then
          s.modGeo col fun g => { g with layout := .vert }
        else s
      arrangeWorkspace s w

/-- `cmd_release` -/
def cmdRelease (s : State) (c : ConId) : State :=
  if containerIsFloating s.tree c ∨ s.full.mode c ≠ .none then s
  else
    let col := containerToplevelAncestor s.tree c
    let children := (s.tree.con col).children
    match (s.tree.con col).workspace, seatGetFocusedContainer s s.currentSeat with
    | some w, some focus =>
        let splitIdx := listFind children focus
        if (s.tree.con col).view.isNone ∧ 2 ≤ children.length ∧ 0 ≤ splitIdx ∧
            splitIdx < children.length - 1 then
          releaseFrom fo s w col (splitIdx.toNat + 1)
        else s
    | _, _ => s

/-- `split none`, on a container and the workspace of the command. -/
def doUnsplit (s : State) (c : ConId) (w : WsId) : State :=
  match (s.tree.con c).parent with
  | none => s
  | some p =>
      if (s.tree.con p).children.length = 1 then
        let s := containerFlatten fo s p
        if s.full.global.isSome then arrangeRoot s else arrangeWorkspace s w
      else s

end Swirl

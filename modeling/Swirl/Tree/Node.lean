import Swirl.Tree.Types

set_option autoImplicit false

/-! # Walking and editing the links

The walks of `node.c` and `container.c` over the links, and the primitive edits every operation
of the tree is made of: taking a container out of its list (`Tree.detach`) and putting it into
one (`Tree.attach`). The parent chain and the subtree of a container are lists; the walks stop
after `nextCon` steps, the number of containers ever created.
-/

namespace Swirl

namespace Tree

/-! ## Updates -/

def modCon (t : Tree) (c : ConId) (f : Links → Links) : Tree :=
  { t with con := Function.update t.con c (f (t.con c)) }

def modWs (t : Tree) (w : WsId) (f : WsLinks → WsLinks) : Tree :=
  { t with ws := Function.update t.ws w (f (t.ws w)) }

def modWorkspaces (t : Tree) (o : OutId) (f : List WsId → List WsId) : Tree :=
  { t with workspaces := Function.update t.workspaces o (f (t.workspaces o)) }

/-- A `list_t` of containers that a container can be linked into. -/
inductive ListRef where
  | tiling (w : WsId)
  | floating (w : WsId)
  | children (p : ConId)
  deriving DecidableEq, Repr

/-- The items of a list. -/
def items (t : Tree) : ListRef → List ConId
  | .tiling w => (t.ws w).tiling
  | .floating w => (t.ws w).floating
  | .children p => (t.con p).children

def modList (t : Tree) (r : ListRef) (f : List ConId → List ConId) : Tree :=
  match r with
  | .tiling w => t.modWs w fun k => { k with tiling := f k.tiling }
  | .floating w => t.modWs w fun k => { k with floating := f k.floating }
  | .children p => t.modCon p fun k => { k with children := f k.children }

/-! ## Walks -/

/-- The parent chain, nearest first, cut after a number of steps. -/
def ancestorsWithin (t : Tree) : Nat → ConId → List ConId
  | 0, _ => []
  | n + 1, c =>
      match (t.con c).parent with
      | none => []
      | some p => p :: t.ancestorsWithin n p

/-- The parent chain of a container, nearest first. -/
def ancestors (t : Tree) (c : ConId) : List ConId := t.ancestorsWithin t.nextCon c

/-- The containers below one, in the order in which `container_for_each_child` visits them, cut
below a depth. -/
def descendantsWithin (t : Tree) : Nat → ConId → List ConId
  | 0, _ => []
  | n + 1, c => (t.con c).children.flatMap fun k => k :: t.descendantsWithin n k

/-- The containers below one, in the order in which `container_for_each_child` visits them. -/
def descendants (t : Tree) (c : ConId) : List ConId := t.descendantsWithin t.nextCon c

end Tree

/-- `container_toplevel_ancestor` -/
def containerToplevelAncestor (t : Tree) (c : ConId) : ConId := (t.ancestors c).getLastD c

/-- `container_has_ancestor` -/
def containerHasAncestor (t : Tree) (descendant ancestor : ConId) : Bool :=
  decide (ancestor ∈ t.ancestors descendant)

/-- `container_find_child` -/
def containerFindChild (t : Tree) (c : ConId) (test : ConId → Bool) : Option ConId :=
  (t.descendants c).find? test

/-- `container_is_floating` -/
def containerIsFloating (t : Tree) (c : ConId) : Bool :=
  ((t.con c).parent.isNone &&
    match (t.con c).workspace with
    | some w => decide (c ∈ (t.ws w).floating)
    | none => false) ||
  (t.con c).scratchpad

/-- `container_is_floating_or_child` -/
def containerIsFloatingOrChild (t : Tree) (c : ConId) : Bool :=
  containerIsFloating t (containerToplevelAncestor t c)

/-- `container_is_sticky` -/
def containerIsSticky (t : Tree) (c : ConId) : Bool :=
  (t.con c).isSticky && containerIsFloating t c

/-- `container_is_scratchpad_hidden` -/
def containerIsScratchpadHidden (t : Tree) (c : ConId) : Bool :=
  (t.con c).scratchpad && (t.con c).workspace.isNone

/-- `container_get_siblings` -/
def containerGetSiblings (t : Tree) (c : ConId) : Option Tree.ListRef :=
  match (t.con c).parent, (t.con c).workspace with
  | some p, _ => some (.children p)
  | none, none => none
  | none, some w => if c ∈ (t.ws w).tiling then some (.tiling w) else some (.floating w)

/-- The items `container_get_siblings` points to, empty for `NULL`. -/
def containerSiblings (t : Tree) (c : ConId) : List ConId :=
  match containerGetSiblings t c with
  | some r => t.items r
  | none => []

/-- `container_sibling_index` -/
def containerSiblingIndex (t : Tree) (c : ConId) : Int := listFind (containerSiblings t c) c

/-- `node_get_parent` -/
def nodeGetParent (t : Tree) : Node → Option Node
  | .root => none
  | .output _ => some .root
  | .workspace w => (t.ws w).output.map .output
  | .container c =>
      match (t.con c).parent with
      | some p => some (.container p)
      | none => (t.con c).workspace.map .workspace

/-- The parents of a node, nearest first, cut after a number of steps. -/
def nodeAncestorsWithin (t : Tree) : Nat → Node → List Node
  | 0, _ => []
  | n + 1, node =>
      match nodeGetParent t node with
      | none => []
      | some p => p :: nodeAncestorsWithin t n p

/-- The parents of a node: the containers above it, its workspace, its output and the root. -/
def nodeAncestors (t : Tree) (node : Node) : List Node := nodeAncestorsWithin t (t.nextCon + 3) node

/-- `node_is_view` -/
def nodeIsView (t : Tree) : Node → Bool
  | .container c => (t.con c).view.isSome
  | _ => false

/-! ## Edits -/

namespace Tree

/-- `set_workspace`: a container takes the workspace of its parent. -/
def setWorkspace (t : Tree) (c : ConId) : Tree :=
  t.modCon c fun k => { k with workspace := (t.con c).parent.bind fun p => (t.con p).workspace }

/-- `container_for_each_child(con, set_workspace, NULL)` -/
def setWorkspaceBelow (t : Tree) (c : ConId) : Tree := (t.descendants c).foldl setWorkspace t

/-- The links that `container_detach` clears. -/
def detach (t : Tree) (c : ConId) : Tree :=
  let t := match containerGetSiblings t c with
    | some r => t.modList r fun l => l.erase c
    | none => t
  let t := t.modCon c fun k => { k with parent := none, workspace := none }
  t.setWorkspaceBelow c

/-- The parent of a container once it is put into a list: only a child list sets it. -/
def ListRef.parent (old : Option ConId) : ListRef → Option ConId
  | .children p => some p
  | _ => old

/-- The workspace that being in a list means. -/
def ListRef.workspace (t : Tree) : ListRef → Option WsId
  | .tiling w => some w
  | .floating w => some w
  | .children p => (t.con p).workspace

/-- Put a container into a list: `list_insert` or `list_add`, the two links, and `set_workspace`
on everything below. -/
def attach (t : Tree) (r : ListRef) (index : Int) (c : ConId) : Tree :=
  let t := t.modList r fun l => listInsert l index c
  let t := t.modCon c fun k => { k with parent := r.parent k.parent, workspace := r.workspace t }
  t.setWorkspaceBelow c

/-- A fresh container, as `container_create` makes it. -/
def create (t : Tree) (view : Option View) : Tree :=
  { t.modCon t.nextCon fun _ =>
      { view, parent := none, workspace := none, children := [], isSticky := false,
        scratchpad := false, destroying := false } with nextCon := t.nextCon + 1 }

end Tree

end Swirl

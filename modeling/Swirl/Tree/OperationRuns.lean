import Swirl.Tree.Replacing

set_option autoImplicit false

/-! # Runs of the tree operations

From a well-formed tree, sequences of the twelve operations keep the lists and the back pointers in
agreement when every step meets its condition, `TreeOp.Keeps`. There are three ways to miss it. A
container below a hidden scratchpad container or a minimized one has a parent and no workspace;
the operations detach a container only when it has a workspace, so this one ends up in two lists.
`workspace_insert_column` puts a floating container without a view that is on the workspace already
into the row and leaves it among the floating ones. `workspace_insert_window` inserts behind the
end of a column when it drops a window after something that is not a child of the column.
-/

namespace Swirl

open Lib

/-! ## What the lists and the back pointers say -/

/-- Every container is in exactly the one list its back pointers name, and on the workspace of its
top-level ancestor. -/
structure Accurate (t : Tree) : Prop where
  once : ∀ r, (t.items r).Nodup
  child : ∀ c p, (t.con c).parent = some p → ∀ r, c ∈ t.items r ↔ r = .children p
  top : ∀ c w, (t.con c).parent = none → (t.con c).workspace = some w →
    (∀ r, c ∈ t.items r ↔ r = .tiling w) ∨ ∀ r, c ∈ t.items r ↔ r = .floating w
  nowhere : ∀ c, (t.con c).parent = none → (t.con c).workspace = none → ∀ r, c ∉ t.items r
  workspace : ∀ c, (t.con c).workspace = (t.con (containerToplevelAncestor t c)).workspace

/-- **A well-formed tree is accurate.** -/
theorem Tree.WellFormedBut.accurate {t : Tree} (h : t.WellFormed) : Accurate t where
  once := h.linked.nodup
  child c p hp r := by
    have hc : c ∈ t.items (.children p) := h.child c p hp
    refine ⟨fun hr => h.linked.unique hr hc, ?_⟩
    rintro rfl
    exact hc
  top c w hp hw := by
    have honly : ∀ r, c ∈ t.items r → ∀ q, c ∈ t.items q ↔ q = r := by
      intro r hr q
      refine ⟨fun hq => h.linked.unique hq hr, ?_⟩
      rintro rfl
      exact hr
    exact (h.top c w id hp hw).imp (honly (.tiling w)) (honly (.floating w))
  nowhere c hp hw := (h.free_of_nowhere hp hw).unlisted
  workspace c := (h.workspace_toplevel c).symm

/-- No container is in two lists. -/
theorem Accurate.unique {t : Tree} (h : Accurate t) {c : ConId} {q r : Tree.ListRef}
    (hq : c ∈ t.items q) (hr : c ∈ t.items r) : q = r := by
  cases hp : (t.con c).parent with
  | some p => exact ((h.child c p hp q).mp hq).trans ((h.child c p hp r).mp hr).symm
  | none =>
      cases hw : (t.con c).workspace with
      | none => exact absurd hq (h.nowhere c hp hw q)
      | some w =>
          rcases h.top c w hp hw with honly | honly
          · exact ((honly q).mp hq).trans ((honly r).mp hr).symm
          · exact ((honly q).mp hq).trans ((honly r).mp hr).symm

/-! ## The operations -/

/-- The operations on the tree. -/
inductive TreeOp where
  | addChild (p c : ConId)
  | insertChild (p c : ConId) (index : Int)
  | addSibling (fixed active : ConId) (after : Bool)
  | detach (c : ConId)
  | replace (c replacement : ConId)
  | flatten (c : ConId)
  | addTiling (w : WsId) (c : ConId)
  | addFloating (w : WsId) (c : ConId)
  | insertColumn (w : WsId) (c : ConId) (index : Int)
  | insertWindow (w : WsId) (view target : ConId) (edge : Edge) (after : Bool)
  | swapColumns (a b : ConId)
  | swapFloating (a b : ConId)

/-- What an operation does. -/
def TreeOp.run (fo : FocusOps) (s : State) : TreeOp → State
  | .addChild p c => containerAddChild fo s p c
  | .insertChild p c index => containerInsertChild fo s p c index
  | .addSibling fixed active after => containerAddSibling fo s fixed active after
  | .detach c => containerDetach s c
  | .replace c replacement => containerReplace fo s c replacement
  | .flatten c => containerFlatten fo s c
  | .addTiling w c => workspaceAddTiling fo s w c
  | .addFloating w c => workspaceAddFloating fo s w c
  | .insertColumn w c index => workspaceInsertColumn fo s w c index
  | .insertWindow w view target edge after => workspaceInsertWindow fo s w view target edge after
  | .swapColumns a b => workspaceSwapColumns fo s a b
  | .swapFloating a b => workspaceSwapFloating fo s a b

/-- `c` may be put below or beside `p`: it is another container, and not one above. -/
def MayJoin (t : Tree) (p c : ConId) : Prop :=
  p < t.nextCon ∧ c < t.nextCon ∧ p ≠ c ∧ containerHasAncestor t p c = false

/-- What every caller promises: the containers exist, none is put below itself, and the index of
`container_insert_child` is one of the list. -/
def TreeOp.Possible (s : State) : TreeOp → Prop
  | .addChild p c => MayJoin s.tree p c
  | .insertChild p c index =>
      MayJoin s.tree p c ∧ InsertOk ((s.tree.con p).children.erase c) index
  | .addSibling fixed active _ => MayJoin s.tree fixed active
  | .detach _ => True
  | .replace c replacement => MayJoin s.tree c replacement
  | .flatten c => c < s.tree.nextCon
  | .addTiling _ c => c < s.tree.nextCon
  | .addFloating _ c => c < s.tree.nextCon
  | .insertColumn _ c _ => c < s.tree.nextCon
  | .insertWindow _ view target _ _ => view < s.tree.nextCon ∧ target < s.tree.nextCon
  | .swapColumns _ _ => True
  | .swapFloating _ _ => True

/-- The steps that keep the tree well formed. -/
def TreeOp.Keeps (s : State) : TreeOp → Prop
  | .addChild _ c => s.tree.Detachable c
  | .insertChild _ c _ => s.tree.Detachable c
  | .addSibling _ active _ => s.tree.Detachable active
  | .detach _ => True
  | .replace c replacement => CanReplace s.tree c replacement
  | .flatten c =>
      (s.tree.con c).view = none → (s.tree.con c).children.length = 1 → s.tree.Detachable c
  | .addTiling _ c => s.tree.Detachable c
  | .addFloating _ c => s.tree.Detachable c
  | .insertColumn w c _ => (s.tree.con c).view = none → c ∉ (s.tree.ws w).floating
  | .insertWindow w view target edge after =>
      (view ≠ target → DropsInto s view target edge → after = true →
        target ∈ (s.tree.con (containerToplevelAncestor s.tree target)).children) ∧
      (view ≠ target → MovesColumn s view target edge →
        (s.tree.con (containerToplevelAncestor s.tree view)).view = none →
          containerToplevelAncestor s.tree view ∉ (s.tree.ws w).floating)
  | .swapColumns _ _ => True
  | .swapFloating _ _ => True

/-! ## One step -/

section Step

variable {s : State} {p c : ConId}

theorem MayJoin.apart (h : MayJoin s.tree p c) (hs : s.tree.WellFormed) :
    p ≠ c ∧ ¬ s.tree.HangsBelow p c ∧ p < s.tree.nextCon := by
  obtain ⟨hp, -, hne, hanc⟩ := h
  refine ⟨hne, fun hb => ?_, hp⟩
  have hmem := hs.forest.mem_ancestors.mpr hb
  unfold containerHasAncestor at hanc
  exact of_decide_eq_false hanc hmem

/-- After it was detached a container is no longer among the children. -/
theorem children_detachIfPlaced (hs : s.tree.WellFormed) (hc : s.tree.Detachable c) (p : ConId) :
    ((detachIfPlaced s c).tree.con p).children = (s.tree.con p).children.erase c := by
  unfold detachIfPlaced
  split
  next =>
    rw [tree_containerDetach]
    exact Tree.detach_items hs.linked c (.children p)
  next hw =>
    have hnone : (s.tree.con c).workspace = none := by simpa using hw
    have hfree := hs.free_of_nowhere (hc hnone) hnone
    exact (List.erase_of_not_mem (hfree.unlisted (.children p))).symm

/-- **One step keeps the tree well formed.** -/
theorem TreeOp.run_wellFormed {n : Nat} {op : TreeOp} (hs : s.tree.WellFormed)
    (hok : op.Possible s) (hkeep : op.Keeps s) : (op.run (focusOps n) s).tree.WellFormed := by
  have h := focusThins_focusOps n
  cases op with
  | addChild p c =>
      exact (moved_containerAddChild h hs hkeep hok.2.1 (hok.apart hs)).wellFormed.mono
        fun _ hd => hd.1
  | insertChild p c index =>
      obtain ⟨hjoin, hindex⟩ := hok
      rw [← children_detachIfPlaced hs hkeep p] at hindex
      exact (moved_containerInsertChild h hs hkeep hjoin.2.1 hindex
        (hjoin.apart hs)).wellFormed.mono fun _ hd => hd.1
  | addSibling fixed active after =>
      obtain ⟨hne, hbelow, -⟩ := hok.apart hs
      exact (moved_containerAddSibling h hs hkeep hok.2.1 ⟨hne, hbelow⟩ after).wellFormed
  | detach c =>
      show (containerDetach s c).tree.WellFormed
      rw [tree_containerDetach]
      exact hs.detach c
  | replace c replacement =>
      obtain ⟨hne, hbelow, hlt⟩ := hok.apart hs
      exact (moved_containerReplace h hs hlt hok.2.1 hne hbelow hkeep).wellFormed
  | flatten c => exact wellFormed_containerFlatten h hs hok hkeep
  | addTiling w c => exact wellFormed_workspaceAddTiling h hs hkeep hok w
  | addFloating w c =>
      exact (moved_workspaceAddFloating h hs hkeep hok w).wellFormed.mono fun _ hd => hd.1
  | insertColumn w c index => exact wellFormed_workspaceInsertColumn h hs hok hkeep index
  | insertWindow w view target edge after =>
      exact wellFormed_workspaceInsertWindow h hs hok.1 hok.2 hkeep.1 hkeep.2
  | swapColumns a b => exact (wellFormed_workspaceSwapColumns h hs a b).1
  | swapFloating a b => exact (wellFormed_workspaceSwapFloating h hs a b).1

end Step

/-! ## Runs -/

/-- **In every run whose steps meet their conditions, the tree stays well formed**, so every
container is in exactly the one list its back pointers name and on the workspace of its top-level
ancestor. -/
theorem treeOps_accurate {n : Nat} {s s' : State} (hs : s.tree.WellFormed)
    (hrun : Run (TreeOp.run (focusOps n)) (fun s op => op.Possible s ∧ op.Keeps s) s s') :
    s'.tree.WellFormed ∧ Accurate s'.tree := by
  have hwf : s'.tree.WellFormed :=
    hrun.invariant (I := fun u => u.tree.WellFormed)
      (fun u op hu hop => TreeOp.run_wellFormed hu hop.1 hop.2) hs
  exact ⟨hwf, hwf.accurate⟩

/-- A column with a window, on a workspace of its own. -/
def oneSplit : State := .outlined [⟨[(0, [1])], []⟩]

theorem wellFormed_oneSplit : oneSplit.tree.WellFormed :=
  Tree.wellFormed_outlined (Tree.linked_outlined (by decide +kernel) (by decide +kernel))
    (by decide +kernel)

/-- The column is made floating, and one of its windows leaves it. -/
theorem treeOps_accurate_oneSplit :
    (containerDetach (workspaceAddFloating (focusOps 1) oneSplit 0 0) 1).tree.WellFormed ∧
      Accurate (containerDetach (workspaceAddFloating (focusOps 1) oneSplit 0 0) 1).tree := by
  refine treeOps_accurate (n := 1) wellFormed_oneSplit
    (Run.step (TreeOp.detach 1) (Run.step (TreeOp.addFloating 0 0) Run.refl ?_) ⟨trivial, trivial⟩)
  refine ⟨?_, ?_⟩
  · show 0 < oneSplit.tree.nextCon
    decide +kernel
  · show oneSplit.tree.Detachable 0
    decide +kernel

/-- Runs without the conditions do not: a column that was made floating is put into the row of its
workspace, and is in both lists. -/
theorem treeOps_two_lists :
    ¬ ∀ (n : Nat) (s s' : State), s.tree.WellFormed →
      Run (TreeOp.run (focusOps n)) (fun s op => op.Possible s) s s' → Accurate s'.tree := by
  intro h
  have hrun : Run (TreeOp.run (focusOps 1)) (fun s op => TreeOp.Possible s op) oneSplit
      (workspaceInsertColumn (focusOps 1) (workspaceAddFloating (focusOps 1) oneSplit 0 0) 0 0 0) := by
    refine Run.step (TreeOp.insertColumn 0 0 0)
      (Run.step (TreeOp.addFloating 0 0) Run.refl ?_) ?_
    · show 0 < oneSplit.tree.nextCon
      decide +kernel
    · show 0 < (workspaceAddFloating (focusOps 1) oneSplit 0 0).tree.nextCon
      decide +kernel
  have hacc := h 1 oneSplit _ wellFormed_oneSplit hrun
  have hunique := hacc.unique (c := 0) (q := .tiling 0) (r := .floating 0) (by decide +kernel)
    (by decide +kernel)
  cases hunique

end Swirl

import Swirl.Tree.View

set_option autoImplicit false

/-! # The two walks over all containers

`root_for_each_container` and `root_find_container` of `root.c`. Both go through the workspaces of
the active outputs, the hidden part of the scratchpad and the workspaces saved on the fallback
output; only the first one goes through the minimize pools.
-/

namespace Swirl

/-! ## Visiting -/

/-- A container and what hangs below it, in the order of the walks. -/
def withDescendants (t : Tree) (c : ConId) : List ConId := c :: t.descendants c

/-- `workspace_for_each_container`, as the list of the containers it visits. -/
def workspaceForEachContainer (t : Tree) (w : WsId) : List ConId :=
  (t.ws w).tiling.flatMap (withDescendants t) ++ (t.ws w).floating.flatMap (withDescendants t)

/-- `output_for_each_container` -/
def outputForEachContainer (t : Tree) (o : OutId) : List ConId :=
  (t.workspaces o).flatMap (workspaceForEachContainer t)

/-- The loop over the scratchpad: what is shown there is on a workspace. -/
def scratchpadForEachContainer (t : Tree) : List ConId :=
  (t.scratchpad.filter (containerIsScratchpadHidden t)).flatMap (withDescendants t)

/-- The loop over the minimize pools of the active outputs. -/
def poolsForEachContainer (t : Tree) (p : Pool) : List ConId :=
  t.outputs.flatMap fun o =>
    (t.workspaces o).flatMap fun w => (p.pool w).flatMap (withDescendants t)

/-- `root_for_each_container` -/
def rootForEachContainer (t : Tree) (p : Pool) : List ConId :=
  t.outputs.flatMap (outputForEachContainer t) ++ scratchpadForEachContainer t ++
    poolsForEachContainer t p ++ outputForEachContainer t t.fallbackOutput

/-! ## Finding -/

/-- The body of the loops: a container, then what hangs below it. -/
def findFrom (t : Tree) (test : ConId → Bool) (c : ConId) : Option ConId :=
  if test c then some c else containerFindChild t c test

/-- `workspace_find_container` -/
def workspaceFindContainer (t : Tree) (test : ConId → Bool) (w : WsId) : Option ConId :=
  match (t.ws w).tiling.findSome? (findFrom t test) with
  | some c => some c
  | none => (t.ws w).floating.findSome? (findFrom t test)

/-- `output_find_container` -/
def outputFindContainer (t : Tree) (test : ConId → Bool) (o : OutId) : Option ConId :=
  (t.workspaces o).findSome? (workspaceFindContainer t test)

/-- `root_find_container` -/
def rootFindContainer (t : Tree) (test : ConId → Bool) : Option ConId :=
  match t.outputs.findSome? (outputFindContainer t test) with
  | some c => some c
  | none =>
      match (t.scratchpad.filter (containerIsScratchpadHidden t)).findSome? (findFrom t test) with
      | some c => some c
      | none => outputFindContainer t test t.fallbackOutput

/-! ## What is found -/

/-- The containers `root_find_container` looks at. -/
def rootSearched (t : Tree) : List ConId :=
  t.outputs.flatMap (outputForEachContainer t) ++ scratchpadForEachContainer t ++
    outputForEachContainer t t.fallbackOutput

section Find

variable (t : Tree) (test : ConId → Bool)

theorem findFrom_eq (c : ConId) : findFrom t test c = (withDescendants t c).find? test := by
  unfold findFrom withDescendants containerFindChild
  rw [List.find?_cons]
  cases test c <;> rfl

/-- A search through lists, one after the other, is a search through all of them. -/
theorem findSome_find {α : Type} (f : α → List ConId) (l : List α) :
    (l.findSome? fun a => (f a).find? test) = (l.flatMap f).find? test := by
  induction l with
  | nil => rfl
  | cons a l ih =>
      rw [List.findSome?_cons, List.flatMap_cons, List.find?_append, ih]
      cases (f a).find? test <;> rfl

theorem findSome_findFrom (l : List ConId) :
    l.findSome? (findFrom t test) = (l.flatMap (withDescendants t)).find? test := by
  rw [← findSome_find]
  congr 1
  funext c
  exact findFrom_eq t test c

theorem workspaceFindContainer_eq (w : WsId) :
    workspaceFindContainer t test w = (workspaceForEachContainer t w).find? test := by
  unfold workspaceFindContainer workspaceForEachContainer
  rw [findSome_findFrom, findSome_findFrom, List.find?_append]
  cases ((t.ws w).tiling.flatMap (withDescendants t)).find? test <;> rfl

theorem outputFindContainer_eq (o : OutId) :
    outputFindContainer t test o = (outputForEachContainer t o).find? test := by
  unfold outputFindContainer outputForEachContainer
  rw [← findSome_find]
  congr 1
  funext w
  exact workspaceFindContainer_eq t test w

/-- **The search finds the first hit** among the containers it looks at. -/
theorem rootFindContainer_eq : rootFindContainer t test = (rootSearched t).find? test := by
  have houtputs : t.outputs.findSome? (outputFindContainer t test) =
      (t.outputs.flatMap (outputForEachContainer t)).find? test := by
    rw [← findSome_find]
    congr 1
    funext o
    exact outputFindContainer_eq t test o
  unfold rootFindContainer rootSearched
  rw [houtputs, findSome_findFrom, outputFindContainer_eq, List.find?_append, List.find?_append]
  cases (t.outputs.flatMap (outputForEachContainer t)).find? test with
  | some c => rfl
  | none =>
      rw [Option.none_or]
      unfold scratchpadForEachContainer
      generalize List.find? test (List.flatMap _ _) = hidden
      cases hidden <;> rfl

end Find

section Agree

variable {t : Tree} {p : Pool} {test : ConId → Bool}

theorem rootFindContainer_isSome :
    (rootFindContainer t test).isSome ↔ ∃ c ∈ rootSearched t, test c := by
  rw [rootFindContainer_eq, List.find?_isSome]

/-- The other walk visits what the search looks at, and the minimize pools. -/
theorem mem_rootForEachContainer {c : ConId} :
    c ∈ rootForEachContainer t p ↔ c ∈ rootSearched t ∨ c ∈ poolsForEachContainer t p := by
  simp only [rootForEachContainer, rootSearched, List.mem_append]
  tauto

/-- **The two walks agree on a predicate** exactly when it does not single out minimized windows:
when it holds of a container in a pool, it also holds of one outside the pools. -/
theorem rootFindContainer_agrees_iff :
    ((rootFindContainer t test).isSome ↔ ∃ c ∈ rootForEachContainer t p, test c) ↔
      ((∃ c ∈ poolsForEachContainer t p, test c) → ∃ c ∈ rootSearched t, test c) := by
  rw [rootFindContainer_isSome]
  constructor
  · rintro h ⟨c, hc, htest⟩
    exact h.mpr ⟨c, mem_rootForEachContainer.mpr (Or.inr hc), htest⟩
  · intro h
    constructor
    · rintro ⟨c, hc, htest⟩
      exact ⟨c, mem_rootForEachContainer.mpr (Or.inl hc), htest⟩
    · rintro ⟨c, hc, htest⟩
      rcases mem_rootForEachContainer.mp hc with hc | hc
      · exact ⟨c, hc, htest⟩
      · exact h ⟨c, hc, htest⟩

end Agree

/-! ## A minimized window -/

/-- The compositor at the start, on a screen of 1000 by 800 pixels. -/
def freshState : State := .start configDefaults ⟨0, 0, 1000, 800⟩

/-- A window opens on a workspace, tiled, and takes the focus. -/
def MapRequest.plain (w : WsId) : MapRequest where
  view := View.plain
  workspace := w
  wantsFloating := false
  fullscreen := false
  decoration := false
  noFocus := false
  takesInput := true

/-- A window, container `0`, has opened. -/
def windowOpened : State := viewMap (focusOps 3) freshState (.plain 0)

/-- Two windows have opened, and the first one, container `0`, was minimized. -/
def oneMinimized : State :=
  let fo := focusOps 3
  workspaceMinimizedHide fo (viewMap fo (viewMap fo freshState (.plain 0)) (.plain 0)) 0

/-- The walks do not agree on every predicate: the minimized window is visited and not found. -/
theorem rootFindContainer_misses :
    ¬ ((rootFindContainer oneMinimized.tree fun c => decide (c = 0)).isSome ↔
      ∃ c ∈ rootForEachContainer oneMinimized.tree oneMinimized.pool, decide (c = 0)) := by
  decide +kernel

end Swirl

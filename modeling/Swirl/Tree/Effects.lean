import Swirl.Tree.Destroy
import Swirl.Tree.Links

set_option autoImplicit false

/-! # What a change of focus does to the tree

The links, the pools and the maximize records of a state are its `core`. A change of focus touches
the core in few ways: a sticky container moves to another workspace, an empty workspace goes, a
container leaves its pool. `Thin K D` lists these steps, with the containers in `K` marked as
destroyed and those in `D` detached, and `Thins` chains them. Every function that only focuses,
detaches or destroys is such a chain (`Swirl/Input/FocusEffects.lean`), and what the steps keep is
proved once, here.
-/

namespace Swirl

/-- What a workspace's geometry is computed from, and the width it has. -/
structure Extent where
  width : Int
  gapsInner : Int
  gapsOuter : SideGaps

def WsGeometry.extent (g : WsGeometry) : Extent := ⟨g.width, g.gapsInner, g.gapsOuter⟩

/-- The part of a state that the invariants are about. -/
structure Core where
  tree : Tree
  pool : Pool
  max : ConId → MaxState
  deco : ConId → Decoration
  extent : WsId → Extent
  outGeo : OutId → OutGeometry
  config : Config
  faults : List Fault

def State.core (s : State) : Core :=
  ⟨s.tree, s.pool, s.max, s.deco, fun w => (s.wsGeo w).extent, s.outGeo, s.config, s.faults⟩

/-! ## Updates that leave the core alone -/

section Same

variable (s : State)

@[simp] theorem core_tree : s.core.tree = s.tree := rfl
@[simp] theorem core_pool : s.core.pool = s.pool := rfl
@[simp] theorem core_max : s.core.max = s.max := rfl
@[simp] theorem core_deco : s.core.deco = s.deco := rfl
@[simp] theorem core_extent (w : WsId) : s.core.extent w = (s.wsGeo w).extent := rfl
@[simp] theorem core_outGeo : s.core.outGeo = s.outGeo := rfl
@[simp] theorem core_config : s.core.config = s.config := rfl
@[simp] theorem core_faults : s.core.faults = s.faults := rfl
@[simp] theorem core_modTree (f : Tree → Tree) :
    (s.modTree f).core = { s.core with tree := f s.tree } := rfl
@[simp] theorem core_modGeo (c : ConId) (f : Geometry → Geometry) :
    (s.modGeo c f).core = s.core := rfl
@[simp] theorem core_modSeat (k : SeatId) (f : Seat → Seat) : (s.modSeat k f).core = s.core := rfl
@[simp] theorem core_setMode (c : ConId) (m : FullscreenMode) : (s.setMode c m).core = s.core := rfl
@[simp] theorem core_setWsFullscreen (w : WsId) (fs : Option ConId) :
    (s.setWsFullscreen w fs).core = s.core := rfl
@[simp] theorem core_setFullscreenGlobal (fs : Option ConId) :
    (s.setFullscreenGlobal fs).core = s.core := rfl
@[simp] theorem core_seatSetRawFocus (k : SeatId) (node : Node) :
    (seatSetRawFocus s k node).core = s.core := rfl
@[simp] theorem core_seatNodeDestroy (k : SeatId) (node : Node) :
    (seatNodeDestroy s k node).core = s.core := rfl
@[simp] theorem core_restoreSavedBox (c : ConId) : (restoreSavedBox s c).core = s.core := rfl
@[simp] theorem core_saveBox (c : ConId) : (saveBox s c).core = s.core := rfl

end Same

/-- The geometry of a workspace changes. -/
theorem core_modWsGeo (s : State) (w : WsId) (f : WsGeometry → WsGeometry) :
    (s.modWsGeo w f).core =
      { s.core with
        extent := Function.update s.core.extent w (f (s.wsGeo w)).extent } := by
  have hextent : (fun v => ((s.modWsGeo w f).wsGeo v).extent) =
      Function.update (fun v => (s.wsGeo v).extent) w (f (s.wsGeo w)).extent := by
    funext v
    by_cases h : v = w
    · subst h; simp [State.modWsGeo]
    · simp [State.modWsGeo, Function.update_of_ne h]
  unfold State.core
  rw [hextent]
  rfl

/-- What does not touch the extent of a workspace leaves the core alone. -/
theorem core_modWsGeo_of_extent (s : State) (w : WsId) (f : WsGeometry → WsGeometry)
    (hf : (f (s.wsGeo w)).extent = (s.wsGeo w).extent) : (s.modWsGeo w f).core = s.core := by
  rw [core_modWsGeo, hf, ← core_extent, Function.update_eq_self]

@[simp] theorem core_workspaceUpdateFocusedColumnIdx (s : State) (w : WsId) :
    (workspaceUpdateFocusedColumnIdx s w).core = s.core :=
  core_modWsGeo_of_extent s w _ rfl

theorem OnlyGeometry.core {s s' : State} (h : OnlyGeometry s s') : s'.core = s.core := by
  unfold OnlyGeometry at h
  rw [← h]
  rfl

@[simp] theorem core_arrangeContainer (s : State) (c : ConId) :
    (arrangeContainer s c).core = s.core := (onlyGeometry_arrangeContainer s c).core

@[simp] theorem core_containerFloatingResizeAndCenter (s : State) (c : ConId) :
    (containerFloatingResizeAndCenter s c).core = s.core :=
  (onlyGeometry_containerFloatingResizeAndCenter s c).core

@[simp] theorem core_containerFloatingMoveToCenter (s : State) (c : ConId) :
    (containerFloatingMoveToCenter s c).core = s.core :=
  (onlyGeometry_containerFloatingMoveToCenter s c).core

/-- A fold of steps that leave the core alone leaves it alone. -/
theorem core_foldl {α : Type} (f : State → α → State) (hf : ∀ s a, (f s a).core = s.core)
    (l : List α) (s : State) : (l.foldl f s).core = s.core := by
  induction l generalizing s with
  | nil => rfl
  | cons a l ih => rw [List.foldl_cons, ih, hf]

@[simp] theorem core_emitNewNode (s : State) (node : Node) : (emitNewNode s node).core = s.core := by
  unfold emitNewNode
  refine core_foldl _ ?_ _ _
  intro s k
  rfl

@[simp] theorem core_clearFullscreen (s : State) (c : ConId) :
    (clearFullscreen s c).core = s.core := by
  have hws : ∀ t : State, (if holdsFullscreen t.tree c t.full.global then
      t.setFullscreenGlobal none else t).core = t.core := by
    intro t
    split <;> rfl
  unfold clearFullscreen
  rw [hws]
  split
  · split <;> rfl
  · rfl

/-! ## The edits on the core -/

/-- The width that an arrange pass gives a workspace, on an output of this usable width. -/
def arrangedWidth (config : Config) (e : Extent) (usable : Int) (single : Bool) : Int :=
  if config.smartGaps = .on ∧ single then usable
  else
    let g : SideGaps :=
      if config.smartGaps = .inverseOuter ∧ single = false then ⟨0, 0, 0, 0⟩ else e.gapsOuter
    let cut := clampGaps usable minSaneW (max 0 (g.left + e.gapsInner))
      (max 0 (g.right + e.gapsInner))
    usable - (cut.1 + cut.2)

namespace Core

def detach (k : Core) (c : ConId) : Core := { k with tree := k.tree.detach c }

def attach (k : Core) (r : Tree.ListRef) (index : Int) (c : ConId) : Core :=
  { k with tree := k.tree.attach r index c }

/-- A container leaves its pool. -/
def unpark (k : Core) (c : ConId) : Core :=
  let pool :=
    match minimizedOwner k.tree k.pool c with
    | some w => Function.update k.pool.pool w ((k.pool.pool w).erase c)
    | none => k.pool.pool
  { k with
    pool := { k.pool with pool, minimized := Function.update k.pool.minimized c false } }

/-- The guard of the functions that put a container into the tree. -/
def unparkMinimized (k : Core) (c : ConId) : Core :=
  if k.pool.minimized c then k.unpark c else k

/-- A container goes to the floating list of a workspace. -/
def refloat (k : Core) (w : WsId) (c : ConId) : Core :=
  let k := (k.detach c).unparkMinimized c
  k.attach (.floating w) (k.tree.ws w).floating.length c

/-- A container is marked as destroyed. -/
def kill (k : Core) (c : ConId) : Core :=
  { k with tree := k.tree.modCon c fun l => { l with destroying := true } }

/-- A workspace leaves its output and is marked as destroyed. -/
def endWorkspace (k : Core) (w : WsId) : Core :=
  let t :=
    match (k.tree.ws w).output with
    | some o =>
        (k.tree.modWorkspaces o fun l => l.erase w).modWs w fun l => { l with output := none }
    | none => k.tree
  { k with tree := t.modWs w fun l => { l with destroying := true } }

/-- An arrange pass sets the width of a workspace that is on an output. -/
def measure (k : Core) (w : WsId) (single : Bool) : Core :=
  if k.config.reloading then k
  else
    match (k.tree.ws w).output with
    | none => k
    | some o =>
        { k with
          extent := Function.update k.extent w
            { k.extent w with
              width := arrangedWidth k.config (k.extent w) (k.outGeo o).usableArea.width single } }

/-- A container leaves the scratchpad. -/
def unscratch (k : Core) (c : ConId) : Core :=
  { k with
    tree := { k.tree.modCon c fun l => { l with scratchpad := false } with
      scratchpad := k.tree.scratchpad.erase c } }

end Core

@[simp] theorem core_containerDetach (s : State) (c : ConId) :
    (containerDetach s c).core = s.core.detach c := by
  have h := core_clearFullscreen s c
  have htree : (clearFullscreen s c).tree = s.tree := congrArg Core.tree h
  unfold containerDetach
  rw [core_modTree, h, htree]
  rfl

theorem core_unpark (s : State) (c : ConId) :
    (unpark s c).core = s.core.unparkMinimized c := by
  unfold unpark Core.unparkMinimized
  rw [core_pool]
  split
  · unfold workspaceMinimizedRemove Core.unpark workspaceMinimizedOwner
    simp only [core_tree, core_pool]
    cases minimizedOwner s.tree s.pool c <;> rfl
  · rfl

/-! ## The arrange pass -/

theorem core_workspaceAddGaps (s : State) (w : WsId) :
    ∃ single, (workspaceAddGaps s w).core =
      { s.core with
        extent := Function.update s.core.extent w
          { s.core.extent w with
            width := arrangedWidth s.config (s.core.extent w) (s.wsGeo w).width single } } := by
  refine ⟨workspaceHasSingleVisibleContainer s w, ?_⟩
  have hw : (s.wsGeo w).width - ((currentGaps s w).left + (currentGaps s w).right) =
      arrangedWidth s.config (s.core.extent w) (s.wsGeo w).width
        (workspaceHasSingleVisibleContainer s w) := by
    unfold currentGaps arrangedWidth
    dsimp only [core_extent, WsGeometry.extent]
    split <;> simp
  unfold workspaceAddGaps
  rw [core_modWsGeo, ← hw]
  rfl

theorem core_fixFloaters (s : State) (w : WsId) (o : OutId) (prevBox : Box) :
    (fixFloaters s w o prevBox).core = s.core := (onlyGeometry_fixFloaters s w o prevBox).core

/-- **The arrange pass sets the width of its workspace**, as far as the core goes. -/
theorem core_arrangeWorkspace (s : State) (w : WsId) :
    ∃ single, (arrangeWorkspace s w).core = s.core.measure w single := by
  unfold arrangeWorkspace
  by_cases hr : s.config.reloading = true
  · refine ⟨false, ?_⟩
    rw [if_pos hr]
    exact (if_pos hr).symm
  · rw [if_neg hr]
    cases ho : (s.tree.ws w).output with
    | none =>
        refine ⟨false, ?_⟩
        rw [Core.measure, core_tree, ho]
        exact (if_neg hr).symm
    | some o =>
        dsimp only
        rw [(onlyGeometry_arrangeContents _ w o).core]
        -- before the gaps the workspace has the usable area of the output
        set f : WsGeometry → WsGeometry := fun k =>
          { k with
            width := (s.outGeo o).usableArea.width, height := (s.outGeo o).usableArea.height,
            x := ((s.outGeo o).lx : ℚ) + (s.outGeo o).usableArea.x,
            y := ((s.outGeo o).ly : ℚ) + (s.outGeo o).usableArea.y } with hf
        have key : ∀ t : State, t.core = (s.modWsGeo w f).core →
            ∃ single, (workspaceAddGaps t w).core = s.core.measure w single := by
          intro t hcore
          rw [core_modWsGeo] at hcore
          have hext : t.core.extent w = (f (s.wsGeo w)).extent := by
            rw [hcore]
            exact Function.update_self _ _ _
          have hconfig : t.config = s.config := congrArg Core.config hcore
          have hwidth : (t.wsGeo w).width = (s.outGeo o).usableArea.width :=
            congrArg Extent.width hext
          obtain ⟨single, hgaps⟩ := core_workspaceAddGaps t w
          refine ⟨single, ?_⟩
          rw [hgaps, hwidth, hconfig, hext, hcore, Core.measure, core_tree, ho]
          refine Eq.trans ?_ (if_neg hr).symm
          dsimp only
          rw [Function.update_idem]
          rfl
        refine key _ ?_
        split
        · exact core_fixFloaters _ w o _
        · rfl

/-! ## What the edits do to the tree -/

namespace Core

@[simp] theorem detach_tree (k : Core) (c : ConId) : (k.detach c).tree = k.tree.detach c := rfl
@[simp] theorem detach_pool (k : Core) (c : ConId) : (k.detach c).pool = k.pool := rfl
@[simp] theorem unpark_tree (k : Core) (c : ConId) : (k.unpark c).tree = k.tree := rfl

@[simp] theorem unparkMinimized_tree (k : Core) (c : ConId) :
    (k.unparkMinimized c).tree = k.tree := by
  unfold unparkMinimized
  split <;> rfl

@[simp] theorem measure_tree (k : Core) (w : WsId) (single : Bool) :
    (k.measure w single).tree = k.tree := by
  unfold measure
  split
  · rfl
  · split <;> rfl

@[simp] theorem measure_pool (k : Core) (w : WsId) (single : Bool) :
    (k.measure w single).pool = k.pool := by
  unfold measure
  split
  · rfl
  · split <;> rfl

theorem refloat_tree (k : Core) (w : WsId) (c : ConId) :
    (k.refloat w c).tree =
      (k.tree.detach c).attach (.floating w) ((k.tree.detach c).ws w).floating.length c := by
  simp [refloat, attach]

@[simp] theorem kill_items (k : Core) (c : ConId) (r : Tree.ListRef) :
    (k.kill c).tree.items r = k.tree.items r :=
  Tree.items_modCon k.tree c (fun l => { l with destroying := true }) rfl r

@[simp] theorem unscratch_items (k : Core) (c : ConId) (r : Tree.ListRef) :
    (k.unscratch c).tree.items r = k.tree.items r :=
  Tree.items_modCon k.tree c (fun l => { l with scratchpad := false }) rfl r

@[simp] theorem endWorkspace_con (k : Core) (w : WsId) :
    (k.endWorkspace w).tree.con = k.tree.con := by
  unfold endWorkspace
  dsimp only
  split <;> rfl

@[simp] theorem endWorkspace_items (k : Core) (w : WsId) (r : Tree.ListRef) :
    (k.endWorkspace w).tree.items r = k.tree.items r := by
  unfold endWorkspace
  dsimp only
  cases r with
  | children p => split <;> rfl
  | tiling v =>
      by_cases h : v = w
      · subst h; split <;> simp [Tree.items, Tree.modWs, Tree.modWorkspaces]
      · split <;> simp [Tree.items, Tree.modWs, Tree.modWorkspaces, Function.update_of_ne h]
  | floating v =>
      by_cases h : v = w
      · subst h; split <;> simp [Tree.items, Tree.modWs, Tree.modWorkspaces]
      · split <;> simp [Tree.items, Tree.modWs, Tree.modWorkspaces, Function.update_of_ne h]

/-- Moving a floating container leaves the tiled and the child lists alone, but for the
container. -/
theorem refloat_items_sublist (k : Core) (w : WsId) (c : ConId) (r : Tree.ListRef)
    (hr : ∀ v, r ≠ .floating v) : ((k.refloat w c).tree.items r).Sublist (k.tree.items r) := by
  rw [refloat_tree, Tree.attach_items, if_neg (hr w)]
  exact Tree.detach_items_sublist k.tree c r

theorem unpark_pool_sublist (k : Core) (c : ConId) (w : WsId) :
    ((k.unpark c).pool.pool w).Sublist (k.pool.pool w) := by
  unfold unpark
  dsimp only
  split
  next v _ =>
    by_cases h : w = v
    · subst h; simpa using List.erase_sublist
    · simp [Function.update_of_ne h]
  next => exact List.Sublist.refl _

theorem unparkMinimized_pool_sublist (k : Core) (c : ConId) (w : WsId) :
    ((k.unparkMinimized c).pool.pool w).Sublist (k.pool.pool w) := by
  unfold unparkMinimized
  split
  · exact unpark_pool_sublist k c w
  · exact List.Sublist.refl _

end Core

/-! ## The steps -/

/-- One step of thinning out: containers in `K` may be marked as destroyed, containers in `D` may
be detached. -/
inductive Thin (K D : ConId → Prop) : Core → Core → Prop
  | refloat {k : Core} (v w : WsId) (c : ConId) (h : c ∈ (k.tree.ws v).floating) :
      Thin K D k (k.refloat w c)
  | unpark (k : Core) (c : ConId) : Thin K D k (k.unpark c)
  | endWorkspace {k : Core} (w : WsId) (ht : (k.tree.ws w).tiling = [])
      (hp : k.pool.pool w = []) : Thin K D k (k.endWorkspace w)
  | kill (k : Core) {c : ConId} (h : K c) : Thin K D k (k.kill c)
  | detach (k : Core) {c : ConId} (h : D c) : Thin K D k (k.detach c)
  | unscratch (k : Core) {c : ConId} (h : K c) : Thin K D k (k.unscratch c)
  | measure (k : Core) (w : WsId) (single : Bool) : Thin K D k (k.measure w single)

/-- A chain of steps of thinning out. -/
def Thins (K D : ConId → Prop) : Core → Core → Prop := Relation.ReflTransGen (Thin K D)

/-- No container. -/
def Nobody : ConId → Prop := fun _ => False

namespace Thins

variable {K D K' D' : ConId → Prop} {k k' k'' : Core}

theorem refl (k : Core) : Thins K D k k := Relation.ReflTransGen.refl

theorem of_eq (h : k' = k) : Thins K D k k' := by
  rw [h]
  exact refl k

theorem trans (h : Thins K D k k') (h' : Thins K D k' k'') : Thins K D k k'' :=
  Relation.ReflTransGen.trans h h'

theorem single (h : Thin K D k k') : Thins K D k k' := Relation.ReflTransGen.single h

theorem mono (h : Thins K D k k') (hK : ∀ c, K c → K' c) (hD : ∀ c, D c → D' c) :
    Thins K' D' k k' := by
  have hstep : ∀ a b, Thin K D a b → Thin K' D' a b := ?_
  · exact Relation.ReflTransGen.mono hstep _ _ h
  intro a b hab
  cases hab with
  | refloat v w c h => exact .refloat v w c h
  | unpark c => exact .unpark _ c
  | endWorkspace w ht hp => exact .endWorkspace w ht hp
  | kill h => exact .kill _ (hK _ h)
  | detach h => exact .detach _ (hD _ h)
  | unscratch h => exact .unscratch _ (hK _ h)
  | measure w single => exact .measure _ w single

theorem of_nobody (h : Thins Nobody Nobody k k') : Thins K D k k' :=
  h.mono (fun _ hc => hc.elim) (fun _ hc => hc.elim)

/-- What every step keeps, a chain keeps. -/
theorem invariant {I : Core → Prop} (hstep : ∀ a b, I a → Thin K D a b → I b)
    (h : Thins K D k k') (hk : I k) : I k' := by
  induction h with
  | refl => exact hk
  | tail _ hab ih => exact hstep _ _ ih hab

/-- A fold of chains is a chain. -/
theorem foldl {α : Type} {f : State → α → State} (hf : ∀ s a, Thins K D s.core (f s a).core)
    (l : List α) (s : State) : Thins K D s.core (l.foldl f s).core := by
  induction l generalizing s with
  | nil => exact refl _
  | cons a l ih => exact (hf s a).trans (ih (f s a))

end Thins

theorem thins_arrangeWorkspace {K D : ConId → Prop} (s : State) (w : WsId) :
    Thins K D s.core (arrangeWorkspace s w).core := by
  obtain ⟨single, h⟩ := core_arrangeWorkspace s w
  rw [h]
  exact Thins.single (Thin.measure _ w single)

theorem thins_arrangeRoot {K D : ConId → Prop} (s : State) :
    Thins K D s.core (arrangeRoot s).core := by
  unfold arrangeRoot
  split
  · exact Thins.refl _
  · dsimp only
    split
    · rw [core_arrangeContainer]
      exact Thins.refl _
    · have houtput : ∀ t o, Thins K D t.core (arrangeOutput t o).core := by
        intro t o
        unfold arrangeOutput
        split
        · exact Thins.refl _
        · exact Thins.foldl (fun u v => thins_arrangeWorkspace u v) _ t
      have hfold := Thins.foldl houtput s.tree.outputs { s with rootBox := s.layoutBox }
      exact hfold

/-! ## What the steps keep -/

section Steps

variable {K D : ConId → Prop} {k k' : Core}

/-- The tiled and the child lists only lose members. -/
theorem Thin.items_sublist (h : Thin K D k k') {r : Tree.ListRef} (hr : ∀ v, r ≠ .floating v) :
    (k'.tree.items r).Sublist (k.tree.items r) := by
  cases h with
  | refloat v w c _ => exact Core.refloat_items_sublist k w c r hr
  | unpark c => exact List.Sublist.refl _
  | endWorkspace w _ _ => rw [Core.endWorkspace_items]
  | kill _ => rw [Core.kill_items]
  | detach _ => exact Tree.detach_items_sublist k.tree _ r
  | unscratch _ => rw [Core.unscratch_items]
  | measure w single => rw [Core.measure_tree]

theorem Thins.items_sublist (h : Thins K D k k') {r : Tree.ListRef} (hr : ∀ v, r ≠ .floating v) :
    (k'.tree.items r).Sublist (k.tree.items r) :=
  h.invariant (I := fun j => (j.tree.items r).Sublist (k.tree.items r))
    (fun _ _ ha hab => (hab.items_sublist hr).trans ha) (List.Sublist.refl _)

/-- The pools only lose members. -/
theorem Thin.pool_sublist (h : Thin K D k k') (w : WsId) :
    (k'.pool.pool w).Sublist (k.pool.pool w) := by
  cases h with
  | refloat v w' c _ => exact Core.unparkMinimized_pool_sublist (k.detach c) c w
  | unpark c => exact Core.unpark_pool_sublist k c w
  | endWorkspace w' _ _ => exact List.Sublist.refl _
  | kill _ => exact List.Sublist.refl _
  | detach _ => exact List.Sublist.refl _
  | unscratch _ => exact List.Sublist.refl _
  | measure w' single => rw [Core.measure_pool]

theorem Thins.pool_sublist (h : Thins K D k k') (w : WsId) :
    (k'.pool.pool w).Sublist (k.pool.pool w) :=
  h.invariant (I := fun j => (j.pool.pool w).Sublist (k.pool.pool w))
    (fun _ _ ha hab => (hab.pool_sublist w).trans ha) (List.Sublist.refl _)

/-- The part of the core that no step writes; a container that is marked stays so. -/
structure Frame (k k' : Core) : Prop where
  view : ∀ c, (k'.tree.con c).view = (k.tree.con c).view
  destroying : ∀ c, (k.tree.con c).destroying → (k'.tree.con c).destroying
  nextCon : k'.tree.nextCon = k.tree.nextCon
  max : k'.max = k.max
  deco : k'.deco = k.deco
  config : k'.config = k.config
  outGeo : k'.outGeo = k.outGeo
  faults : k'.faults = k.faults

theorem Frame.refl (k : Core) : Frame k k := ⟨fun _ => rfl, fun _ h => h, rfl, rfl, rfl, rfl, rfl, rfl⟩

theorem Frame.trans {k k' k'' : Core} (h : Frame k k') (h' : Frame k' k'') : Frame k k'' where
  view c := (h'.view c).trans (h.view c)
  destroying c hc := h'.destroying c (h.destroying c hc)
  nextCon := h'.nextCon.trans h.nextCon
  max := h'.max.trans h.max
  deco := h'.deco.trans h.deco
  config := h'.config.trans h.config
  outGeo := h'.outGeo.trans h.outGeo
  faults := h'.faults.trans h.faults

/-- Rewiring the tree keeps the frame. -/
theorem Tree.Rewired.frame {k : Core} {t : Tree} (h : Tree.Rewired k.tree t) :
    Frame k { k with tree := t } :=
  ⟨h.view, fun c hc => (h.destroying c).trans hc, h.nextCon, rfl, rfl, rfl, rfl, rfl⟩

theorem frame_detach (k : Core) (c : ConId) : Frame k (k.detach c) :=
  (Tree.rewired_detach k.tree c).frame

theorem frame_attach (k : Core) (r : Tree.ListRef) (index : Int) (c : ConId) :
    Frame k (k.attach r index c) := (Tree.rewired_attach k.tree r index c).frame

theorem frame_unpark (k : Core) (c : ConId) : Frame k (k.unpark c) :=
  ⟨fun _ => rfl, fun _ h => h, rfl, rfl, rfl, rfl, rfl, rfl⟩

theorem frame_unparkMinimized (k : Core) (c : ConId) : Frame k (k.unparkMinimized c) := by
  unfold Core.unparkMinimized
  split
  · exact frame_unpark k c
  · exact Frame.refl k

/-- Marking a container writes nothing but its mark. -/
theorem frame_modCon (k : Core) (c : ConId) (f : Links → Links)
    (hview : (f (k.tree.con c)).view = (k.tree.con c).view)
    (hd : (k.tree.con c).destroying → (f (k.tree.con c)).destroying) :
    Frame k { k with tree := k.tree.modCon c f } := by
  refine ⟨fun d => ?_, fun d h => ?_, rfl, rfl, rfl, rfl, rfl, rfl⟩
  · by_cases hdc : d = c
    · subst hdc; simpa [Tree.modCon] using hview
    · simp [Tree.modCon, Function.update_of_ne hdc]
  · by_cases hdc : d = c
    · subst hdc; simpa [Tree.modCon] using hd h
    · simpa [Tree.modCon, Function.update_of_ne hdc] using h

theorem frame_endWorkspace (k : Core) (w : WsId) : Frame k (k.endWorkspace w) := by
  have hcon := Core.endWorkspace_con k w
  refine ⟨fun c => by rw [hcon], fun c h => by rwa [hcon], ?_, rfl, rfl, rfl, rfl, rfl⟩
  unfold Core.endWorkspace
  dsimp only
  split <;> rfl

theorem frame_unscratch (k : Core) (c : ConId) : Frame k (k.unscratch c) := by
  have h := frame_modCon k c (fun l => { l with scratchpad := false }) rfl id
  exact ⟨h.view, h.destroying, rfl, rfl, rfl, rfl, rfl, rfl⟩

theorem frame_measure (k : Core) (w : WsId) (single : Bool) : Frame k (k.measure w single) := by
  unfold Core.measure
  split
  · exact Frame.refl k
  · split
    · exact Frame.refl k
    · exact ⟨fun _ => rfl, fun _ h => h, rfl, rfl, rfl, rfl, rfl, rfl⟩

theorem Thin.frame (h : Thin K D k k') : Frame k k' := by
  cases h with
  | refloat v w c _ =>
      exact ((frame_detach k c).trans (frame_unparkMinimized _ c)).trans (frame_attach _ _ _ c)
  | unpark c => exact frame_unpark k c
  | endWorkspace w _ _ => exact frame_endWorkspace k w
  | kill _ => exact frame_modCon k _ _ rfl fun _ => rfl
  | detach _ => exact frame_detach k _
  | unscratch _ => exact frame_unscratch k _
  | measure w single => exact frame_measure k w single

theorem Thins.frame (h : Thins K D k k') : Frame k k' :=
  h.invariant (I := fun j => Frame k j) (fun _ _ ha hab => ha.trans hab.frame) (Frame.refl k)

/-- Only containers in `K` are marked as destroyed. -/
theorem Thin.destroying_eq (h : Thin K D k k') {c : ConId} (hc : ¬ K c) :
    (k'.tree.con c).destroying = (k.tree.con c).destroying := by
  cases h with
  | refloat v w d _ =>
      rw [Core.refloat_tree]
      exact ((Tree.rewired_detach k.tree d).trans (Tree.rewired_attach _ _ _ d)).destroying c
  | unpark d => rfl
  | endWorkspace w _ _ => rw [Core.endWorkspace_con]
  | @kill d hd =>
      have hne : c ≠ d := fun h => hc (h ▸ hd)
      simp [Core.kill, Tree.modCon, Function.update_of_ne hne]
  | detach _ => exact (Tree.rewired_detach k.tree _).destroying c
  | @unscratch d hd =>
      have hne : c ≠ d := fun h => hc (h ▸ hd)
      simp [Core.unscratch, Tree.modCon, Function.update_of_ne hne]
  | measure w single => rw [Core.measure_tree]

theorem Thins.destroying_eq (h : Thins K D k k') {c : ConId} (hc : ¬ K c) :
    (k'.tree.con c).destroying = (k.tree.con c).destroying :=
  h.invariant (I := fun j => (j.tree.con c).destroying = (k.tree.con c).destroying)
    (fun _ _ ha hab => (hab.destroying_eq hc).trans ha) rfl

/-- The outputs stay. -/
theorem Thins.outputs_eq (h : Thins K D k k') : k'.tree.outputs = k.tree.outputs := by
  refine h.invariant (I := fun j => j.tree.outputs = k.tree.outputs) ?_ rfl
  intro a b ha hab
  refine Eq.trans ?_ ha
  cases hab with
  | refloat v w c _ =>
      rw [Core.refloat_tree]
      exact ((Tree.rewired_detach a.tree c).trans (Tree.rewired_attach _ _ _ c)).outputs
  | unpark c => rfl
  | endWorkspace w _ _ =>
      unfold Core.endWorkspace
      dsimp only
      split <;> rfl
  | kill _ => rfl
  | detach _ => exact (Tree.rewired_detach a.tree _).outputs
  | unscratch _ => rfl
  | measure w single => rw [Core.measure_tree]

end Steps

/-! ## Steps on linked trees -/

namespace Core

theorem kill_parent (k : Core) (c d : ConId) :
    ((k.kill c).tree.con d).parent = (k.tree.con d).parent := by
  by_cases h : d = c
  · subst h; simp [kill, Tree.modCon]
  · simp [kill, Tree.modCon, Function.update_of_ne h]

theorem kill_workspace (k : Core) (c d : ConId) :
    ((k.kill c).tree.con d).workspace = (k.tree.con d).workspace := by
  by_cases h : d = c
  · subst h; simp [kill, Tree.modCon]
  · simp [kill, Tree.modCon, Function.update_of_ne h]

theorem unscratch_parent (k : Core) (c d : ConId) :
    ((k.unscratch c).tree.con d).parent = (k.tree.con d).parent := by
  by_cases h : d = c
  · subst h; simp [unscratch, Tree.modCon]
  · simp [unscratch, Tree.modCon, Function.update_of_ne h]

theorem unscratch_workspace (k : Core) (c d : ConId) :
    ((k.unscratch c).tree.con d).workspace = (k.tree.con d).workspace := by
  by_cases h : d = c
  · subst h; simp [unscratch, Tree.modCon]
  · simp [unscratch, Tree.modCon, Function.update_of_ne h]

/-- A floating container has no parent before it moves and none after. -/
theorem refloat_parent {k : Core} (hk : k.tree.Linked) {v w : WsId} {c : ConId}
    (hc : c ∈ (k.tree.ws v).floating) (d : ConId) :
    ((k.refloat w c).tree.con d).parent = (k.tree.con d).parent := by
  rw [refloat_tree, Tree.attach_parent]
  split
  next h => subst h; rw [Tree.detach_parent_self, (hk.of_floating hc).1]; rfl
  next h => rw [Tree.detach_parent, if_neg h]

theorem refloat_items {k : Core} (hk : k.tree.Linked) {v w : WsId} {c : ConId}
    (hc : c ∈ (k.tree.ws v).floating) {r : Tree.ListRef} (hr : ∀ v, r ≠ .floating v) :
    (k.refloat w c).tree.items r = k.tree.items r := by
  rw [refloat_tree, Tree.attach_items, if_neg (hr w), Tree.detach_items hk]
  refine List.erase_of_not_mem fun hmem => hr v (hk.unique hmem ?_)
  exact hc

end Core

section Linked

variable {K D : ConId → Prop} {k k' : Core}

/-- The steps keep a tree linked. -/
theorem Thin.linked (h : Thin K D k k') (hk : k.tree.Linked) : k'.tree.Linked := by
  cases h with
  | refloat v w c hc =>
      rw [Core.refloat_tree]
      exact (hk.detach c).attach (Tree.not_mem_items_detach hk c)
        (Tree.detach_parent_self k.tree c) _ _
  | unpark c => exact hk
  | endWorkspace w _ _ =>
      exact hk.congr (Core.endWorkspace_items k w) (fun c => by rw [Core.endWorkspace_con])
        (fun c => by rw [Core.endWorkspace_con])
  | kill _ =>
      exact hk.congr (Core.kill_items k _) (Core.kill_parent k _) (Core.kill_workspace k _)
  | detach _ => exact hk.detach _
  | unscratch _ =>
      exact hk.congr (Core.unscratch_items k _) (Core.unscratch_parent k _)
        (Core.unscratch_workspace k _)
  | measure w single => rwa [Core.measure_tree]

theorem Thins.linked (h : Thins K D k k') (hk : k.tree.Linked) : k'.tree.Linked :=
  h.invariant (I := fun j => j.tree.Linked) (fun _ _ ha hab => hab.linked ha) hk

/-- When nothing is detached, the tiled and the child lists stay as they are. -/
theorem Thins.items_eq (h : Thins K Nobody k k') (hk : k.tree.Linked) {r : Tree.ListRef}
    (hr : ∀ v, r ≠ .floating v) : k'.tree.items r = k.tree.items r := by
  refine (h.invariant (I := fun j => j.tree.Linked ∧ j.tree.items r = k.tree.items r) ?_
    ⟨hk, rfl⟩).2
  rintro a b ⟨ha, hitems⟩ hab
  refine ⟨hab.linked ha, Eq.trans ?_ hitems⟩
  cases hab with
  | refloat v w c hc => exact Core.refloat_items ha hc hr
  | unpark c => rfl
  | endWorkspace w _ _ => exact Core.endWorkspace_items a w r
  | kill _ => exact Core.kill_items a _ r
  | detach h => exact h.elim
  | unscratch _ => exact Core.unscratch_items a _ r
  | measure w single => rw [Core.measure_tree]

/-- When nothing is detached, the parents stay as they are. -/
theorem Thins.parent_eq (h : Thins K Nobody k k') (hk : k.tree.Linked) (c : ConId) :
    (k'.tree.con c).parent = (k.tree.con c).parent := by
  refine (h.invariant
    (I := fun j => j.tree.Linked ∧ (j.tree.con c).parent = (k.tree.con c).parent) ?_
    ⟨hk, rfl⟩).2
  rintro a b ⟨ha, hparent⟩ hab
  refine ⟨hab.linked ha, Eq.trans ?_ hparent⟩
  cases hab with
  | refloat v w d hd => exact Core.refloat_parent ha hd c
  | unpark d => rfl
  | endWorkspace w _ _ => rw [Core.endWorkspace_con]
  | kill _ => exact Core.kill_parent a _ c
  | detach h => exact h.elim
  | unscratch _ => exact Core.unscratch_parent a _ c
  | measure w single => rw [Core.measure_tree]

/-- A workspace with columns stays on its output. -/
theorem Thins.output_eq (h : Thins K Nobody k k') (hk : k.tree.Linked) {w : WsId}
    (hw : (k.tree.ws w).tiling ≠ []) : (k'.tree.ws w).output = (k.tree.ws w).output := by
  refine (h.invariant (I := fun j => j.tree.Linked ∧
    j.tree.items (.tiling w) = (k.tree.ws w).tiling ∧
      (j.tree.ws w).output = (k.tree.ws w).output) ?_ ⟨hk, rfl, rfl⟩).2.2
  rintro a b ⟨ha, hitems, hout⟩ hab
  have hsame : b.tree.items (.tiling w) = a.tree.items (.tiling w) :=
    (Thins.single hab).items_eq ha fun _ hr => by cases hr
  refine ⟨hab.linked ha, hsame.trans hitems, Eq.trans ?_ hout⟩
  cases hab with
  | refloat v w' c hc =>
      rw [Core.refloat_tree]
      exact ((Tree.rewired_detach a.tree c).trans (Tree.rewired_attach _ _ _ c)).output w
  | unpark c => rfl
  | endWorkspace v ht _ =>
      -- a workspace that ends is empty
      have hne : w ≠ v := by
        rintro rfl
        exact hw (hitems.symm.trans ht)
      unfold Core.endWorkspace
      dsimp only
      split
      · simp [Tree.modWs, Tree.modWorkspaces, Function.update_of_ne hne]
      · simp [Tree.modWs, Function.update_of_ne hne]
  | kill _ => rfl
  | detach hd => exact hd.elim
  | unscratch _ => rfl
  | measure v single => rw [Core.measure_tree]

end Linked

end Swirl

import Swirl.Lib.Runs
import Swirl.Tree.Arrange

set_option autoImplicit false

/-! # What the arrange pass writes

The arrange functions write geometry and nothing else, and the functions for one container write
the geometry of what hangs below it. `Writes D` is that frame: everything but the container
geometry is as before, and so is the geometry of the containers outside `D`. `OnlyGeometry` is the
frame without the second part.
-/

namespace Swirl

open Lib

/-- `d` hangs below `c`: it is a child, or hangs below one. -/
def Tree.Below (t : Tree) (c d : ConId) : Prop :=
  Relation.TransGen (fun p k => k ∈ (t.con p).children) c d

/-- Only the geometry of the containers in `D` may differ. -/
structure Writes (D : ConId → Prop) (s s' : State) : Prop where
  rest : { s' with geo := s.geo } = s
  geo : ∀ c, ¬ D c → s'.geo c = s.geo c

namespace Writes

variable {D E : ConId → Prop} {s s' s'' : State}

theorem refl (s : State) : Writes D s s := ⟨rfl, fun _ _ => rfl⟩

theorem trans (h : Writes D s s') (h' : Writes D s' s'') : Writes D s s'' where
  rest := by rw [← h.rest, ← h'.rest]
  geo c hc := (h'.geo c hc).trans (h.geo c hc)

theorem mono (h : Writes D s s') (hDE : ∀ c, D c → E c) : Writes E s s' :=
  ⟨h.rest, fun c hc => h.geo c fun hd => hc (hDE c hd)⟩

theorem modGeo (s : State) (c : ConId) (f : Geometry → Geometry) :
    Writes (· = c) s (s.modGeo c f) :=
  ⟨rfl, fun _ hd => Function.update_of_ne hd _ _⟩

theorem tree (h : Writes D s s') : s'.tree = s.tree := by rw [← h.rest]
theorem wsGeo (h : Writes D s s') : s'.wsGeo = s.wsGeo := by rw [← h.rest]
theorem config (h : Writes D s s') : s'.config = s.config := by rw [← h.rest]

/-- A fold writes where its steps write; the steps all see the same tree. -/
theorem foldl {α : Type} {f : State → α → State} {l : List α}
    (hstep : ∀ t, { t with geo := s.geo } = s → ∀ a ∈ l, Writes D t (f t a)) :
    Writes D s (l.foldl f s) := by
  refine foldl_invariant (I := fun t => Writes D s t) f l ?_ (refl s)
  intro t a ha ht
  exact ht.trans (hstep t ht.rest a ha)

end Writes

/-! ## One container -/

theorem writes_viewAutoconfigure (s : State) (c : ConId) :
    Writes (· = c) s (viewAutoconfigure s c) := by
  unfold viewAutoconfigure
  dsimp only
  split
  · exact Writes.refl s
  · split <;> exact Writes.modGeo s c _

theorem writes_applyLinearLayout (a : Axis) (s : State) (children : List ConId) (parent : Box) :
    Writes (· ∈ children) s (applyLinearLayout a s children parent) := by
  unfold applyLinearLayout
  split
  · exact Writes.refl s
  · refine Writes.foldl fun t _ r hr => ?_
    refine (Writes.modGeo t r.1 _).mono ?_
    rintro c rfl
    exact (List.of_mem_zip hr).1

theorem writes_applyBarLayout (bars : Int) (s : State) (children : List ConId) (parent : Box) :
    Writes (· ∈ children) s (applyBarLayout bars s children parent) := by
  refine Writes.foldl fun t _ c hc => ?_
  refine (Writes.modGeo t c _).mono ?_
  rintro d rfl
  exact hc

theorem writes_applyLayout (s : State) (children : List ConId) (layout : Layout) (parent : Box) :
    Writes (· ∈ children) s (applyLayout s children layout parent) := by
  unfold applyLayout
  cases layout with
  | horiz => exact writes_applyLinearLayout .horiz s children parent
  | none => exact writes_applyLinearLayout .horiz s children parent
  | vert => exact writes_applyLinearLayout .vert s children parent
  | tabbed => exact writes_applyBarLayout 1 s children parent
  | stacked => exact writes_applyBarLayout _ s children parent

theorem writes_placeWindow (col : Geometry) (y height : ℚ) (s : State) (c : ConId) :
    Writes (· = c) s (placeWindow col y height s c) := by
  unfold placeWindow
  dsimp only
  split
  · exact (Writes.modGeo s c _).trans (writes_viewAutoconfigure _ c)
  · exact Writes.modGeo s c _

theorem writes_placeWindows (col : Geometry) (gap : ℚ) (rs : List (ConId × ℚ)) (y : ℚ)
    (s : State) : Writes (· ∈ rs.map Prod.fst) s (placeWindows col gap y rs s) := by
  induction rs generalizing y s with
  | nil => exact Writes.refl s
  | cons r rs ih =>
      refine Writes.trans ((writes_placeWindow col y r.2 s r.1).mono ?_) ((ih _ _).mono ?_)
      · rintro c rfl; simp
      · intro c hc; exact List.mem_cons_of_mem _ hc

theorem writes_viewportArrangeWindows (s : State) (col : ConId) :
    Writes (· ∈ (s.tree.con col).children) s (viewportArrangeWindows s col) := by
  unfold viewportArrangeWindows
  dsimp only
  split
  · exact Writes.refl s
  · refine (writes_placeWindows _ _ _ _ s).mono ?_
    intro c hc
    obtain ⟨r, hr, rfl⟩ := List.mem_map.mp hc
    exact (List.of_mem_zip hr).1

/-- `arrange_container` writes below a container, and a view itself. -/
theorem writes_arrangeWithin (n : Nat) (s : State) (c : ConId) :
    Writes (fun d => (d = c ∧ (s.tree.con c).view.isSome) ∨ s.tree.Below c d) s
      (arrangeWithin n s c) := by
  induction n generalizing s c with
  | zero => exact Writes.refl s
  | succ n ih =>
      rw [arrangeWithin]
      split
      · exact Writes.refl s
      · split
        next hview =>
          refine (writes_viewAutoconfigure s c).mono ?_
          rintro d rfl
          exact Or.inl ⟨rfl, hview⟩
        next =>
          split
          next =>
            refine (writes_viewportArrangeWindows s c).mono ?_
            intro d hd
            exact Or.inr (Relation.TransGen.single hd)
          next =>
            dsimp only
            have hlayout := writes_applyLayout s (s.tree.con c).children (s.geo c).layout
              (containerGetBox s c)
            refine (hlayout.mono fun d hd => Or.inr (Relation.TransGen.single hd)).trans ?_
            refine Writes.foldl fun t ht k hk => ?_
            have htree : t.tree = s.tree := by
              rw [← hlayout.tree, ← ht]
            refine (ih t k).mono ?_
            rw [htree]
            rintro d (⟨rfl, -⟩ | hd)
            · exact Or.inr (Relation.TransGen.single hk)
            · exact Or.inr (Relation.TransGen.head hk hd)

theorem writes_arrangeContainer (s : State) (c : ConId) :
    Writes (fun d => (d = c ∧ (s.tree.con c).view.isSome) ∨ s.tree.Below c d) s
      (arrangeContainer s c) := writes_arrangeWithin _ s c

/-! ## The row -/

theorem writes_setColumnBox (w : WsId) (parent : Box) (s : State) (c : ConId)
    (place : Int × Int) : Writes (· = c) s (setColumnBox w parent s c place) := by
  unfold setColumnBox
  exact Writes.modGeo s c _

/-- Arranging a column leaves its own box alone. -/
theorem writes_arrangeColumn (s : State) (c : ConId) :
    Writes (s.tree.Below c) s (arrangeColumn s c) := by
  unfold arrangeColumn
  split
  next => exact Writes.refl s
  next hview =>
    split
    next =>
      exact (writes_viewportArrangeWindows s c).mono fun d hd => Relation.TransGen.single hd
    next =>
      refine (writes_arrangeContainer s c).mono ?_
      rintro d (⟨-, h⟩ | hd)
      · exact absurd h hview
      · exact hd

theorem writes_placeColumn (w : WsId) (parent : Box) (s : State) (r : ConId × Int × Int) :
    Writes (fun d => d = r.1 ∨ s.tree.Below r.1 d) s (placeColumn w parent s r) :=
  ((writes_setColumnBox w parent s r.1 r.2).mono fun _ hd => Or.inl hd).trans
    ((writes_arrangeColumn _ r.1).mono fun _ hd => Or.inr hd)

theorem writes_workspaceArrangeColumns (s : State) (w : WsId) (parent : Box) :
    Writes (fun _ => True) s (workspaceArrangeColumns s w parent) :=
  Writes.foldl fun t _ r _ => (writes_placeColumn w parent t r).mono fun _ _ => trivial

/-! ## Workspaces -/

/-- Only the geometry of containers may differ. -/
def OnlyGeometry (s s' : State) : Prop := { s' with geo := s.geo } = s

namespace OnlyGeometry

variable {s s' s'' : State}

theorem refl (s : State) : OnlyGeometry s s := rfl

theorem trans (h : OnlyGeometry s s') (h' : OnlyGeometry s' s'') : OnlyGeometry s s'' := by
  unfold OnlyGeometry at *
  rw [← h, ← h']

theorem of_writes {D : ConId → Prop} (h : Writes D s s') : OnlyGeometry s s' := h.rest

theorem modGeo (s : State) (c : ConId) (f : Geometry → Geometry) : OnlyGeometry s (s.modGeo c f) :=
  rfl

theorem foldl {α : Type} {f : State → α → State} {l : List α}
    (hstep : ∀ t, ∀ a ∈ l, OnlyGeometry t (f t a)) : OnlyGeometry s (l.foldl f s) :=
  foldl_invariant (I := fun t => OnlyGeometry s t) f l
    (fun t a ha ht => ht.trans (hstep t a ha)) (refl s)

theorem ite {P : Prop} [Decidable P] {t t' : State} (h : OnlyGeometry s t)
    (h' : OnlyGeometry s t') : OnlyGeometry s (if P then t else t') := by
  split
  · exact h
  · exact h'

theorem tree (h : OnlyGeometry s s') : s'.tree = s.tree := by
  unfold OnlyGeometry at h
  rw [← h]

theorem wsGeo (h : OnlyGeometry s s') : s'.wsGeo = s.wsGeo := by
  unfold OnlyGeometry at h
  rw [← h]

theorem full (h : OnlyGeometry s s') : s'.full = s.full := by
  unfold OnlyGeometry at h
  rw [← h]

theorem outGeo (h : OnlyGeometry s s') : s'.outGeo = s.outGeo := by
  unfold OnlyGeometry at h
  rw [← h]

theorem config (h : OnlyGeometry s s') : s'.config = s.config := by
  unfold OnlyGeometry at h
  rw [← h]

theorem max (h : OnlyGeometry s s') : s'.max = s.max := by
  unfold OnlyGeometry at h
  rw [← h]

end OnlyGeometry

theorem onlyGeometry_arrangeContainer (s : State) (c : ConId) :
    OnlyGeometry s (arrangeContainer s c) := .of_writes (writes_arrangeContainer s c)

/-- A container is moved with all that hangs below it. -/
theorem writes_translateWithin (n : Nat) (s : State) (c : ConId) (dx dy : ℚ) :
    Writes (fun d => d = c ∨ s.tree.Below c d) s (translateWithin n s c dx dy) := by
  induction n generalizing s c with
  | zero => exact Writes.refl s
  | succ n ih =>
      have hmod := Writes.modGeo s c fun g => { g with
        x := g.x + dx, y := g.y + dy, contentX := g.contentX + dx, contentY := g.contentY + dy }
      refine (hmod.mono fun d hd => Or.inl hd).trans (Writes.foldl fun t ht k hk => ?_)
      have htree : t.tree = s.tree := by rw [← hmod.tree, ← ht]
      rw [hmod.tree] at hk
      refine (ih t k).mono ?_
      rw [htree]
      rintro d (rfl | hd)
      · exact Or.inr (Relation.TransGen.single hk)
      · exact Or.inr (Relation.TransGen.head hk hd)

theorem onlyGeometry_translateWithin (n : Nat) (s : State) (c : ConId) (dx dy : ℚ) :
    OnlyGeometry s (translateWithin n s c dx dy) := .of_writes (writes_translateWithin n s c dx dy)

theorem writes_containerFloatingMoveToCenter (s : State) (c : ConId) :
    Writes (fun d => d = c ∨ s.tree.Below c d) s (containerFloatingMoveToCenter s c) := by
  unfold containerFloatingMoveToCenter
  split
  · split
    · exact writes_translateWithin _ s c _ _
    · exact Writes.refl s
  · exact Writes.refl s

theorem onlyGeometry_containerFloatingMoveToCenter (s : State) (c : ConId) :
    OnlyGeometry s (containerFloatingMoveToCenter s c) :=
  .of_writes (writes_containerFloatingMoveToCenter s c)

theorem writes_floatingFixCoordinates (s : State) (c : ConId) (old new : Box) :
    Writes (fun d => d = c ∨ s.tree.Below c d) s (floatingFixCoordinates s c old new) := by
  unfold floatingFixCoordinates
  split
  · exact writes_containerFloatingMoveToCenter s c
  · exact (Writes.modGeo s c _).mono fun d hd => Or.inl hd

theorem onlyGeometry_floatingFixCoordinates (s : State) (c : ConId) (old new : Box) :
    OnlyGeometry s (floatingFixCoordinates s c old new) :=
  .of_writes (writes_floatingFixCoordinates s c old new)

theorem writes_fixFloater (w : WsId) (o : OutId) (prevBox : Box) (s : State) (c : ConId) :
    Writes (fun d => d = c ∨ s.tree.Below c d) s (fixFloater w o prevBox s c) := by
  unfold fixFloater
  have hfix := writes_floatingFixCoordinates s c prevBox (workspaceGetBox s w)
  dsimp only
  split
  · exact hfix.trans ((Writes.modGeo _ c _).mono fun d hd => Or.inl hd)
  · exact hfix

/-- A fold over the floating containers writes them and what hangs below them. -/
theorem Writes.floating {f : State → ConId → State} (s : State) (w : WsId)
    (hf : ∀ t c, Writes (fun d => d = c ∨ t.tree.Below c d) t (f t c)) :
    Writes (fun d => ∃ c ∈ (s.tree.ws w).floating, d = c ∨ s.tree.Below c d) s
      ((s.tree.ws w).floating.foldl f s) := by
  refine Writes.foldl fun t ht c hc => ?_
  have htree : t.tree = s.tree := by rw [← ht]
  refine (hf t c).mono fun d hd => ⟨c, hc, ?_⟩
  rwa [htree] at hd

theorem writes_fixFloaters (s : State) (w : WsId) (o : OutId) (prevBox : Box) :
    Writes (fun d => ∃ c ∈ (s.tree.ws w).floating, d = c ∨ s.tree.Below c d) s
      (fixFloaters s w o prevBox) :=
  Writes.floating s w fun t c => writes_fixFloater w o prevBox t c

theorem onlyGeometry_fixFloaters (s : State) (w : WsId) (o : OutId) (prevBox : Box) :
    OnlyGeometry s (fixFloaters s w o prevBox) := .of_writes (writes_fixFloaters s w o prevBox)

theorem onlyGeometry_arrangeContents (s : State) (w : WsId) (o : OutId) :
    OnlyGeometry s (arrangeContents s w o) := by
  unfold arrangeContents
  split
  · exact (OnlyGeometry.modGeo s _ _).trans (onlyGeometry_arrangeContainer _ _)
  · exact (OnlyGeometry.of_writes (writes_workspaceArrangeColumns s w _)).trans
      (OnlyGeometry.foldl fun t c _ => onlyGeometry_arrangeContainer t c)

end Swirl

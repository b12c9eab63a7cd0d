import Swirl.Lib.Recency
import Swirl.Input.FocusModes
import Swirl.Tree.ArrangePair

set_option autoImplicit false

/-! # A seat that is left alone

A change of focus moves sticky containers and destroys the workspace it leaves empty, and then the
other seats may look for a new focus. As long as nothing is fullscreen, a seat that is on a
workspace with columns is left alone by all this: its stack loses workspaces other than its own, at
every nesting depth of the focus functions.
-/

namespace Swirl

open Lib

/-- A workspace other than the one of a seat. -/
def OtherWorkspace (w : WsId) (n : Node) : Prop := ∃ v, v ≠ w ∧ n = .workspace v

/-- Nothing is fullscreen, and a seat is on a workspace with columns. -/
structure SeatSettled (k : SeatId) (w : WsId) (s : State) : Prop where
  linked : s.tree.Linked
  tiled : (s.tree.ws w).tiling ≠ []
  windowed : ∀ c, s.full.mode c = .none
  home : (s.seat k).workspace = some w

/-- The seat keeps its focus, and no layout changes. -/
structure LeftAlone (k : SeatId) (w : WsId) (s s' : State) : Prop where
  layout : ∀ c, (s'.geo c).layout = (s.geo c).layout
  wsLayout : ∀ v, (s'.wsGeo v).layout = (s.wsGeo v).layout
  pointer : ∀ v, s.full.workspace v = none → s'.full.workspace v = none
  global : s.full.global = none → s'.full.global = none
  currentSeat : s'.currentSeat = s.currentSeat
  stack : Forgets (OtherWorkspace w) (s.seat k).focusStack (s'.seat k).focusStack
  seat : { s'.seat k with focusStack := (s.seat k).focusStack } = s.seat k

/-- The focus functions leave a settled seat alone when they are called for another one. -/
structure FocusLeavesAlone (fo : FocusOps) : Prop where
  setFocus : ∀ k w s j node, j ≠ k → SeatSettled k w s → LeftAlone k w s (fo.setFocus s j node)
  setFocusRaw : ∀ k w s j node, j ≠ k → SeatSettled k w s →
    LeftAlone k w s (fo.setFocusRaw s j node)

/-- What it takes for a step to be part of a change of focus: the frame of the tree, of the
fullscreen modes and of the seat. -/
structure Passes (k : SeatId) (w : WsId) (s s' : State) : Prop where
  thins : Thins Nobody Nobody s.core s'.core
  windowed : KeepsWindowed s s'
  alone : LeftAlone k w s s'

namespace LeftAlone

variable {k : SeatId} {w : WsId} {s s' s'' : State}

theorem refl (s : State) : LeftAlone k w s s :=
  ⟨fun _ => rfl, fun _ => rfl, fun _ h => h, id, rfl, Forgets.refl _, rfl⟩

theorem trans (h : LeftAlone k w s s') (h' : LeftAlone k w s' s'') : LeftAlone k w s s'' where
  layout c := (h'.layout c).trans (h.layout c)
  wsLayout v := (h'.wsLayout v).trans (h.wsLayout v)
  pointer v hv := h'.pointer v (h.pointer v hv)
  global hg := h'.global (h.global hg)
  currentSeat := h'.currentSeat.trans h.currentSeat
  stack := h.stack.trans h'.stack
  seat := by rw [← h.seat, ← h'.seat]

/-- What neither the seats nor the layouts see. -/
theorem of_look (h : SameLook s s') (hcur : s'.currentSeat = s.currentSeat) :
    LeftAlone k w s s' where
  layout := h.layout
  wsLayout := h.wsLayout
  pointer v hv := by rw [h.full]; exact hv
  global hg := by rw [h.full]; exact hg
  currentSeat := hcur
  stack := by rw [h.seat]; exact Forgets.refl _
  seat := by rw [h.seat]

/-- What changes no geometry, no fullscreen pointer and not the seat. -/
theorem of_same (hgeo : s'.geo = s.geo) (hws : s'.wsGeo = s.wsGeo) (hfull : s'.full = s.full)
    (hcur : s'.currentSeat = s.currentSeat) (hseat : s'.seat k = s.seat k) :
    LeftAlone k w s s' where
  layout c := by rw [hgeo]
  wsLayout v := by rw [hws]
  pointer v hv := by rw [hfull]; exact hv
  global hg := by rw [hfull]; exact hg
  currentSeat := hcur
  stack := by rw [hseat]; exact Forgets.refl _
  seat := by rw [hseat]

theorem home (h : LeftAlone k w s s') : (s'.seat k).workspace = (s.seat k).workspace := by
  rw [← h.seat]

/-- Another seat changes. -/
theorem modSeat {j : SeatId} (hj : j ≠ k) (s : State) (f : Seat → Seat) :
    LeftAlone k w s (s.modSeat j f) :=
  of_same rfl rfl rfl rfl (Function.update_of_ne (Ne.symm hj) _ _)

theorem arrange (s : State) (v : WsId) : LeftAlone k w s (arrangeWorkspace s v) := by
  by_cases hr : s.config.reloading = true
  · rw [arrangeWorkspace, if_pos hr]
    exact refl s
  cases ho : (s.tree.ws v).output with
  | none =>
      rw [arrangeWorkspace, if_neg hr, ho]
      exact refl s
  | some o =>
      have hawake : s.config.reloading = false := Bool.eq_false_iff.2 hr
      exact of_look (SameLook.arrangeWorkspace hawake ho)
        (State.eq_of_still State.currentSeat (still_arrangeWorkspace hawake ho) fun _ => rfl)

theorem modWsGeo (s : State) (v : WsId) {f : WsGeometry → WsGeometry}
    (hf : (f (s.wsGeo v)).layout = (s.wsGeo v).layout) : LeftAlone k w s (s.modWsGeo v f) :=
  of_look (SameLook.modWsGeo s v hf) rfl

end LeftAlone

namespace Passes

variable {k : SeatId} {w : WsId} {s s' s'' : State}

theorem refl (s : State) : Passes k w s s := ⟨Thins.refl _, .refl s, .refl s⟩

theorem trans (h : Passes k w s s') (h' : Passes k w s' s'') : Passes k w s s'' :=
  ⟨h.thins.trans h'.thins, h.windowed.trans h'.windowed, h.alone.trans h'.alone⟩

/-- A settled seat stays settled. -/
theorem settled (h : Passes k w s s') (hs : SeatSettled k w s) : SeatSettled k w s' where
  linked := h.thins.linked hs.linked
  tiled := by
    have hitems := h.thins.items_eq hs.linked (r := .tiling w) fun _ hr => by cases hr
    show s'.tree.items (.tiling w) ≠ []
    rw [show s'.tree.items (.tiling w) = s.tree.items (.tiling w) from hitems]
    exact hs.tiled
  windowed c := h.windowed c (hs.windowed c)
  home := h.alone.home.trans hs.home

/-- One step after the other, each on a settled seat. -/
theorem foldl {α : Type} {f : State → α → State} (l : List α)
    (hf : ∀ t, SeatSettled k w t → ∀ a ∈ l, Passes k w t (f t a)) (hs : SeatSettled k w s) :
    Passes k w s (l.foldl f s) := by
  refine foldl_invariant (I := fun t => Passes k w s t) f l ?_ (refl s)
  intro t a ha ht
  exact ht.trans (hf t (ht.settled hs) a ha)

end Passes

section Moves

variable {k : SeatId} {w : WsId} (s : State)

/-! ## Moving a container -/

theorem alone_containerDetach (c : ConId) : LeftAlone k w s (containerDetach s c) := by
  have hclear : ∀ v, LeftAlone k w s (s.setWsFullscreen v none) := by
    intro v
    refine ⟨fun _ => rfl, fun _ => rfl, fun u hu => ?_, id, rfl, Forgets.refl _, rfl⟩
    show Function.update s.full.workspace v none u = none
    by_cases huv : u = v
    · rw [huv, Function.update_self]
    · rw [Function.update_of_ne huv, hu]
  have hglobal : ∀ t : State, LeftAlone k w t (t.setFullscreenGlobal none) := fun t =>
    ⟨fun _ => rfl, fun _ => rfl, fun _ h => h, fun _ => rfl, rfl, Forgets.refl _, rfl⟩
  have htree : ∀ (t : State) f, LeftAlone k w t (t.modTree f) := fun t f =>
    .of_same rfl rfl rfl rfl rfl
  have hpointers : LeftAlone k w s (clearFullscreen s c) := by
    unfold clearFullscreen
    dsimp only
    split
    · split
      · split
        · exact (hclear _).trans (hglobal _)
        · exact hclear _
      · split
        · exact hglobal s
        · exact .refl s
    · split
      · exact hglobal s
      · exact .refl s
  exact hpointers.trans (htree _ _)

theorem alone_unpark (c : ConId) : LeftAlone k w s (unpark s c) := by
  unfold unpark workspaceMinimizedRemove
  split
  · split <;> exact .of_same rfl rfl rfl rfl rfl
  · exact .refl s

theorem alone_attach (r : Tree.ListRef) (index : Int) (c : ConId) :
    LeftAlone k w s (s.attach r index c) := by
  have hfault : ∀ (t : State) f, LeftAlone k w t (t.fault f) := fun t f =>
    .of_same rfl rfl rfl rfl rfl
  have hrange : ∀ t : State, LeftAlone k w t (if InsertOk (t.tree.items r) index then t
      else t.fault (.insertRange index (t.tree.items r).length)) := by
    intro t
    split
    · exact .refl t
    · exact hfault t _
  have hcheck : LeftAlone k w s (s.checkInsert r index) := by
    unfold State.checkInsert
    cases r with
    | tiling v => exact hrange s
    | floating v => exact hrange s
    | children p =>
        refine LeftAlone.trans ?_ (hrange _)
        dsimp only
        split
        · exact hfault s _
        · exact .refl s
  have htree : ∀ (t : State) f, LeftAlone k w t (t.modTree f) := fun t f =>
    .of_same rfl rfl rfl rfl rfl
  exact hcheck.trans (htree _ _)

variable {s}

theorem findFullscreen_of_windowed (h : ∀ c, s.full.mode c = .none) (c : ConId)
    {mode : FullscreenMode} (hmode : mode ≠ .none) : findFullscreen s c mode = none := by
  unfold findFullscreen
  rw [if_neg (by rw [h c]; exact hmode.symm)]
  unfold containerFindChild
  rw [List.find?_eq_none]
  intro d _
  simpa [h d] using hmode.symm

/-- With nothing fullscreen, a container that is put elsewhere changes no fullscreen mode. -/
theorem alone_workspaceAddFloating (fo : FocusOps) (h : ∀ c, s.full.mode c = .none) (v : WsId)
    (c : ConId) : LeftAlone k w s (workspaceAddFloating fo s v c) := by
  have hdetach : ∀ t : State, LeftAlone k w t (detachIfPlaced t c) := by
    intro t
    unfold detachIfPlaced
    split
    · exact alone_containerDetach t c
    · exact .refl t
  have hmode : ((detachIfPlaced (unpark s c) c).attachLast (.floating v) c).full.mode =
      s.full.mode := by
    unfold State.attachLast
    rw [full_attach, mode_detachIfPlaced, full_unpark]
  have hwindowed : ∀ d,
      ((detachIfPlaced (unpark s c) c).attachLast (.floating v) c).full.mode d = .none := by
    intro d
    rw [hmode]
    exact h d
  unfold workspaceAddFloating containerHandleFullscreenReparent
  dsimp only
  rw [findFullscreen_of_windowed hwindowed c (by decide),
    findFullscreen_of_windowed hwindowed c (by decide)]
  exact ((alone_unpark s c).trans (hdetach _)).trans (alone_attach _ _ _ c)

end Moves

section Functions

variable {fo : FocusOps} (hthins : FocusThins fo) (hwindowed : FocusKeepsWindowed fo)
  (h : FocusLeavesAlone fo) {k j : SeatId} {w v : WsId} {s : State}

include hthins hwindowed h

/-! ## A workspace goes -/

theorem passes_setFocusRaw (hj : j ≠ k) (hs : SeatSettled k w s) (node : Option Node) :
    Passes k w s (fo.setFocusRaw s j node) :=
  ⟨hthins.setFocusRaw s j node, hwindowed.setFocusRaw s j node, h.setFocusRaw k w s j node hj hs⟩

theorem passes_setFocus (hj : j ≠ k) (hs : SeatSettled k w s) (node : Option Node) :
    Passes k w s (fo.setFocus s j node) :=
  ⟨hthins.setFocus s j node, hwindowed.setFocus s j node, h.setFocus k w s j node hj hs⟩

omit hthins hwindowed h in
theorem passes_seatNodeDestroy (hv : v ≠ w) (s : State) (j : SeatId) :
    Passes k w s (seatNodeDestroy s j (.workspace v)) := by
  refine ⟨Thins.refl _, .of_mode rfl, ?_⟩
  by_cases hj : j = k
  · subst hj
    have hseat : (seatNodeDestroy s j (.workspace v)).seat j =
        { s.seat j with focusStack := (s.seat j).focusStack.erase (.workspace v) } :=
      Function.update_self _ _ _
    refine ⟨fun _ => rfl, fun _ => rfl, fun _ hu => hu, id, rfl, ?_, ?_⟩
    · rw [hseat]
      exact Forgets.erase ⟨v, hv, rfl⟩ _
    · rw [hseat]
  · exact .modSeat hj s _

/-- A seat that was on the workspace looks for another one. -/
theorem passes_handleSeatNodeDestroy (hv : v ≠ w) (hs : SeatSettled k w s) (j : SeatId) :
    Passes k w s (handleSeatNodeDestroy fo (.workspace v) s j) := by
  have hdestroy := passes_seatNodeDestroy (k := k) hv s j
  have hs' := hdestroy.settled hs
  unfold handleSeatNodeDestroy
  split
  · show Passes k w s (handleSeatWorkspaceDestroy fo s j v)
    unfold handleSeatWorkspaceDestroy
    dsimp only
    split
    next hon =>
      have hj : j ≠ k := by
        intro hjk
        rw [hjk] at hon hs'
        exact hv (Option.some.inj (hon.symm.trans hs'.home))
      have hnone := passes_setFocusRaw hthins hwindowed h hj hs' none
      refine hdestroy.trans (hnone.trans ?_)
      split
      · exact passes_setFocusRaw hthins hwindowed h hj (hnone.settled hs') _
      · exact ⟨Thins.refl _, .of_mode rfl, .modSeat hj _ _⟩
    next => exact hdestroy
  · exact .refl s

/-- A workspace with columns is kept, and the seat is not on any other. -/
theorem passes_considerDestroy (hs : SeatSettled k w s) (last : Option WsId) :
    Passes k w s (considerDestroy fo s last) := by
  refine ⟨thins_considerDestroy hthins s last, keepsWindowed_considerDestroy hwindowed s last, ?_⟩
  cases last with
  | none => exact .refl s
  | some v =>
      show LeftAlone k w s (workspaceConsiderDestroy fo s v)
      unfold workspaceConsiderDestroy
      split
      · exact .refl s
      next hkept =>
        have hv : v ≠ w := by
          intro hvw
          obtain ⟨hempty, -⟩ := empty_of_not_kept (Bool.eq_false_iff.2 hkept)
          exact hs.tiled (hvw ▸ hempty)
        have hemit : Passes k w s (emitNodeDestroy fo s (.workspace v)) :=
          .foldl _ (fun t ht j _ => passes_handleSeatNodeDestroy hthins hwindowed h hv ht j) hs
        have htree : ∀ (t : State) f, LeftAlone k w t (t.modTree f) := fun t f =>
          .of_same rfl rfl rfl rfl rfl
        exact hemit.alone.trans ((htree _ _).trans (htree _ _))

/-! ## The focus of another seat changes -/

omit h in
theorem passes_moveSticky (last new : WsId) (n i : Nat) (hs : SeatSettled k w s) :
    Passes k w s (moveSticky fo last new n i s) := by
  induction n generalizing i s with
  | zero => exact .refl s
  | succ n ih =>
      rw [moveSticky]
      split
      · exact .refl s
      next c hc =>
        split
        · have hout : KeepsWindowed s (containerDetach s c) := .of_mode (mode_containerDetach s c)
          have hmove : Passes k w s (workspaceAddFloating fo (containerDetach s c) new c) :=
            ⟨thins_refloat hthins s last new c (List.mem_of_getElem? hc),
              hout.trans (keepsWindowed_workspaceAddFloating hwindowed _ new c),
              (alone_containerDetach s c).trans (alone_workspaceAddFloating fo
                (fun d => hout d (hs.windowed d)) new c)⟩
          exact hmove.trans (ih i (hmove.settled hs))
        · exact ih (i + 1) hs

theorem passes_leaveWorkspace (hs : SeatSettled k w s) (last new : Option WsId) :
    Passes k w s (leaveWorkspace fo s last new) := by
  unfold leaveWorkspace
  dsimp only
  split
  next l m =>
    split
    · have hmove := passes_moveSticky hthins hwindowed l m (s.tree.ws l).floating.length 0 hs
      exact hmove.trans (passes_considerDestroy hthins hwindowed h (hmove.settled hs) _)
    · exact passes_considerDestroy hthins hwindowed h hs _
  next => exact passes_considerDestroy hthins hwindowed h hs _

omit hthins hwindowed h in
theorem passes_settleFocus (s : State) (last new : Option WsId) :
    Passes k w s (settleFocus s last new) := by
  refine ⟨thins_settleFocus s last new, keepsWindowed_settleFocus s last new, ?_⟩
  have hindex : ∀ (t : State) v, LeftAlone k w t (workspaceUpdateFocusedColumnIdx t v) := by
    intro t v
    unfold workspaceUpdateFocusedColumnIdx
    exact .modWsGeo t v rfl
  exact settleFocus_keeps .refl .trans .arrange (fun t l => .modWsGeo t l rfl) hindex s last new

omit hthins hwindowed h in
theorem passes_pushFocus (hj : j ≠ k) (s : State) (node : Node) :
    Passes k w s (pushFocus s j node) := by
  refine ⟨Thins.of_eq (core_pushFocus s j node), keepsWindowed_pushFocus s j node, ?_⟩
  have hraw : ∀ t n, LeftAlone k w t (seatSetRawFocus t j n) := fun t n => .modSeat hj t _
  have hparents : ∀ (l : List ConId) t,
      LeftAlone k w t (l.foldl (fun s p => seatSetRawFocus s j (.container p)) t) := by
    intro l
    induction l with
    | nil => exact fun t => .refl t
    | cons p l ih => exact fun t => (hraw t (.container p)).trans (ih _)
  unfold pushFocus
  cases node with
  | container c =>
      dsimp only
      refine (hparents (s.tree.ancestors c) s).trans (LeftAlone.trans ?_ (hraw _ _))
      split
      · exact hraw _ _
      · exact .refl _
  | root => exact .refl s
  | output o => exact .refl s
  | workspace v => exact hraw s _

theorem passes_changeFocus (hj : j ≠ k) (hs : SeatSettled k w s) (node : Node) :
    Passes k w s (changeFocus fo s j node) := by
  have hseat : ∀ (t : State) f, Passes k w t (t.modSeat j f) := fun t f =>
    ⟨Thins.refl _, .of_mode rfl, .modSeat hj t f⟩
  unfold changeFocus
  dsimp only
  have hpush := (passes_pushFocus (w := w) hj s node).trans
    (hseat _ fun e => { e with workspace := nodeWorkspace s node })
  refine hpush.trans (Passes.trans ?_ ((hseat _ _).trans (passes_settleFocus _ _ _)))
  exact passes_leaveWorkspace hthins hwindowed h (hpush.settled hs) _ _

theorem passes_seatSetWorkspaceFocus (hj : j ≠ k) (hs : SeatSettled k w s) (node : Option Node) :
    Passes k w s (seatSetWorkspaceFocus fo s j node) := by
  unfold seatSetWorkspaceFocus
  split
  · exact ⟨Thins.refl _, .of_mode rfl, .modSeat hj s _⟩
  · split
    · exact .refl s
    · split
      · exact .refl s
      · exact passes_changeFocus hthins hwindowed h hj hs _

theorem passes_unfocusLayer (hj : j ≠ k) (hs : SeatSettled k w s) :
    Passes k w s (unfocusLayer fo s j) := by
  have hlayer : Passes k w s (s.modSeat j fun e => { e with focusedLayer := none }) :=
    ⟨Thins.refl _, .of_mode rfl, .modSeat hj s _⟩
  unfold unfocusLayer
  split
  · dsimp only
    split
    · have hnone := hlayer.trans (passes_setFocus hthins hwindowed h hj (hlayer.settled hs) none)
      exact hnone.trans (passes_setFocus hthins hwindowed h hj (hnone.settled hs) _)
    · exact hlayer
  · exact .refl s

omit hthins hwindowed h in
theorem passes_focusLayer (hj : j ≠ k) (s : State) (layer : Layer) :
    Passes k w s (focusLayer s j layer) := by
  have hseat : ∀ (t : State) f, Passes k w t (t.modSeat j f) := fun t f =>
    ⟨Thins.refl _, .of_mode rfl, .modSeat hj t f⟩
  unfold focusLayer
  split
  · exact .refl s
  · dsimp only
    split
    · split
      · exact hseat s _
      · exact (hseat s _).trans (hseat _ _)
    · split
      · exact .refl s
      · exact hseat s _

theorem passes_setFocusUnderLayer (hj : j ≠ k) (hs : SeatSettled k w s) (node : Option Node) :
    Passes k w s (setFocusUnderLayer fo s j node) := by
  have hunfocus := passes_unfocusLayer hthins hwindowed h hj hs
  have hfocus := hunfocus.trans
    (passes_seatSetWorkspaceFocus hthins hwindowed h hj (hunfocus.settled hs) node)
  unfold setFocusUnderLayer
  split
  · dsimp only
    split
    · exact hfocus.trans (passes_focusLayer hj _ _)
    · exact hfocus.trans (passes_unfocusLayer hthins hwindowed h hj (hfocus.settled hs))
  · exact hfocus

theorem passes_seatSetFocusRaw (hj : j ≠ k) (hs : SeatSettled k w s) (node : Option Node) :
    Passes k w s (seatSetFocusRaw fo s j node) := by
  have hindex : ∀ (t : State) v, Passes k w t (workspaceUpdateFocusedColumnIdx t v) := by
    intro t v
    refine ⟨Thins.of_eq (core_workspaceUpdateFocusedColumnIdx t v), .of_mode rfl, ?_⟩
    unfold workspaceUpdateFocusedColumnIdx
    exact .modWsGeo t v rfl
  have hfocus := passes_setFocusUnderLayer hthins hwindowed h hj hs node
  unfold seatSetFocusRaw
  dsimp only
  split
  · split
    · exact hfocus.trans (hindex _ _)
    · exact hfocus
  · exact hfocus

end Functions

/-- **The focus functions leave a settled seat alone**, at every nesting depth. -/
theorem focusLeavesAlone_focusOps (n : Nat) : FocusLeavesAlone (focusOps n) := by
  induction n with
  | zero => exact ⟨fun _ _ s _ _ _ _ => .refl s, fun _ _ s _ _ _ _ => .refl s⟩
  | succ n ih =>
      constructor
      · intro k w s j node hj hs
        exact (passes_setFocusUnderLayer (focusThins_focusOps n) (focusKeepsWindowed_focusOps n) ih
          hj hs node).alone
      · intro k w s j node hj hs
        exact (passes_seatSetFocusRaw (focusThins_focusOps n) (focusKeepsWindowed_focusOps n) ih
          hj hs node).alone

end Swirl

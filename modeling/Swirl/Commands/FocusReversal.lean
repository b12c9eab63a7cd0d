import Swirl.Commands.Focus
import Swirl.Commands.ReleaseTake
import Swirl.Input.FocusApart

set_option autoImplicit false

/-! # Focusing back and forth

In a workspace of columns, focusing in a direction and then in the opposite one comes back. Up and
down go to the sibling itself. Left and right enter a column at the view that was focused last, and
what brings the focus back is that the column that was left keeps its own order in the focus stack:
a change of focus raises the new view, its column and the workspace, and nothing else.
-/

namespace Swirl

open Lib

/-! ## Workspaces of columns -/

/-- The workspace lies out columns of views from left to right, none of them in the scratchpad. -/
structure ColumnWorkspace (s : State) (w : WsId) : Prop where
  layout : (s.wsGeo w).layout = .horiz
  column : ∀ c ∈ (s.tree.ws w).tiling, (s.tree.con c).view = none ∧
    (s.tree.con c).scratchpad = false ∧ (s.geo c).layout.isColumn = true
  view : ∀ c ∈ (s.tree.ws w).tiling, ∀ v ∈ (s.tree.con c).children,
    (s.tree.con v).view.isSome = true ∧ (s.tree.con v).scratchpad = false ∧
      (s.tree.con v).children = []

/-- No column and no view of the workspace is fullscreen. -/
def TiledWindowed (s : State) (w : WsId) : Prop :=
  ∀ c ∈ (s.tree.ws w).tiling, s.full.mode c = .none ∧
    ∀ v ∈ (s.tree.con c).children, s.full.mode v = .none

/-- A view in a column of a workspace that is laid out in columns. -/
structure ViewAt (s : State) (w : WsId) (c v : ConId) : Prop where
  tree : s.tree.WellFormed
  columns : ColumnWorkspace s w
  windowed : TiledWindowed s w
  column : c ∈ (s.tree.ws w).tiling
  child : v ∈ (s.tree.con c).children

/-! ## The chain of nodes -/

section Chain

variable {t : Tree}

theorem nodeAncestorsWithin_succ {node p : Node} (h : nodeGetParent t node = some p) (n : Nat) :
    nodeAncestorsWithin t (n + 1) node = p :: nodeAncestorsWithin t n p := by
  rw [nodeAncestorsWithin, h]

/-- Above a workspace there is no container. -/
theorem container_notMem_nodeAncestorsWithin (n : Nat) (c : ConId) {node : Node}
    (hnode : ∀ d, node ≠ .container d) : .container c ∉ nodeAncestorsWithin t n node := by
  induction n generalizing node with
  | zero => exact List.not_mem_nil
  | succ n ih =>
      cases hp : nodeGetParent t node with
      | none =>
          rw [nodeAncestorsWithin, hp]
          exact List.not_mem_nil
      | some p =>
          have hnot : ∀ d, p ≠ .container d := by
            intro d
            rintro rfl
            cases node with
            | root => cases hp
            | output o => cases hp
            | workspace w =>
                obtain ⟨o, -, ho⟩ := Option.map_eq_some_iff.1 hp
                cases ho
            | container e => exact hnode e rfl
          rw [nodeAncestorsWithin_succ hp, List.mem_cons, not_or]
          exact ⟨(hnot c).symm, ih hnot⟩

/-- A container above another one is one it hangs below. -/
theorem hangsBelow_of_mem_nodeAncestorsWithin (n : Nat) {c v : ConId}
    (h : .container c ∈ nodeAncestorsWithin t n (.container v)) : t.HangsBelow v c := by
  induction n generalizing v with
  | zero => cases h
  | succ n ih =>
      cases hp : (t.con v).parent with
      | none =>
          exfalso
          have hparent : nodeGetParent t (.container v) =
              (t.con v).workspace.map .workspace := by
            rw [nodeGetParent, hp]
          rw [nodeAncestorsWithin, hparent] at h
          cases hw : (t.con v).workspace with
          | none =>
              rw [hw] at h
              cases h
          | some w =>
              rw [hw] at h
              rcases List.mem_cons.1 h with heq | hmem
              · cases heq
              · exact container_notMem_nodeAncestorsWithin n c (fun d hd => by cases hd) hmem
      | some p =>
          have hparent : nodeGetParent t (.container v) = some (.container p) := by
            rw [nodeGetParent, hp]
          rw [nodeAncestorsWithin_succ hparent, List.mem_cons] at h
          have hup : t.parentOf v = some p := hp
          rcases h with heq | hmem
          · obtain rfl := Node.container.inj heq
            exact Under.of_parent hup
          · exact (Under.of_parent hup).trans (ih hmem)

/-- Where the children have no children, what hangs below a container is a child of it. -/
theorem parent_of_hangsBelow (ht : t.WellFormed) {c v : ConId}
    (hleaf : ∀ p ∈ (t.con c).children, (t.con p).children = []) (h : t.HangsBelow v c) :
    (t.con v).parent = some c := by
  obtain ⟨n, hn⟩ := h
  induction n generalizing v with
  | zero =>
      obtain ⟨p, hp, hup⟩ := Option.bind_eq_some_iff.1 hn
      obtain rfl := Option.some.inj hup
      exact hp
  | succ n ih =>
      obtain ⟨p, hp, hup⟩ := Option.bind_eq_some_iff.1 hn
      have hnone := hleaf p (ht.child p c (ih hup))
      have hmem := ht.child v p hp
      rw [hnone] at hmem
      cases hmem

end Chain

namespace ViewAt

variable {s : State} {w : WsId} {c v : ConId}

theorem parent (h : ViewAt s w c v) : (s.tree.con v).parent = some c :=
  h.tree.linked.of_children h.child

theorem column_parent (h : ViewAt s w c v) : (s.tree.con c).parent = none :=
  (h.tree.linked.of_tiling h.column).1

theorem column_workspace (h : ViewAt s w c v) : (s.tree.con c).workspace = some w :=
  (h.tree.linked.of_tiling h.column).2

theorem workspace (h : ViewAt s w c v) : (s.tree.con v).workspace = some w :=
  (h.tree.below v c h.parent).trans h.column_workspace

theorem exists_nextCon (h : ViewAt s w c v) : ∃ n, s.tree.nextCon = n + 1 :=
  Nat.exists_eq_succ_of_ne_zero (Nat.ne_of_gt (Nat.zero_lt_of_lt
    (h.tree.lt_of_workspace h.workspace)))

theorem ancestors (h : ViewAt s w c v) : s.tree.ancestors v = [c] := by
  obtain ⟨n, hn⟩ := h.exists_nextCon
  unfold Tree.ancestors
  rw [hn, Tree.ancestorsWithin, h.parent]
  cases n with
  | zero => rfl
  | succ n =>
      dsimp only
      rw [Tree.ancestorsWithin, h.column_parent]

/-- Above a view are its column, the workspace, the output and the root. -/
theorem nodeAncestors (h : ViewAt s w c v) {o : OutId} (ho : (s.tree.ws w).output = some o) :
    Swirl.nodeAncestors s.tree (.container v) =
      [.container c, .workspace w, .output o, .root] := by
  have hv : nodeGetParent s.tree (.container v) = some (.container c) := by
    rw [nodeGetParent, h.parent]
  have hc : nodeGetParent s.tree (.container c) = some (.workspace w) := by
    rw [nodeGetParent, h.column_parent, h.column_workspace]
    rfl
  have hw : nodeGetParent s.tree (.workspace w) = some (.output o) := by
    rw [nodeGetParent, ho]
    rfl
  have ho' : nodeGetParent s.tree (.output o) = some .root := rfl
  obtain ⟨n, hn⟩ := h.exists_nextCon
  unfold Swirl.nodeAncestors
  rw [hn, nodeAncestorsWithin_succ hv, nodeAncestorsWithin_succ hc, nodeAncestorsWithin_succ hw,
    nodeAncestorsWithin_succ ho']
  cases n <;> rfl

/-- A view is below its own column only. -/
theorem nodeHasAncestor_iff (h : ViewAt s w c v) {o : OutId} (ho : (s.tree.ws w).output = some o)
    (d : ConId) : nodeHasAncestor s (.container v) (.container d) = true ↔ d = c := by
  unfold nodeHasAncestor
  rw [h.nodeAncestors ho]
  simp [eq_comm]

theorem nodeHasAncestor_root (h : ViewAt s w c v) {o : OutId}
    (ho : (s.tree.ws w).output = some o) : nodeHasAncestor s (.container v) .root = true := by
  unfold nodeHasAncestor
  rw [h.nodeAncestors ho]
  simp

/-- What is below a column is one of its views. -/
theorem of_nodeHasAncestor (hs : s.tree.WellFormed) (hcolumns : ColumnWorkspace s w)
    (hwindowed : TiledWindowed s w) (hc : c ∈ (s.tree.ws w).tiling)
    (hv : nodeHasAncestor s (.container v) (.container c) = true) : ViewAt s w c v := by
  have hmem : .container c ∈ Swirl.nodeAncestors s.tree (.container v) := by
    simpa [nodeHasAncestor] using hv
  have hparent := parent_of_hangsBelow hs (fun p hp => (hcolumns.view c hc p hp).2.2)
    (hangsBelow_of_mem_nodeAncestorsWithin _ hmem)
  exact ⟨hs, hcolumns, hwindowed, hc, hs.child v c hparent⟩

end ViewAt

/-! ## The neighbour in a direction -/

/-- One member of a list is beside another one, in a direction. -/
structure Beside (dir : Direction) (l : List ConId) (a b : ConId) : Prop where
  left : a ∈ l
  right : b ∈ l
  index : listFind l b = listFind l a + dir.offset

theorem Beside.opposite {dir : Direction} {l : List ConId} {a b : ConId} (h : Beside dir l a b) :
    Beside dir.opposite l b a := by
  refine ⟨h.right, h.left, ?_⟩
  have hindex := h.index
  cases dir <;> simp only [Direction.offset, Direction.opposite] at hindex ⊢ <;> omega

theorem Beside.ne {dir : Direction} {l : List ConId} {a b : ConId} (h : Beside dir l a b) :
    a ≠ b := by
  rintro rfl
  have hindex := h.index
  cases dir <;> simp only [Direction.offset] at hindex <;> omega

/-- Where nothing is beside a member of a list, the index beside it is out of range. -/
theorem not_inRange_of_not_beside {dir : Direction} {l : List ConId} {a : ConId} (ha : a ∈ l)
    (hl : l.Nodup) (hnone : ∀ b, ¬ Beside dir l a b) :
    listFind l a + dir.offset < 0 ∨ (l.length : Int) ≤ listFind l a + dir.offset := by
  by_contra hin
  obtain ⟨hnonneg, hlt⟩ := not_or.1 hin
  obtain ⟨i, hi⟩ := Int.eq_ofNat_of_zero_le (not_lt.1 hnonneg)
  have hil : i < l.length := by omega
  refine hnone l[i] ⟨ha, List.getElem_mem hil, ?_⟩
  rw [listFind_of_mem (List.getElem_mem hil), hl.idxOf_getElem, hi]

/-- What is beside a view: the next column to the left or right, the next view upwards or
downwards. -/
def BesideView (s : State) (w : WsId) (c v : ConId) (dir : Direction) (b : ConId) : Prop :=
  match dir with
  | .left | .right => Beside dir (s.tree.ws w).tiling c b
  | .up | .down => Beside dir (s.tree.con c).children v b

section Neighbour

variable {s : State} {w : WsId} {c v b : ConId} {dir : Direction} (x : FocusSetup) (k : SeatId)

/-- A container with a sibling in the direction ends the search. -/
theorem directionStep_of_beside {l : List ConId} {e : ConId} (hmode : s.full.mode e = .none)
    (hdesired : desiredSibling s dir e = some (l, listFind l e + dir.offset))
    (hb : Beside dir l e b) (wrapCandidate : Option ConId) :
    directionStep x s k dir true wrapCandidate e = .done (focusInactiveViewNode s k b) := by
  have hin : ¬ (listFind l b < 0 ∨ (l.length : Int) ≤ listFind l b) := by
    have hnonneg := listFind_nonneg.2 hb.right
    have hlt := listFind_lt_length hb.right
    omega
  have hget : l[(listFind l b).toNat]? = some b := by
    rw [listFind_of_mem hb.right, Int.toNat_natCast, List.getElem?_eq_getElem
      (List.idxOf_lt_length_of_mem hb.right), List.getElem_idxOf]
  unfold directionStep
  rw [hmode, hdesired, ← hb.index]
  dsimp only
  rw [if_neg hin, hget]
  rfl

namespace ViewAt

theorem not_floating (h : ViewAt s w c v) : containerIsFloating s.tree v = false := by
  unfold containerIsFloating
  rw [h.parent, (h.columns.view c h.column v h.child).2.1]
  rfl

theorem parentLayout_view (h : ViewAt s w c v) :
    containerParentLayout s v = (s.geo c).layout := by
  unfold containerParentLayout
  rw [h.parent]

theorem parentLayout_column (h : ViewAt s w c v) : containerParentLayout s c = .horiz := by
  unfold containerParentLayout
  rw [h.column_parent, h.column_workspace]
  exact h.columns.layout

/-- A view is left upwards and downwards within its column. -/
theorem desiredSibling_view (h : ViewAt s w c v) (hdir : dir = .up ∨ dir = .down) :
    desiredSibling s dir v =
      some ((s.tree.con c).children, listFind (s.tree.con c).children v + dir.offset) := by
  have hsiblings : containerSiblings s.tree v = (s.tree.con c).children := by
    unfold containerSiblings containerGetSiblings
    rw [h.parent]
    rfl
  have hcolumn := (h.columns.column c h.column).2.2
  unfold desiredSibling containerSiblingIndex
  rw [h.parentLayout_view, hsiblings]
  rcases hdir with rfl | rfl
  · exact if_pos hcolumn
  · exact if_pos hcolumn

/-- To the left and right the search goes on at the column. -/
theorem desiredSibling_view_none (h : ViewAt s w c v) (hdir : dir = .left ∨ dir = .right) :
    desiredSibling s dir v = none := by
  have hcolumn := (h.columns.column c h.column).2.2
  have hnot : ¬ (s.geo c).layout = .horiz := by
    intro heq
    rw [heq] at hcolumn
    cases hcolumn
  unfold desiredSibling
  rw [h.parentLayout_view, h.parent]
  rcases hdir with rfl | rfl
  · simp [hnot]
  · simp [hnot]

theorem desiredSibling_column (h : ViewAt s w c v) (hdir : dir = .left ∨ dir = .right) :
    desiredSibling s dir c =
      some ((s.tree.ws w).tiling, listFind (s.tree.ws w).tiling c + dir.offset) := by
  have hsiblings : containerSiblings s.tree c = (s.tree.ws w).tiling := by
    unfold containerSiblings containerGetSiblings
    rw [h.column_parent, h.column_workspace]
    dsimp only
    rw [if_pos h.column]
    rfl
  unfold desiredSibling containerSiblingIndex
  rw [h.parentLayout_column, hsiblings]
  rcases hdir with rfl | rfl <;> rfl

/-- **The node in a direction** is the view that was focused last in what is beside the view. -/
theorem nodeInDirection_eq (h : ViewAt s w c v) (hb : BesideView s w c v dir b) :
    nodeInDirection x s k dir v = focusInactiveViewNode s k b := by
  have hview := (h.windowed c h.column).2 v h.child
  have hcolumn := (h.windowed c h.column).1
  have hdone : ∀ (hdir : dir = .left ∨ dir = .right) (hb : Beside dir (s.tree.ws w).tiling c b),
      directionLoop x s k dir true [v, c] none = .done (focusInactiveViewNode s k b) := by
    intro hdir hb
    have hpass : directionStep x s k dir true none v = .next none := by
      unfold directionStep
      rw [hview, h.desiredSibling_view_none hdir]
    rw [directionLoop, hpass]
    dsimp only
    rw [directionLoop, directionStep_of_beside x k hcolumn (h.desiredSibling_column hdir) hb]
  have hdone' : ∀ (hdir : dir = .up ∨ dir = .down) (hb : Beside dir (s.tree.con c).children v b),
      directionLoop x s k dir true [v, c] none = .done (focusInactiveViewNode s k b) := by
    intro hdir hb
    rw [directionLoop, directionStep_of_beside x k hview (h.desiredSibling_view hdir) hb]
  have hloop : directionLoop x s k dir true (v :: s.tree.ancestors v) none =
      .done (focusInactiveViewNode s k b) := by
    rw [h.ancestors]
    cases dir with
    | left => exact hdone (Or.inl rfl) hb
    | right => exact hdone (Or.inr rfl) hb
    | up => exact hdone' (Or.inl rfl) hb
    | down => exact hdone' (Or.inr rfl) hb
  unfold nodeInDirection
  rw [if_neg (by rw [h.not_floating]; simp)]
  unfold nodeGetInDirectionTiling
  rw [hloop]

/-- Without wrapping, and with no output in the direction, what has nothing beside it is not
left. -/
theorem nodeInDirection_of_not_beside (h : ViewAt s w c v)
    (hnone : ∀ b, ¬ BesideView s w c v dir b) (hwrap : x.wrapping = .no)
    (hout : outputBeside x s dir v = none) : nodeInDirection x s k dir v = none := by
  have hview := (h.windowed c h.column).2 v h.child
  have hcolumn := (h.windowed c h.column).1
  have hacross : ∀ (hdir : dir = .left ∨ dir = .right)
      (hnone : ∀ b, ¬ Beside dir (s.tree.ws w).tiling c b),
      directionLoop x s k dir true [v, c] none = .next none := by
    intro hdir hnone
    have hpast := not_inRange_of_not_beside h.column (h.tree.linked.nodup (.tiling w)) hnone
    have hpass : directionStep x s k dir true none v = .next none := by
      unfold directionStep
      rw [hview, h.desiredSibling_view_none hdir]
    have hend : directionStep x s k dir true none c = .next none := by
      unfold directionStep
      rw [hcolumn, h.desiredSibling_column hdir]
      dsimp only
      rw [if_pos hpast]
      unfold pastSiblings
      rw [h.parentLayout_column, hwrap]
      rfl
    rw [directionLoop, hpass]
    dsimp only
    rw [directionLoop, hend]
    rfl
  have halong : ∀ (hdir : dir = .up ∨ dir = .down)
      (hnone : ∀ b, ¬ Beside dir (s.tree.con c).children v b),
      directionLoop x s k dir true [v, c] none = .done none := by
    intro hdir hnone
    have hpast := not_inRange_of_not_beside h.child (h.tree.linked.nodup (.children c)) hnone
    have hend : directionStep x s k dir true none v = .done none := by
      unfold directionStep
      rw [hview, h.desiredSibling_view hdir]
      dsimp only
      rw [if_pos hpast]
      unfold pastSiblings
      rw [h.parentLayout_view, (h.columns.column c h.column).2.2, hwrap]
      rfl
    rw [directionLoop, hend]
  have hloop : directionLoop x s k dir true (v :: s.tree.ancestors v) none = .next none ∨
      directionLoop x s k dir true (v :: s.tree.ancestors v) none = .done none := by
    rw [h.ancestors]
    cases dir with
    | left => exact Or.inl (hacross (Or.inl rfl) hnone)
    | right => exact Or.inl (hacross (Or.inr rfl) hnone)
    | up => exact Or.inr (halong (Or.inl rfl) hnone)
    | down => exact Or.inr (halong (Or.inr rfl) hnone)
  unfold nodeInDirection
  rw [if_neg (by rw [h.not_floating]; simp)]
  unfold nodeGetInDirectionTiling
  rcases hloop with heq | heq
  · rw [heq, hout]
    rfl
  · rw [heq]

end ViewAt

end Neighbour

/-! ## A view is focused -/

/-- The workspace is the one its output shows, or nothing at all is fullscreen. -/
def ShownOrWindowed (s : State) (w : WsId) : Prop :=
  (∀ o, (s.tree.ws w).output = some o → outputGetActiveWorkspace s o = some w) ∨
    ∀ c, s.full.mode c = .none

/-- A seat focuses a view of a column: the column, the workspace and the view are raised. -/
def raisedSeat (w : WsId) (d u : ConId) (e : Seat) : Seat :=
  { e with
    focusStack :=
      useNow (useNow (useNow e.focusStack (.container d)) (.workspace w)) (.container u)
    workspace := some w
    hasFocus := true }

section Focusing

variable {s t : State} {k : SeatId} {w : WsId} {c d u v : ConId} {n : Nat}

theorem seat_modSeat_self (s : State) (k : SeatId) (f : Seat → Seat) :
    (s.modSeat k f).seat k = f (s.seat k) := Function.update_self _ _ _

theorem modSeat_modSeat (s : State) (k : SeatId) (f g : Seat → Seat) :
    (s.modSeat k f).modSeat k g = s.modSeat k fun e => g (f e) := by
  unfold State.modSeat
  dsimp only
  rw [Function.update_self, Function.update_idem]

theorem Passes.modSeat_hasFocus {p q : State} (h : Passes k w p q) :
    Passes k w (p.modSeat k fun e => { e with hasFocus := true })
      (q.modSeat k fun e => { e with hasFocus := true }) := by
  refine ⟨h.thins, h.windowed, h.alone.layout, h.alone.wsLayout, h.alone.pointer, h.alone.global,
    h.alone.currentSeat, ?_, ?_⟩
  · rw [seat_modSeat_self, seat_modSeat_self]
    exact h.alone.stack
  · rw [seat_modSeat_self, seat_modSeat_self, ← h.alone.seat]

/-- Only the seat that changes its focus changes beside what every change of focus may change. -/
theorem passes_changeFocus_self (hv : ViewAt s w d u) (hshown : ShownOrWindowed s w) (n : Nat) :
    Passes k w (s.modSeat k (raisedSeat w d u))
      (changeFocus (focusOps n) s k (.container u)) := by
  have hpush : pushFocus s k (.container u) = s.modSeat k fun e => { e with
      focusStack :=
        useNow (useNow (useNow e.focusStack (.container d)) (.workspace w)) (.container u) } := by
    unfold pushFocus
    dsimp only [nodeWorkspace]
    rw [hv.ancestors, hv.workspace]
    have hraw : ∀ (t : State) m, seatSetRawFocus t k m =
        t.modSeat k fun e => { e with focusStack := useNow e.focusStack m } := fun _ _ => rfl
    show seatSetRawFocus (seatSetRawFocus (seatSetRawFocus s k (.container d)) k
      (.workspace w)) k (.container u) = _
    rw [hraw, hraw, hraw, modSeat_modSeat, modSeat_modSeat]
  set p := (pushFocus s k (.container u)).modSeat k fun e => { e with workspace := some w } with hp
  have hraised : (p.modSeat k fun e => { e with hasFocus := true }) =
      s.modSeat k (raisedSeat w d u) := by
    rw [hp, hpush, modSeat_modSeat, modSeat_modSeat]
    rfl
  have htree : p.tree = s.tree := by
    rw [hp, hpush]
    rfl
  have htiled : (p.tree.ws w).tiling ≠ [] := by
    rw [htree]
    exact List.ne_nil_of_mem hv.column
  set last := ((s.tree.ws w).output).bind (outputGetActiveWorkspace s) with hlast
  have hleave : Passes k w p (leaveWorkspace (focusOps n) p last (some w)) := by
    rcases hshown with hshown | hwindowed
    · -- nothing is left behind
      have hself : last = none ∨ last = some w := by
        rw [hlast]
        cases ho : (s.tree.ws w).output with
        | none => exact Or.inl rfl
        | some o => exact Or.inr (hshown o ho)
      have hkept : workspaceKept p w = true := by
        unfold workspaceKept
        simp [htiled]
      have hstay : leaveWorkspace (focusOps n) p last (some w) = p := by
        rcases hself with heq | heq
        · rw [heq]
          rfl
        · rw [heq]
          unfold leaveWorkspace
          dsimp only [considerDestroy, workspaceConsiderDestroy]
          rw [if_neg (not_not.2 rfl), if_pos hkept]
      rw [hstay]
      exact .refl p
    · -- sticky containers and empty workspaces go
      have hfull : p.full = s.full := by
        rw [hp, hpush]
        rfl
      have hsettled : SeatSettled k w p := by
        refine ⟨?_, htiled, ?_, ?_⟩
        · rw [htree]
          exact hv.tree.linked
        · rw [hfull]
          exact hwindowed
        · rw [hp, seat_modSeat_self]
      exact passes_leaveWorkspace (focusThins_focusOps n) (focusKeepsWindowed_focusOps n)
        (focusLeavesAlone_focusOps n) hsettled _ _
  unfold changeFocus
  dsimp only [nodeWorkspace]
  rw [hv.workspace, ← hraised]
  exact hleave.modSeat_hasFocus.trans (passes_settleFocus _ _ _)

/-- Nothing is fullscreen on the workspace or over all outputs. -/
structure NotFullscreen (s : State) (w : WsId) : Prop where
  pointer : s.full.workspace w = none
  global : s.full.global = none
  elsewhere : ShownOrWindowed s w

theorem focusDenied_of_notFullscreen (hs : NotFullscreen s w)
    (hu : (s.tree.con u).workspace = some w) : focusDenied s (.container u) = false := by
  have hnone : containerObstructingFullscreenContainer s u = none := by
    unfold containerObstructingFullscreenContainer
    rw [hu, Option.bind_some, hs.pointer, hs.global]
  unfold focusDenied
  dsimp only
  rw [hnone]
  rfl

theorem unfocusLayer_of_none (fo : FocusOps) (h : (s.seat k).focusedLayer = none) :
    unfocusLayer fo s k = s := by
  unfold unfocusLayer
  rw [h]
  rfl

theorem focusTarget_of_viewAt (hv : ViewAt s w d u) :
    focusTarget s k (.container u) = some (.container u) :=
  if_pos (hv.columns.view d hv.column u hv.child).1

/-- The focused view is not focused again. -/
theorem seatSetFocus_of_focused (fo : FocusOps) (hv : ViewAt s w d u)
    (hlayer : (s.seat k).focusedLayer = none) (hfocus : seatGetFocus s k = some (.container u)) :
    seatSetFocus fo s k (some (.container u)) = s := by
  have hstay : seatSetWorkspaceFocus fo s k (some (.container u)) = s := by
    unfold seatSetWorkspaceFocus
    dsimp only
    rw [focusTarget_of_viewAt hv]
    exact if_pos (Or.inl hfocus)
  unfold seatSetFocus setFocusUnderLayer
  rw [unfocusLayer_of_none fo hlayer, hstay, hlayer]
  dsimp only
  rw [unfocusLayer_of_none fo hlayer]
  split <;> rfl

/-- **Setting the focus to a view.** -/
theorem passes_setFocus_self (hv : ViewAt s w d u) (hs : NotFullscreen s w)
    (hlayer : (s.seat k).focusedLayer = none) (hne : seatGetFocus s k ≠ some (.container u))
    (n : Nat) : Passes k w (s.modSeat k (raisedSeat w d u))
      (seatSetFocus (focusOps n) s k (some (.container u))) := by
  have hchange := passes_changeFocus_self (k := k) hv hs.elsewhere n
  have hfocus : seatSetWorkspaceFocus (focusOps n) s k (some (.container u)) =
      changeFocus (focusOps n) s k (.container u) := by
    have hgo : ¬ (seatGetFocus s k = some (.container u) ∨
        focusDenied s (.container u) = true) := by
      rw [focusDenied_of_notFullscreen hs hv.workspace]
      simpa using hne
    unfold seatSetWorkspaceFocus
    dsimp only
    rw [focusTarget_of_viewAt hv]
    exact if_neg hgo
  have hnolayer : ((changeFocus (focusOps n) s k (.container u)).seat k).focusedLayer = none := by
    have hseat := congrArg Seat.focusedLayer hchange.alone.seat
    rw [seat_modSeat_self] at hseat
    exact hseat.trans hlayer
  unfold seatSetFocus setFocusUnderLayer
  rw [unfocusLayer_of_none _ hlayer, hfocus, hlayer]
  dsimp only
  rw [unfocusLayer_of_none _ hnolayer]
  split <;> exact hchange

end Focusing

/-! ## After the first step -/

section After

variable {s t : State} {k : SeatId} {w : WsId} {c d u v : ConId} {o : OutId}

theorem ViewAt.modSeat (h : ViewAt s w c v) (k : SeatId) (f : Seat → Seat) :
    ViewAt (s.modSeat k f) w c v :=
  ⟨h.tree, ⟨h.columns.layout, h.columns.column, h.columns.view⟩, h.windowed, h.column, h.child⟩

theorem Passes.tiling (h : Passes k w s t) (hs : s.tree.Linked) (v : WsId) :
    (t.tree.ws v).tiling = (s.tree.ws v).tiling :=
  h.thins.items_eq hs (r := .tiling v) fun _ hr => by cases hr

theorem Passes.children (h : Passes k w s t) (hs : s.tree.Linked) (c : ConId) :
    (t.tree.con c).children = (s.tree.con c).children :=
  h.thins.items_eq hs (r := .children c) fun _ hr => by cases hr

theorem Passes.scratchpad (h : Passes k w s t) (hc : (s.tree.con c).scratchpad = false) :
    (t.tree.con c).scratchpad = false :=
  h.thins.invariant (I := fun j => (j.tree.con c).scratchpad = false)
    (fun _ _ ha hab => Tree.Thin.scratchpad hab ha) hc

/-- The columns of a workspace and their views stay. -/
theorem ViewAt.passes (h : ViewAt s w c v) (hp : Passes k w s t) : ViewAt t w c v := by
  have hlinked := h.tree.linked
  have hview : ∀ e, (t.tree.con e).view = (s.tree.con e).view := hp.thins.frame.view
  refine ⟨Tree.Thins.wellFormedBut hp.thins h.tree, ⟨?_, ?_, ?_⟩, ?_, ?_, ?_⟩
  · rw [hp.alone.wsLayout]
    exact h.columns.layout
  · intro e he
    rw [hp.tiling hlinked] at he
    obtain ⟨hnone, hscratch, hlayout⟩ := h.columns.column e he
    rw [hview, hp.alone.layout]
    exact ⟨hnone, hp.scratchpad hscratch, hlayout⟩
  · intro e he y hy
    rw [hp.tiling hlinked] at he
    rw [hp.children hlinked] at hy
    obtain ⟨hsome, hscratch, hleaf⟩ := h.columns.view e he y hy
    rw [hview, hp.children hlinked]
    exact ⟨hsome, hp.scratchpad hscratch, hleaf⟩
  · intro e he
    rw [hp.tiling hlinked] at he
    obtain ⟨hmode, hviews⟩ := h.windowed e he
    refine ⟨hp.windowed e hmode, ?_⟩
    intro y hy
    rw [hp.children hlinked] at hy
    exact hp.windowed y (hviews y hy)
  · rw [hp.tiling hlinked]
    exact h.column
  · rw [hp.children hlinked]
    exact h.child

theorem ViewAt.output_passes (h : ViewAt s w c v) (hp : Passes k w s t) :
    (t.tree.ws w).output = (s.tree.ws w).output :=
  Thins.output_eq hp.thins h.tree.linked (List.ne_nil_of_mem h.column)

/-- The view is at the front of the stack, then its workspace. -/
theorem focusStack_of_passes (h : Passes k w (s.modSeat k (raisedSeat w d u)) t) :
    ∃ rest, (t.seat k).focusStack = .container u :: .workspace w :: rest := by
  have hstack := h.alone.stack
  rw [seat_modSeat_self] at hstack
  have hfront : (raisedSeat w d u (s.seat k)).focusStack = [.container u, .workspace w] ++
      ((useNow (s.seat k).focusStack (.container d)).erase (.workspace w)).erase
        (.container u) := by
    unfold raisedSeat useNow
    dsimp only
    rw [List.erase_cons_tail (by simp)]
    rfl
  refine hstack.append hfront ?_
  intro n hn
  rintro ⟨y, hy, rfl⟩
  simp only [List.mem_cons, reduceCtorEq, Node.workspace.injEq, List.not_mem_nil, or_false,
    false_or] at hn
  exact hy hn

theorem seatGetFocus_of_passes (h : Passes k w (s.modSeat k (raisedSeat w d u)) t) :
    seatGetFocus t k = some (.container u) := by
  obtain ⟨rest, hrest⟩ := focusStack_of_passes h
  have hfocus := congrArg Seat.hasFocus h.alone.seat
  rw [seat_modSeat_self] at hfocus
  unfold seatGetFocus
  rw [show (t.seat k).hasFocus = true from hfocus, hrest]
  rfl

/-- The output shows the workspace of the view. -/
theorem outputGetActiveWorkspace_of_passes (h : Passes k w (s.modSeat k (raisedSeat w d u)) t)
    (hu : ViewAt t w d u) (hcur : t.currentSeat = k) (ho : (t.tree.ws w).output = some o) :
    outputGetActiveWorkspace t o = some w := by
  obtain ⟨rest, hrest⟩ := focusStack_of_passes h
  have hchild : seatGetActiveTilingChild t k (.output o) = some (.workspace w) := by
    have huparent : nodeGetParent t.tree (.container u) = some (.container d) := by
      rw [nodeGetParent, hu.parent]
    have hwparent : nodeGetParent t.tree (.workspace w) = some (.output o) := by
      rw [nodeGetParent, ho]
      rfl
    unfold seatGetActiveTilingChild
    rw [hrest]
    simp [nodeIsView, huparent, hwparent]
  unfold outputGetActiveWorkspace
  rw [hcur, hchild]

/-- What is focused is at the front of the stack. -/
theorem exists_focusStack_of_seatGetFocus {node : Node} (h : seatGetFocus s k = some node) :
    ∃ rest, (s.seat k).focusStack = node :: rest := by
  unfold seatGetFocus at h
  split at h
  · exact List.head?_eq_some_iff.1 h
  · cases h

/-- The command finds the view as the one in focus. -/
theorem seatGetFocusInactive_root (hv : ViewAt s w c v) (ho : (s.tree.ws w).output = some o)
    (hfocus : seatGetFocus s k = some (.container v)) :
    seatGetFocusInactive s k .root = some (.container v) := by
  obtain ⟨rest, hrest⟩ := exists_focusStack_of_seatGetFocus hfocus
  unfold seatGetFocusInactive
  rw [hrest, List.find?_cons_of_pos (p := fun n => nodeHasAncestor s n .root)
    (hv.nodeHasAncestor_root ho)]
  rfl

/-- **The column that is left keeps its latest view** while a view of another column is focused. -/
theorem focusInactiveViewNode_of_passes (h : Passes k w (s.modSeat k (raisedSeat w d u)) t)
    (hv : ViewAt t w c v) (hu : ViewAt t w d u) (hne : d ≠ c)
    (ho : (t.tree.ws w).output = some o) (hfocus : seatGetFocus s k = some (.container v)) :
    focusInactiveViewNode t k c = some (.container v) := by
  set latest : Node → Bool :=
    fun n => nodeIsView t.tree n && nodeHasAncestor t n (.container c) with hlatest
  obtain ⟨rest, hrest⟩ := exists_focusStack_of_seatGetFocus hfocus
  have hvlatest : latest (.container v) = true := by
    have hview := (hv.columns.view c hv.column v hv.child).1
    have habove := (hv.nodeHasAncestor_iff ho c).2 rfl
    rw [hlatest]
    exact Bool.and_eq_true_iff.2 ⟨hview, habove⟩
  have hulatest : latest (.container u) = false := by
    have hnot : ¬ nodeHasAncestor t (.container u) (.container c) = true := by
      rw [hu.nodeHasAncestor_iff ho]
      exact hne.symm
    rw [hlatest]
    exact Bool.and_eq_false_iff.2 (Or.inr (Bool.eq_false_iff.2 hnot))
  have hdlatest : latest (.container d) = false := by
    have hnone := (hu.columns.column d hu.column).1
    rw [hlatest]
    exact Bool.and_eq_false_iff.2 (Or.inl (by simp [nodeIsView, hnone]))
  have hwlatest : ∀ y, latest (.workspace y) = false := fun _ => rfl
  have hfind : (t.seat k).focusStack.find? latest = some (.container v) := by
    have hstack := h.alone.stack
    rw [seat_modSeat_self] at hstack
    rw [hstack.find? (by rintro _ ⟨y, -, rfl⟩; exact hwlatest y)]
    unfold raisedSeat
    dsimp only
    rw [find?_useNow_of_neg hulatest, find?_useNow_of_neg (hwlatest w),
      find?_useNow_of_neg hdlatest, hrest, List.find?_cons_of_pos hvlatest]
  have hcolumn : nodeIsView t.tree (.container c) = false := by
    simp [nodeIsView, (hv.columns.column c hv.column).1]
  unfold focusInactiveViewNode seatGetFocusInactiveView
  dsimp only
  rw [hcolumn, if_neg Bool.false_ne_true, hfind]
  rfl

end After

/-! ## There and back -/

section Reversal

variable {s t : State} {k : SeatId} {w : WsId} {c d u v b : ConId} {o : OutId} {dir : Direction}
  (x : FocusSetup)

/-- A tiled container is not raised. -/
theorem containerRaiseFloating_of_viewAt (h : ViewAt s w c v) : containerRaiseFloating s v = s := by
  have htop : containerToplevelAncestor s.tree v = c := by
    unfold containerToplevelAncestor
    rw [h.ancestors]
    rfl
  have hnot : containerIsFloating s.tree c = false := by
    have happ : c ∉ (s.tree.ws w).floating := h.tree.linked.apart w c h.column
    unfold containerIsFloating
    rw [h.column_parent, h.column_workspace, (h.columns.column c h.column).2.1]
    simp [happ]
  unfold containerRaiseFloating
  rw [htop]
  dsimp only
  rw [h.column_workspace, hnot]
  rfl

/-- The command focuses what is beside the focused view. -/
theorem cmdFocusDirection_eq (hv : ViewAt s w c v) (ho : (s.tree.ws w).output = some o)
    (hon : s.tree.outputs ≠ []) (hfocus : seatGetFocus s s.currentSeat = some (.container v))
    (hb : BesideView s w c v dir b) (fo : FocusOps) :
    cmdFocusDirection x s dir fo =
      focusFound s s.currentSeat fo (focusInactiveViewNode s s.currentSeat b) := by
  unfold cmdFocusDirection
  dsimp only
  rw [if_neg hon, seatGetFocusInactive_root hv ho hfocus]
  dsimp only
  rw [hv.nodeInDirection_eq x _ hb]

/-- **What is entered** beside a view is a view of the workspace, and what is beside that one in the
opposite direction is the view that was left, or its column. -/
theorem exists_viewAt_of_beside (hv : ViewAt s w c v) (hb : BesideView s w c v dir b) {node : Node}
    (hnode : focusInactiveViewNode s k b = some node) :
    ∃ d u b', node = .container u ∧ ViewAt s w d u ∧ BesideView s w d u dir.opposite b' ∧
      (b' = v ∨ b' = c ∧ d ≠ c) := by
  obtain ⟨u, hu, rfl⟩ := Option.map_eq_some_iff.1 hnode
  have hcolumn : ∀ hb : Beside dir (s.tree.ws w).tiling c b, ViewAt s w b u ∧ b ≠ c := by
    intro hb
    have hnotview : nodeIsView s.tree (.container b) = false := by
      simp [nodeIsView, (hv.columns.column b hb.right).1]
    have hbelow : nodeHasAncestor s (.container u) (.container b) = true := by
      unfold seatGetFocusInactiveView at hu
      dsimp only at hu
      rw [hnotview, if_neg Bool.false_ne_true] at hu
      split at hu
      next e hfind =>
        obtain rfl := Option.some.inj hu
        have hlatest := List.find?_some hfind
        exact (Bool.and_eq_true_iff.1 hlatest).2
      next => cases hu
    exact ⟨ViewAt.of_nodeHasAncestor hv.tree hv.columns hv.windowed hb.right hbelow, hb.ne.symm⟩
  have hview : ∀ hb : Beside dir (s.tree.con c).children v b, ViewAt s w c u ∧ u = b := by
    intro hb
    have hself : nodeIsView s.tree (.container b) = true :=
      (hv.columns.view c hv.column b hb.right).1
    unfold seatGetFocusInactiveView at hu
    dsimp only at hu
    rw [hself, if_pos rfl] at hu
    obtain rfl := Option.some.inj hu
    exact ⟨⟨hv.tree, hv.columns, hv.windowed, hv.column, hb.right⟩, rfl⟩
  cases dir with
  | left =>
      obtain ⟨hu, hne⟩ := hcolumn hb
      exact ⟨b, u, c, rfl, hu, hb.opposite, Or.inr ⟨rfl, hne⟩⟩
  | right =>
      obtain ⟨hu, hne⟩ := hcolumn hb
      exact ⟨b, u, c, rfl, hu, hb.opposite, Or.inr ⟨rfl, hne⟩⟩
  | up =>
      obtain ⟨hat, heq⟩ := hview hb
      subst heq
      exact ⟨c, u, v, rfl, hat, hb.opposite, Or.inl rfl⟩
  | down =>
      obtain ⟨hat, heq⟩ := hview hb
      subst heq
      exact ⟨c, u, v, rfl, hat, hb.opposite, Or.inl rfl⟩

theorem BesideView.passes (h : Passes k w s t) (hs : s.tree.Linked)
    (hb : BesideView s w c v dir b) : BesideView t w c v dir b := by
  unfold BesideView at hb ⊢
  rw [h.tiling hs, h.children hs]
  exact hb

/-- A view of a column is focused, on an output, with no layer in front and nothing fullscreen. -/
structure FocusedAt (s : State) (w : WsId) (c v : ConId) (o : OutId) : Prop where
  viewAt : ViewAt s w c v
  output : (s.tree.ws w).output = some o
  notFullscreen : NotFullscreen s w
  noLayer : (s.seat s.currentSeat).focusedLayer = none
  focused : seatGetFocus s s.currentSeat = some (.container v)

namespace FocusedAt

/-- **One step** to another view. -/
theorem passes (h : FocusedAt s w c v o) (hon : s.tree.outputs ≠ [])
    (hb : BesideView s w c v dir b)
    (hnode : focusInactiveViewNode s s.currentSeat b = some (.container u))
    (hu : ViewAt s w d u) (hne : u ≠ v) (n : Nat) :
    Passes s.currentSeat w (s.modSeat s.currentSeat (raisedSeat w d u))
      (cmdFocusDirection x s dir (focusOps (n + 1))) := by
  have hother : seatGetFocus s s.currentSeat ≠ some (.container u) := by
    rw [h.focused]
    intro heq
    exact hne (Node.container.inj (Option.some.inj heq)).symm
  have hset := passes_setFocus_self hu h.notFullscreen h.noLayer hother n
  have hu' : ViewAt (seatSetFocus (focusOps n) s s.currentSeat (some (.container u))) w d u :=
    (hu.modSeat _ _).passes hset
  rw [cmdFocusDirection_eq x h.viewAt h.output hon h.focused hb, hnode]
  show Passes _ _ _ (containerRaiseFloating
    (seatSetFocus (focusOps n) s s.currentSeat (some (.container u))) u)
  rw [containerRaiseFloating_of_viewAt hu']
  exact hset

/-- After the step the view is focused in the same way. -/
theorem of_passes (h : FocusedAt s w c v o) (hu : ViewAt s w d u)
    (hp : Passes s.currentSeat w (s.modSeat s.currentSeat (raisedSeat w d u)) t) :
    FocusedAt t w d u o := by
  have hut : ViewAt t w d u := (hu.modSeat _ _).passes hp
  have hout : (t.tree.ws w).output = some o :=
    ((hu.modSeat s.currentSeat (raisedSeat w d u)).output_passes hp).trans h.output
  have hcur : t.currentSeat = s.currentSeat := hp.alone.currentSeat
  have hlayer := congrArg Seat.focusedLayer hp.alone.seat
  rw [seat_modSeat_self] at hlayer
  refine ⟨hut, hout, ⟨hp.alone.pointer w h.notFullscreen.pointer,
    hp.alone.global h.notFullscreen.global, Or.inl ?_⟩, ?_, ?_⟩
  · intro p hp'
    obtain rfl := Option.some.inj (hout.symm.trans hp')
    exact outputGetActiveWorkspace_of_passes hp hut hcur hout
  · rw [hcur]
    exact hlayer.trans h.noLayer
  · rw [hcur]
    exact seatGetFocus_of_passes hp

/-- A command that moves the focus to another view enters what is beside the focused one. -/
theorem entered {n : Nat} (h : FocusedAt s w c v o) (hb : BesideView s w c v dir b)
    (hmoves : seatGetFocus (cmdFocusDirection x s dir (focusOps n)) s.currentSeat =
      some (.container u)) (hne : u ≠ v) :
    ∃ d b', Passes s.currentSeat w (s.modSeat s.currentSeat (raisedSeat w d u))
        (cmdFocusDirection x s dir (focusOps n)) ∧ n ≠ 0 ∧ s.tree.outputs ≠ [] ∧
      ViewAt s w d u ∧ BesideView s w d u dir.opposite b' ∧ (b' = v ∨ b' = c ∧ d ≠ c) := by
  -- a command that changes nothing leaves the focus at the view
  have hstay : cmdFocusDirection x s dir (focusOps n) ≠ s := by
    intro heq
    rw [heq, h.focused] at hmoves
    exact hne (Node.container.inj (Option.some.inj hmoves)).symm
  have hon : s.tree.outputs ≠ [] := fun hnone => hstay (if_pos hnone)
  have hcmd := cmdFocusDirection_eq x h.viewAt h.output hon h.focused hb (focusOps n)
  cases hnode : focusInactiveViewNode s s.currentSeat b with
  | none =>
      rw [hnode] at hcmd
      exact absurd hcmd hstay
  | some node =>
      obtain ⟨d, e, b', rfl, he, hback, hleft⟩ := exists_viewAt_of_beside h.viewAt hb hnode
      rw [hnode] at hcmd
      cases n with
      | zero => exact absurd (hcmd.trans (containerRaiseFloating_of_viewAt he)) hstay
      | succ n =>
          have hother : e ≠ v := by
            rintro rfl
            have hsame := seatSetFocus_of_focused (focusOps n) he h.noLayer h.focused
            refine hstay (hcmd.trans ?_)
            show containerRaiseFloating
              (seatSetFocus (focusOps n) s s.currentSeat (some (.container e))) e = s
            rw [hsame]
            exact containerRaiseFloating_of_viewAt he
          have hpasses := h.passes x hon hb hnode he hother n
          have hreached := (seatGetFocus_of_passes hpasses).symm.trans hmoves
          obtain rfl := Node.container.inj (Option.some.inj hreached)
          exact ⟨d, b', hpasses, Nat.succ_ne_zero n, hon, he, hback, hleft⟩

end FocusedAt

/-- **Focusing back**: where focusing in a direction moves to what is beside the focused view, and
so to another view, focusing in the opposite direction returns. -/
theorem cmdFocusDirection_opposite (n : Nat) (h : FocusedAt s w c v o)
    (hnext : ∃ b, BesideView s w c v dir b)
    (hmoves : seatGetFocus (cmdFocusDirection x s dir (focusOps n)) s.currentSeat =
      some (.container u)) (hne : u ≠ v) :
    seatGetFocus (cmdFocusDirection x (cmdFocusDirection x s dir (focusOps n)) dir.opposite
      (focusOps n)) s.currentSeat = some (.container v) := by
  obtain ⟨b, hb⟩ := hnext
  obtain ⟨d, b', hpasses, hn, hon, hu, hback, hleft⟩ := h.entered x hb hmoves hne
  obtain ⟨n, rfl⟩ := Nat.exists_eq_succ_of_ne_zero hn
  have ht := h.of_passes hu hpasses
  set t := cmdFocusDirection x s dir (focusOps (n + 1)) with htdef
  have hvt : ViewAt t w c v := (h.viewAt.modSeat _ _).passes hpasses
  have hont : t.tree.outputs ≠ [] := by
    rw [show t.tree.outputs = s.tree.outputs from hpasses.thins.outputs_eq]
    exact hon
  have hcur : t.currentSeat = s.currentSeat := hpasses.alone.currentSeat
  have hbackt : BesideView t w d u dir.opposite b' :=
    BesideView.passes hpasses h.viewAt.tree.linked hback
  have hnode : focusInactiveViewNode t t.currentSeat b' = some (.container v) := by
    rw [hcur]
    rcases hleft with rfl | ⟨rfl, hapart⟩
    · unfold focusInactiveViewNode seatGetFocusInactiveView
      have hview : nodeIsView t.tree (.container b') = true :=
        (hvt.columns.view c hvt.column b' hvt.child).1
      dsimp only
      rw [hview, if_pos rfl]
      rfl
    · exact focusInactiveViewNode_of_passes hpasses hvt ht.viewAt hapart ht.output h.focused
  have hreturn := ht.passes x hont hbackt hnode hvt hne.symm n
  rw [← hcur]
  exact seatGetFocus_of_passes hreturn

end Reversal

/-- The window of the first column is focused, and the one of the second was before it. -/
def focusedColumns : State :=
  { twoColumns .tabbed with
    seat := fun _ =>
      { focusStack := [.container 1, .workspace 0, .container 0, .container 3], hasFocus := true,
        workspace := some 0, focusedLayer := none, hasExclusiveLayer := false } }

theorem focusedAt_focusedColumns : FocusedAt focusedColumns 0 0 1 1 where
  viewAt :=
    { tree := wellFormed_twoColumns .tabbed
      columns := ⟨rfl, by decide +kernel, by decide +kernel⟩
      windowed := fun _ _ => ⟨rfl, fun _ _ => rfl⟩
      column := by decide +kernel
      child := by decide +kernel }
  output := rfl
  notFullscreen := ⟨rfl, rfl, Or.inr fun _ => rfl⟩
  noLayer := rfl
  focused := rfl

theorem cmdFocusDirection_opposite_right :
    seatGetFocus (cmdFocusDirection ⟨.no, fun _ _ => none⟩
      (cmdFocusDirection ⟨.no, fun _ _ => none⟩ focusedColumns .right (focusOps 1)) .left
        (focusOps 1)) 0 = some (.container 1) :=
  have hright : BesideView focusedColumns 0 0 1 .right 2 :=
    ⟨by decide +kernel, by decide +kernel, by decide +kernel⟩
  cmdFocusDirection_opposite ⟨.no, fun _ _ => none⟩ 1 focusedAt_focusedColumns ⟨2, hright⟩ (u := 3)
    (by decide +kernel) (by decide)

end Swirl

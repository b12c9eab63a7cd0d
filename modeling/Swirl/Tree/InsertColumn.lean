import Swirl.Tree.FixOverflow
import Swirl.Tree.InsertWindow

set_option autoImplicit false

/-! # Putting a column into a row

`workspace_insert_column` takes the column or view out of its old place first and puts it at the
index afterwards. A column that moves within the row has the index corrected for the place it
leaves. A view takes its old column with it when it is the only window there, and then the index is
one too high if that column stood before it.
-/

namespace Swirl

/-! ## Rows before and after -/

section Lists

variable {l l' u v : List ConId} {g n x : ConId} {i : Int}

/-- The row `l'` comes from `l` by putting `n` before the column at an index, or at the end if there
is none; the order of the other columns that remain is kept. A negative index counts as `0`. -/
structure Inserted (l l' : List ConId) (n : ConId) (i : Int) : Prop where
  order : l'.filter (fun d => d ≠ n) = l.filter fun d => d ≠ n ∧ d ∈ l'
  before : ∀ x, l[i.toNat]? = some x → x ≠ n → x ∈ l' → ∃ p q, l' = p ++ n :: x :: q
  last : l[i.toNat]? = none → l'.getLast? = some n

/-- The row on both sides of an index, with the second column that is there. -/
theorem exists_split_at (l : List ConId) (i : Int) : ∃ u v, l = u ++ v ∧
    (u.length : Int) = clampIndex i l.length ∧ l[i.toNat]? = v.head? := by
  have hm : i.toNat ⊓ l.length ≤ l.length := min_le_right _ _
  refine ⟨l.take i.toNat, l.drop i.toNat, (List.take_append_drop _ l).symm, ?_, ?_⟩
  · rw [List.length_take]
    unfold clampIndex
    omega
  · rw [List.head?_drop]

/-- A column comes in between the two parts of a row, and one other leaves. -/
theorem inserted_of_split (hl : l.Nodup) (hsplit : l = u ++ v) (hx : l[i.toNat]? = v.head?)
    (hn : n ∉ l ∨ n = g) : Inserted l (u.erase g ++ n :: v.erase g) n i := by
  subst hsplit
  have hu : u.Nodup := hl.of_append_left
  have hv : v.Nodup := hl.of_append_right
  have hout : n ∉ u.erase g ∧ n ∉ v.erase g := by
    rcases hn with hn | rfl
    · rw [List.mem_append, not_or] at hn
      exact ⟨fun h => hn.1 (List.mem_of_mem_erase h), fun h => hn.2 (List.mem_of_mem_erase h)⟩
    · exact ⟨hu.not_mem_erase, hv.not_mem_erase⟩
  have hmem : ∀ d, d ≠ n → (d ∈ u.erase g ++ n :: v.erase g ↔ d ∈ u ++ v ∧ d ≠ g) := by
    intro d hd
    rw [List.mem_append, List.mem_cons, hu.mem_erase_iff, hv.mem_erase_iff, List.mem_append]
    tauto
  refine ⟨?_, fun x hat hxn hxmem => ?_, fun hnone => ?_⟩
  · have hkeep : ∀ d ∈ u ++ v, (d ≠ n ∧ d ∈ u.erase g ++ n :: v.erase g ↔ d ≠ g) := by
      intro d hd
      constructor
      · rintro ⟨hdn, hdl⟩
        exact ((hmem d hdn).mp hdl).2
      · intro hdg
        have hdn : d ≠ n := by
          rintro rfl
          exact hn.elim (fun h => h hd) hdg
        exact ⟨hdn, (hmem d hdn).mpr ⟨hd, hdg⟩⟩
    have herase : ∀ w : List ConId, w.Nodup → w.filter (fun d => d ≠ g) = w.erase g := by
      intro w hw
      rw [hw.erase_eq_filter]
      exact List.filter_congr fun d _ => by simp [bne, beq_eq_decide]
    have hfilter : ∀ w : List ConId, n ∉ w → w.filter (fun d => d ≠ n) = w := by
      intro w hw
      exact List.filter_eq_self.mpr fun d hd => decide_eq_true fun h => hw (h ▸ hd)
    rw [List.filter_congr (l := u ++ v) fun d hd => decide_eq_decide.mpr (hkeep d hd),
      List.filter_append, List.filter_append, List.filter_cons_of_neg (by simp),
      hfilter _ hout.1, hfilter _ hout.2, herase u hu, herase v hv]
  · rw [hx] at hat
    obtain ⟨v', rfl⟩ : ∃ v', v = x :: v' := by
      cases v with
      | nil => cases hat
      | cons y v' => exact ⟨v', by rw [Option.some.inj hat]⟩
    have hxg : x ≠ g := ((hmem x hxn).mp hxmem).2
    refine ⟨u.erase g, v'.erase g, ?_⟩
    rw [List.erase_cons_tail (by simpa using hxg)]
  · rw [hx] at hnone
    rw [List.head?_eq_none_iff.mp hnone]
    simp

/-- Behind the column it should stand before, a column is not in its place. -/
theorem not_inserted_of_split (hx : l[i.toNat]? = some x) (hxn : x ≠ n)
    (hl' : (u ++ x :: n :: v).Nodup) : ¬ Inserted l (u ++ x :: n :: v) n i := by
  intro h
  obtain ⟨p, q, hpq⟩ := h.before x hx hxn (by simp)
  -- `n` stands once in the row, with `x` before it and not behind it
  have hsame : (u ++ [x]) ++ n :: v = p ++ n :: (x :: q) := by simpa using hpq
  have hnodup : ((u ++ [x]) ++ n :: v).Nodup := by simpa using hl'
  have hbefore := List.disjoint_of_nodup_append hnodup
  have hn₁ : n ∉ u ++ [x] := fun hm => hbefore hm List.mem_cons_self
  have hn₂ : n ∉ v := (List.nodup_cons.mp hnodup.of_append_right).1
  obtain ⟨-, -, rfl⟩ := (List.append_cons_inj_of_notMem hn₁ hn₂).mp hsame
  exact hbefore (by simp) (List.mem_cons_of_mem n List.mem_cons_self)

/-- The column that leaves stands behind the index, or not in the row at all. -/
theorem listInsert_erase_of_not_mem (hsplit : l = u ++ v)
    (hlen : (u.length : Int) = clampIndex i l.length) (hg : g ∉ u) :
    listInsert (l.erase g) (clampIndex i (l.erase g).length) n = u.erase g ++ n :: v.erase g := by
  subst hsplit
  have herase : (u ++ v).erase g = u ++ v.erase g := List.erase_append_right v hg
  have hindex : clampIndex i (u ++ v.erase g).length = (u.length : Int) := by
    unfold clampIndex at hlen ⊢
    rw [List.length_append] at hlen ⊢
    by_cases hv : g ∈ v
    · have := List.length_erase_of_mem hv
      have := List.length_pos_of_mem hv
      omega
    · rw [List.erase_of_not_mem hv]
      omega
  rw [herase, hindex, listInsert_append, List.erase_of_not_mem hg]

/-- The column that leaves stands before the index, and there is no column at the index. -/
theorem listInsert_erase_of_last (hlen : (l.length : Int) = clampIndex i l.length) (hg : g ∈ l) :
    listInsert (l.erase g) (clampIndex i (l.erase g).length) n = l.erase g ++ [n] := by
  have hindex : clampIndex i (l.erase g).length = ((l.erase g).length : Int) := by
    have := List.length_erase_of_mem hg
    have := List.length_pos_of_mem hg
    unfold clampIndex at hlen ⊢
    omega
  have hinsert := listInsert_append (l.erase g) [] n
  rw [List.append_nil] at hinsert
  rw [hindex, hinsert]

/-- The column that leaves stands before the index, and there is a column at the index. -/
theorem listInsert_erase_of_mem (hsplit : l = u ++ x :: v)
    (hlen : (u.length : Int) = clampIndex i l.length) (hg : g ∈ u) :
    listInsert (l.erase g) (clampIndex i (l.erase g).length) n = u.erase g ++ x :: n :: v := by
  subst hsplit
  have herase : (u ++ x :: v).erase g = (u.erase g ++ [x]) ++ v := by
    rw [List.erase_append_left _ hg]
    simp
  have hindex : clampIndex i ((u.erase g ++ [x]) ++ v).length =
      ((u.erase g ++ [x]).length : Int) := by
    have := List.length_erase_of_mem hg
    have := List.length_pos_of_mem hg
    unfold clampIndex at hlen ⊢
    simp only [List.length_append, List.length_cons, List.length_nil] at hlen ⊢
    omega
  rw [herase, hindex, listInsert_append]
  simp

/-- **A column that comes in when another one leaves is in its place** if and only if the other one
does not stand before the index with a column at the index. -/
theorem inserted_erase_iff (hl : l.Nodup) (hn : n ∉ l) :
    Inserted l (listInsert (l.erase g) (clampIndex i (l.erase g).length) n) n i ↔
      ¬ (g ∈ l ∧ listFind l g < i ∧ i < l.length) := by
  obtain ⟨u, v, hsplit, hlen, hx⟩ := exists_split_at l i
  have hsum : l.length = u.length + v.length := by rw [hsplit, List.length_append]
  by_cases hg : g ∈ u
  · have hgl : g ∈ l := by
      rw [hsplit]
      exact List.mem_append_left v hg
    have hpos := List.length_pos_of_mem hg
    have hfind : listFind l g < u.length := by
      rw [listFind_of_mem hgl, hsplit, List.idxOf_append_of_mem hg]
      exact_mod_cast List.idxOf_lt_length_of_mem hg
    cases v with
    | nil =>
        rw [List.length_nil, Nat.add_zero] at hsum
        have hul : u = l := by rw [hsplit, List.append_nil]
        rw [listInsert_erase_of_last (by rw [← hlen, hsum]) hgl]
        refine iff_of_true ?_ fun h => ?_
        · have hin := inserted_of_split hl hsplit hx (Or.inl hn) (g := g)
          rwa [hul] at hin
        · obtain ⟨-, -, hi⟩ := h
          unfold clampIndex at hlen
          omega
    | cons x v =>
        rw [List.length_cons] at hsum
        have hnodup : (l.erase g).Nodup := hl.erase g
        have hng : n ∉ l.erase g := fun h => hn (List.mem_of_mem_erase h)
        have hrow := listInsert_erase_of_mem (n := n) hsplit hlen hg
        have hxl : x ∈ l := by
          rw [hsplit]
          simp
        refine iff_of_false ?_ fun h => h ⟨hgl, ?_, ?_⟩
        · rw [hrow]
          refine not_inserted_of_split hx (fun h => hn (h ▸ hxl)) ?_
          rw [← hrow]
          exact listInsert_nodup hnodup hng
        · unfold clampIndex at hlen
          omega
        · unfold clampIndex at hlen
          omega
  · rw [listInsert_erase_of_not_mem hsplit hlen hg]
    refine iff_of_true (inserted_of_split hl hsplit hx (Or.inl hn)) ?_
    rintro ⟨hgl, hlt, hi⟩
    rw [listFind_of_mem hgl, hsplit, List.idxOf_append_of_notMem hg] at hlt
    unfold clampIndex at hlen
    omega

/-- A column that moves within its row comes to its place. -/
theorem inserted_move {c : ConId} (hl : l.Nodup) (hc : c ∈ l) : Inserted l
    (if listFind l c = clampIndex i l.length then l
      else listInsert (l.erase c) (moveIndex l c i) c) c i := by
  obtain ⟨u, v, hsplit, hlen, hx⟩ := exists_split_at l i
  have hin := inserted_of_split (g := c) hl hsplit hx (Or.inr rfl)
  suffices heq : (if listFind l c = clampIndex i l.length then l
      else listInsert (l.erase c) (moveIndex l c i) c) = u.erase c ++ c :: v.erase c by
    rw [heq]
    exact hin
  unfold moveIndex
  rw [← hlen, listFind_of_mem hc]
  subst hsplit
  by_cases hu : c ∈ u
  · -- the index is corrected for the place that is left
    have hlt := List.idxOf_lt_length_of_mem hu
    have hv : c ∉ v := fun hv => List.disjoint_of_nodup_append hl hu hv
    have hshort : ((u.erase c).length : Int) = u.length - 1 := by
      have := List.length_erase_of_mem hu
      have := List.length_pos_of_mem hu
      omega
    rw [List.idxOf_append_of_mem hu, if_neg (by omega), if_pos (by exact_mod_cast hlt),
      List.erase_append_left v hu, ← hshort, listInsert_append, List.erase_of_not_mem hv]
  · have hv : c ∈ v := (List.mem_append.mp hc).resolve_left hu
    rw [List.idxOf_append_of_notMem hu, List.erase_append_right v hu, List.erase_of_not_mem hu]
    cases v with
    | nil => cases hv
    | cons y v =>
        by_cases hy : y = c
        · subst hy
          rw [List.idxOf_cons_self, if_pos (by simp), List.erase_cons_head]
        · have hpos : 0 < (y :: v).idxOf c := by
            rw [List.idxOf_cons_ne v hy]
            exact Nat.succ_pos _
          rw [if_neg (by omega), if_neg (by omega), listInsert_append]

end Lists

/-! ## What leaves the row -/

/-- The container that leaves its list with `c`: the column, if `c` is the only window there, or `c`
itself. -/
def vacated (t : Tree) (c : ConId) : ConId :=
  match (t.con c).parent with
  | some p => if (t.con p).children = [c] then p else c
  | none => c

/-- The column that comes into the row; a view gets a new one. -/
def insertedColumn (t : Tree) (c : ConId) : ConId :=
  if (t.con c).view.isSome then t.nextCon else c

/-- A column of a row or of no workspace, or a view in a column or in none. -/
structure ColumnOrView (t : Tree) (w : WsId) (c : ConId) : Prop where
  lt : c < t.nextCon
  column : (t.con c).view = none → (t.con c).parent = none ∧ c ∉ (t.ws w).floating
  window : ∀ p, (t.con c).parent = some p → (t.con p).view = none ∧ (t.con p).parent = none

section Rows

variable {fo : FocusOps} (h : FocusThins fo) {s : State} {c p : ConId} {w : WsId} {i : Int}

omit h in
theorem reapEmpty_none (w : Option WsId) (n : Nat) (s : State) :
    reapEmpty fo w n s none = considerDestroy fo s w := by
  cases n <;> rfl

include h

/-- An empty column leaves its row. -/
theorem tiling_containerReapEmpty (hs : s.tree.WellFormed) (hview : (s.tree.con p).view = none)
    (htop : (s.tree.con p).parent = none) (hempty : (s.tree.con p).children = []) (w : WsId) :
    ((containerReapEmpty fo s p).tree.ws w).tiling = (s.tree.ws w).tiling.erase p := by
  have hgone := destroys_containerBeginDestroy h hs p
  unfold containerReapEmpty
  rw [hview, if_neg (by simp), reapEmpty, if_pos hempty, htop, reapEmpty_none]
  have hthins := thins_considerDestroy h (containerBeginDestroy fo s p) (s.tree.con p).workspace
  have hitems := hthins.items_eq hgone.wellFormed.linked (r := .tiling w) fun v hv => by cases hv
  exact hitems.trans (hgone.tiling w)

/-- A view leaves its column, and an empty column leaves its row. -/
theorem tiling_leaveParent (hs : s.tree.WellFormed) (hp : (s.tree.con c).parent = some p)
    (hcol : (s.tree.con p).view = none ∧ (s.tree.con p).parent = none) (w : WsId) :
    ((leaveParent fo s c).tree.ws w).tiling = (s.tree.ws w).tiling.erase (vacated s.tree c) := by
  have hout : c ∉ (s.tree.ws w).tiling := fun hmem => by
    rw [(hs.linked.of_tiling hmem).1] at hp
    cases hp
  have hmem := hs.child c p hp
  have hwf : (containerDetach s c).tree.WellFormed := by
    rw [tree_containerDetach]
    exact hs.detach c
  have hrow : ((containerDetach s c).tree.ws w).tiling = (s.tree.ws w).tiling := by
    rw [tree_containerDetach, ← List.erase_of_not_mem hout]
    exact Tree.detach_items hs.linked c (.tiling w)
  have hchildren : ((containerDetach s c).tree.con p).children =
      (s.tree.con p).children.erase c := by
    rw [tree_containerDetach]
    exact Tree.detach_items hs.linked c (.children p)
  have hne : p ≠ c := by
    rintro rfl
    rw [hcol.2] at hp
    cases hp
  have hlast : (s.tree.con p).children.erase c = [] ↔ (s.tree.con p).children = [c] := by
    rw [List.erase_eq_nil_iff, or_iff_right (List.ne_nil_of_mem hmem)]
  unfold leaveParent vacated
  rw [hp]
  dsimp only
  rw [hchildren]
  by_cases hk : (s.tree.con p).children = [c]
  · rw [if_pos (hlast.mpr hk), if_pos hk, ← hrow]
    refine tiling_containerReapEmpty h hwf ?_ ?_ ?_ w
    · rw [tree_containerDetach]
      exact ((Tree.rewired_detach s.tree c).view p).trans hcol.1
    · rw [tree_containerDetach, Tree.detach_parent, if_neg hne]
      exact hcol.2
    · rw [hchildren]
      exact hlast.mpr hk
  · rw [if_neg fun he => hk (hlast.mp he), if_neg hk, hrow, List.erase_of_not_mem hout]

/-- A view gets a column of its own, and what was in a row itself leaves it. -/
theorem tiling_workspaceCreateNewColumnAt (hs : s.tree.WellFormed) (hc : s.tree.Detachable c)
    (hlt : c < s.tree.nextCon) (w : WsId) (i : Int) (v : WsId) :
    ((workspaceCreateNewColumnAt fo s w c i).tree.ws v).tiling = (s.tree.ws v).tiling.erase c := by
  have hcol := Tree.fresh_createLoose hs (some w)
  rw [← tree_createColumn] at hcol
  have hcon : (createColumn s (some w)).tree.con c = s.tree.con c := by
    rw [tree_createColumn, Tree.createLoose_con _ hlt.ne]
  have hdetach : (createColumn s (some w)).tree.Detachable c := by
    unfold Tree.Detachable
    rw [hcon]
    exact hc
  have hrow : ((createColumn s (some w)).tree.ws v).tiling = (s.tree.ws v).tiling := by
    rw [tree_createColumn]
    rfl
  unfold workspaceCreateNewColumnAt workspaceCreateNewColumn
  dsimp only
  rw [(OnlyGeometry.modGeo _ c _).tree, (onlyGeometry_columnSetWidthPx _ _ _).tree, ← hrow]
  exact tiling_containerAddChild h hcol.wellFormed hdetach (hlt.trans hcol.lt)
    ⟨hlt.ne', Tree.not_hangsBelow_of_top hcol.free.parent, hcol.lt⟩ v

/-- A column that hangs nowhere comes into the row. -/
theorem tiling_placeInRow_of_fresh (hs : s.tree.Fresh c) (w : WsId) (i : Int) :
    ((placeInRow fo s w c i).tree.ws w).tiling =
      listInsert (s.tree.ws w).tiling (clampIndex i (s.tree.ws w).tiling.length) c := by
  have hok := insertOk_clampIndex (s.tree.ws w).tiling i
  have hthins := thins_containerHandleFullscreenReparent h
    (s.attach (.tiling w) (clampIndex i (s.tree.ws w).tiling.length) c) c
  have hlinked :
      (s.attach (.tiling w) (clampIndex i (s.tree.ws w).tiling.length) c).tree.Linked := by
    rw [tree_attach]
    exact (hs.attach w hok).linked
  rw [placeInRow_of_fresh hs]
  refine (hthins.items_eq hlinked (r := .tiling w) fun v => by simp).trans ?_
  rw [core_tree, tree_attach, Tree.attach_items, if_pos rfl]
  rfl

/-- It is detached before, if it is on another workspace. -/
theorem tiling_settle_of_fresh (hs : s.tree.Fresh c) (w : WsId) (i : Int) :
    ((placeInRow fo
        (match (s.tree.con c).workspace with
          | some w' => if w' ≠ w then containerDetach s c else s
          | none => s) w c i).tree.ws w).tiling =
      listInsert (s.tree.ws w).tiling (clampIndex i (s.tree.ws w).tiling.length) c := by
  split
  · split
    · have hout : (containerDetach s c).tree.Fresh c := by
        rw [tree_containerDetach]
        exact hs.detach
      have hrow : ((containerDetach s c).tree.ws w).tiling = (s.tree.ws w).tiling := by
        rw [tree_containerDetach]
        have hitems := Tree.detach_items hs.wellFormed.linked c (.tiling w)
        exact hitems.trans (List.erase_of_not_mem (hs.free.unlisted (.tiling w)))
      rw [tiling_placeInRow_of_fresh h hout, hrow]
    · exact tiling_placeInRow_of_fresh h hs w i
  · exact tiling_placeInRow_of_fresh h hs w i

/-- A column moves within its row. -/
theorem tiling_placeInRow_of_mem (hs : s.tree.WellFormed) (hc : c ∈ (s.tree.ws w).tiling)
    (i : Int) : ((placeInRow fo s w c i).tree.ws w).tiling =
      if listFind (s.tree.ws w).tiling c = clampIndex i (s.tree.ws w).tiling.length then
        (s.tree.ws w).tiling
      else listInsert ((s.tree.ws w).tiling.erase c) (moveIndex (s.tree.ws w).tiling c i) c := by
  rcases placeInRow_of_mem hs hc i with ⟨hat, heq⟩ | ⟨hat, hok, heq⟩
  · rw [if_pos hat, heq]
  · rw [if_neg hat, heq]
    set u := s.modTree fun t => t.modList (.tiling w) fun l => l.erase c with hu
    have hitems : u.tree.items (.tiling w) = (s.tree.ws w).tiling.erase c := by
      rw [hu, State.tree_modTree, Tree.items_modList_self]
      rfl
    have hthins := thins_containerHandleFullscreenReparent h
      (u.attach (.tiling w) (moveIndex (s.tree.ws w).tiling c i) c) c
    have hlinked : (u.attach (.tiling w) (moveIndex (s.tree.ws w).tiling c i) c).tree.Linked := by
      rw [tree_attach]
      exact (hs.reinsert hc hok).linked
    refine (hthins.items_eq hlinked (r := .tiling w) fun v => by simp).trans ?_
    rw [core_tree, tree_attach, Tree.attach_items, if_pos rfl, hitems]

omit h in
theorem leaveParent_of_top (hp : (s.tree.con c).parent = none) : leaveParent fo s c = s := by
  unfold leaveParent
  rw [hp]

theorem nextCon_leaveParent (s : State) (c : ConId) :
    (leaveParent fo s c).tree.nextCon = s.tree.nextCon := by
  unfold leaveParent
  split
  next => rfl
  next p _ =>
    have hdet : (containerDetach s c).tree.nextCon = s.tree.nextCon := by
      rw [tree_containerDetach]
      exact (Tree.rewired_detach s.tree c).nextCon
    dsimp only
    split
    · exact (thins_containerReapEmpty h (containerDetach s c) p).frame.nextCon.trans hdet
    · exact hdet

/-! ## The operation -/

/-- A view comes into the row in a column of its own. -/
theorem workspaceInsertColumn_window (hs : s.tree.WellFormed) (hc : ColumnOrView s.tree w c)
    (hv : (s.tree.con c).view.isSome) (i : Int) :
    ((workspaceInsertColumn fo s w c i).tree.ws w).tiling =
        listInsert ((s.tree.ws w).tiling.erase (vacated s.tree c))
          (clampIndex i ((s.tree.ws w).tiling.erase (vacated s.tree c)).length) s.tree.nextCon ∧
      ((workspaceInsertColumn fo s w c i).tree.con c).parent = some s.tree.nextCon := by
  have htree := tree_unpark s c
  have hs₀ : (unpark s c).tree.WellFormed := htree.symm ▸ hs
  have hview := leaveParent_view h (unpark s c) c c
  have hnext := nextCon_leaveParent h (unpark s c) c
  have hwf := (wellFormed_leaveParent h hs₀ c).1
  -- out of its parent, the view has no parent, and its column may have left the row
  have hout : ((leaveParent fo (unpark s c) c).tree.con c).parent = none ∧
      ((leaveParent fo (unpark s c) c).tree.ws w).tiling.erase c =
        (s.tree.ws w).tiling.erase (vacated s.tree c) := by
    cases hp : (s.tree.con c).parent with
    | none =>
        rw [leaveParent_of_top (htree.symm ▸ hp), htree]
        refine ⟨hp, ?_⟩
        unfold vacated
        rw [hp]
    | some p =>
        have hrow := tiling_leaveParent h hs₀ (htree.symm ▸ hp) (htree.symm ▸ hc.window p hp) w
        have hmem : c ∉ (s.tree.ws w).tiling := fun hmem => by
          rw [(hs.linked.of_tiling hmem).1] at hp
          cases hp
        refine ⟨(fresh_leaveParent h hs₀ (htree.symm ▸ hp)).free.parent, ?_⟩
        rw [hrow, htree]
        exact List.erase_of_not_mem fun hm => hmem (List.mem_of_mem_erase hm)
  rw [htree] at hview hnext
  have hdet : (leaveParent fo (unpark s c) c).tree.Detachable c := fun _ => hout.1
  have hlt : c < (leaveParent fo (unpark s c) c).tree.nextCon := by
    rw [hnext]
    exact hc.lt
  unfold workspaceInsertColumn
  dsimp only
  rw [hview, hnext]
  simp only [if_pos hv]
  rw [← hnext]
  have hfresh := fresh_workspaceCreateNewColumnAt h hwf hdet hlt w i
  have hrow := tiling_workspaceCreateNewColumnAt h hwf hdet hlt w i w
  have hparent := (rehung_workspaceCreateNewColumnAt h hwf hdet hlt w i).2
  rw [hout.2] at hrow
  generalize workspaceCreateNewColumnAt fo (leaveParent fo (unpark s c) c) w c i = u at *
  have hsettle : Rehung Nobody u _ := rehung_settle_of_fresh h hfresh w i
  refine ⟨?_, (hsettle.parent c id).trans hparent⟩
  refine (tiling_settle_of_fresh h hfresh w i).trans ?_
  rw [hrow]

/-- A column moves within its row, or comes into it from outside. -/
theorem workspaceInsertColumn_column (hs : s.tree.WellFormed) (hc : ColumnOrView s.tree w c)
    (hv : (s.tree.con c).view = none) (i : Int) :
    Inserted (s.tree.ws w).tiling ((workspaceInsertColumn fo s w c i).tree.ws w).tiling c i := by
  have htree := tree_unpark s c
  have hs₀ : (unpark s c).tree.WellFormed := htree.symm ▸ hs
  have hnodup : (s.tree.ws w).tiling.Nodup := hs.linked.nodup (.tiling w)
  obtain ⟨htop, hfloat⟩ := hc.column hv
  unfold workspaceInsertColumn
  dsimp only
  rw [leaveParent_of_top (htree.symm ▸ htop), htree]
  simp only [hv, Option.isSome_none, Bool.false_eq_true, if_false]
  by_cases hmem : c ∈ (s.tree.ws w).tiling
  · have hmem₀ : c ∈ ((unpark s c).tree.ws w).tiling := htree.symm ▸ hmem
    rw [htree, (hs.linked.of_tiling hmem).2]
    dsimp only
    rw [if_neg fun hne => hne rfl, tiling_placeInRow_of_mem h hs₀ hmem₀ i, htree]
    exact inserted_move hnodup hmem
  · -- it is not in the row, so it comes to its place
    have hplace : ∀ u : State, u.tree.Fresh c → (u.tree.ws w).tiling = (s.tree.ws w).tiling →
        Inserted (s.tree.ws w).tiling ((placeInRow fo u w c i).tree.ws w).tiling c i := by
      intro u hfresh hrow
      have hin := (inserted_erase_iff (g := c) (i := i) hnodup hmem).mpr fun hg => hmem hg.1
      rw [tiling_placeInRow_of_fresh h hfresh w i, hrow]
      rwa [List.erase_of_not_mem hmem] at hin
    rw [htree]
    cases hw : (s.tree.con c).workspace with
    | none =>
        refine hplace (unpark s c) ?_ (by rw [htree])
        rw [htree]
        exact .of_free hs (hs.free_of_nowhere htop hw) hc.lt
    | some v =>
        have hvw : v ≠ w := by
          rintro rfl
          exact (hs.top c v id htop hw).elim hmem hfloat
        have hdet : (containerDetach (unpark s c) c).tree = s.tree.detach c := by
          rw [tree_containerDetach, htree]
        dsimp only
        rw [if_pos hvw]
        refine hplace (containerDetach (unpark s c) c) ?_ ?_
        · rw [hdet]
          exact Tree.fresh_detach hs c hc.lt
        · rw [hdet]
          exact (Tree.detach_items hs.linked c (.tiling w)).trans (List.erase_of_not_mem hmem)

end Rows

/-- The column comes to its place in the row; a view is in a new column. -/
structure InsertsColumn (s s' : State) (w : WsId) (c : ConId) (i : Int) : Prop where
  window : (s.tree.con c).view.isSome → (s'.tree.con c).parent = some s.tree.nextCon
  row : Inserted (s.tree.ws w).tiling (s'.tree.ws w).tiling (insertedColumn s.tree c) i

/-- **`workspace_insert_column` is a move** if and only if no column that goes with a view stands
before the index, with a column at the index. -/
theorem workspaceInsertColumn_moves_iff {n : Nat} {s : State} {w : WsId} {c : ConId} {i : Int}
    (hs : s.tree.WellFormed) (hc : ColumnOrView s.tree w c) :
    InsertsColumn s (workspaceInsertColumn (focusOps n) s w c i) w c i ↔
      ¬ ((s.tree.con c).view.isSome ∧ vacated s.tree c ∈ (s.tree.ws w).tiling ∧
        listFind (s.tree.ws w).tiling (vacated s.tree c) < i ∧
        i < (s.tree.ws w).tiling.length) := by
  have hfo := focusThins_focusOps n
  by_cases hv : (s.tree.con c).view.isSome
  · have hnew : s.tree.nextCon ∉ (s.tree.ws w).tiling := by
      intro hmem
      have hnone := (hs.unused s.tree.nextCon le_rfl).2.1
      rw [(hs.linked.of_tiling hmem).2] at hnone
      cases hnone
    have hnodup : (s.tree.ws w).tiling.Nodup := hs.linked.nodup (.tiling w)
    obtain ⟨hrow, hparent⟩ := workspaceInsertColumn_window hfo hs hc hv i
    have hin := inserted_erase_iff (g := vacated s.tree c) (i := i) hnodup hnew
    rw [← hrow] at hin
    have hcol : insertedColumn s.tree c = s.tree.nextCon := if_pos hv
    constructor
    · intro hmoves
      have hplace := hmoves.row
      rw [hcol] at hplace
      exact fun hbad => hin.mp hplace hbad.2
    · intro hgood
      refine ⟨fun _ => hparent, ?_⟩
      rw [hcol]
      exact hin.mpr fun hbad => hgood ⟨hv, hbad⟩
  · have hbare : (s.tree.con c).view = none := by simpa using hv
    have hcol : insertedColumn s.tree c = c := if_neg hv
    refine iff_of_true ⟨fun h => absurd h hv, ?_⟩ fun h => hv h.1
    rw [hcol]
    exact workspaceInsertColumn_column hfo hs hc hbare i

/-- Three columns, of one window each. -/
def threeColumns : State := .outlined [⟨[(0, [3]), (1, [4]), (2, [5])], []⟩]

theorem wellFormed_threeColumns : threeColumns.tree.WellFormed :=
  Tree.wellFormed_outlined (Tree.linked_outlined (by decide +kernel) (by decide +kernel))
    (by decide +kernel)

/-- The window of the first column. -/
theorem columnOrView_threeColumns : ColumnOrView threeColumns.tree 0 3 where
  lt := by decide
  column hv := absurd hv (by decide)
  window p hp := by
    have hp0 : p = 0 := by
      have hparent : (threeColumns.tree.con 3).parent = some 0 := by decide
      exact (Option.some.inj (hparent.symm.trans hp)).symm
    subst hp0
    decide

theorem workspaceInsertColumn_moves_iff_first :
    InsertsColumn threeColumns (workspaceInsertColumn (focusOps 1) threeColumns 0 3 2) 0 3 2 ↔
      ¬ ((threeColumns.tree.con 3).view.isSome ∧
        vacated threeColumns.tree 3 ∈ (threeColumns.tree.ws 0).tiling ∧
        listFind (threeColumns.tree.ws 0).tiling (vacated threeColumns.tree 3) < 2 ∧
        (2 : Int) < (threeColumns.tree.ws 0).tiling.length) :=
  workspaceInsertColumn_moves_iff wellFormed_threeColumns columnOrView_threeColumns

/-- The window of the first column should come between the second column and the third, and it comes
behind the third. -/
theorem workspaceInsertColumn_behind :
    ¬ ∀ (n : Nat) (s : State) (w : WsId) (c : ConId) (i : Int), s.tree.WellFormed →
      ColumnOrView s.tree w c →
      InsertsColumn s (workspaceInsertColumn (focusOps n) s w c i) w c i := by
  intro h
  have hrow := (h 1 threeColumns 0 3 2 wellFormed_threeColumns columnOrView_threeColumns).row
  obtain ⟨hleft, -⟩ := workspaceInsertColumn_window (focusThins_focusOps 1) wellFormed_threeColumns
    columnOrView_threeColumns (by decide) 2
  have htiling : ((workspaceInsertColumn (focusOps 1) threeColumns 0 3 2).tree.ws 0).tiling =
      [1, 2, 6] := hleft.trans (by decide)
  rw [htiling] at hrow
  exact not_inserted_of_split (l := [0, 1, 2]) (u := [1]) (v := []) (x := 2) (n := 6) (i := 2)
    rfl (by decide) (by decide) hrow

end Swirl

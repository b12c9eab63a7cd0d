import Swirl.Input.FocusEffects
import Swirl.Tree.Workspace

set_option autoImplicit false

/-! # `workspace_swap_columns` as an exchange

On one workspace the two columns exchange their places. Across workspaces they do so only when
they stand at the same index: `swapColumnsAcross` inserts `a` at the index `a` had and `b` at the
index `b` had, so each lands at its own old index in the other row.
-/

namespace Swirl

/-- The rows of `s'` are those of `s` with two columns exchanged. -/
def Exchanged (s s' : State) (a b : ConId) : Prop :=
  ∀ w, (s'.tree.ws w).tiling = (s.tree.ws w).tiling.map (Equiv.swap a b)

/-- The rows of `s'` are those of `s`. -/
def SameRows (s s' : State) : Prop := ∀ w, (s'.tree.ws w).tiling = (s.tree.ws w).tiling

theorem Exchanged.back {s s' s'' : State} {a b : ConId} (h : Exchanged s s' a b)
    (h' : Exchanged s' s'' a b) : SameRows s s'' := by
  intro w
  rw [h' w, h w, List.map_map]
  have hid : (Equiv.swap a b) ∘ (Equiv.swap a b) = id := by
    funext c
    exact Equiv.swap_apply_self a b c
  rw [hid, List.map_id]

/-! ## On one workspace -/

theorem tree_swapWidths (s : State) (a b : ConId) : (swapWidths s a b).tree = s.tree := rfl

theorem tree_listInsertAt_tiling (s : State) (w : WsId) (i : Int) (c : ConId) :
    (s.listInsertAt (.tiling w) i c).tree =
      s.tree.modList (.tiling w) fun l => listInsert l i c := by
  unfold State.listInsertAt State.checkInsert State.modTree
  dsimp only
  split <;> rfl

theorem Tree.modList_congr {t : Tree} {r : Tree.ListRef} {f g : List ConId → List ConId}
    (h : f (t.items r) = g (t.items r)) : t.modList r f = t.modList r g := by
  cases r <;> simp_all [Tree.modList, Tree.modWs, Tree.modCon, Tree.items]

theorem Tree.modList_tiling_modList (t : Tree) (w : WsId) (f g : List ConId → List ConId) :
    (t.modList (.tiling w) f).modList (.tiling w) g = t.modList (.tiling w) fun l => g (f l) := by
  simp [Tree.modList, Tree.modWs]

theorem Tree.tiling_modList (t : Tree) (w v : WsId) (f : List ConId → List ConId) :
    ((t.modList (.tiling w) f).ws v).tiling =
      if v = w then f (t.ws w).tiling else (t.ws v).tiling := by
  by_cases h : v = w
  · subst h; simp [Tree.modList, Tree.modWs]
  · simp [Tree.modList, Tree.modWs, h]

section Swap

variable {s : State} {a b : ConId} {w wa wb : WsId}

/-- On one workspace the row is edited as `exchange` does. -/
theorem tree_swapColumnsSame (hs : s.tree.Linked) (ha : a ∈ (s.tree.ws w).tiling)
    (hb : b ∈ (s.tree.ws w).tiling) (hab : a ≠ b) :
    (swapColumnsSame s w a b (listFind (s.tree.ws w).tiling a)
      (listFind (s.tree.ws w).tiling b)).tree =
      s.tree.modList (.tiling w) fun l => l.map (Equiv.swap a b) := by
  set l := (s.tree.ws w).tiling with hl
  have hnodup : l.Nodup := hs.nodup (.tiling w)
  rw [Tree.modList_congr (g := fun l => exchange l a b)
    (exchange_eq_map_swap hnodup ha hb hab).symm]
  set i := listFind l a with hi
  set j := if i < listFind l b then listFind l b - 1 else listFind l b with hj
  have hfound : b ∈ listInsert (listDel l i) j a := by
    rw [hi, listDel_listFind]
    have hmem : b ∈ l.erase a := (List.mem_erase_of_ne hab.symm).mpr hb
    unfold listInsert
    split
    next hok => exact (List.mem_insertIdx hok.toNat_le).mpr (Or.inr hmem)
    next => exact hmem
  have htiling : (((s.modTree fun t => t.modList (.tiling w) fun l => listDel l i).listInsertAt
      (.tiling w) j a).tree.ws w).tiling = listInsert (listDel l i) j a := by
    rw [tree_listInsertAt_tiling, Tree.tiling_modList, if_pos rfl, State.tree_modTree,
      Tree.tiling_modList, if_pos rfl, ← hl]
  unfold swapColumnsSame
  dsimp only
  rw [tree_swapWidths, htiling, if_pos (listFind_nonneg.mpr hfound), tree_listInsertAt_tiling]
  simp only [State.tree_modTree, tree_listInsertAt_tiling, Tree.modList_tiling_modList]
  exact Tree.modList_congr rfl

theorem not_mem_tiling_of_ne (hs : s.tree.Linked) (ha : a ∈ (s.tree.ws wa).tiling)
    (hne : w ≠ wa) : a ∉ (s.tree.ws w).tiling := fun hmem =>
  hne (Tree.ListRef.tiling.inj (hs.unique (show a ∈ s.tree.items (.tiling w) from hmem)
    (show a ∈ s.tree.items (.tiling wa) from ha)))

/-- A row without the two columns stays as it is. -/
theorem tiling_map_swap_of_ne (hs : s.tree.Linked) (ha : a ∈ (s.tree.ws wa).tiling)
    (hb : b ∈ (s.tree.ws wb).tiling) (hwa : w ≠ wa) (hwb : w ≠ wb) :
    (s.tree.ws w).tiling.map (Equiv.swap a b) = (s.tree.ws w).tiling := by
  exact map_swap_of_not_mem (not_mem_tiling_of_ne hs ha hwa) (not_mem_tiling_of_ne hs hb hwb)

theorem workspaceSwapColumns_of_same {fo : FocusOps} (hs : s.tree.Linked)
    (ha : a ∈ (s.tree.ws w).tiling) (hb : b ∈ (s.tree.ws w).tiling) (hab : a ≠ b) :
    (workspaceSwapColumns fo s a b).tree =
      s.tree.modList (.tiling w) fun l => l.map (Equiv.swap a b) := by
  unfold workspaceSwapColumns
  have hia := listFind_nonneg.mpr ha
  have hib := listFind_nonneg.mpr hb
  rw [if_neg hab, (hs.of_tiling ha).2, (hs.of_tiling hb).2]
  dsimp only
  rw [if_neg (by omega), if_pos rfl]
  exact tree_swapColumnsSame hs ha hb hab

/-- On one workspace the operation is an exchange. -/
theorem exchanged_of_same {fo : FocusOps} (hs : s.tree.Linked)
    (ha : a ∈ (s.tree.ws w).tiling) (hb : b ∈ (s.tree.ws w).tiling) (hab : a ≠ b) :
    Exchanged s (workspaceSwapColumns fo s a b) a b := by
  intro v
  rw [workspaceSwapColumns_of_same hs ha hb hab, Tree.tiling_modList]
  split
  next h => rw [h]
  next h => exact (tiling_map_swap_of_ne hs ha hb h h).symm

theorem linked_of_same {fo : FocusOps} (hs : s.tree.Linked)
    (ha : a ∈ (s.tree.ws w).tiling) (hb : b ∈ (s.tree.ws w).tiling) (hab : a ≠ b) :
    (workspaceSwapColumns fo s a b).tree.Linked := by
  rw [workspaceSwapColumns_of_same hs ha hb hab]
  refine hs.perm ?_ (Tree.con_modList_parent _ _ _) (Tree.con_modList_workspace _ _ _)
  intro r
  by_cases hr : r = .tiling w
  · subst hr
    rw [Tree.items_modList_self]
    exact map_swap_perm (hs.nodup (.tiling w)) ha hb
  · rw [Tree.items_modList_ne _ _ _ _ hr]

/-! ## Across workspaces -/

/-- The core after the two columns have changed rows, with the indices they go to. -/
def crossed (k : Core) (wa wb : WsId) (a b : ConId) (ia ib : Int) : Core :=
  (((k.detach a).detach b).attach (.tiling wb) ia a).attach (.tiling wa) ib b

/-- The index `a` goes to when the row it goes to has lost `b`. -/
def crossIndex (la lb : List ConId) (a b : ConId) : Int :=
  min (listFind la a) (lb.erase b).length

theorem tiling_detach_detach (hs : s.tree.Linked) (w : WsId) :
    (((s.tree.detach a).detach b).ws w).tiling = ((s.tree.ws w).tiling.erase a).erase b := by
  have h1 := Tree.detach_items (hs.detach a) b (.tiling w)
  rw [Tree.detach_items hs] at h1
  exact h1

theorem thins_swapColumnsAcross {fo : FocusOps} (h : FocusThins fo) (hs : s.tree.Linked)
    (ha : a ∈ (s.tree.ws wa).tiling) (hb : b ∈ (s.tree.ws wb).tiling) (hne : wa ≠ wb) :
    Thins Nobody Nobody
      (crossed s.core wa wb a b (crossIndex (s.tree.ws wa).tiling (s.tree.ws wb).tiling a b)
        (crossIndex (s.tree.ws wb).tiling (s.tree.ws wa).tiling b a))
      (workspaceSwapColumns fo s a b).core := by
  have ha' : a ∉ (s.tree.ws wb).tiling := not_mem_tiling_of_ne hs ha hne.symm
  have hb' : b ∉ (s.tree.ws wa).tiling := not_mem_tiling_of_ne hs hb hne
  have hab : a ≠ b := fun h => ha' (h ▸ hb)
  have hia := listFind_nonneg.mpr ha
  have hib := listFind_nonneg.mpr hb
  unfold workspaceSwapColumns
  rw [if_neg hab, (hs.of_tiling ha).2, (hs.of_tiling hb).2]
  dsimp only
  rw [if_neg (by omega), if_neg hne]
  unfold swapColumnsAcross
  dsimp only
  refine Thins.trans ?_ (thins_containerHandleFullscreenReparent h _ b)
  refine Thins.trans (Thins.of_eq ?_) (thins_containerHandleFullscreenReparent h _ a)
  set s₂ := containerDetach (containerDetach s a) b with hs₂
  have hcore : s₂.core = (s.core.detach a).detach b := by
    rw [hs₂, core_containerDetach, core_containerDetach]
  have htree : s₂.tree = (s.tree.detach a).detach b := congrArg Core.tree hcore
  have hwa : (s₂.tree.ws wa).tiling = (s.tree.ws wa).tiling.erase a := by
    rw [htree, tiling_detach_detach hs, List.erase_of_not_mem fun hm => hb' (List.mem_of_mem_erase hm)]
  have hwb : (s₂.tree.ws wb).tiling = (s.tree.ws wb).tiling.erase b := by
    rw [htree, tiling_detach_detach hs, List.erase_of_not_mem ha']
  rw [hwa, hwb]
  set ia := crossIndex (s.tree.ws wa).tiling (s.tree.ws wb).tiling a b with hia'
  set ib := crossIndex (s.tree.ws wb).tiling (s.tree.ws wa).tiling b a with hib'
  have hfirst : (s₂.attach (.tiling wb) ia a).core = s₂.core.attach (.tiling wb) ia a := by
    refine core_attach a ?_ fun _ hr => by cases hr
    show InsertOk (s₂.tree.ws wb).tiling ia
    rw [hwb, hia', crossIndex]
    constructor <;> omega
  have hkept : (s₂.attach (.tiling wb) ia a).tree.items (.tiling wa) =
      (s.tree.ws wa).tiling.erase a := by
    have htree' : (s₂.attach (.tiling wb) ia a).tree = s₂.tree.attach (.tiling wb) ia a :=
      congrArg Core.tree hfirst
    rw [htree', Tree.attach_items, if_neg fun h => hne (Tree.ListRef.tiling.inj h)]
    exact hwa
  have hsecond : ((s₂.attach (.tiling wb) ia a).attach (.tiling wa) ib b).core =
      (s₂.attach (.tiling wb) ia a).core.attach (.tiling wa) ib b := by
    refine core_attach b ?_ fun _ hr => by cases hr
    rw [hkept, hib', crossIndex]
    constructor <;> omega
  show ((s₂.attach (.tiling wb) ia a).attach (.tiling wa) ib b).core = _
  rw [hsecond, hfirst, hcore]
  rfl

theorem linked_crossed {k : Core} (hk : k.tree.Linked) (hab : a ≠ b) (ia ib : Int) :
    (crossed k wa wb a b ia ib).tree.Linked := by
  have h1 := hk.detach a
  have h2 := h1.detach b
  have ha : ∀ r, a ∉ ((k.tree.detach a).detach b).items r := fun r hmem =>
    Tree.not_mem_items_detach hk a r ((Tree.detach_items_sublist _ b r).subset hmem)
  have hpa : (((k.tree.detach a).detach b).con a).parent = none := by
    rw [Tree.detach_parent, if_neg hab, Tree.detach_parent_self]
  have hb : ∀ r, b ∉ (((k.tree.detach a).detach b).attach (.tiling wb) ia a).items r := by
    intro r hmem
    rw [Tree.attach_items] at hmem
    split at hmem
    · rcases mem_of_mem_listInsert hmem with h | h
      · exact hab h.symm
      · exact Tree.not_mem_items_detach h1 b _ h
    · exact Tree.not_mem_items_detach h1 b _ hmem
  have hpb : ((((k.tree.detach a).detach b).attach (.tiling wb) ia a).con b).parent = none := by
    rw [Tree.attach_parent, if_neg hab.symm, Tree.detach_parent_self]
  exact (h2.attach ha hpa _ _).attach hb hpb _ _

/-- After the exchange across workspaces each row has lost its column and holds the other, at the
index that column had in its own row. -/
theorem tiling_swapColumnsAcross {fo : FocusOps} (h : FocusThins fo) (hs : s.tree.Linked)
    (ha : a ∈ (s.tree.ws wa).tiling) (hb : b ∈ (s.tree.ws wb).tiling) (hne : wa ≠ wb) :
    (workspaceSwapColumns fo s a b).tree.Linked ∧ ∀ w,
      ((workspaceSwapColumns fo s a b).tree.ws w).tiling =
        if w = wa then listInsert ((s.tree.ws wa).tiling.erase a)
          (crossIndex (s.tree.ws wb).tiling (s.tree.ws wa).tiling b a) b
        else if w = wb then listInsert ((s.tree.ws wb).tiling.erase b)
          (crossIndex (s.tree.ws wa).tiling (s.tree.ws wb).tiling a b) a
        else (s.tree.ws w).tiling := by
  have ha' : a ∉ (s.tree.ws wb).tiling := not_mem_tiling_of_ne hs ha hne.symm
  have hb' : b ∉ (s.tree.ws wa).tiling := not_mem_tiling_of_ne hs hb hne
  have hab : a ≠ b := fun h => ha' (h ▸ hb)
  have hthins := thins_swapColumnsAcross h hs ha hb hne
  have hlinked : (crossed s.core wa wb a b
      (crossIndex (s.tree.ws wa).tiling (s.tree.ws wb).tiling a b)
      (crossIndex (s.tree.ws wb).tiling (s.tree.ws wa).tiling b a)).tree.Linked :=
    linked_crossed hs hab _ _
  refine ⟨hthins.linked hlinked, fun w => ?_⟩
  have hitems := hthins.items_eq hlinked (r := .tiling w) fun v hv => by cases hv
  show Tree.items _ (.tiling w) = _
  rw [← core_tree, hitems]
  unfold crossed Core.attach Core.detach
  simp only [Tree.attach_items, Tree.detach_items (hs.detach a), Tree.detach_items hs, core_tree,
    Tree.ListRef.tiling.injEq, if_neg hne]
  unfold Tree.items
  dsimp only
  by_cases hwa : w = wa
  · rw [if_pos hwa, if_pos hwa,
      List.erase_of_not_mem fun hm => hb' (List.mem_of_mem_erase hm)]
  · rw [if_neg hwa, if_neg hwa, List.erase_of_not_mem ha']
    by_cases hwb : w = wb
    · rw [if_pos hwb, if_pos hwb]
    · rw [if_neg hwb, if_neg hwb, List.erase_of_not_mem (not_mem_tiling_of_ne hs ha hwa),
        List.erase_of_not_mem (not_mem_tiling_of_ne hs hb hwb)]

/-- Across workspaces the operation is an exchange of columns at the same index only. -/
theorem exchanged_across_iff {fo : FocusOps} (h : FocusThins fo) (hs : s.tree.Linked)
    (ha : a ∈ (s.tree.ws wa).tiling) (hb : b ∈ (s.tree.ws wb).tiling) (hne : wa ≠ wb) :
    Exchanged s (workspaceSwapColumns fo s a b) a b ↔
      listFind (s.tree.ws wa).tiling a = listFind (s.tree.ws wb).tiling b := by
  have ha' : a ∉ (s.tree.ws wb).tiling := not_mem_tiling_of_ne hs ha hne.symm
  have hb' : b ∉ (s.tree.ws wa).tiling := not_mem_tiling_of_ne hs hb hne
  obtain ⟨-, hrow⟩ := tiling_swapColumnsAcross h hs ha hb hne
  have hia := listFind_nonneg.mpr ha
  have hib := listFind_nonneg.mpr hb
  have hla := listFind_lt_length ha
  have hlb := listFind_lt_length hb
  have hea : ((s.tree.ws wa).tiling.erase a).length + 1 = (s.tree.ws wa).tiling.length := by
    rw [List.length_erase_of_mem ha]
    omega
  have heb : ((s.tree.ws wb).tiling.erase b).length + 1 = (s.tree.ws wb).tiling.length := by
    rw [List.length_erase_of_mem hb]
    omega
  -- the index at which each column lands in the other row is that of the column it replaces
  have hna : (s.tree.ws wa).tiling.Nodup := hs.nodup (.tiling wa)
  have hnb : (s.tree.ws wb).tiling.Nodup := hs.nodup (.tiling wb)
  have hra := listInsert_erase_eq_map_swap hna ha hb'
    (i := crossIndex (s.tree.ws wb).tiling (s.tree.ws wa).tiling b a)
    (by unfold crossIndex; constructor <;> omega)
  have hrb := listInsert_erase_eq_map_swap hnb hb ha'
    (i := crossIndex (s.tree.ws wa).tiling (s.tree.ws wb).tiling a b)
    (by unfold crossIndex; constructor <;> omega)
  rw [Equiv.swap_comm] at hra
  constructor
  · intro hx
    have hxa := hx wa
    have hxb := hx wb
    rw [hrow, if_pos rfl] at hxa
    rw [hrow, if_neg hne.symm, if_pos rfl] at hxb
    have h1 := hra.mp hxa
    have h2 := hrb.mp hxb
    unfold crossIndex at h1 h2
    omega
  · intro heq w
    rw [hrow]
    split
    next hw =>
      rw [hw]
      refine hra.mpr ?_
      unfold crossIndex
      omega
    next hwa =>
      split
      next hw =>
        rw [hw]
        refine hrb.mpr ?_
        unfold crossIndex
        omega
      next hwb => exact (tiling_map_swap_of_ne hs ha hb hwa hwb).symm

/-! ## The exchange -/

/-- **The operation is an exchange, and undoes itself, on one workspace and between columns at the
same index, and in no other case.** -/
theorem workspaceSwapColumns_exchange_iff {n : Nat} (hs : s.tree.Linked)
    (ha : a ∈ (s.tree.ws wa).tiling) (hb : b ∈ (s.tree.ws wb).tiling) (hab : a ≠ b) :
    Exchanged s (workspaceSwapColumns (focusOps n) s a b) a b ∧
        SameRows s (workspaceSwapColumns (focusOps n)
          (workspaceSwapColumns (focusOps n) s a b) a b) ↔
      wa = wb ∨ listFind (s.tree.ws wa).tiling a = listFind (s.tree.ws wb).tiling b := by
  have hfo := focusThins_focusOps n
  set s' := workspaceSwapColumns (focusOps n) s a b with hs'
  by_cases hw : wa = wb
  · subst hw
    have hx : Exchanged s s' a b := exchanged_of_same hs ha hb hab
    have hmem : ∀ c d, Equiv.swap a b c = d → c ∈ (s.tree.ws wa).tiling →
        d ∈ (s'.tree.ws wa).tiling := by
      rintro c d rfl hc
      rw [hx wa]
      exact List.mem_map_of_mem hc
    have hback : Exchanged s' (workspaceSwapColumns (focusOps n) s' a b) a b :=
      exchanged_of_same (linked_of_same hs ha hb hab) (hmem b a (Equiv.swap_apply_right a b) hb)
        (hmem a b (Equiv.swap_apply_left a b) ha) hab
    exact iff_of_true ⟨hx, hx.back hback⟩ (Or.inl rfl)
  · have hx := exchanged_across_iff hfo hs ha hb hw
    rw [or_iff_right hw]
    refine ⟨fun h => hx.mp h.1, fun h => ⟨hx.mpr h, (hx.mpr h).back ?_⟩⟩
    have hrow := hx.mpr h
    have hlinked : s'.tree.Linked := (tiling_swapColumnsAcross hfo hs ha hb hw).1
    -- `a` and `b` have changed sides, at the same index
    have ha₁ : a ∈ (s'.tree.ws wb).tiling := by
      rw [hrow wb]
      exact List.mem_map.mpr ⟨b, hb, Equiv.swap_apply_right a b⟩
    have hb₁ : b ∈ (s'.tree.ws wa).tiling := by
      rw [hrow wa]
      exact List.mem_map.mpr ⟨a, ha, Equiv.swap_apply_left a b⟩
    refine (exchanged_across_iff hfo hlinked ha₁ hb₁ (Ne.symm hw)).mpr ?_
    have hfa := listFind_map (Equiv.swap a b) (s.tree.ws wb).tiling b
    have hfb := listFind_map (Equiv.swap a b) (s.tree.ws wa).tiling a
    rw [Equiv.swap_apply_right] at hfa
    rw [Equiv.swap_apply_left] at hfb
    rw [hrow wb, hrow wa, hfa, hfb, h]

end Swap

/-- Two workspaces, the first with the columns `0` and `1`, the second with `2` and `3`. -/
def twoRows : State :=
  .outlined [⟨[(0, [4]), (1, [5])], []⟩, ⟨[(2, [6]), (3, [7])], []⟩]

theorem linked_twoRows : twoRows.tree.Linked :=
  Tree.linked_outlined (by decide +kernel) (by decide +kernel)

/-- The operation is not always an exchange: the first column of one workspace and the second of
another land at the first and the second place. -/
theorem workspaceSwapColumns_misplaces :
    ¬ ∀ (n : Nat) (s : State) (a b : ConId) (wa wb : WsId), s.tree.Linked →
      a ∈ (s.tree.ws wa).tiling → b ∈ (s.tree.ws wb).tiling → a ≠ b →
      Exchanged s (workspaceSwapColumns (focusOps n) s a b) a b ∧
        SameRows s (workspaceSwapColumns (focusOps n)
          (workspaceSwapColumns (focusOps n) s a b) a b) := by
  intro h
  have hx := (h 1 twoRows 0 3 0 1 linked_twoRows (by decide) (by decide) (by decide)).1 0
  exact absurd hx (by decide +kernel)

/-- The second columns of the two workspaces are exchanged. -/
theorem workspaceSwapColumns_exchange_twoRows :
    Exchanged twoRows (workspaceSwapColumns (focusOps 1) twoRows 1 3) 1 3 ∧
      SameRows twoRows (workspaceSwapColumns (focusOps 1)
        (workspaceSwapColumns (focusOps 1) twoRows 1 3) 1 3) :=
  (workspaceSwapColumns_exchange_iff linked_twoRows
    (show 1 ∈ (twoRows.tree.ws 0).tiling by decide) (show 3 ∈ (twoRows.tree.ws 1).tiling by decide)
    (by decide)).mpr (Or.inr (by decide +kernel))

end Swirl

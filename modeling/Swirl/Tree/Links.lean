import Swirl.Tree.Start

set_option autoImplicit false

/-! # The links of a tree

`Tree.Linked` says that the back pointers of every container that is in a list name that list. On
linked trees a container is in at most one list, `container_detach` takes it out of that list, and
putting it into a list keeps the tree linked.
-/

namespace Swirl

namespace Tree

/-! ## What the edits leave alone -/

/-- A tree in which some containers have other workspaces. -/
def withWorkspaces (t : Tree) (f : ConId → Option WsId) : Tree :=
  { t with con := fun c => { t.con c with workspace := f c } }

/-- `set_workspace` writes the workspace of one container. -/
theorem setWorkspace_eq (t : Tree) (c : ConId) :
    t.setWorkspace c = t.withWorkspaces (Function.update (fun d => (t.con d).workspace) c
      ((t.con c).parent.bind fun p => (t.con p).workspace)) := by
  unfold setWorkspace modCon withWorkspaces
  congr 1
  funext d
  by_cases h : d = c
  · subst h; simp
  · simp [Function.update_of_ne h]

/-- `set_workspace` on containers without a parent gives them no workspace; on others it writes
their workspace only. -/
theorem foldl_setWorkspace (l : List ConId) (t : Tree) :
    ∃ f, l.foldl setWorkspace t = t.withWorkspaces f ∧
      (∀ d, d ∉ l → f d = (t.con d).workspace) ∧
      ∀ d, (t.con d).parent = none → f d = (t.con d).workspace ∨ f d = none := by
  induction l generalizing t with
  | nil => exact ⟨_, rfl, fun _ _ => rfl, fun _ _ => Or.inl rfl⟩
  | cons c l ih =>
      obtain ⟨f, hf, hout, htop⟩ := ih (t.setWorkspace c)
      rw [setWorkspace_eq] at hf hout htop
      refine ⟨f, ?_, ?_, ?_⟩
      · rw [List.foldl_cons, setWorkspace_eq, hf]
        rfl
      · intro d hd
        rw [hout d fun h => hd (List.mem_cons_of_mem c h)]
        have hdc : d ≠ c := by
          rintro rfl
          exact hd List.mem_cons_self
        exact Function.update_of_ne (f := fun e => (t.con e).workspace) hdc _
      · intro d hd
        rcases htop d hd with h | h
        · rw [h]
          by_cases hdc : d = c
          · subst hdc
            right
            simp [withWorkspaces, hd]
          · left
            simp [withWorkspaces, Function.update_of_ne hdc]
        · exact Or.inr h

theorem setWorkspaceBelow_eq (t : Tree) (c : ConId) :
    ∃ f, t.setWorkspaceBelow c = t.withWorkspaces f ∧
      (∀ d, d ∉ t.descendants c → f d = (t.con d).workspace) ∧
      ∀ d, (t.con d).parent = none → f d = (t.con d).workspace ∨ f d = none :=
  foldl_setWorkspace (t.descendants c) t

/-- What hangs below a container is in the child list of a container. -/
theorem exists_mem_children_of_mem_descendantsWithin {t : Tree} {n : Nat} {c d : ConId}
    (h : d ∈ t.descendantsWithin n c) : ∃ p, d ∈ (t.con p).children := by
  induction n generalizing c with
  | zero => exact absurd h List.not_mem_nil
  | succ n ih =>
      rw [descendantsWithin, List.mem_flatMap] at h
      obtain ⟨k, hk, hd⟩ := h
      rcases List.mem_cons.mp hd with rfl | hd
      · exact ⟨c, hk⟩
      · exact ih hd

theorem exists_mem_children_of_mem_descendants {t : Tree} {c d : ConId}
    (h : d ∈ t.descendants c) : ∃ p, d ∈ (t.con p).children :=
  exists_mem_children_of_mem_descendantsWithin h

/-! ## Items -/

@[simp] theorem items_withWorkspaces (t : Tree) (f : ConId → Option WsId) (r : ListRef) :
    (t.withWorkspaces f).items r = t.items r := by
  cases r <;> rfl

/-- An edit of a container that keeps its children keeps all lists. -/
theorem items_modCon (t : Tree) (c : ConId) (f : Links → Links)
    (hf : (f (t.con c)).children = (t.con c).children) (r : ListRef) :
    (t.modCon c f).items r = t.items r := by
  cases r with
  | tiling w => rfl
  | floating w => rfl
  | children p =>
      by_cases h : p = c
      · subst h; simpa [items, modCon] using hf
      · simp [items, modCon, Function.update_of_ne h]

theorem items_modList_self (t : Tree) (r : ListRef) (f : List ConId → List ConId) :
    (t.modList r f).items r = f (t.items r) := by
  cases r <;> simp [items, modList, modWs, modCon]

theorem items_modList_ne (t : Tree) (r r' : ListRef) (f : List ConId → List ConId) (h : r' ≠ r) :
    (t.modList r f).items r' = t.items r' := by
  cases r <;> cases r' <;> simp_all [items, modList, modWs, modCon, Function.update_apply] <;>
    split <;> simp_all

theorem con_modList_parent (t : Tree) (r : ListRef) (f : List ConId → List ConId) (d : ConId) :
    ((t.modList r f).con d).parent = (t.con d).parent := by
  cases r with
  | tiling w => rfl
  | floating w => rfl
  | children p =>
      by_cases h : d = p
      · subst h; simp [modList, modCon]
      · simp [modList, modCon, Function.update_of_ne h]

theorem con_modList_workspace (t : Tree) (r : ListRef) (f : List ConId → List ConId) (d : ConId) :
    ((t.modList r f).con d).workspace = (t.con d).workspace := by
  cases r with
  | tiling w => rfl
  | floating w => rfl
  | children p =>
      by_cases h : d = p
      · subst h; simp [modList, modCon]
      · simp [modList, modCon, Function.update_of_ne h]

/-! ## Rewiring -/

/-- Two trees that differ in their lists and back pointers only. -/
structure Rewired (t t' : Tree) : Prop where
  con : ∀ c, { t'.con c with
    parent := (t.con c).parent, workspace := (t.con c).workspace,
    children := (t.con c).children } = t.con c
  ws : ∀ w, { t'.ws w with tiling := (t.ws w).tiling, floating := (t.ws w).floating } = t.ws w
  rest : { t' with con := t.con, ws := t.ws } = t

namespace Rewired

variable {t t' t'' : Tree}

theorem refl (t : Tree) : Rewired t t := ⟨fun _ => rfl, fun _ => rfl, rfl⟩

theorem trans (h : Rewired t t') (h' : Rewired t' t'') : Rewired t t'' where
  con c := by rw [← h.con c, ← h'.con c]
  ws w := by rw [← h.ws w, ← h'.ws w]
  rest := by rw [← h.rest, ← h'.rest]

theorem view (h : Rewired t t') (c : ConId) : (t'.con c).view = (t.con c).view := by
  rw [← h.con c]

theorem destroying (h : Rewired t t') (c : ConId) :
    (t'.con c).destroying = (t.con c).destroying := by
  rw [← h.con c]

theorem output (h : Rewired t t') (w : WsId) : (t'.ws w).output = (t.ws w).output := by
  rw [← h.ws w]

theorem nextCon (h : Rewired t t') : t'.nextCon = t.nextCon := by rw [← h.rest]

theorem outputs (h : Rewired t t') : t'.outputs = t.outputs := by rw [← h.rest]

theorem fallbackOutput (h : Rewired t t') : t'.fallbackOutput = t.fallbackOutput := by
  rw [← h.rest]

theorem workspaces (h : Rewired t t') : t'.workspaces = t.workspaces := by rw [← h.rest]

end Rewired

theorem rewired_withWorkspaces (t : Tree) (f : ConId → Option WsId) :
    Rewired t (t.withWorkspaces f) := ⟨fun _ => rfl, fun _ => rfl, rfl⟩

theorem rewired_modList (t : Tree) (r : ListRef) (f : List ConId → List ConId) :
    Rewired t (t.modList r f) := by
  cases r with
  | tiling w =>
      refine ⟨fun _ => rfl, fun v => ?_, rfl⟩
      by_cases h : v = w
      · subst h; simp [modList, modWs]
      · simp [modList, modWs, h]
  | floating w =>
      refine ⟨fun _ => rfl, fun v => ?_, rfl⟩
      by_cases h : v = w
      · subst h; simp [modList, modWs]
      · simp [modList, modWs, h]
  | children p =>
      refine ⟨fun c => ?_, fun _ => rfl, rfl⟩
      by_cases h : c = p
      · subst h; simp [modList, modCon]
      · simp [modList, modCon, h]

/-- Writing the back pointers of a container. -/
theorem rewired_modCon (t : Tree) (c : ConId) (p : Option ConId) (w : Option WsId) :
    Rewired t (t.modCon c fun k => { k with parent := p, workspace := w }) := by
  refine ⟨fun d => ?_, fun _ => rfl, rfl⟩
  by_cases h : d = c
  · subst h; simp [modCon]
  · simp [modCon, h]

theorem rewired_setWorkspaceBelow (t : Tree) (c : ConId) : Rewired t (t.setWorkspaceBelow c) := by
  obtain ⟨f, hf, -⟩ := setWorkspaceBelow_eq t c
  rw [hf]
  exact rewired_withWorkspaces t f

theorem rewired_detach (t : Tree) (c : ConId) : Rewired t (t.detach c) := by
  unfold detach
  dsimp only
  refine Rewired.trans ?_ (rewired_setWorkspaceBelow _ c)
  split
  · exact (rewired_modList t _ _).trans (rewired_modCon _ c none none)
  · exact rewired_modCon t c none none

theorem rewired_attach (t : Tree) (r : ListRef) (index : Int) (c : ConId) :
    Rewired t (t.attach r index c) :=
  ((rewired_modList t r _).trans (rewired_modCon _ c _ _)).trans (rewired_setWorkspaceBelow _ c)

/-! ## Linked trees -/

/-- The back pointers of a container name a list. -/
def LinkedTo (t : Tree) (c : ConId) : ListRef → Prop
  | .tiling w => (t.con c).parent = none ∧ (t.con c).workspace = some w
  | .floating w => (t.con c).parent = none ∧ (t.con c).workspace = some w
  | .children p => (t.con c).parent = some p

/-- Every container that is in a list points back to it, once, and no container is both tiled and
floating. -/
structure Linked (t : Tree) : Prop where
  link : ∀ r c, c ∈ t.items r → t.LinkedTo c r
  apart : ∀ w c, c ∈ (t.ws w).tiling → c ∉ (t.ws w).floating
  nodup : ∀ r, (t.items r).Nodup

namespace Linked

variable {t : Tree} {c d p : ConId} {w : WsId} {r r' : ListRef}

theorem of_children (h : t.Linked) (hc : c ∈ (t.con p).children) : (t.con c).parent = some p :=
  h.link (.children p) c hc

theorem of_tiling (h : t.Linked) (hc : c ∈ (t.ws w).tiling) :
    (t.con c).parent = none ∧ (t.con c).workspace = some w := h.link (.tiling w) c hc

theorem of_floating (h : t.Linked) (hc : c ∈ (t.ws w).floating) :
    (t.con c).parent = none ∧ (t.con c).workspace = some w := h.link (.floating w) c hc

/-- A container is in one list at most. -/
theorem unique (h : t.Linked) (hr : c ∈ t.items r) (hr' : c ∈ t.items r') : r = r' := by
  have hl := h.link r c hr
  have hl' := h.link r' c hr'
  have happ := h.apart
  cases r <;> cases r' <;> simp_all [LinkedTo, items]

/-- The list a container is in is the list `container_get_siblings` finds. -/
theorem siblings (h : t.Linked) (hc : c ∈ t.items r) : containerGetSiblings t c = some r := by
  have hl := h.link r c hc
  have happ := h.apart
  unfold containerGetSiblings
  cases r <;> simp_all [LinkedTo, items]
  grind

end Linked

/-- Being linked depends on the members of the lists, the parents and the workspaces. -/
theorem Linked.perm {t t' : Tree} (h : t.Linked) (hitems : ∀ r, (t'.items r).Perm (t.items r))
    (hparent : ∀ c, (t'.con c).parent = (t.con c).parent)
    (hws : ∀ c, (t'.con c).workspace = (t.con c).workspace) : t'.Linked where
  link r c hc := by
    have hl := h.link r c ((hitems r).mem_iff.mp hc)
    cases r with
    | tiling w => exact ⟨(hparent c).trans hl.1, (hws c).trans hl.2⟩
    | floating w => exact ⟨(hparent c).trans hl.1, (hws c).trans hl.2⟩
    | children p => exact (hparent c).trans hl
  apart w c hc hf :=
    h.apart w c ((hitems (.tiling w)).mem_iff.mp hc) ((hitems (.floating w)).mem_iff.mp hf)
  nodup r := (hitems r).nodup_iff.mpr (h.nodup r)

theorem Linked.congr {t t' : Tree} (h : t.Linked) (hitems : ∀ r, t'.items r = t.items r)
    (hparent : ∀ c, (t'.con c).parent = (t.con c).parent)
    (hws : ∀ c, (t'.con c).workspace = (t.con c).workspace) : t'.Linked :=
  h.perm (fun r => .of_eq (hitems r)) hparent hws

/-- On a tree with finitely many lists in use being linked can be checked. -/
theorem Linked.of_bounds {t : Tree} (n m : Nat) (hcon : ∀ c, n ≤ c → (t.con c).children = [])
    (hws : ∀ w, m ≤ w → (t.ws w).tiling = [] ∧ (t.ws w).floating = [])
    (hbelow : ∀ p < n, (t.con p).children.Nodup ∧
      ∀ c ∈ (t.con p).children, (t.con c).parent = some p)
    (htop : ∀ w < m, ((t.ws w).tiling ++ (t.ws w).floating).Nodup ∧
      ∀ c ∈ (t.ws w).tiling ++ (t.ws w).floating,
        (t.con c).parent = none ∧ (t.con c).workspace = some w) : t.Linked := by
  have htop' : ∀ w, ((t.ws w).tiling ++ (t.ws w).floating).Nodup ∧
      ∀ c ∈ (t.ws w).tiling ++ (t.ws w).floating,
        (t.con c).parent = none ∧ (t.con c).workspace = some w := by
    intro w
    rcases Nat.lt_or_ge w m with hw | hw
    · exact htop w hw
    · simp [hws w hw]
  have hbelow' : ∀ p, (t.con p).children.Nodup ∧
      ∀ c ∈ (t.con p).children, (t.con c).parent = some p := by
    intro p
    rcases Nat.lt_or_ge p n with hp | hp
    · exact hbelow p hp
    · simp [hcon p hp]
  refine ⟨?_, ?_, ?_⟩
  · intro r c hc
    cases r with
    | tiling w => exact (htop' w).2 c (List.mem_append_left _ hc)
    | floating w => exact (htop' w).2 c (List.mem_append_right _ hc)
    | children p => exact (hbelow' p).2 c hc
  · intro w c hc hf
    exact (List.nodup_append.mp (htop' w).1).2.2 c hc c hf rfl
  · intro r
    cases r with
    | tiling w => exact (List.nodup_append.mp (htop' w).1).1
    | floating w => exact (List.nodup_append.mp (htop' w).1).2.1
    | children p => exact (hbelow' p).1

theorem linked_outlined {rows : List Outline}
    (hbelow : ∀ p < (outlined rows).nextCon, ((outlined rows).con p).children.Nodup ∧
      ∀ c ∈ ((outlined rows).con p).children, ((outlined rows).con c).parent = some p)
    (htop : ∀ w < rows.length,
      (((outlined rows).ws w).tiling ++ ((outlined rows).ws w).floating).Nodup ∧
      ∀ c ∈ ((outlined rows).ws w).tiling ++ ((outlined rows).ws w).floating,
        ((outlined rows).con c).parent = none ∧ ((outlined rows).con c).workspace = some w) :
    (outlined rows).Linked := by
  refine .of_bounds (outlined rows).nextCon rows.length ?_ ?_ hbelow htop
  · intro c hc
    have hcon : (outlined rows).con c = Links.blank := if_neg (not_lt.mpr hc)
    rw [hcon]
    rfl
  · intro w hw
    have hws : (outlined rows).ws w = WsLinks.blank := by
      unfold outlined
      dsimp only
      rw [List.getElem?_eq_none hw]
    rw [hws]
    exact ⟨rfl, rfl⟩

/-! ## Detaching -/

/-- `container_detach` as far as its own links go, before the workspaces below follow. -/
def unlink (t : Tree) (c : ConId) : Tree :=
  let t := match containerGetSiblings t c with
    | some r => t.modList r fun l => l.erase c
    | none => t
  t.modCon c fun k => { k with parent := none, workspace := none }

theorem detach_eq (t : Tree) (c : ConId) : t.detach c = (t.unlink c).setWorkspaceBelow c := rfl

theorem unlink_parent (t : Tree) (c d : ConId) :
    ((t.unlink c).con d).parent = if d = c then none else (t.con d).parent := by
  unfold unlink
  dsimp only
  split <;> by_cases h : d = c <;> simp [modCon, h, con_modList_parent]

theorem unlink_workspace (t : Tree) (c d : ConId) :
    ((t.unlink c).con d).workspace = if d = c then none else (t.con d).workspace := by
  unfold unlink
  dsimp only
  split <;> by_cases h : d = c <;> simp [modCon, h, con_modList_workspace]

theorem unlink_items {t : Tree} (ht : t.Linked) (c : ConId) (r : ListRef) :
    (t.unlink c).items r = (t.items r).erase c := by
  unfold unlink
  dsimp only
  rw [items_modCon _ _ _ rfl]
  by_cases hc : ∃ r', c ∈ t.items r'
  · obtain ⟨r', hr'⟩ := hc
    rw [ht.siblings hr']
    dsimp only
    by_cases h : r = r'
    · subst h; exact items_modList_self t r _
    · rw [items_modList_ne t r' r _ h, List.erase_of_not_mem fun hm => h (ht.unique hm hr')]
  · have hnot : ∀ r, (t.items r).erase c = t.items r :=
      fun r => List.erase_of_not_mem fun hm => hc ⟨r, hm⟩
    rw [hnot]
    split
    next r' _ =>
      by_cases h : r = r'
      · subst h; rw [items_modList_self, hnot]
      · exact items_modList_ne t r' r _ h
    next => rfl

/-- Detaching takes out of the lists and puts into none. -/
theorem detach_items_sublist (t : Tree) (c : ConId) (r : ListRef) :
    ((t.detach c).items r).Sublist (t.items r) := by
  obtain ⟨f, hf, -, -⟩ := setWorkspaceBelow_eq (t.unlink c) c
  rw [detach_eq, hf, items_withWorkspaces]
  unfold unlink
  dsimp only
  rw [items_modCon _ _ _ rfl]
  split
  next r' _ =>
    by_cases h : r = r'
    · subst h
      rw [items_modList_self]
      exact List.erase_sublist
    · rw [items_modList_ne t r' r _ h]
  next => exact List.Sublist.refl _

theorem detach_items {t : Tree} (ht : t.Linked) (c : ConId) (r : ListRef) :
    (t.detach c).items r = (t.items r).erase c := by
  obtain ⟨f, hf, -, -⟩ := setWorkspaceBelow_eq (t.unlink c) c
  rw [detach_eq, hf, items_withWorkspaces, unlink_items ht]

theorem detach_parent (t : Tree) (c d : ConId) :
    ((t.detach c).con d).parent = if d = c then none else (t.con d).parent := by
  obtain ⟨f, hf, -, -⟩ := setWorkspaceBelow_eq (t.unlink c) c
  rw [detach_eq, hf]
  exact unlink_parent t c d

@[simp] theorem detach_parent_self (t : Tree) (c : ConId) :
    ((t.detach c).con c).parent = none := by
  rw [detach_parent, if_pos rfl]

/-- The container that is detached is on no workspace. -/
@[simp] theorem detach_workspace_self (t : Tree) (c : ConId) :
    ((t.detach c).con c).workspace = none := by
  obtain ⟨f, hf, -, htop⟩ := setWorkspaceBelow_eq (t.unlink c) c
  rw [detach_eq, hf]
  show f c = none
  rcases htop c (by rw [unlink_parent, if_pos rfl]) with h | h
  · rw [h, unlink_workspace, if_pos rfl]
  · exact h

/-- Other containers without a parent stay where they are. -/
theorem detach_workspace_of_top {t : Tree} (ht : t.Linked) {c d : ConId} (hd : d ≠ c)
    (hp : (t.con d).parent = none) :
    ((t.detach c).con d).workspace = (t.con d).workspace := by
  obtain ⟨f, hf, hout, -⟩ := setWorkspaceBelow_eq (t.unlink c) c
  rw [detach_eq, hf]
  show f d = _
  rw [hout d, unlink_workspace, if_neg hd]
  intro hmem
  obtain ⟨p, hp'⟩ := exists_mem_children_of_mem_descendants hmem
  have hmem' : d ∈ (t.items (.children p)).erase c := by
    rw [← unlink_items ht]; exact hp'
  have := ht.of_children (List.mem_of_mem_erase hmem')
  rw [hp] at this
  cases this

theorem Linked.detach {t : Tree} (ht : t.Linked) (c : ConId) : (t.detach c).Linked where
  link r d hd := by
    rw [detach_items ht] at hd
    have hne : d ≠ c := ((ht.nodup r).mem_erase_iff.mp hd).1
    have hl := ht.link r d (List.mem_of_mem_erase hd)
    have hpar : ((t.detach c).con d).parent = (t.con d).parent := by
      rw [detach_parent, if_neg hne]
    cases r with
    | tiling w => exact ⟨hpar.trans hl.1, (detach_workspace_of_top ht hne hl.1).trans hl.2⟩
    | floating w => exact ⟨hpar.trans hl.1, (detach_workspace_of_top ht hne hl.1).trans hl.2⟩
    | children p => exact hpar.trans hl
  apart w d hd hf := by
    have hd' : d ∈ (t.items (.tiling w)).erase c := by rw [← detach_items ht]; exact hd
    have hf' : d ∈ (t.items (.floating w)).erase c := by rw [← detach_items ht]; exact hf
    exact ht.apart w d (List.mem_of_mem_erase hd') (List.mem_of_mem_erase hf')
  nodup r := by
    rw [detach_items ht]
    exact (ht.nodup r).erase c

/-! ## Attaching -/

/-- Putting a container into a list as far as its own links go. -/
def link (t : Tree) (r : ListRef) (index : Int) (c : ConId) : Tree :=
  let t := t.modList r fun l => listInsert l index c
  t.modCon c fun k => { k with parent := r.parent k.parent, workspace := r.workspace t }

theorem attach_eq (t : Tree) (r : ListRef) (index : Int) (c : ConId) :
    t.attach r index c = (t.link r index c).setWorkspaceBelow c := rfl

theorem link_items (t : Tree) (r : ListRef) (index : Int) (c : ConId) (r' : ListRef) :
    (t.link r index c).items r' =
      if r' = r then listInsert (t.items r) index c else t.items r' := by
  unfold link
  dsimp only
  rw [items_modCon _ _ _ rfl]
  split
  next h => subst h; exact items_modList_self t r' _
  next h => exact items_modList_ne t r r' _ h

theorem link_parent (t : Tree) (r : ListRef) (index : Int) (c d : ConId) :
    ((t.link r index c).con d).parent =
      if d = c then r.parent (t.con c).parent else (t.con d).parent := by
  unfold link
  dsimp only
  by_cases h : d = c
  · subst h; simp [modCon, con_modList_parent]
  · simp [modCon, h, con_modList_parent]

theorem link_workspace (t : Tree) (r : ListRef) (index : Int) (c d : ConId) :
    ((t.link r index c).con d).workspace =
      if d = c then r.workspace t else (t.con d).workspace := by
  have hr : ∀ f, r.workspace (t.modList r f) = r.workspace t := by
    intro f
    cases r with
    | tiling w => rfl
    | floating w => rfl
    | children p => exact con_modList_workspace t (.children p) f p
  unfold link
  dsimp only
  by_cases h : d = c
  · subst h; simp [modCon, hr]
  · simp [modCon, h, con_modList_workspace]

theorem attach_items (t : Tree) (r : ListRef) (index : Int) (c : ConId) (r' : ListRef) :
    (t.attach r index c).items r' =
      if r' = r then listInsert (t.items r) index c else t.items r' := by
  obtain ⟨f, hf, -, -⟩ := setWorkspaceBelow_eq (t.link r index c) c
  rw [attach_eq, hf, items_withWorkspaces, link_items]

theorem attach_parent (t : Tree) (r : ListRef) (index : Int) (c d : ConId) :
    ((t.attach r index c).con d).parent =
      if d = c then r.parent (t.con c).parent else (t.con d).parent := by
  obtain ⟨f, hf, -, -⟩ := setWorkspaceBelow_eq (t.link r index c) c
  rw [attach_eq, hf]
  exact link_parent t r index c d

/-- A container is in a child list after an insertion only if it is the one put there or was in
that list before. -/
theorem parent_of_mem_link_children {t : Tree} (ht : t.Linked) {r : ListRef} {index : Int}
    {c d p : ConId} (h : d ∈ (t.link r index c).items (.children p)) :
    (d = c ∧ r = .children p) ∨ (t.con d).parent = some p := by
  rw [link_items] at h
  split at h
  next hr =>
    subst hr
    rcases mem_of_mem_listInsert h with rfl | h
    · exact Or.inl ⟨rfl, rfl⟩
    · exact Or.inr (ht.of_children h)
  next => exact Or.inr (ht.of_children h)

/-- Containers without a parent stay where they are when another container is put into a list. -/
theorem attach_workspace_of_top {t : Tree} (ht : t.Linked) {r : ListRef} {index : Int}
    {c d : ConId} (hd : d ≠ c) (hp : (t.con d).parent = none) :
    ((t.attach r index c).con d).workspace = (t.con d).workspace := by
  obtain ⟨f, hf, hout, -⟩ := setWorkspaceBelow_eq (t.link r index c) c
  rw [attach_eq, hf]
  show f d = _
  rw [hout d, link_workspace, if_neg hd]
  intro hmem
  obtain ⟨p, hp'⟩ := exists_mem_children_of_mem_descendants hmem
  rcases parent_of_mem_link_children ht (p := p) hp' with ⟨h, -⟩ | h
  · exact hd h
  · rw [hp] at h; cases h

/-- A container without a parent that is put into the list of a workspace is on that
workspace. -/
theorem attach_workspace_self_of_top {t : Tree} (ht : t.Linked) {r : ListRef} {index : Int}
    {c : ConId} (hr : r.parent (t.con c).parent = none) (hp : (t.con c).parent = none) :
    ((t.attach r index c).con c).workspace = r.workspace t := by
  obtain ⟨f, hf, hout, -⟩ := setWorkspaceBelow_eq (t.link r index c) c
  rw [attach_eq, hf]
  show f c = _
  rw [hout c, link_workspace, if_pos rfl]
  intro hmem
  obtain ⟨p, hp'⟩ := exists_mem_children_of_mem_descendants hmem
  rcases parent_of_mem_link_children ht (p := p) hp' with ⟨-, h⟩ | h
  · subst h; cases hr
  · rw [hp] at h; cases h

/-- A container that is in no list and has no parent can be put into any list. -/
theorem Linked.attach {t : Tree} (ht : t.Linked) {c : ConId} (hfree : ∀ r, c ∉ t.items r)
    (hpar : (t.con c).parent = none) (r : ListRef) (index : Int) :
    (t.attach r index c).Linked where
  link r' d hd := by
    rw [attach_items] at hd
    by_cases hdc : d = c
    · subst hdc
      have hr' : r' = r := by
        by_contra h
        rw [if_neg h] at hd
        exact hfree r' hd
      subst hr'
      have hp := attach_parent t r' index d d
      rw [if_pos rfl, hpar] at hp
      cases r' with
      | tiling w => exact ⟨hp, attach_workspace_self_of_top ht hpar hpar⟩
      | floating w => exact ⟨hp, attach_workspace_self_of_top ht hpar hpar⟩
      | children p => exact hp
    · have hmem : d ∈ t.items r' := by
        split at hd
        next h =>
          subst h
          exact (mem_of_mem_listInsert hd).resolve_left hdc
        next => exact hd
      have hl := ht.link r' d hmem
      have hp : ((t.attach r index c).con d).parent = (t.con d).parent := by
        rw [attach_parent, if_neg hdc]
      cases r' with
      | tiling w => exact ⟨hp.trans hl.1, (attach_workspace_of_top ht hdc hl.1).trans hl.2⟩
      | floating w => exact ⟨hp.trans hl.1, (attach_workspace_of_top ht hdc hl.1).trans hl.2⟩
      | children p => exact hp.trans hl
  apart w d hd hf := by
    have hd' : d ∈ (t.attach r index c).items (.tiling w) := hd
    have hf' : d ∈ (t.attach r index c).items (.floating w) := hf
    rw [attach_items] at hd' hf'
    have old : ∀ r', d ∈ (if r' = r then listInsert (t.items r) index c else t.items r') →
        d = c ∧ r' = r ∨ d ∈ t.items r' := by
      intro r' h
      split at h
      next he =>
        subst he
        exact (mem_of_mem_listInsert h).imp (fun e => ⟨e, rfl⟩) id
      next => exact Or.inr h
    rcases old _ hd' with ⟨hdc, hr⟩ | h1 <;> rcases old _ hf' with ⟨hdc', hr'⟩ | h2
    · rw [← hr] at hr'; cases hr'
    · exact hfree _ (hdc ▸ h2)
    · exact hfree _ (hdc' ▸ h1)
    · exact ht.apart w d h1 h2
  nodup r' := by
    rw [attach_items]
    split
    · exact listInsert_nodup (ht.nodup r) (hfree r)
    · exact ht.nodup r'

/-- A container that was detached is in no list. -/
theorem not_mem_items_detach {t : Tree} (ht : t.Linked) (c : ConId) (r : ListRef) :
    c ∉ (t.detach c).items r := by
  rw [detach_items ht]
  exact (ht.nodup r).not_mem_erase

end Tree

end Swirl

import Swirl.Lib.Forest
import Swirl.Tree.Effects

set_option autoImplicit false

/-! # Well-formed trees

In a well-formed tree every container is in exactly the list its back pointers name, the parent
links form a forest, and every container is on the workspace of its parent. A column that was
created and is not yet in the row is *loose*: it has a workspace and is in no list.
`WellFormedBut L` allows the containers in `L` to be loose.

On such trees the walks of `node.c` with their fuel are complete, and the primitive edits
(`Tree.detach`, `Tree.attach`, `Tree.create`) and the steps of thinning out keep them well
formed.
-/

namespace Swirl

open Lib

namespace Tree

/-! ## The forest of containers -/

/-- The parent links. -/
def parentOf (t : Tree) (c : ConId) : Option ConId := (t.con c).parent

/-- `d` hangs below `a`. -/
def HangsBelow (t : Tree) (d a : ConId) : Prop := Under t.parentOf d a

/-- The child lists and the parent links agree and form a forest of containers in use. -/
structure Forest (t : Tree) : Prop where
  agree : ∀ p c, c ∈ (t.con p).children ↔ (t.con c).parent = some p
  ranked : Ranked t.parentOf
  used : ∀ p, t.nextCon ≤ p → (t.con p).children = []

theorem ancestors_eq (t : Tree) (c : ConId) : t.ancestors c = chainWithin t.parentOf t.nextCon c := by
  unfold ancestors
  generalize t.nextCon = n
  induction n generalizing c with
  | zero => rfl
  | succ n ih =>
      rw [ancestorsWithin, chainWithin, parentOf]
      cases (t.con c).parent with
      | none => rfl
      | some p =>
          dsimp only
          rw [ih p]

theorem descendants_eq (t : Tree) (c : ConId) :
    t.descendants c = belowWithin (fun p => (t.con p).children) t.nextCon c := by
  unfold descendants
  generalize t.nextCon = n
  induction n generalizing c with
  | zero => rfl
  | succ n ih =>
      rw [descendantsWithin, belowWithin]
      congr 1
      funext k
      rw [ih k]

namespace Forest

variable {t : Tree} {a c d p : ConId}

theorem parent_mem (h : t.Forest) (d p : ConId) (hp : t.parentOf d = some p) :
    p ∈ Finset.range t.nextCon := by
  rw [Finset.mem_range]
  by_contra hge
  have hmem := (h.agree p d).mpr hp
  rw [h.used p (Nat.not_lt.mp hge)] at hmem
  exact absurd hmem List.not_mem_nil

/-- `container_for_each_child` visits all that hangs below a container. -/
theorem mem_descendants (h : t.Forest) : d ∈ t.descendants c ↔ t.HangsBelow d c := by
  have hmem := h.ranked.mem_below (a := c) (d := d) h.parent_mem h.agree
  rwa [Finset.card_range, ← descendants_eq] at hmem

/-- `container_has_ancestor` sees all ancestors. -/
theorem mem_ancestors (h : t.Forest) : a ∈ t.ancestors d ↔ t.HangsBelow d a := by
  have hmem := h.ranked.mem_chain (a := a) (d := d) h.parent_mem
  rwa [Finset.card_range, ← ancestors_eq] at hmem

theorem not_below_self (h : t.Forest) (c : ConId) : ¬ t.HangsBelow c c := h.ranked.irrefl c

/-- `container_toplevel_ancestor` walks up to the end. -/
theorem toplevel_parent (h : t.Forest) (c : ConId) :
    (t.con (containerToplevelAncestor t c)).parent = none := by
  unfold containerToplevelAncestor
  rw [ancestors_eq]
  show t.parentOf _ = none
  refine chainWithin_last fun b hb => ?_
  have hle := h.ranked.up_bound h.parent_mem hb
  rw [Finset.card_range] at hle
  omega

/-- Something hangs only below a container with children. -/
theorem exists_child (h : t.Forest) (hd : t.HangsBelow d c) : ∃ e, e ∈ (t.con c).children := by
  obtain ⟨k, hk⟩ := hd
  rw [up_succ] at hk
  obtain ⟨e, -, he⟩ := Option.bind_eq_some_iff.mp hk
  exact ⟨e, (h.agree c e).mpr he⟩

theorem above_lt (h : t.Forest) (hd : t.HangsBelow d c) : c < t.nextCon := by
  obtain ⟨e, he⟩ := h.exists_child hd
  exact Finset.mem_range.mp (h.parent_mem e c ((h.agree c e).mp he))

theorem toplevel_above (h : t.Forest) (c : ConId) :
    containerToplevelAncestor t c = c ∨ t.HangsBelow c (containerToplevelAncestor t c) := by
  unfold containerToplevelAncestor
  rcases chainWithin_last_mem t.parentOf t.nextCon c with heq | hmem
  · exact Or.inl (by rw [ancestors_eq]; exact heq)
  · right
    rw [← h.mem_ancestors, ancestors_eq]
    exact hmem

end Forest

theorem toplevel_of_top {t : Tree} {c : ConId} (h : (t.con c).parent = none) :
    containerToplevelAncestor t c = c := by
  unfold containerToplevelAncestor
  rw [ancestors_eq]
  cases t.nextCon with
  | zero => rfl
  | succ n =>
      rw [chainWithin, parentOf, h]
      rfl

/-! ## `set_workspace` on everything below -/

/-- Parents come before their children, so the workspace of the root reaches all of them. -/
theorem foldl_setWorkspace_covered {t : Tree} {v : Option WsId} (l seen : List ConId)
    (hseen : ∀ e ∈ seen, (t.con e).workspace = v) (hl : Covered t.parentOf seen l) :
    ∀ e ∈ seen ++ l, ((l.foldl setWorkspace t).con e).workspace = v := by
  induction l generalizing t seen with
  | nil => simpa using hseen
  | cons d l ih =>
      obtain ⟨⟨p, hp, hd⟩, hl⟩ := hl
      have hstep : ∀ e, ((t.setWorkspace d).con e).workspace =
          if e = d then v else (t.con e).workspace := by
        intro e
        rw [setWorkspace_eq]
        by_cases he : e = d
        · subst he
          rw [if_pos rfl]
          show Function.update (fun x => (t.con x).workspace) e _ e = v
          rw [Function.update_self, show (t.con e).parent = some p from hd]
          exact hseen p hp
        · rw [if_neg he]
          exact Function.update_of_ne (f := fun x => (t.con x).workspace) he _
      have hparent : (t.setWorkspace d).parentOf = t.parentOf := by
        funext e
        unfold parentOf
        rw [setWorkspace_eq]
        rfl
      have hseen' : ∀ e ∈ d :: seen, ((t.setWorkspace d).con e).workspace = v := by
        intro e he
        rw [hstep]
        rcases List.mem_cons.mp he with rfl | he
        · exact if_pos rfl
        · split
          · rfl
          · exact hseen e he
      intro e he
      rw [List.foldl_cons]
      refine ih (d :: seen) hseen' (hparent ▸ hl) e ?_
      rcases List.mem_append.mp he with he | he
      · exact List.mem_append_left _ (List.mem_cons_of_mem d he)
      · rcases List.mem_cons.mp he with rfl | he
        · exact List.mem_append_left _ List.mem_cons_self
        · exact List.mem_append_right _ he

/-- **Everything below a container gets its workspace**, and nothing else changes. -/
theorem setWorkspaceBelow_inside {t : Tree} (h : t.Forest) {c d : ConId} (hd : t.HangsBelow d c) :
    ((t.setWorkspaceBelow c).con d).workspace = (t.con c).workspace := by
  have hcov : Covered t.parentOf [c] (t.descendants c) := by
    rw [descendants_eq]
    exact covered_belowWithin (fun p e he => (h.agree p e).mp he) _ (List.mem_singleton_self c)
  refine foldl_setWorkspace_covered (t.descendants c) [c] ?_ hcov d ?_
  · intro e he
    rw [List.mem_singleton.mp he]
  · exact List.mem_append_right _ (h.mem_descendants.mpr hd)

theorem setWorkspaceBelow_outside {t : Tree} (h : t.Forest) {c d : ConId}
    (hd : ¬ t.HangsBelow d c) : ((t.setWorkspaceBelow c).con d).workspace = (t.con d).workspace := by
  obtain ⟨f, hf, hout, -⟩ := setWorkspaceBelow_eq t c
  rw [hf]
  exact hout d fun hmem => hd (h.mem_descendants.mp hmem)

/-! ## Well-formed trees -/

/-- A tree that is well formed up to loose containers. -/
structure WellFormedBut (L : ConId → Prop) (t : Tree) : Prop where
  linked : t.Linked
  /-- The parent of a container lists it. -/
  child : ∀ c p, (t.con c).parent = some p → c ∈ (t.con p).children
  /-- The workspace of a container without a parent lists it. -/
  top : ∀ c w, ¬ L c → (t.con c).parent = none → (t.con c).workspace = some w →
    c ∈ (t.ws w).tiling ∨ c ∈ (t.ws w).floating
  below : ∀ c p, (t.con c).parent = some p → (t.con c).workspace = (t.con p).workspace
  ranked : Ranked t.parentOf
  /-- The names that are not given yet have no links. -/
  unused : ∀ c, t.nextCon ≤ c →
    (t.con c).parent = none ∧ (t.con c).workspace = none ∧ (t.con c).children = []

/-- A tree without loose containers. -/
abbrev WellFormed (t : Tree) : Prop := WellFormedBut Nobody t

/-- A container that hangs nowhere. -/
structure Free (t : Tree) (c : ConId) : Prop where
  parent : (t.con c).parent = none
  unlisted : ∀ r, c ∉ t.items r

namespace WellFormedBut

variable {L L' : ConId → Prop} {t : Tree} {c d p : ConId} {w : WsId}

theorem mono (h : t.WellFormedBut L) (hL : ∀ c, L c → L' c) : t.WellFormedBut L' :=
  { h with top := fun c w hc => h.top c w fun hl => hc (hL c hl) }

theorem forest (h : t.WellFormedBut L) : t.Forest where
  agree p c := ⟨fun hc => h.linked.of_children hc, h.child c p⟩
  ranked := h.ranked
  used p hp := (h.unused p hp).2.2

/-- A container is on the workspace of everything it hangs below. -/
theorem workspace_of_below (h : t.WellFormedBut L) (hd : t.HangsBelow d c) :
    (t.con d).workspace = (t.con c).workspace := by
  obtain ⟨k, hk⟩ := hd
  induction k generalizing d with
  | zero =>
      obtain ⟨p, hp, hk⟩ := Option.bind_eq_some_iff.mp hk
      obtain rfl := Option.some.inj hk
      exact h.below d p hp
  | succ k ih =>
      obtain ⟨p, hp, hk⟩ := Option.bind_eq_some_iff.mp hk
      exact (h.below d p hp).trans (ih hk)

/-- A container on a workspace is in use. -/
theorem lt_of_workspace (h : t.WellFormedBut L) (hc : (t.con c).workspace = some w) :
    c < t.nextCon := by
  by_contra hge
  have hnone := (h.unused c (Nat.not_lt.mp hge)).2.1
  rw [hc] at hnone
  cases hnone

/-- **Every container is on the workspace of its top-level ancestor.** -/
theorem workspace_toplevel (h : t.WellFormedBut L) (c : ConId) :
    (t.con (containerToplevelAncestor t c)).workspace = (t.con c).workspace := by
  rcases h.forest.toplevel_above c with heq | hbelow
  · rw [heq]
  · exact (h.workspace_of_below hbelow).symm

/-- A container that is neither on a workspace nor below another is in no list. -/
theorem free_of_nowhere (h : t.WellFormedBut L) (hp : (t.con c).parent = none)
    (hw : (t.con c).workspace = none) : t.Free c := by
  refine ⟨hp, fun r hmem => ?_⟩
  have hl := h.linked.link r c hmem
  cases r with
  | tiling v => exact absurd (hw.symm.trans hl.2) (by simp)
  | floating v => exact absurd (hw.symm.trans hl.2) (by simp)
  | children q => exact absurd (hp.symm.trans hl) (by simp)

end WellFormedBut

/-! ## Detaching -/

section Detach

variable {L : ConId → Prop} {t : Tree} {c d p : ConId}

theorem parentOf_unlink (t : Tree) (c : ConId) :
    (t.unlink c).parentOf = Function.update t.parentOf c none := by
  funext d
  unfold parentOf
  rw [unlink_parent]
  by_cases h : d = c
  · subst h; simp
  · simp [h]

theorem ranked_unlink (h : t.WellFormedBut L) (c : ConId) : Ranked (t.unlink c).parentOf := by
  refine h.ranked.mono fun d p hp => ?_
  rw [parentOf_unlink] at hp
  by_cases hd : d = c
  · subst hd; simp at hp
  · rwa [Function.update_of_ne hd] at hp

theorem forest_unlink (h : t.WellFormedBut L) (c : ConId) : (t.unlink c).Forest where
  agree p d := by
    have hitems := unlink_items h.linked c (.children p)
    show d ∈ (t.unlink c).items (.children p) ↔ _
    rw [hitems, (h.linked.nodup (.children p)).mem_erase_iff, unlink_parent]
    by_cases hd : d = c
    · simp [hd]
    · simp only [ne_eq, hd, not_false_eq_true, true_and, if_false]
      exact h.forest.agree p d
  ranked := ranked_unlink h c
  used p hp := by
    have hnext : (t.unlink c).nextCon = t.nextCon := by
      unfold unlink
      dsimp only
      split
      · exact (rewired_modList t _ _).nextCon
      · rfl
    have hitems := unlink_items h.linked c (.children p)
    show (t.unlink c).items (.children p) = []
    rw [hitems]
    show ((t.con p).children).erase c = []
    rw [(h.unused p (hnext ▸ hp)).2.2]
    rfl

theorem hangsBelow_unlink (h : t.WellFormedBut L) :
    (t.unlink c).HangsBelow d c ↔ t.HangsBelow d c := by
  have hr := ranked_unlink h c
  unfold HangsBelow
  rw [parentOf_unlink] at hr ⊢
  exact h.ranked.under_update_iff hr

/-- A detached container and what hangs below it are on no workspace. -/
theorem detach_workspace_inside (h : t.WellFormedBut L) (hd : d = c ∨ t.HangsBelow d c) :
    ((t.detach c).con d).workspace = none := by
  rcases hd with rfl | hd
  · exact detach_workspace_self t d
  · rw [detach_eq, setWorkspaceBelow_inside (forest_unlink h c) ((hangsBelow_unlink h).mpr hd),
      unlink_workspace, if_pos rfl]

theorem detach_workspace_outside (h : t.WellFormedBut L) (hdc : d ≠ c)
    (hd : ¬ t.HangsBelow d c) : ((t.detach c).con d).workspace = (t.con d).workspace := by
  rw [detach_eq, setWorkspaceBelow_outside (forest_unlink h c)
    fun hb => hd ((hangsBelow_unlink h).mp hb), unlink_workspace, if_neg hdc]

/-- The parent of what does not hang below a container does not either. -/
theorem HangsBelow.up (hp : (t.con d).parent = some p) (hd : p = c ∨ t.HangsBelow p c) :
    t.HangsBelow d c := under_iff.mpr ⟨p, hp, hd⟩

theorem HangsBelow.down (hd : t.HangsBelow d c) (hp : (t.con d).parent = some p) :
    p = c ∨ t.HangsBelow p c := by
  obtain ⟨q, hq, h⟩ := under_iff.mp hd
  obtain rfl := Option.some.inj (hp.symm.trans hq)
  exact h

theorem hangsBelow_of_detach {a : ConId} (h : (t.detach c).HangsBelow d a) : t.HangsBelow d a := by
  refine h.mono fun e p hp => ?_
  have hp' : ((t.detach c).con e).parent = some p := hp
  rw [detach_parent] at hp'
  split at hp'
  · cases hp'
  · exact hp'

/-- Detaching keeps what hangs below the container. -/
theorem hangsBelow_detach (h : t.WellFormedBut L) :
    (t.detach c).HangsBelow d c ↔ t.HangsBelow d c := by
  have hparent : (t.detach c).parentOf = (t.unlink c).parentOf := by
    funext e
    unfold parentOf
    rw [detach_parent, unlink_parent]
  have hunlink := hangsBelow_unlink (d := d) (c := c) h
  unfold HangsBelow at hunlink ⊢
  rw [hparent]
  exact hunlink

theorem not_hangsBelow_of_top (hp : (t.con d).parent = none) : ¬ t.HangsBelow d c :=
  not_under_of_top hp

/-- **Detaching keeps a tree well formed.** -/
theorem WellFormedBut.detach (h : t.WellFormedBut L) (c : ConId) : (t.detach c).WellFormedBut L where
  linked := h.linked.detach c
  child d p hp := by
    rw [detach_parent] at hp
    by_cases hd : d = c
    · rw [if_pos hd] at hp
      cases hp
    · rw [if_neg hd] at hp
      show d ∈ (t.detach c).items (.children p)
      rw [detach_items h.linked]
      exact (List.mem_erase_of_ne hd).mpr (h.child d p hp)
  top d w hL hp hw := by
    by_cases hd : d = c
    · rw [hd, detach_workspace_self] at hw
      cases hw
    · rw [detach_parent, if_neg hd] at hp
      rw [detach_workspace_of_top h.linked hd hp] at hw
      have htiling := detach_items h.linked c (.tiling w)
      have hfloating := detach_items h.linked c (.floating w)
      rcases h.top d w hL hp hw with hm | hm
      · left
        show d ∈ (t.detach c).items (.tiling w)
        rw [htiling]
        exact (List.mem_erase_of_ne hd).mpr hm
      · right
        show d ∈ (t.detach c).items (.floating w)
        rw [hfloating]
        exact (List.mem_erase_of_ne hd).mpr hm
  below d p hp := by
    rw [detach_parent] at hp
    by_cases hd : d = c
    · rw [if_pos hd] at hp
      cases hp
    · rw [if_neg hd] at hp
      by_cases hb : t.HangsBelow d c
      · rw [detach_workspace_inside h (Or.inr hb), detach_workspace_inside h (hb.down hp)]
      · have hpc : ¬ (p = c ∨ t.HangsBelow p c) := fun hb' => hb (HangsBelow.up hp hb')
        rw [detach_workspace_outside h hd hb,
          detach_workspace_outside h (fun he => hpc (Or.inl he)) (fun hb' => hpc (Or.inr hb'))]
        exact h.below d p hp
  ranked := by
    refine h.ranked.mono fun d p hp => ?_
    have hp' : ((t.detach c).con d).parent = some p := hp
    rw [detach_parent] at hp'
    split at hp'
    · cases hp'
    · exact hp'
  unused d hd := by
    rw [(rewired_detach t c).nextCon] at hd
    obtain ⟨hp, hw, hk⟩ := h.unused d hd
    refine ⟨?_, ?_, ?_⟩
    · rw [detach_parent, hp, ite_self]
    · by_cases hdc : d = c
      · rw [hdc]
        exact detach_workspace_self t c
      · rw [detach_workspace_of_top h.linked hdc hp, hw]
    · have hsub := detach_items_sublist t c (.children d)
      exact List.sublist_nil.mp (hk ▸ hsub)

theorem free_detach (h : t.WellFormedBut L) (c : ConId) : (t.detach c).Free c :=
  ⟨detach_parent_self t c, not_mem_items_detach h.linked c⟩

theorem Free.detach (hc : t.Free c) (d : ConId) : (t.detach d).Free c := by
  refine ⟨?_, fun r hmem => hc.unlisted r ((detach_items_sublist t d r).subset hmem)⟩
  rw [detach_parent, hc.parent, ite_self]

end Detach

/-! ## Attaching -/

/-- A list a container can be put into: at an index it has, and not below the container. -/
structure Takes (t : Tree) (r : ListRef) (index : Int) (c : ConId) : Prop where
  index : InsertOk (t.items r) index
  parent : ∀ p, r = .children p → p ≠ c ∧ ¬ t.HangsBelow p c ∧ p < t.nextCon

section Attach

variable {L : ConId → Prop} {t : Tree} {r : ListRef} {i : Int} {c d p : ConId}

theorem parentOf_link (hc : t.Free c) :
    (t.link r i c).parentOf = Function.update t.parentOf c (r.parent none) := by
  funext d
  unfold parentOf
  rw [link_parent, hc.parent]
  by_cases h : d = c
  · subst h; simp
  · simp [h]

theorem ranked_link (h : t.WellFormedBut L) (hc : t.Free c) (hr : t.Takes r i c) :
    Ranked (t.link r i c).parentOf := by
  rw [parentOf_link hc]
  have htop : t.parentOf c = none := hc.parent
  have hsame : Function.update t.parentOf c none = t.parentOf := by
    rw [← htop, Function.update_eq_self]
  cases r with
  | tiling w => exact hsame.symm ▸ h.ranked
  | floating w => exact hsame.symm ▸ h.ranked
  | children p =>
      obtain ⟨hpc, hbelow, -⟩ := hr.parent p rfl
      exact h.ranked.link htop hpc hbelow

theorem link_mem (hr : t.Takes r i c) (q : ListRef) :
    d ∈ (t.link r i c).items q ↔ d = c ∧ q = r ∨ d ∈ t.items q := by
  rw [link_items]
  by_cases h : q = r
  · subst h
    rw [if_pos rfl, mem_listInsert_of_ok hr.index]
    simp
  · rw [if_neg h]
    simp [h]

theorem forest_link (h : t.WellFormedBut L) (hc : t.Free c) (hr : t.Takes r i c) :
    (t.link r i c).Forest where
  agree p d := by
    show d ∈ (t.link r i c).items (.children p) ↔ _
    rw [link_mem hr, link_parent, hc.parent]
    have hagree := h.forest.agree p d
    by_cases hd : d = c
    · subst hd
      have hno : d ∉ t.items (.children p) := hc.unlisted _
      rw [if_pos rfl, or_iff_left hno, and_iff_right rfl]
      cases r <;> simp [ListRef.parent, eq_comm]
    · rw [if_neg hd, or_iff_right fun he => hd he.1]
      exact hagree
  ranked := ranked_link h hc hr
  used p hp := by
    have hnext : (t.link r i c).nextCon = t.nextCon := (rewired_modList t r _).nextCon
    have hp' : t.nextCon ≤ p := hnext ▸ hp
    show (t.link r i c).items (.children p) = []
    rw [link_items, if_neg]
    · exact (h.unused p hp').2.2
    · intro he
      exact absurd (hr.parent p he.symm).2.2 (Nat.not_lt.mpr hp')

theorem hangsBelow_link (h : t.WellFormedBut L) (hc : t.Free c) (hr : t.Takes r i c) :
    (t.link r i c).HangsBelow d c ↔ t.HangsBelow d c := by
  have hranked := ranked_link h hc hr
  unfold HangsBelow
  rw [parentOf_link hc] at hranked ⊢
  exact h.ranked.under_update_iff hranked

/-- A container that is put into a list, and what hangs below it, come on its workspace. -/
theorem attach_workspace_inside (h : t.WellFormedBut L) (hc : t.Free c) (hr : t.Takes r i c)
    (hd : d = c ∨ t.HangsBelow d c) :
    ((t.attach r i c).con d).workspace = r.workspace t := by
  have hforest := forest_link h hc hr
  rcases hd with rfl | hd
  · rw [attach_eq, setWorkspaceBelow_outside hforest (hforest.not_below_self d), link_workspace,
      if_pos rfl]
  · rw [attach_eq, setWorkspaceBelow_inside hforest ((hangsBelow_link h hc hr).mpr hd),
      link_workspace, if_pos rfl]

theorem attach_workspace_outside (h : t.WellFormedBut L) (hc : t.Free c) (hr : t.Takes r i c)
    (hdc : d ≠ c) (hd : ¬ t.HangsBelow d c) :
    ((t.attach r i c).con d).workspace = (t.con d).workspace := by
  rw [attach_eq, setWorkspaceBelow_outside (forest_link h hc hr)
    fun hb => hd ((hangsBelow_link h hc hr).mp hb), link_workspace, if_neg hdc]

theorem attach_mem (hr : t.Takes r i c) (q : ListRef) :
    d ∈ (t.attach r i c).items q ↔ d = c ∧ q = r ∨ d ∈ t.items q := by
  have hlink := link_mem (d := d) hr q
  rwa [link_items, ← attach_items] at hlink

/-- **Putting a free container into a list keeps a tree well formed**, and the container is no
longer loose. -/
theorem WellFormedBut.attach (h : t.WellFormedBut L) (hc : t.Free c) (hlt : c < t.nextCon)
    (hr : t.Takes r i c) : (t.attach r i c).WellFormedBut fun d => L d ∧ d ≠ c where
  linked := h.linked.attach hc.unlisted hc.parent r i
  child d p hp := by
    rw [attach_parent, hc.parent] at hp
    show d ∈ (t.attach r i c).items (.children p)
    rw [attach_mem hr]
    by_cases hd : d = c
    · rw [if_pos hd] at hp
      left
      refine ⟨hd, ?_⟩
      cases r with
      | tiling w => cases hp
      | floating w => cases hp
      | children q => exact congrArg ListRef.children (Option.some.inj hp).symm
    · rw [if_neg hd] at hp
      exact Or.inr (h.child d p hp)
  top d w hL hp hw := by
    show d ∈ (t.attach r i c).items (.tiling w) ∨ d ∈ (t.attach r i c).items (.floating w)
    rw [attach_mem hr, attach_mem hr]
    rw [attach_parent, hc.parent] at hp
    by_cases hd : d = c
    · rw [if_pos hd] at hp
      rw [attach_workspace_inside h hc hr (Or.inl hd)] at hw
      cases r with
      | tiling v => exact Or.inl (Or.inl ⟨hd, congrArg _ (Option.some.inj hw).symm⟩)
      | floating v => exact Or.inr (Or.inl ⟨hd, congrArg _ (Option.some.inj hw).symm⟩)
      | children p => cases hp
    · rw [if_neg hd] at hp
      rw [attach_workspace_outside h hc hr hd (not_hangsBelow_of_top hp)] at hw
      exact (h.top d w (fun hl => hL ⟨hl, hd⟩) hp hw).imp Or.inr Or.inr
  below d p hp := by
    rw [attach_parent, hc.parent] at hp
    by_cases hd : d = c
    · rw [if_pos hd] at hp
      rw [attach_workspace_inside h hc hr (Or.inl hd)]
      cases r with
      | tiling v => cases hp
      | floating v => cases hp
      | children q =>
          obtain rfl := Option.some.inj hp
          obtain ⟨hqc, hbelow, -⟩ := hr.parent q rfl
          exact (attach_workspace_outside h hc hr hqc hbelow).symm
    · rw [if_neg hd] at hp
      by_cases hb : t.HangsBelow d c
      · rw [attach_workspace_inside h hc hr (Or.inr hb),
          attach_workspace_inside h hc hr (hb.down hp)]
      · have hpc : ¬ (p = c ∨ t.HangsBelow p c) := fun hb' => hb (HangsBelow.up hp hb')
        rw [attach_workspace_outside h hc hr hd hb, attach_workspace_outside h hc hr
          (fun he => hpc (Or.inl he)) (fun hb' => hpc (Or.inr hb'))]
        exact h.below d p hp
  ranked := by
    have hsame : (t.attach r i c).parentOf = (t.link r i c).parentOf := by
      funext d
      unfold parentOf
      rw [attach_parent, link_parent]
    rw [hsame]
    exact ranked_link h hc hr
  unused d hd := by
    rw [(rewired_attach t r i c).nextCon] at hd
    obtain ⟨hp, hw, hk⟩ := h.unused d hd
    have hdc : d ≠ c := (Nat.lt_of_lt_of_le hlt hd).ne'
    refine ⟨?_, ?_, ?_⟩
    · rw [attach_parent, if_neg hdc, hp]
    · rw [attach_workspace_outside h hc hr hdc (not_hangsBelow_of_top hp), hw]
    · show (t.attach r i c).items (.children d) = []
      rw [attach_items, if_neg]
      · exact hk
      · intro he
        exact absurd (hr.parent d he.symm).2.2 (Nat.not_lt.mpr hd)

theorem Free.attach (hd : t.Free d) (hdc : d ≠ c) : (t.attach r i c).Free d := by
  refine ⟨?_, fun q hmem => ?_⟩
  · rw [attach_parent, if_neg hdc, hd.parent]
  · rw [attach_items] at hmem
    split at hmem
    · exact hd.unlisted r ((mem_of_mem_listInsert hmem).resolve_left hdc)
    · exact hd.unlisted q hmem

end Attach

/-! ## Creating -/

section Create

variable {L : ConId → Prop} {t : Tree} {c d : ConId}

theorem create_con (t : Tree) (view : Option View) (c : ConId) : (t.create view).con c =
    if c = t.nextCon then { Links.blank with view } else t.con c := by
  unfold create modCon
  by_cases h : c = t.nextCon
  · subst h; simp [Links.blank]
  · simp [h]

/-- A new container takes a name without links, so no list and no link changes. -/
theorem WellFormedBut.create (h : t.WellFormedBut L) (view : Option View) :
    (t.create view).WellFormedBut L := by
  obtain ⟨hp, hw, hk⟩ := h.unused t.nextCon le_rfl
  have hparent : ∀ d, ((t.create view).con d).parent = (t.con d).parent := by
    intro d
    rw [create_con]
    split
    next hd => rw [hd, hp]; rfl
    next => rfl
  have hworkspace : ∀ d, ((t.create view).con d).workspace = (t.con d).workspace := by
    intro d
    rw [create_con]
    split
    next hd => rw [hd, hw]; rfl
    next => rfl
  have hchildren : ∀ d, ((t.create view).con d).children = (t.con d).children := by
    intro d
    rw [create_con]
    split
    next hd => rw [hd, hk]; rfl
    next => rfl
  have hitems : ∀ r, (t.create view).items r = t.items r := by
    intro r
    cases r with
    | tiling w => rfl
    | floating w => rfl
    | children p => exact hchildren p
  refine ⟨h.linked.congr hitems hparent hworkspace, ?_, ?_, ?_, ?_, ?_⟩
  · intro c p hc
    rw [hchildren]
    exact h.child c p (hparent c ▸ hc)
  · intro c w hL hc hcw
    exact h.top c w hL (hparent c ▸ hc) (hworkspace c ▸ hcw)
  · intro c p hc
    rw [hworkspace, hworkspace]
    exact h.below c p (hparent c ▸ hc)
  · exact h.ranked.mono fun d p hd => (hparent d).symm.trans hd
  · intro c hc
    rw [hparent, hworkspace, hchildren]
    exact h.unused c (Nat.le_of_succ_le hc)

/-- The new container is free. -/
theorem free_create (h : t.WellFormedBut L) (view : Option View) :
    (t.create view).Free t.nextCon := by
  obtain ⟨hp, hw, -⟩ := h.unused t.nextCon le_rfl
  refine (h.create view).free_of_nowhere ?_ ?_ <;> rw [create_con, if_pos rfl] <;> rfl

end Create

/-- A container that hangs nowhere and has no children may get any workspace: it is loose. -/
theorem WellFormedBut.loosen {L : ConId → Prop} {t : Tree} {c : ConId} (h : t.WellFormedBut L)
    (hc : t.Free c) (hk : (t.con c).children = []) (hlt : c < t.nextCon) (v : Option WsId) :
    (t.modCon c fun k => { k with workspace := v }).WellFormedBut fun d => L d ∨ d = c := by
  have hitems : ∀ r, (t.modCon c fun k => { k with workspace := v }).items r = t.items r :=
    items_modCon t c _ rfl
  have hparent : ∀ d, ((t.modCon c fun k => { k with workspace := v }).con d).parent =
      (t.con d).parent := by
    intro d
    by_cases hd : d = c
    · subst hd; simp [modCon]
    · simp [modCon, hd]
  have hother : ∀ d, d ≠ c → ((t.modCon c fun k => { k with workspace := v }).con d).workspace =
      (t.con d).workspace := by
    intro d hd
    simp [modCon, hd]
  refine ⟨⟨fun r d hd => ?_, h.linked.apart, fun r => ?_⟩, ?_, ?_, ?_, ?_, ?_⟩
  · rw [hitems] at hd
    have hdc : d ≠ c := fun he => hc.unlisted r (he ▸ hd)
    have hl := h.linked.link r d hd
    cases r with
    | tiling w => exact ⟨(hparent d).trans hl.1, (hother d hdc).trans hl.2⟩
    | floating w => exact ⟨(hparent d).trans hl.1, (hother d hdc).trans hl.2⟩
    | children p => exact (hparent d).trans hl
  · rw [hitems]
    exact h.linked.nodup r
  · intro d p hp
    show d ∈ (t.modCon c _).items (.children p)
    rw [hitems]
    exact h.child d p (hparent d ▸ hp)
  · intro d w hL hp hw
    have hdc : d ≠ c := fun he => hL (Or.inr he)
    exact h.top d w (fun hl => hL (Or.inl hl)) (hparent d ▸ hp) (hother d hdc ▸ hw)
  · intro d p hp
    rw [hparent] at hp
    have hdc : d ≠ c := fun he => absurd ((he ▸ hp).symm.trans hc.parent) (by simp)
    have hpc : p ≠ c := fun he => by
      have hmem := h.child d p hp
      rw [he, hk] at hmem
      exact absurd hmem List.not_mem_nil
    rw [hother d hdc, hother p hpc]
    exact h.below d p hp
  · exact h.ranked.mono fun d p hp => (hparent d).symm.trans hp
  · intro d hd
    have hdc : d ≠ c := (Nat.lt_of_lt_of_le hlt hd).ne'
    have hchildren : ((t.modCon c fun k => { k with workspace := v }).con d).children =
        (t.con d).children := hitems (.children d)
    rw [hparent, hother d hdc, hchildren]
    exact h.unused d hd

/-! ## Thinning out -/

section Thins

variable {L K D : ConId → Prop} {k k' : Core} {c : ConId}

/-- Being well formed depends on the members of the lists, the parents, the workspaces and the
names. -/
theorem WellFormedBut.perm {t t' : Tree} (h : t.WellFormedBut L)
    (hitems : ∀ r, (t'.items r).Perm (t.items r))
    (hparent : ∀ c, (t'.con c).parent = (t.con c).parent)
    (hws : ∀ c, (t'.con c).workspace = (t.con c).workspace) (hnext : t'.nextCon = t.nextCon) :
    t'.WellFormedBut L where
  linked := h.linked.perm hitems hparent hws
  child c p hp := (hitems (.children p)).mem_iff.mpr (h.child c p (hparent c ▸ hp))
  top c w hL hp hw :=
    (h.top c w hL (hparent c ▸ hp) (hws c ▸ hw)).imp (hitems (.tiling w)).mem_iff.mpr
      (hitems (.floating w)).mem_iff.mpr
  below c p hp := by
    rw [hws, hws]
    exact h.below c p (hparent c ▸ hp)
  ranked := h.ranked.mono fun d p hd => (hparent d).symm.trans hd
  unused c hc := by
    obtain ⟨hp, hw, hk⟩ := h.unused c (hnext ▸ hc)
    refine ⟨(hparent c).trans hp, (hws c).trans hw, List.perm_nil.mp ?_⟩
    have hchildren := hitems (.children c)
    exact hk ▸ hchildren

theorem WellFormedBut.congr {t t' : Tree} (h : t.WellFormedBut L)
    (hitems : ∀ r, t'.items r = t.items r) (hparent : ∀ c, (t'.con c).parent = (t.con c).parent)
    (hws : ∀ c, (t'.con c).workspace = (t.con c).workspace) (hnext : t'.nextCon = t.nextCon) :
    t'.WellFormedBut L :=
  h.perm (fun r => by rw [hitems]) hparent hws hnext

/-- A list may be put into another order. -/
theorem WellFormedBut.modList {t : Tree} (h : t.WellFormedBut L) {r : ListRef}
    {f : List ConId → List ConId} (hf : (f (t.items r)).Perm (t.items r)) :
    (t.modList r f).WellFormedBut L := by
  refine h.perm (fun q => ?_) (con_modList_parent t r f) (con_modList_workspace t r f)
    (rewired_modList t r f).nextCon
  by_cases hq : q = r
  · rw [hq, items_modList_self]
    exact hf
  · rw [items_modList_ne t r q f hq]

/-- `set_workspace` has nothing left to do. -/
theorem WellFormedBut.setWorkspaceBelow_workspace {t : Tree} (h : t.WellFormedBut L) (c d : ConId) :
    ((t.setWorkspaceBelow c).con d).workspace = (t.con d).workspace := by
  by_cases hd : t.HangsBelow d c
  · rw [setWorkspaceBelow_inside h.forest hd, h.workspace_of_below hd]
  · exact setWorkspaceBelow_outside h.forest hd

theorem WellFormedBut.setWorkspaceBelow {t : Tree} (h : t.WellFormedBut L) (c : ConId) :
    (t.setWorkspaceBelow c).WellFormedBut L := by
  obtain ⟨f, hf, -, -⟩ := setWorkspaceBelow_eq t c
  refine h.congr (fun r => ?_) (fun d => ?_) (h.setWorkspaceBelow_workspace c)
    (rewired_setWorkspaceBelow t c).nextCon
  · rw [hf, items_withWorkspaces]
  · rw [hf]
    rfl

/-- A container of a row may be taken out and put back at another place. -/
theorem WellFormedBut.reinsert {t : Tree} {w : WsId} {i : Int} (h : t.WellFormedBut L)
    (hc : c ∈ (t.ws w).tiling) (hi : InsertOk ((t.ws w).tiling.erase c) i) :
    ((t.modList (.tiling w) fun l => l.erase c).attach (.tiling w) i c).WellFormedBut L := by
  have hl := h.linked.of_tiling hc
  rw [attach_eq]
  refine WellFormedBut.setWorkspaceBelow (h.perm (fun q => ?_) (fun d => ?_) (fun d => ?_) ?_) c
  · rw [link_items]
    split
    next hq =>
      subst hq
      rw [items_modList_self]
      exact (listInsert_perm hi).trans (List.perm_cons_erase hc).symm
    next hq => rw [items_modList_ne t _ q _ hq]
  · rw [link_parent, con_modList_parent, con_modList_parent]
    split
    next hd => rw [hd]; rfl
    next => rfl
  · rw [link_workspace, con_modList_workspace]
    split
    next hd => rw [hd, hl.2]; rfl
    next => rfl
  · exact ((rewired_modList _ _ _).nextCon).trans (rewired_modList t _ _).nextCon

theorem Free.congr {t t' : Tree} (h : t.Free c) (hitems : ∀ r, t'.items r = t.items r)
    (hparent : ∀ c, (t'.con c).parent = (t.con c).parent) : t'.Free c :=
  ⟨(hparent c).trans h.parent, fun r hmem => h.unlisted r (hitems r ▸ hmem)⟩

theorem takes_floating (t : Tree) (w : WsId) (c : ConId) :
    t.Takes (.floating w) (t.ws w).floating.length c :=
  ⟨⟨Int.natCast_nonneg _, le_rfl⟩, fun _ h => by cases h⟩

/-- A container that moves to another floating list. -/
theorem WellFormedBut.refloat (h : k.tree.WellFormedBut L) {v w : WsId}
    (hc : c ∈ (k.tree.ws v).floating) : (k.refloat w c).tree.WellFormedBut L := by
  rw [Core.refloat_tree]
  have hlt : c < (k.tree.detach c).nextCon := by
    rw [(rewired_detach k.tree c).nextCon]
    exact h.lt_of_workspace (h.linked.of_floating hc).2
  exact ((h.detach c).attach (free_detach h c) hlt (takes_floating _ w c)).mono fun _ hl => hl.1

/-- **The steps of thinning out keep a tree well formed.** -/
theorem Thin.wellFormedBut (h : Thin K D k k') (hk : k.tree.WellFormedBut L) :
    k'.tree.WellFormedBut L := by
  cases h with
  | refloat v w c hc => exact hk.refloat hc
  | unpark c => exact hk
  | endWorkspace w _ _ =>
      refine hk.congr (Core.endWorkspace_items k w) ?_ ?_ (frame_endWorkspace k w).nextCon
      · exact fun c => by rw [Core.endWorkspace_con]
      · exact fun c => by rw [Core.endWorkspace_con]
  | kill _ =>
      exact hk.congr (Core.kill_items k _) (Core.kill_parent k _) (Core.kill_workspace k _) rfl
  | detach _ => exact hk.detach _
  | unscratch _ =>
      exact hk.congr (Core.unscratch_items k _) (Core.unscratch_parent k _)
        (Core.unscratch_workspace k _) rfl
  | measure w single => rwa [Core.measure_tree]

theorem Thins.wellFormedBut (h : Thins K D k k') (hk : k.tree.WellFormedBut L) :
    k'.tree.WellFormedBut L :=
  h.invariant (I := fun j => j.tree.WellFormedBut L) (fun _ _ ha hab => Thin.wellFormedBut hab ha) hk

/-- A container that moves to another floating list takes everything below along. -/
theorem refloat_workspace_isSome (h : k.tree.WellFormedBut L) {v w : WsId} {d : ConId}
    (hd : d ∈ (k.tree.ws v).floating) (c : ConId) :
    ((k.refloat w d).tree.con c).workspace.isSome = (k.tree.con c).workspace.isSome := by
  rw [Core.refloat_tree]
  have hdet := h.detach d
  have hfree := free_detach h d
  have htakes := takes_floating (k.tree.detach d) w d
  by_cases hin : c = d ∨ k.tree.HangsBelow c d
  · have hold : (k.tree.con c).workspace = some v := by
      rcases hin with rfl | hb
      · exact (h.linked.of_floating hd).2
      · exact (h.workspace_of_below hb).trans (h.linked.of_floating hd).2
    have hin' : c = d ∨ (k.tree.detach d).HangsBelow c d := hin.imp_right (hangsBelow_detach h).mpr
    rw [attach_workspace_inside hdet hfree htakes hin', hold]
    rfl
  · have hcd : c ≠ d := fun he => hin (Or.inl he)
    have hb : ¬ k.tree.HangsBelow c d := fun hb => hin (Or.inr hb)
    have hb' : ¬ (k.tree.detach d).HangsBelow c d := fun hb' => hb (hangsBelow_of_detach hb')
    rw [attach_workspace_outside hdet hfree htakes hcd hb', detach_workspace_outside h hcd hb]

/-- When nothing is detached, the same containers are on workspaces. -/
theorem Thins.workspace_isSome (h : Thins K Nobody k k') (hk : k.tree.WellFormedBut L) (c : ConId) :
    (k'.tree.con c).workspace.isSome = (k.tree.con c).workspace.isSome := by
  refine (h.invariant (I := fun j => j.tree.WellFormedBut L ∧
    (j.tree.con c).workspace.isSome = (k.tree.con c).workspace.isSome) ?_ ⟨hk, rfl⟩).2
  rintro a b ⟨ha, hws⟩ hab
  refine ⟨Thin.wellFormedBut hab ha, Eq.trans ?_ hws⟩
  cases hab with
  | refloat v w d hd => exact refloat_workspace_isSome ha hd c
  | unpark d => rfl
  | endWorkspace w _ _ => rw [Core.endWorkspace_con]
  | kill _ => rw [Core.kill_workspace]
  | detach h => exact h.elim
  | unscratch _ => rw [Core.unscratch_workspace]
  | measure w single => rw [Core.measure_tree]

/-- What hangs nowhere stays so: only floating containers move. -/
theorem Thin.free (h : Thin K D k k') (hc : k.tree.Free c) :
    k'.tree.Free c := by
  cases h with
  | refloat v w d hd =>
      have hdc : c ≠ d := fun he => hc.unlisted (.floating v) (he ▸ hd)
      rw [Core.refloat_tree]
      exact (hc.detach d).attach hdc
  | unpark d => exact hc
  | endWorkspace w _ _ =>
      exact hc.congr (Core.endWorkspace_items k w) fun c => by rw [Core.endWorkspace_con]
  | kill _ => exact hc.congr (Core.kill_items k _) (Core.kill_parent k _)
  | detach _ => exact hc.detach _
  | unscratch _ => exact hc.congr (Core.unscratch_items k _) (Core.unscratch_parent k _)
  | measure w single => rwa [Core.measure_tree]

theorem Thins.free (h : Thins K D k k') (hc : k.tree.Free c) : k'.tree.Free c :=
  h.invariant (I := fun j => j.tree.Free c) (fun _ _ ha hab => Thin.free hab ha) hc

end Thins

/-! ## Trees of examples -/

/-- The up links of a container of an outline: they name its list, and go up one level at most. -/
def OutlineLink (t : Tree) (c : ConId) : Prop :=
  match (t.con c).parent, (t.con c).workspace with
  | some p, v =>
      c ∈ (t.con p).children ∧ (t.con p).parent = none ∧ v = (t.con p).workspace
  | none, some w => c ∈ (t.ws w).tiling ∨ c ∈ (t.ws w).floating
  | none, none => True

instance (t : Tree) (c : ConId) : Decidable (OutlineLink t c) := by
  unfold OutlineLink
  split <;> infer_instance

/-- The up links of a container: they name its list, and lead up in depth. -/
def DepthLink (t : Tree) (depth : ConId → Nat) (c : ConId) : Prop :=
  match (t.con c).parent, (t.con c).workspace with
  | some p, v =>
      c ∈ (t.con p).children ∧ depth p < depth c ∧ v = (t.con p).workspace
  | none, some w => c ∈ (t.ws w).tiling ∨ c ∈ (t.ws w).floating
  | none, none => True

instance (t : Tree) (depth : ConId → Nat) (c : ConId) : Decidable (DepthLink t depth c) := by
  unfold DepthLink
  split <;> infer_instance

/-- On a tree with finitely many containers in use being well formed can be checked. -/
theorem WellFormedBut.of_bounds {t : Tree} (depth : ConId → Nat) (hlinked : t.Linked)
    (hblank : ∀ c, t.nextCon ≤ c → t.con c = Links.blank)
    (hup : ∀ c < t.nextCon, DepthLink t depth c) : t.WellFormed := by
  have hlink : ∀ c, DepthLink t depth c := by
    intro c
    rcases Nat.lt_or_ge c t.nextCon with hc | hc
    · exact hup c hc
    · unfold DepthLink
      rw [hblank c hc]
      trivial
  have hparent : ∀ c p, (t.con c).parent = some p →
      c ∈ (t.con p).children ∧ depth p < depth c ∧ (t.con c).workspace = (t.con p).workspace := by
    intro c p hp
    have hl := hlink c
    unfold DepthLink at hl
    rwa [hp] at hl
  refine ⟨hlinked, fun c p hp => (hparent c p hp).1, ?_, fun c p hp => (hparent c p hp).2.2,
    ⟨depth, fun c p hp => (hparent c p hp).2.1⟩, ?_⟩
  · intro c w _ hp hw
    have hl := hlink c
    unfold DepthLink at hl
    rwa [hp, hw] at hl
  · intro c hc
    rw [hblank c hc]
    exact ⟨rfl, rfl, rfl⟩

theorem wellFormed_outlined {rows : List Outline} (hlinked : (outlined rows).Linked)
    (hup : ∀ c < (outlined rows).nextCon, OutlineLink (outlined rows) c) :
    (outlined rows).WellFormed := by
  refine .of_bounds (fun c => if ((outlined rows).con c).parent = none then 0 else 1) hlinked
    (fun c hc => if_neg (not_lt.mpr hc)) fun c hc => ?_
  have hl := hup c hc
  unfold OutlineLink at hl
  unfold DepthLink
  cases hp : ((outlined rows).con c).parent with
  | none =>
      rw [hp] at hl
      cases hw : ((outlined rows).con c).workspace with
      | none => trivial
      | some w => rwa [hw] at hl
  | some p =>
      rw [hp] at hl
      refine ⟨hl.1, ?_, hl.2.2⟩
      simp [hp, hl.2.1]

end Tree

theorem wellFormed_twoColumns (l : Layout) : (twoColumns l).tree.WellFormed :=
  Tree.wellFormed_outlined (Tree.linked_outlined (by decide +kernel) (by decide +kernel))
    (by decide +kernel)

end Swirl

import Swirl.Input.FocusEffects
import Swirl.Lib.Runs
import Swirl.Tree.SetFloating
import Swirl.Tree.WellFormed

set_option autoImplicit false

/-! # The operations of the tree keep it well formed

One lemma for every function that moves containers. Each one is a chain of detaching, attaching,
creating and thinning out, so it keeps a tree well formed as long as its container really is out
of its old list when it is put into the new one. The functions see to that in two ways that do not
always work: most of them detach a container only when it is on a workspace, and
`workspace_insert_column` does not detach one that stays on its workspace.
-/

namespace Swirl

open Lib

/-! ## What a move leaves alone -/

namespace Tree

/-- The test for a workspace tells whether a container hangs somewhere. It does not for a
container below a hidden scratchpad container or a minimized one. -/
def Detachable (t : Tree) (c : ConId) : Prop :=
  (t.con c).workspace = none → (t.con c).parent = none

instance (t : Tree) (c : ConId) : Decidable (t.Detachable c) := inferInstanceAs (Decidable (_ → _))

/-- A container that a move leaves aside can still be detached, and hangs below nothing new. -/
structure Aside (x : ConId) (t t' : Tree) : Prop where
  detachable : t.Detachable x → t'.Detachable x
  above : ∀ a, t'.HangsBelow x a → t.HangsBelow x a

/-- A container that is none of those in `M` and hangs below none of them. -/
def Apart (t : Tree) (M : ConId → Prop) (x : ConId) : Prop :=
  ∀ c, M c → x ≠ c ∧ ¬ t.HangsBelow x c

/-- `t'` comes from `t` by moving the containers in `M` with what hangs below them. -/
structure Moved (L M : ConId → Prop) (t t' : Tree) : Prop where
  wellFormed : t'.WellFormedBut L
  nextCon : t.nextCon ≤ t'.nextCon
  aside : ∀ x, t.Apart M x → Aside x t t'

section Moved

variable {L L' M M' K : ConId → Prop} {t t' t'' : Tree} {k k' : Core} {c x : ConId}

theorem Apart.of_single (hxc : x ≠ c) (hx : ¬ t.HangsBelow x c) : t.Apart (· = c) x := by
  rintro d rfl
  exact ⟨hxc, hx⟩

theorem apart_nobody (t : Tree) (x : ConId) : t.Apart Nobody x := fun _ hc => hc.elim

theorem Apart.mono (h : t.Apart M' x) (hM : ∀ c, M c → M' c) : t.Apart M x :=
  fun c hc => h c (hM c hc)

theorem Aside.refl (x : ConId) (t : Tree) : Aside x t t := ⟨id, fun _ => id⟩

theorem Aside.trans (h : Aside x t t') (h' : Aside x t' t'') : Aside x t t'' :=
  ⟨fun hd => h'.detachable (h.detachable hd), fun a hb => h.above a (h'.above a hb)⟩

/-- A container keeps being detachable when its parent and its being on a workspace stay. -/
theorem Aside.of_same (hparent : t'.parentOf = t.parentOf)
    (hws : (t'.con x).workspace.isSome = (t.con x).workspace.isSome) : Aside x t t' := by
  refine ⟨fun hd hnone => ?_, fun a hb => ?_⟩
  · have hold : (t.con x).workspace = none := by
      rw [← Option.not_isSome_iff_eq_none, ← hws, hnone]
      simp
    exact (congrFun hparent x).trans (hd hold)
  · unfold HangsBelow at hb ⊢
    rwa [hparent] at hb

theorem aside_detach (h : t.WellFormedBut L) (hx : ¬ t.HangsBelow x c) :
    Aside x t (t.detach c) := by
  refine ⟨fun hd hnone => ?_, fun _ => hangsBelow_of_detach⟩
  rw [detach_parent]
  split
  next => rfl
  next hxc => exact hd ((detach_workspace_outside h hxc hx).symm.trans hnone)

theorem aside_attach (h : t.WellFormedBut L) (hc : t.Free c) {r : ListRef} {i : Int}
    (hr : t.Takes r i c) (hxc : x ≠ c) (hx : ¬ t.HangsBelow x c) : Aside x t (t.attach r i c) := by
  refine ⟨fun hd hnone => ?_, fun a hb => ?_⟩
  · rw [attach_parent, if_neg hxc]
    exact hd ((attach_workspace_outside h hc hr hxc hx).symm.trans hnone)
  · have hparent : (t.attach r i c).parentOf = Function.update t.parentOf c (r.parent none) := by
      rw [← Tree.parentOf_link (i := i) hc]
      funext d
      unfold parentOf
      rw [attach_parent, link_parent]
    unfold HangsBelow at hb
    rw [hparent] at hb
    exact Ranked.under_of_update hxc hx hb

theorem Aside.apart (h : Aside x t t') (hx : t.Apart M x) : t'.Apart M x :=
  fun c hc => ⟨(hx c hc).1, fun hb => (hx c hc).2 (h.above c hb)⟩

theorem Moved.mono (h : Moved L M t t') (hL : ∀ d, L d → L' d) (hM : ∀ d, M d → M' d) :
    Moved L' M' t t' where
  wellFormed := h.wellFormed.mono hL
  nextCon := h.nextCon
  aside x hx := h.aside x (hx.mono hM)

theorem Moved.trans (h : Moved L M t t') (h' : Moved L' M t' t'') : Moved L' M t t'' where
  wellFormed := h'.wellFormed
  nextCon := h.nextCon.trans h'.nextCon
  aside x hx := (h.aside x hx).trans (h'.aside x ((h.aside x hx).apart hx))

theorem Moved.refl (h : t.WellFormedBut L) : Moved L M t t :=
  ⟨h, le_rfl, fun x _ => Aside.refl x t⟩

theorem Moved.of_eq (h : t.WellFormedBut L) (heq : t' = t) : Moved L M t t' := by
  subst heq
  exact Moved.refl h

/-- Where nothing is detached, every container is left aside. -/
theorem Thins.aside (h : Thins K Nobody k k') (hk : k.tree.WellFormedBut L) (x : ConId) :
    Aside x k.tree k'.tree :=
  Aside.of_same (funext fun d => h.parent_eq hk.linked d) (Thins.workspace_isSome h hk x)

theorem Thins.moved (h : Thins K Nobody k k') (hk : k.tree.WellFormedBut L) :
    Moved L M k.tree k'.tree :=
  ⟨Thins.wellFormedBut h hk, h.frame.nextCon.ge, fun x _ => Thins.aside h hk x⟩

theorem moved_detach (h : t.WellFormedBut L) (c : ConId) : Moved L (· = c) t (t.detach c) where
  wellFormed := h.detach c
  nextCon := (rewired_detach t c).nextCon.ge
  aside _ hx := aside_detach h (hx c rfl).2

/-- A container was taken out of its place in `t`, which gave `t'`. -/
structure TakenOut (L : ConId → Prop) (c : ConId) (t t' : Tree) : Prop
    extends Moved L (· = c) t t' where
  free : t'.Free c
  loosens : ∀ e p, (t'.con e).parent = some p → (t.con e).parent = some p
  below : ∀ x, t.HangsBelow x c → t'.HangsBelow x c

theorem takenOut_detach (h : t.WellFormedBut L) (c : ConId) : TakenOut L c t (t.detach c) where
  toMoved := moved_detach h c
  free := free_detach h c
  loosens e p hp := by
    rw [detach_parent] at hp
    split at hp
    · cases hp
    · exact hp
  below _ := (hangsBelow_detach h).mpr

theorem takenOut_of_free (h : t.WellFormedBut L) (hc : t.Free c) : TakenOut L c t t :=
  ⟨Moved.refl h, hc, fun _ _ hp => hp, fun _ hb => hb⟩

theorem TakenOut.trans (h : TakenOut L c t t') (h' : TakenOut L c t' t'') : TakenOut L c t t'' where
  toMoved := h.toMoved.trans h'.toMoved
  free := h'.free
  loosens e p hp := h.loosens e p (h'.loosens e p hp)
  below x hx := h'.below x (h.below x hx)

/-- A container that was taken out can be put into a list that does not hang below it. -/
theorem TakenOut.takes (h : TakenOut L c t t') {r : ListRef} {i : Int}
    (hi : InsertOk (t'.items r) i)
    (hr : ∀ p, r = .children p → p ≠ c ∧ ¬ t.HangsBelow p c ∧ p < t.nextCon) :
    t'.Takes r i c := by
  refine ⟨hi, fun p hp => ?_⟩
  obtain ⟨hpc, hbelow, hplt⟩ := hr p hp
  have haside := h.aside p (Apart.of_single hpc hbelow)
  exact ⟨hpc, fun hb => hbelow (haside.above c hb), hplt.trans_le h.nextCon⟩

theorem moved_attach (h : t.WellFormedBut L) (hc : t.Free c) (hlt : c < t.nextCon) {r : ListRef}
    {i : Int} (hr : t.Takes r i c) :
    Moved (fun d => L d ∧ d ≠ c) (· = c) t (t.attach r i c) where
  wellFormed := h.attach hc hlt hr
  nextCon := (rewired_attach t r i c).nextCon.ge
  aside _ hx := aside_attach h hc hr (hx c rfl).1 (hx c rfl).2

theorem TakenOut.attach (h : TakenOut L c t t') {r : ListRef} {i : Int} (hlt : c < t.nextCon)
    (hr : t'.Takes r i c) : Moved (fun d => L d ∧ d ≠ c) (· = c) t (t'.attach r i c) :=
  h.toMoved.trans (moved_attach h.wellFormed h.free (hlt.trans_le h.nextCon) hr)

end Moved

end Tree

/-! ## Trees of states -/

@[simp] theorem tree_containerDetach (s : State) (c : ConId) :
    (containerDetach s c).tree = s.tree.detach c := congrArg Core.tree (core_containerDetach s c)

@[simp] theorem tree_unpark (s : State) (c : ConId) : (unpark s c).tree = s.tree := by
  unfold unpark workspaceMinimizedRemove
  split
  · split <;> rfl
  · rfl

theorem tree_checkInsert (s : State) (r : Tree.ListRef) (i : Int) :
    (s.checkInsert r i).tree = s.tree := by
  unfold State.checkInsert
  cases r <;> dsimp only <;> split <;> (try split) <;> rfl

theorem tree_listInsertAt (s : State) (r : Tree.ListRef) (i : Int) (c : ConId) :
    (s.listInsertAt r i c).tree = s.tree.modList r fun l => listInsert l i c := by
  unfold State.listInsertAt
  rw [State.tree_modTree, tree_checkInsert]

@[simp] theorem tree_attach (s : State) (r : Tree.ListRef) (i : Int) (c : ConId) :
    (s.attach r i c).tree = s.tree.attach r i c := by
  unfold State.attach
  rw [State.tree_modTree, tree_checkInsert]

section Operations

variable {fo : FocusOps} (h : FocusThins fo) {L : ConId → Prop} {s : State} {c d p : ConId}
  {w : WsId} {i : Int}

theorem takenOut_detachIfPlaced (hs : s.tree.WellFormedBut L) (hc : s.tree.Detachable c) :
    Tree.TakenOut L c s.tree (detachIfPlaced s c).tree := by
  unfold detachIfPlaced
  split
  · rw [tree_containerDetach]
    exact Tree.takenOut_detach hs c
  next hw =>
    have hnone : (s.tree.con c).workspace = none := by simpa using hw
    exact Tree.takenOut_of_free hs (hs.free_of_nowhere (hc hnone) hnone)

/-! ## Into a list -/

include h

theorem moved_containerHandleFullscreenReparent {M : ConId → Prop} {t : Tree}
    (hs : Tree.Moved L M t s.tree) (c : ConId) :
    Tree.Moved L M t (containerHandleFullscreenReparent fo s c).tree :=
  hs.trans (Tree.Thins.moved (thins_containerHandleFullscreenReparent h s c) hs.wellFormed)

theorem moved_containerInsertChild (hs : s.tree.WellFormedBut L) (hc : s.tree.Detachable c)
    (hlt : c < s.tree.nextCon) (hi : InsertOk ((detachIfPlaced s c).tree.con p).children i)
    (hp : p ≠ c ∧ ¬ s.tree.HangsBelow p c ∧ p < s.tree.nextCon) :
    Tree.Moved (fun d => L d ∧ d ≠ c) (· = c) s.tree (containerInsertChild fo s p c i).tree := by
  have htaken := takenOut_detachIfPlaced hs hc
  unfold containerInsertChild
  rw [(onlyGeometry_containerFitVerticalChildren _ _ _).tree]
  refine moved_containerHandleFullscreenReparent h ?_ c
  rw [tree_attach]
  refine htaken.attach hlt (htaken.takes hi fun q hq => ?_)
  cases hq
  exact hp

theorem moved_containerAddChild (hs : s.tree.WellFormedBut L) (hc : s.tree.Detachable c)
    (hlt : c < s.tree.nextCon) (hp : p ≠ c ∧ ¬ s.tree.HangsBelow p c ∧ p < s.tree.nextCon) :
    Tree.Moved (fun d => L d ∧ d ≠ c) (· = c) s.tree (containerAddChild fo s p c).tree :=
  moved_containerInsertChild h hs hc hlt (insertOk_length _) hp

theorem moved_workspaceAddFloating (hs : s.tree.WellFormedBut L) (hc : s.tree.Detachable c)
    (hlt : c < s.tree.nextCon) (w : WsId) :
    Tree.Moved (fun d => L d ∧ d ≠ c) (· = c) s.tree (workspaceAddFloating fo s w c).tree := by
  have htree := tree_unpark s c
  have htaken : Tree.TakenOut L c (unpark s c).tree (detachIfPlaced (unpark s c) c).tree :=
    takenOut_detachIfPlaced (htree.symm ▸ hs) (htree.symm ▸ hc)
  rw [htree] at htaken
  unfold workspaceAddFloating
  refine moved_containerHandleFullscreenReparent h ?_ c
  show Tree.Moved _ (· = c) s.tree ((detachIfPlaced (unpark s c) c).attach _ _ c).tree
  rw [tree_attach]
  exact htaken.attach hlt (htaken.takes (insertOk_length _) fun q hq => by cases hq)

omit h in
/-- A container in a place is in the list its back pointers name. -/
theorem mem_siblings (hs : s.tree.WellFormed) {r : Tree.ListRef}
    (hr : containerGetSiblings s.tree c = some r) : c ∈ s.tree.items r := by
  unfold containerGetSiblings at hr
  cases hp : (s.tree.con c).parent with
  | some p =>
      rw [hp] at hr
      obtain rfl := Option.some.inj hr
      exact hs.child c p hp
  | none =>
      cases hw : (s.tree.con c).workspace with
      | none =>
          rw [hp, hw] at hr
          cases hr
      | some w =>
          rw [hp, hw] at hr
          dsimp only at hr
          split at hr
          next hmem =>
            obtain rfl := Option.some.inj hr
            exact hmem
          next hmem =>
            obtain rfl := Option.some.inj hr
            exact (hs.top c w id hp hw).resolve_left hmem

omit h in
/-- The back pointers of a container name its list. -/
theorem siblings_parent {t : Tree} {r : Tree.ListRef} (hr : containerGetSiblings t c = some r) :
    r.parent none = (t.con c).parent := by
  unfold containerGetSiblings at hr
  cases hp : (t.con c).parent with
  | some p =>
      rw [hp] at hr
      obtain rfl := Option.some.inj hr
      rfl
  | none =>
      cases hw : (t.con c).workspace with
      | none =>
          rw [hp, hw] at hr
          cases hr
      | some w =>
          rw [hp, hw] at hr
          dsimp only at hr
          split at hr <;> obtain rfl := Option.some.inj hr <;> rfl

omit h in
/-- The workspace of a list is that of the containers in it. -/
theorem siblings_workspace {t : Tree} (ht : t.WellFormed) {r : Tree.ListRef}
    (hr : containerGetSiblings t c = some r) : r.workspace t = (t.con c).workspace := by
  unfold containerGetSiblings at hr
  cases hp : (t.con c).parent with
  | some p =>
      rw [hp] at hr
      obtain rfl := Option.some.inj hr
      exact (ht.below c p hp).symm
  | none =>
      cases hw : (t.con c).workspace with
      | none =>
          rw [hp, hw] at hr
          cases hr
      | some w =>
          rw [hp, hw] at hr
          dsimp only at hr
          split at hr <;> obtain rfl := Option.some.inj hr <;> rfl

omit h in
/-- Copying the links that a container already has changes nothing. -/
theorem moved_copyLinks (hs : s.tree.WellFormedBut L)
    (hp : (s.tree.con c).parent = (s.tree.con d).parent)
    (hw : (s.tree.con c).workspace = (s.tree.con d).workspace) :
    Tree.Moved L (· = c) s.tree (copyLinks s d c).tree := by
  have hsame : (s.tree.modCon c fun k =>
      { k with parent := (s.tree.con d).parent, workspace := (s.tree.con d).workspace }) =
      s.tree := by
    unfold Tree.modCon
    rw [← hp, ← hw, Function.update_eq_self]
  show Tree.Moved L (· = c) s.tree ((s.tree.modCon c fun k =>
    { k with parent := (s.tree.con d).parent, workspace := (s.tree.con d).workspace }).setWorkspaceBelow
      c)
  rw [hsame]
  obtain ⟨f, hf, -, -⟩ := Tree.setWorkspaceBelow_eq s.tree c
  refine ⟨hs.setWorkspaceBelow c, (Tree.rewired_setWorkspaceBelow s.tree c).nextCon.ge, fun x _ => ?_⟩
  refine Tree.Aside.of_same ?_ (congrArg Option.isSome (hs.setWorkspaceBelow_workspace c x))
  rw [hf]
  rfl

theorem moved_containerAddSibling (hs : s.tree.WellFormed) (hc : s.tree.Detachable c)
    (hlt : c < s.tree.nextCon) (hd : d ≠ c ∧ ¬ s.tree.HangsBelow d c) (after : Bool) :
    Tree.Moved Nobody (· = c) s.tree (containerAddSibling fo s d c after).tree := by
  have htaken := takenOut_detachIfPlaced hs hc
  unfold containerAddSibling
  dsimp only
  generalize detachIfPlaced s c = s₁ at htaken ⊢
  split
  next => exact htaken.toMoved
  next r hr =>
    have hmem := mem_siblings htaken.wellFormed hr
    have hbelow : ¬ s₁.tree.HangsBelow d c :=
      fun hb => hd.2 ((htaken.aside d (Tree.Apart.of_single hd.1 hd.2)).above c hb)
    have htakes : s₁.tree.Takes r (listFind (s₁.tree.items r) d + if after then 1 else 0) c := by
      have hfound := listFind_nonneg.mpr hmem
      have hlast := listFind_lt_length hmem
      refine ⟨⟨?_, ?_⟩, fun p hp => ?_⟩
      · split <;> omega
      · split <;> omega
      · subst hp
        have hparent : (s₁.tree.con d).parent = some p := (siblings_parent hr).symm
        refine ⟨fun he => ?_, fun hb => ?_, ?_⟩
        · exact hbelow (Tree.HangsBelow.up hparent (Or.inl he))
        · exact hbelow (Tree.HangsBelow.up hparent (Or.inr hb))
        · have hp := htaken.wellFormed.forest.parent_mem d p hparent
          exact Finset.mem_range.mp hp
    have hput : Tree.Moved Nobody (· = c) s.tree _ :=
      (htaken.attach hlt htakes).mono (fun _ hl => hl.1) fun _ hd => hd
    rw [(onlyGeometry_containerFitVerticalChildren _ _ _).tree]
    refine moved_containerHandleFullscreenReparent h (hput.trans ?_) c
    rw [← tree_attach] at hput ⊢
    refine moved_copyLinks hput.wellFormed ?_ ?_
    · rw [tree_attach, Tree.attach_parent, if_pos rfl, Tree.attach_parent, if_neg hd.1,
        htaken.free.parent]
      exact siblings_parent hr
    · rw [tree_attach,
        Tree.attach_workspace_inside htaken.wellFormed htaken.free htakes (Or.inl rfl),
        Tree.attach_workspace_outside htaken.wellFormed htaken.free htakes hd.1 hbelow]
      exact siblings_workspace htaken.wellFormed hr

end Operations

end Swirl

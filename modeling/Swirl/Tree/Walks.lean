import Swirl.Tree.Root
import Swirl.Tree.WellFormed

set_option autoImplicit false

/-! # The walks over well-formed trees

What `container_for_each_child` visits below the containers of a list, on a tree whose links form
a forest: everything that hangs below them, and nothing twice.
-/

namespace Swirl

open Lib

section Walks

variable {L : ConId → Prop} {t : Tree} {c d p : ConId} {w : WsId} {l : List ConId}

theorem Tree.Forest.mem_withDescendants (h : t.Forest) :
    d ∈ withDescendants t c ↔ d = c ∨ t.HangsBelow d c := by
  unfold withDescendants
  rw [List.mem_cons, h.mem_descendants]

theorem Tree.WellFormedBut.nodup_withDescendants (h : t.WellFormedBut L) (c : ConId) :
    (withDescendants t c).Nodup := by
  refine List.nodup_cons.mpr ⟨fun hc => ?_, ?_⟩
  · exact h.forest.not_below_self c (h.forest.mem_descendants.mp hc)
  · rw [Tree.descendants_eq]
    exact h.ranked.nodup_belowWithin h.forest.agree (fun p => h.linked.nodup (.children p)) _ _

/-- **Walks from different top-level containers visit nothing twice.** -/
theorem Tree.WellFormedBut.nodup_walk (h : t.WellFormedBut L) (hl : l.Nodup)
    (htop : ∀ c ∈ l, (t.con c).parent = none) : (l.flatMap (withDescendants t)).Nodup := by
  rw [List.nodup_flatMap]
  refine ⟨fun c _ => h.nodup_withDescendants c, hl.imp_of_mem fun {c d} hc hd hne => ?_⟩
  refine List.disjoint_left.mpr fun e hec hed => ?_
  have hsame : t.parentOf c = t.parentOf d := (htop c hc).trans (htop d hd).symm
  exact h.ranked.siblings_disjoint hsame hne (h.forest.mem_withDescendants.mp hec)
    (h.forest.mem_withDescendants.mp hed)

end Walks

/-! ## What is in a row -/

/-- A container of the row of a workspace: a column, or something that hangs below one. -/
inductive InRow (t : Tree) (w : WsId) : ConId → Prop
  | column {c : ConId} (h : c ∈ (t.ws w).tiling) : InRow t w c
  | child {c p : ConId} (hp : (t.con c).parent = some p) (h : InRow t w p) : InRow t w c

/-- The views of a row, in the order of the walk. -/
def rowViews (t : Tree) (w : WsId) : List ConId :=
  ((t.ws w).tiling.flatMap (withDescendants t)).filter fun c => (t.con c).view.isSome

section Row

variable {L : ConId → Prop} {t t' : Tree} {c d : ConId} {w : WsId}

theorem InRow.of_below (h : InRow t w c) (hd : t.HangsBelow d c) : InRow t w d := by
  obtain ⟨k, hk⟩ := hd
  induction k generalizing d with
  | zero =>
      obtain ⟨p, hp, hk⟩ := Option.bind_eq_some_iff.mp hk
      obtain rfl := Option.some.inj hk
      exact .child hp h
  | succ k ih =>
      obtain ⟨p, hp, hk⟩ := Option.bind_eq_some_iff.mp hk
      exact .child hp (ih hk)

theorem inRow_iff : InRow t w d ↔ ∃ c ∈ (t.ws w).tiling, d = c ∨ t.HangsBelow d c := by
  constructor
  · intro h
    induction h with
    | column h => exact ⟨_, h, Or.inl rfl⟩
    | child hp _ ih =>
        obtain ⟨c, hc, hd⟩ := ih
        exact ⟨c, hc, Or.inr (under_iff.mpr ⟨_, hp, hd⟩)⟩
  · rintro ⟨c, hc, rfl | hd⟩
    · exact .column hc
    · exact (InRow.column hc).of_below hd

theorem mem_rowViews (h : t.Forest) : d ∈ rowViews t w ↔ InRow t w d ∧ (t.con d).view.isSome := by
  unfold rowViews
  simp only [List.mem_filter, List.mem_flatMap, h.mem_withDescendants, inRow_iff]

theorem nodup_rowViews (h : t.WellFormedBut L) (w : WsId) : (rowViews t w).Nodup :=
  (h.nodup_walk (h.linked.nodup (.tiling w)) fun _ hc => (h.linked.of_tiling hc).1).filter _

/-- Two rows have the same views when the same views are in them. -/
theorem rowViews_perm {L' : ConId → Prop} (h : t.WellFormedBut L) (h' : t'.WellFormedBut L') :
    (rowViews t' w).Perm (rowViews t w) ↔
      ∀ d, (InRow t' w d ∧ (t'.con d).view.isSome) ↔ InRow t w d ∧ (t.con d).view.isSome := by
  rw [List.perm_ext_iff_of_nodup (nodup_rowViews h' w) (nodup_rowViews h w)]
  simp only [mem_rowViews h.forest, mem_rowViews h'.forest]

end Row

end Swirl

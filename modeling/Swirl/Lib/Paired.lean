import Mathlib.Tactic

set_option autoImplicit false

/-! # Two loops side by side

Two folds over lists whose entries correspond. A relation between their states that is indexed by
the places it covers is kept when every pair of steps keeps it, and covers in the end what the
steps have covered one by one. The lists are mostly zips of one list with two others.
-/

namespace Swirl.Lib

universe u v

variable {σ τ : Type u} {α β γ κ : Type v}

/-- **The rule for two folds**: each pair of steps adds the places of its key. -/
theorem foldl_paired {R : (κ → Prop) → σ → τ → Prop}
    (hmono : ∀ B C s t, (∀ d, C d → B d) → R B s t → R C s t) {f : σ → α → σ} {g : τ → β → τ}
    {key : α → κ → Prop} {l : List α} {m : List β} {B : κ → Prop} {s : σ} {t : τ}
    (hlm : List.Forall₂ (fun a b => ∀ C s t, (∀ d, B d → C d) → R C s t →
      R (fun d => C d ∨ key a d) (f s a) (g t b)) l m) (h : R B s t) :
    R (fun d => B d ∨ ∃ a ∈ l, key a d) (l.foldl f s) (m.foldl g t) := by
  have hrun : ∀ C s t, (∀ d, B d → C d) → R C s t →
      R (fun d => C d ∨ ∃ a ∈ l, key a d) (l.foldl f s) (m.foldl g t) := by
    induction hlm with
    | nil =>
        intro C s t _ h
        refine hmono _ _ s t (fun d hd => hd.resolve_right ?_) h
        rintro ⟨a, ha, -⟩
        cases ha
    | cons hab _ ih =>
        intro C s t hC h
        refine hmono _ _ _ _ ?_ (ih _ _ _ (fun d hd => Or.inl (hC d hd)) (hab C s t hC h))
        rintro d (hd | ⟨a, ha, hd⟩)
        · exact Or.inl (Or.inl hd)
        · rcases List.mem_cons.mp ha with rfl | ha
          · exact Or.inl (Or.inr hd)
          · exact Or.inr ⟨a, ha, hd⟩
  exact hrun B s t (fun _ hd => hd) h

/-- One list zipped with two lists that correspond. -/
theorem forall₂_zip_mem {R : β → γ → Prop} {ms : List β} {ns : List γ}
    (h : List.Forall₂ R ms ns) (l : List α) :
    List.Forall₂ (fun a b => a.1 ∈ l ∧ b.1 = a.1 ∧ R a.2 b.2) (l.zip ms) (l.zip ns) := by
  induction h generalizing l with
  | nil =>
      rw [List.zip_nil_right, List.zip_nil_right]
      exact .nil
  | cons hmn _ ih =>
      cases l with
      | nil => exact .nil
      | cons a l =>
          refine .cons ⟨List.mem_cons_self, rfl, hmn⟩ ((ih l).imp ?_)
          rintro q r ⟨hq, hqr⟩
          exact ⟨List.mem_cons_of_mem a hq, hqr⟩

theorem forall₂_zip {R : β → γ → Prop} {ms : List β} {ns : List γ} (h : List.Forall₂ R ms ns)
    (l : List α) : List.Forall₂ (fun a b => b.1 = a.1 ∧ R a.2 b.2) (l.zip ms) (l.zip ns) :=
  (forall₂_zip_mem h l).imp fun _ _ hqr => hqr.2

/-- Lists of one length that are the same under a condition. -/
theorem forall₂_of_length {P : Prop} {ms ns : List β} (hlen : ns.length = ms.length)
    (h : P → ns = ms) : List.Forall₂ (fun a b => P → b = a) ms ns := by
  by_cases hP : P
  · rw [h hP]
    exact List.forall₂_same.mpr fun _ _ _ => rfl
  · induction ms generalizing ns with
    | nil =>
        rw [List.eq_nil_of_length_eq_zero hlen]
        exact .nil
    | cons m ms ih =>
        cases ns with
        | nil => cases hlen
        | cons n ns =>
            exact .cons (fun h => absurd h hP) (ih (Nat.succ.inj hlen) fun h => absurd h hP)

theorem exists_mem_zip {l : List α} {m : List β} (hlen : m.length = l.length) {a : α}
    (ha : a ∈ l) : ∃ r ∈ l.zip m, a = r.1 := by
  have hfst : (l.zip m).map Prod.fst = l := List.map_fst_zip hlen.ge
  rw [← hfst] at ha
  obtain ⟨r, hr, hra⟩ := List.mem_map.mp ha
  exact ⟨r, hr, hra.symm⟩

end Swirl.Lib

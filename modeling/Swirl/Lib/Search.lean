import Mathlib.Tactic

set_option autoImplicit false

/-! # Depth-first search on a mutable state

An attempt changes a state and reports whether it succeeded; what a failed attempt leaves behind is
there for the next one. `Tries run I E G F` says what an attempt does on the states of `I`: it
succeeds exactly when `E` holds, and then in a state of `G`; when it fails it leaves a state of `F`.
The rules put attempts together the way a search does.
-/

namespace Swirl.Lib

/-- A step of a search: whether it succeeded, and the state it leaves. -/
abbrev Attempt (σ : Type*) := σ → Bool × σ

namespace Attempt

variable {σ α : Type*}

/-- The attempt that gives up. -/
def fail : Attempt σ := fun s => (false, s)

/-- An attempt, and another one when it fails. -/
def orElse (a b : Attempt σ) : Attempt σ := fun s => if (a s).1 then a s else b (a s).2

/-- One attempt after the other, until one succeeds. -/
def tryEach (f : α → Attempt σ) : List α → Attempt σ
  | [] => fail
  | x :: l => (f x).orElse (tryEach f l)

end Attempt

/-- On the states of `I` the attempt succeeds exactly when `E` holds, in a state of `G`, and fails
in a state of `F`. -/
structure Tries {σ : Type*} (run : Attempt σ) (I : σ → Prop) (E : Prop) (G F : σ → Prop) :
    Prop where
  success : ∀ s, I s → (run s).1 = true → E ∧ G (run s).2
  failure : ∀ s, I s → (run s).1 = false → ¬ E ∧ F (run s).2

namespace Tries

variable {σ α : Type*} {I J G F : σ → Prop} {run : Attempt σ} {E : Prop}

theorem iff (h : Tries run I E G F) {s : σ} (hs : I s) : (run s).1 = true ↔ E := by
  constructor
  · exact fun hrun => (h.success s hs hrun).1
  · intro hE
    by_contra hrun
    exact (h.failure s hs (Bool.eq_false_iff.2 hrun)).1 hE

/-- Another way to say when it succeeds. -/
theorem congr {E' : Prop} (h : Tries run I E G F) (hE : E ↔ E') : Tries run I E' G F where
  success s hs hrun := ⟨hE.1 (h.success s hs hrun).1, (h.success s hs hrun).2⟩
  failure s hs hrun := ⟨fun h' => (h.failure s hs hrun).1 (hE.2 h'), (h.failure s hs hrun).2⟩

/-- The rule of consequence. -/
theorem mono {I' G' F' : σ → Prop} (h : Tries run I E G F) (hI : ∀ s, I' s → I s)
    (hG : ∀ s, G s → G' s) (hF : ∀ s, F s → F' s) : Tries run I' E G' F' where
  success s hs hrun :=
    ⟨(h.success s (hI s hs) hrun).1, hG _ (h.success s (hI s hs) hrun).2⟩
  failure s hs hrun :=
    ⟨(h.failure s (hI s hs) hrun).1, hF _ (h.failure s (hI s hs) hrun).2⟩

theorem fail : Tries Attempt.fail I False G I where
  success _ _ h := by cases h
  failure _ hs _ := ⟨not_false, hs⟩

theorem orElse {a b : Attempt σ} {E' : Prop} (ha : Tries a I E G J) (hb : Tries b J E' G F) :
    Tries (a.orElse b) I (E ∨ E') G F where
  success s hs hrun := by
    unfold Attempt.orElse at hrun ⊢
    by_cases hfirst : (a s).1 = true
    · rw [if_pos hfirst]
      exact ⟨Or.inl (ha.success s hs hfirst).1, (ha.success s hs hfirst).2⟩
    · -- the second attempt starts from what the first one has left
      have hleft := (ha.failure s hs (Bool.eq_false_iff.2 hfirst)).2
      rw [if_neg hfirst] at hrun ⊢
      exact ⟨Or.inr (hb.success _ hleft hrun).1, (hb.success _ hleft hrun).2⟩
  failure s hs hrun := by
    unfold Attempt.orElse at hrun ⊢
    by_cases hfirst : (a s).1 = true
    · rw [if_pos hfirst, hfirst] at hrun
      cases hrun
    · obtain ⟨hnot, hleft⟩ := ha.failure s hs (Bool.eq_false_iff.2 hfirst)
      rw [if_neg hfirst] at hrun ⊢
      obtain ⟨hnot', hleft'⟩ := hb.failure _ hleft hrun
      exact ⟨not_or.2 ⟨hnot, hnot'⟩, hleft'⟩

theorem tryEach {f : α → Attempt σ} {E : α → Prop} {l : List α}
    (h : ∀ x ∈ l, Tries (f x) I (E x) G I) :
    Tries (Attempt.tryEach f l) I (∃ x ∈ l, E x) G I := by
  induction l with
  | nil => exact Tries.fail.congr (by simp)
  | cons x l ih =>
      have hx := h x List.mem_cons_self
      have hl := ih fun y hy => h y (List.mem_cons_of_mem x hy)
      exact (hx.orElse hl).congr (by simp)

/-- A change of the state before the attempt. -/
theorem modify (h : Tries run J E G F) (g : σ → σ) (hg : ∀ s, I s → J (g s)) :
    Tries (fun s => run (g s)) I E G F where
  success s hs hrun := h.success (g s) (hg s hs) hrun
  failure s hs hrun := h.failure (g s) (hg s hs) hrun

/-- A change of the state, and a test of the outcome that is the same for every state of `I`. -/
theorem guard {test : σ → Bool} {ok : Bool} {g : σ → σ} (h : ok = true → Tries run J E G F)
    (htest : ∀ s, I s → test (g s) = ok) (hg : ∀ s, I s → ok = true → J (g s))
    (hF : ∀ s, I s → F (g s)) :
    Tries (fun s => if test (g s) then run (g s) else (false, g s)) I (ok = true ∧ E) G F where
  success s hs hrun := by
    rw [htest s hs] at hrun ⊢
    cases ok with
    | false => cases hrun
    | true =>
        obtain ⟨hE, hG⟩ := (h rfl).success _ (hg s hs rfl) hrun
        exact ⟨⟨rfl, hE⟩, hG⟩
  failure s hs hrun := by
    rw [htest s hs] at hrun ⊢
    cases ok with
    | false => exact ⟨fun hE => by simp at hE, hF s hs⟩
    | true =>
        obtain ⟨hnot, hleft⟩ := (h rfl).failure _ (hg s hs rfl) hrun
        exact ⟨fun hE => hnot hE.2, hleft⟩

end Tries

end Swirl.Lib

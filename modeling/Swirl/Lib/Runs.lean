import Mathlib.Tactic

set_option autoImplicit false

/-! # Runs of a transition system

A system given by a step function: `Run step ok s t` says that `t` is reached from `s` by steps
that were all allowed where they were taken. An invariant of the allowed steps is an invariant
of the runs.
-/

namespace Swirl.Lib

variable {σ ε : Type*}

/-- `t` is reached from `s` by steps that `ok` allows. -/
inductive Run (step : σ → ε → σ) (ok : σ → ε → Prop) (s : σ) : σ → Prop
  | refl : Run step ok s s
  | step {t : σ} (e : ε) : Run step ok s t → ok t e → Run step ok s (step t e)

/-- Every step is allowed. -/
def Free : σ → ε → Prop := fun _ _ => True

namespace Run

variable {step : σ → ε → σ} {ok : σ → ε → Prop} {s t u : σ}

theorem single {e : ε} (h : ok s e) : Run step ok s (step s e) := Run.step e Run.refl h

theorem trans (h : Run step ok s t) (h' : Run step ok t u) : Run step ok s u := by
  induction h' with
  | refl => exact h
  | step e _ hok ih => exact Run.step e ih hok

/-- Steps that one rule allows are allowed by a weaker one. -/
theorem imp {ok' : σ → ε → Prop} (h : Run step ok s t) (hok : ∀ s e, ok s e → ok' s e) :
    Run step ok' s t := by
  induction h with
  | refl => exact refl
  | step e _ h ih => exact Run.step e ih (hok _ e h)

/-- **The invariant rule**: what an allowed step keeps, a run keeps. -/
theorem invariant {I : σ → Prop} (hstep : ∀ s e, I s → ok s e → I (step s e))
    (h : Run step ok s t) (hs : I s) : I t := by
  induction h with
  | refl => exact hs
  | step e _ hok ih => exact hstep _ e ih hok

end Run

/-! ## Lists of events -/

/-- Every event of a list is allowed where it comes. -/
def Allowed (step : σ → ε → σ) (ok : σ → ε → Prop) : σ → List ε → Prop
  | _, [] => True
  | s, e :: es => ok s e ∧ Allowed step ok (step s e) es

instance Allowed.decidable (step : σ → ε → σ) (ok : σ → ε → Prop) [∀ s e, Decidable (ok s e)] :
    (s : σ) → (es : List ε) → Decidable (Allowed step ok s es)
  | _, [] => instDecidableTrue
  | s, e :: es =>
      have := Allowed.decidable step ok (step s e) es
      inferInstanceAs (Decidable (_ ∧ _))

theorem Allowed.free {step : σ → ε → σ} (s : σ) (es : List ε) : Allowed step Free s es := by
  induction es generalizing s with
  | nil => trivial
  | cons e es ih => exact ⟨trivial, ih (step s e)⟩

/-- A list of allowed events is a run. -/
theorem Run.foldl {step : σ → ε → σ} {ok : σ → ε → Prop} {s : σ} {es : List ε}
    (h : Allowed step ok s es) : Run step ok s (es.foldl step s) := by
  induction es generalizing s with
  | nil => exact Run.refl
  | cons e es ih => exact (Run.single h.1).trans (ih h.2)

/-- A property that a step keeps just where it is allowed holds all along a list of events when each
is allowed. -/
theorem Allowed.keeps_iff {step : σ → ε → σ} {ok : σ → ε → Prop} (I : σ → Prop)
    (hiff : ∀ s e, I s → (I (step s e) ↔ ok s e)) {s : σ} (hs : I s) {es : List ε} :
    Allowed step (fun s e => I (step s e)) s es ↔ Allowed step ok s es := by
  induction es generalizing s with
  | nil => exact Iff.rfl
  | cons e es ih =>
      constructor
      · exact fun h => ⟨(hiff s e hs).mp h.1, (ih h.1).mp h.2⟩
      · intro h
        have hnext := (hiff s e hs).mpr h.1
        exact ⟨hnext, (ih hnext).mpr h.2⟩

/-- Under an invariant of the steps that `br` allows, two conditions that agree on every such step
agree on a list of them. -/
theorem Allowed.congr {step : σ → ε → σ} {br P Q : σ → ε → Prop} {I : σ → Prop}
    (hstep : ∀ s e, I s → br s e → I (step s e)) (hiff : ∀ s e, I s → br s e → (P s e ↔ Q s e))
    {s : σ} (hs : I s) {es : List ε} (h : Allowed step br s es) :
    Allowed step P s es ↔ Allowed step Q s es := by
  induction es generalizing s with
  | nil => exact Iff.rfl
  | cons e es ih => exact and_congr (hiff s e hs h.1) (ih (hstep s e hs h.1) h.2)

/-! ## Folds -/

/-- What every step of a fold keeps, the fold keeps. -/
theorem foldl_invariant {α : Type*} {I : σ → Prop} (f : σ → α → σ) (l : List α)
    (hstep : ∀ s a, a ∈ l → I s → I (f s a)) {s : σ} (hs : I s) : I (l.foldl f s) := by
  induction l generalizing s with
  | nil => exact hs
  | cons a l ih =>
      exact ih (fun s b hb => hstep s b (List.mem_cons_of_mem a hb))
        (hstep s a List.mem_cons_self hs)

end Swirl.Lib

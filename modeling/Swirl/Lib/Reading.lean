import Mathlib.Tactic

set_option autoImplicit false

/-! # Loops that read

A loop takes turns. A turn goes on, stops with a result, or reads the next of a sequence of inputs
and goes on or stops. Whether the loop ends depends on the inputs; `EndsIn` says that it does, and in
which result. The rules: what every turn keeps holds at the end, a loop with a measure that reads
only so often ends, and a loop that never stops does not.
-/

namespace Swirl.Lib

/-- What a turn of a loop does. -/
inductive Next (σ ι ρ : Type*) where
  | again (s : σ)
  | read (take : ι → σ ⊕ ρ)
  | stop (r : ρ)

variable {σ ι ρ : Type*} (turn : σ → Next σ ι ρ) (input : ℕ → ι)

/-- The loop for a number of turns, with `k` inputs read before; `none` says that it has not
ended yet. -/
def loopFor : ℕ → ℕ → σ → Option ρ
  | 0, _, _ => none
  | fuel + 1, k, s =>
      match turn s with
      | .again s' => loopFor fuel k s'
      | .stop r => some r
      | .read take =>
          match take (input k) with
          | .inl s' => loopFor fuel (k + 1) s'
          | .inr r => some r

/-- The loop ends in a result. -/
def EndsIn (k : ℕ) (s : σ) (r : ρ) : Prop := ∃ fuel, loopFor turn input fuel k s = some r

/-- A turn goes on as `P` says, or stops as `Q` says. -/
def TurnTo (k : ℕ) (s : σ) (P : ℕ → σ → Prop) (Q : ρ → Prop) : Prop :=
  match turn s with
  | .again s' => P k s'
  | .stop r => Q r
  | .read take =>
      match take (input k) with
      | .inl s' => P (k + 1) s'
      | .inr r => Q r

variable {turn input} {k : ℕ} {s : σ} {r r' : ρ} {P P' : ℕ → σ → Prop} {Q Q' : ρ → Prop}

namespace TurnTo

theorem mono (h : TurnTo turn input k s P Q) (hP : ∀ k s, P k s → P' k s)
    (hQ : ∀ r, Q r → Q' r) : TurnTo turn input k s P' Q' := by
  unfold TurnTo at *
  split at h
  · exact hP _ _ h
  · exact hQ _ h
  · split at h
    · exact hP _ _ h
    · exact hQ _ h

theorem and (h : TurnTo turn input k s P Q) (h' : TurnTo turn input k s P' Q') :
    TurnTo turn input k s (fun k s => P k s ∧ P' k s) (fun r => Q r ∧ Q' r) := by
  unfold TurnTo at *
  split at h
  next hturn =>
    rw [hturn] at h'
    exact ⟨h, h'⟩
  next hturn =>
    rw [hturn] at h'
    exact ⟨h, h'⟩
  next take hturn =>
    rw [hturn] at h'
    dsimp only at h'
    split at h
    next htake =>
      rw [htake] at h'
      exact ⟨h, h'⟩
    next htake =>
      rw [htake] at h'
      exact ⟨h, h'⟩

end TurnTo

/-- More turns do not change a result. -/
theorem loopFor_succ {fuel : ℕ} (h : loopFor turn input fuel k s = some r) :
    loopFor turn input (fuel + 1) k s = some r := by
  induction fuel generalizing k s with
  | zero => cases h
  | succ fuel ih =>
      rw [loopFor] at h ⊢
      split at h
      · exact ih h
      · exact h
      · split at h
        · exact ih h
        · exact h

theorem loopFor_mono {fuel more : ℕ} (hle : fuel ≤ more)
    (h : loopFor turn input fuel k s = some r) : loopFor turn input more k s = some r := by
  induction hle with
  | refl => exact h
  | step _ ih => exact loopFor_succ ih

namespace EndsIn

/-- **The loop ends in one result only.** -/
theorem unique (h : EndsIn turn input k s r) (h' : EndsIn turn input k s r') : r = r' := by
  obtain ⟨fuel, h⟩ := h
  obtain ⟨fuel', h'⟩ := h'
  have hmore := loopFor_mono (le_max_left fuel fuel') h
  have hmore' := loopFor_mono (le_max_right fuel fuel') h'
  exact Option.some.inj (hmore.symm.trans hmore')

/-- **The invariant rule**: in a loop that ends, what every turn keeps leads to the result. -/
theorem invariant {I : ℕ → σ → Prop} (hstep : ∀ k s, I k s → TurnTo turn input k s I Q)
    (h : EndsIn turn input k s r) (hs : I k s) : Q r := by
  obtain ⟨fuel, h⟩ := h
  induction fuel generalizing k s with
  | zero => cases h
  | succ fuel ih =>
      have hturn := hstep k s hs
      unfold TurnTo at hturn
      rw [loopFor] at h
      split at h
      next heq =>
        rw [heq] at hturn
        exact ih hturn h
      next heq =>
        rw [heq] at hturn
        obtain rfl := Option.some.inj h
        exact hturn
      next take heq =>
        rw [heq] at hturn
        dsimp only at hturn
        split at h
        next htake =>
          rw [htake] at hturn
          exact ih hturn h
        next htake =>
          rw [htake] at hturn
          obtain rfl := Option.some.inj h
          exact hturn

end EndsIn

/-- A loop ends as its first turn goes on or stops. -/
theorem endsIn_iff : EndsIn turn input k s r ↔
    TurnTo turn input k s (fun k s => EndsIn turn input k s r) (· = r) := by
  constructor
  · rintro ⟨fuel, h⟩
    cases fuel with
    | zero => cases h
    | succ fuel =>
        unfold TurnTo
        rw [loopFor] at h
        split at h
        next heq => exact ⟨fuel, h⟩
        next heq => exact Option.some.inj h
        next take heq =>
          split at h
          next htake => exact ⟨fuel, h⟩
          next htake => exact Option.some.inj h
  · intro h
    unfold TurnTo at h
    split at h
    next heq =>
      obtain ⟨fuel, h⟩ := h
      refine ⟨fuel + 1, ?_⟩
      rw [loopFor, heq]
      exact h
    next heq =>
      refine ⟨1, ?_⟩
      rw [loopFor, heq, h]
    next take heq =>
      split at h
      next htake =>
        obtain ⟨fuel, h⟩ := h
        refine ⟨fuel + 1, ?_⟩
        rw [loopFor, heq]
        dsimp only
        rw [htake]
        exact h
      next htake =>
        refine ⟨1, ?_⟩
        rw [loopFor, heq]
        dsimp only
        rw [htake, h]

/-- A result that the loop does not end in is not met on the way. -/
theorem not_endsIn_turnTo (h : ¬ EndsIn turn input k s r) :
    TurnTo turn input k s (fun k s => ¬ EndsIn turn input k s r) (· ≠ r) := by
  rw [endsIn_iff] at h
  unfold TurnTo at *
  split at h
  · exact h
  · exact h
  · split at h
    · exact h
    · exact h

/-- **The termination rule**: a loop ends that reads only so often, and between two reads goes on
only with a smaller measure. -/
theorem exists_endsIn {I : ℕ → σ → Prop} (K : ℕ) (μ : σ → ℕ) (hbound : ∀ k s, I k s → k ≤ K)
    (hstep : ∀ k s, I k s →
      TurnTo turn input k s (fun k' s' => I k' s' ∧ (k < k' ∨ μ s' < μ s)) Q)
    (hs : I k s) : ∃ r, EndsIn turn input k s r ∧ Q r := by
  -- induction on the reads that are left, and on the measure
  induction hn : K - k using Nat.strong_induction_on generalizing k s with
  | _ n ihread =>
      subst hn
      induction hm : μ s using Nat.strong_induction_on generalizing s with
      | _ m ihagain =>
          subst hm
          have hgoes : ∀ k' s', I k' s' ∧ (k < k' ∨ μ s' < μ s) → k ≤ k' →
              ∃ r, EndsIn turn input k' s' r ∧ Q r := by
            rintro k' s' ⟨hs', hlt⟩ hle
            rcases hle.lt_or_eq with hread | rfl
            · have hk' := hbound k' s' hs'
              exact ihread (K - k') (by omega) hs' rfl
            · have hmeasure : μ s' < μ s := by
                rcases hlt with hlt | hlt
                · exact absurd hlt (lt_irrefl k)
                · exact hlt
              exact ihagain (μ s') hmeasure hs' rfl
          have hturn := hstep k s hs
          have hends : ∀ r, EndsIn turn input k s r ↔
              TurnTo turn input k s (fun k s => EndsIn turn input k s r) (· = r) := fun r => endsIn_iff
          unfold TurnTo at hturn hends
          split at hturn
          next heq =>
            obtain ⟨r, hr, hQ⟩ := hgoes _ _ hturn le_rfl
            refine ⟨r, (hends r).2 ?_, hQ⟩
            rw [heq]
            exact hr
          next r heq =>
            refine ⟨r, (hends r).2 ?_, hturn⟩
            rw [heq]
          next take heq =>
            split at hturn
            next htake =>
              obtain ⟨r, hr, hQ⟩ := hgoes _ _ hturn (Nat.le_succ k)
              refine ⟨r, (hends r).2 ?_, hQ⟩
              rw [heq]
              dsimp only
              rw [htake]
              exact hr
            next r htake =>
              refine ⟨r, (hends r).2 ?_, hturn⟩
              rw [heq]
              dsimp only
              rw [htake]

/-- **A loop that never stops does not end.** -/
theorem not_endsIn {I : ℕ → σ → Prop}
    (hstep : ∀ k s, I k s → TurnTo turn input k s I fun _ => False) (hs : I k s) (r : ρ) :
    ¬ EndsIn turn input k s r :=
  fun h => h.invariant hstep hs

end Swirl.Lib

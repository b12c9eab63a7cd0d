import Swirl.Lib.Runs

set_option autoImplicit false

/-! # Computations that may fault

A computation in `Except ε α` either ends with a value or faults. `Ends P Q x` says of both: the
value satisfies `P`, or the fault satisfies `Q`. The rules follow the way computations are put
together, and end with runs of a system whose steps may fault.
-/

namespace Swirl.Lib

universe u v

variable {ε : Type v} {α β σ : Type u}

/-- The computation ends with a value of `P` or a fault of `Q`. -/
def Ends (P : α → Prop) (Q : ε → Prop) : Except ε α → Prop
  | .ok a => P a
  | .error e => Q e

namespace Ends

variable {P : α → Prop} {R : β → Prop} {Q : ε → Prop}

theorem pure {a : α} (h : P a) : Ends P Q (Pure.pure a : Except ε α) := h

theorem bind {x : Except ε α} {f : α → Except ε β} (hx : Ends P Q x)
    (hf : ∀ a, P a → Ends R Q (f a)) : Ends R Q (x >>= f) := by
  cases x with
  | error e => exact hx
  | ok a => exact hf a hx

theorem mono {P' : α → Prop} {Q' : ε → Prop} {x : Except ε α} (hx : Ends P Q x)
    (hP : ∀ a, P a → P' a) (hQ : ∀ e, Q e → Q' e) : Ends P' Q' x := by
  cases x with
  | error e => exact hQ e hx
  | ok a => exact hP a hx

/-- A computation on every element of a list. -/
theorem mapM {f : α → Except ε β} {l : List α} (hf : ∀ a ∈ l, Ends R Q (f a)) :
    Ends (fun bs => bs.length = l.length ∧ ∀ b ∈ bs, R b) Q (l.mapM f) := by
  induction l with
  | nil =>
      rw [List.mapM_nil]
      exact Ends.pure ⟨rfl, by simp⟩
  | cons a l ih =>
      rw [List.mapM_cons]
      have hhead := hf a List.mem_cons_self
      have htail := ih fun b hb => hf b (List.mem_cons_of_mem a hb)
      refine hhead.bind fun b hb => htail.bind fun bs hbs => Ends.pure ⟨?_, ?_⟩
      · rw [List.length_cons, List.length_cons, hbs.1]
      · intro c hc
        rcases List.mem_cons.1 hc with rfl | hc
        · exact hb
        · exact hbs.2 c hc

instance decidable (P : α → Prop) (Q : ε → Prop) [DecidablePred P] [DecidablePred Q] :
    (x : Except ε α) → Decidable (Ends P Q x)
  | .ok a => inferInstanceAs (Decidable (P a))
  | .error e => inferInstanceAs (Decidable (Q e))

end Ends

/-! ## Checks in a row -/

/-- Checks that are made one after the other, up to the first one that fails or faults. -/
def runChecks : List (Except ε Bool) → Except ε Bool
  | [] => .ok true
  | .ok true :: checks => runChecks checks
  | .ok false :: _ => .ok false
  | .error e :: _ => .error e

/-- A check does not fault. -/
def Answers (x : Except ε Bool) : Prop := ∃ b, x = .ok b

theorem answers_ok (b : Bool) : Answers (.ok b : Except ε Bool) := ⟨b, rfl⟩

/-- Checks after others are made when those succeed. -/
theorem answers_runChecks_append {l l' : List (Except ε Bool)} :
    Answers (runChecks (l ++ l')) ↔
      Answers (runChecks l) ∧ (runChecks l = .ok true → Answers (runChecks l')) := by
  induction l with
  | nil => exact ⟨fun h => ⟨⟨true, rfl⟩, fun _ => h⟩, fun h => h.2 rfl⟩
  | cons x l ih =>
      cases x with
      | error e =>
          refine ⟨fun h => ?_, fun h => h.1⟩
          obtain ⟨b, hb⟩ := h
          cases hb
      | ok b =>
          cases b with
          | true => exact ih
          | false => exact ⟨fun h => ⟨h, fun h' => by cases h'⟩, fun h => h.1⟩

theorem answers_runChecks_cons {x : Except ε Bool} {l : List (Except ε Bool)} :
    Answers (runChecks (x :: l)) ↔ Answers x ∧ (x = .ok true → Answers (runChecks l)) := by
  have hone : runChecks [x] = x := by
    cases x with
    | error e => rfl
    | ok b => cases b <;> rfl
  have happend := @answers_runChecks_append _ [x] l
  rw [hone] at happend
  exact happend

theorem answers_runChecks_singleton (b : Bool) :
    Answers (runChecks [(.ok b : Except ε Bool)]) := by
  cases b
  · exact answers_ok false
  · exact answers_ok true

/-- Checks none of which faults do not fault. -/
theorem answers_runChecks {l : List (Except ε Bool)} (h : ∀ x ∈ l, Answers x) :
    Answers (runChecks l) := by
  induction l with
  | nil => exact answers_ok true
  | cons x l ih =>
      refine answers_runChecks_cons.2 ⟨h x List.mem_cons_self, fun _ => ?_⟩
      exact ih fun y hy => h y (List.mem_cons_of_mem x hy)

/-! ## Runs with faults -/

/-- A step of a system that stops at a fault. -/
def faultStep (step : σ → α → Except ε σ) (r : Except ε σ) (e : α) : Except ε σ :=
  r >>= fun s => step s e

/-- A condition on the steps that are still taken. -/
def BeforeFault (ok : σ → α → Prop) (r : Except ε σ) (e : α) : Prop := Ends (ok · e) (fun _ => True) r

instance BeforeFault.decidable (ok : σ → α → Prop) [∀ s e, Decidable (ok s e)] :
    (r : Except ε σ) → (e : α) → Decidable (BeforeFault ok r e)
  | .ok s, e => inferInstanceAs (Decidable (ok s e))
  | .error _, _ => instDecidableTrue

/-- **The invariant rule for runs with faults.** -/
theorem Run.ends {step : σ → α → Except ε σ} {ok : σ → α → Prop} {I : σ → Prop} {Q : ε → Prop}
    (hstep : ∀ s e, I s → ok s e → Ends I Q (step s e)) {s : σ} {r : Except ε σ} (hs : I s)
    (h : Run (faultStep step) (BeforeFault ok) (.ok s) r) : Ends I Q r := by
  refine h.invariant (I := Ends I Q) ?_ hs
  intro r e hr hok
  cases r with
  | error f => exact hr
  | ok s => exact hstep s e hr hok

end Swirl.Lib

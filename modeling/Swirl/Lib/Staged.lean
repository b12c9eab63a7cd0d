import Mathlib.Tactic

set_option autoImplicit false

/-! # Staged writes

A store whose writes wait in stages before they reach it. A stage is a list of keys with the values
they will get, newest stage first. What counts is the value a key will have once every stage is
written (`staged`): the rules here say that writing the oldest stage does not change it, and what
one more entry in the newest does.
-/

namespace Swirl.Lib

variable {K V : Type*} [DecidableEq K]

/-- What a stage says of a key: its first entry. -/
def entry (stage : List (K × V)) (k : K) : Option V :=
  (stage.find? fun e => decide (e.1 = k)).map Prod.snd

/-- What a key will hold: the newest stage that has it decides, else the store. -/
def staged : List (List (K × V)) → (K → V) → K → V
  | [], store => store
  | stage :: older, store => fun k => (entry stage k).getD (staged older store k)

/-- The store after a stage is written. -/
def written (stage : List (K × V)) (store : K → V) : K → V :=
  stage.foldl (fun store e => Function.update store e.1 e.2) store

section Entries

variable {stage : List (K × V)} {k m : K} {v : V}

@[simp] theorem entry_nil (k : K) : entry ([] : List (K × V)) k = none := rfl

theorem entry_cons (e : K × V) (stage : List (K × V)) (k : K) :
    entry (e :: stage) k = if e.1 = k then some e.2 else entry stage k := by
  unfold entry
  by_cases h : e.1 = k <;> simp [h]

theorem entry_eq_none_iff : entry stage k = none ↔ k ∉ stage.map Prod.fst := by
  induction stage with
  | nil => simp
  | cons e stage ih =>
      rw [entry_cons, List.map_cons, List.mem_cons, not_or]
      by_cases h : e.1 = k
      · simp [h]
      · rw [if_neg h, ih]
        exact ⟨fun hrest => ⟨Ne.symm h, hrest⟩, And.right⟩

/-- A new entry for a key that the stage does not have. -/
theorem entry_append_new (h : k ∉ stage.map Prod.fst) (v : V) (m : K) :
    entry (stage ++ [(k, v)]) m = if m = k then some v else entry stage m := by
  induction stage with
  | nil => simp [entry_cons, eq_comm]
  | cons e stage ih =>
      obtain ⟨hne, hrest⟩ : k ≠ e.1 ∧ k ∉ stage.map Prod.fst := by simpa using h
      rw [List.cons_append, entry_cons, entry_cons, ih hrest]
      by_cases hm : e.1 = m
      · rw [if_pos hm, if_pos hm, if_neg (fun hk => hne (hk.symm.trans hm.symm))]
      · rw [if_neg hm, if_neg hm]

/-- The entry of a key that the stage has is changed in place. -/
theorem entry_modify (h : k ∈ stage.map Prod.fst) (v : V) (m : K) :
    entry (stage.modify (stage.findIdx fun e => decide (e.1 = k)) fun e => (e.1, v)) m =
      if m = k then some v else entry stage m := by
  induction stage with
  | nil => simp at h
  | cons e stage ih =>
      rw [List.findIdx_cons, entry_cons]
      by_cases hk : e.1 = k
      · subst hk
        simp only [decide_true, cond_true, List.modify_zero_cons, entry_cons, eq_comm (a := m)]
        by_cases hm : e.1 = m <;> simp [hm]
      · have hrest : k ∈ stage.map Prod.fst := by
          rcases List.mem_cons.1 h with heq | hmem
          · exact absurd heq.symm hk
          · exact hmem
        simp only [hk, decide_false, cond_false, List.modify_succ_cons, entry_cons, ih hrest]
        by_cases hm : e.1 = m
        · rw [if_pos hm, if_pos hm, if_neg (fun hmk => hk (hm.trans hmk))]
        · rw [if_neg hm, if_neg hm]

end Entries

section Stores

variable {stage : List (K × V)} {store : K → V}

/-- A stage that has no key twice is written as it says. -/
theorem written_apply (h : (stage.map Prod.fst).Nodup) (store : K → V) (k : K) :
    written stage store k = (entry stage k).getD (store k) := by
  induction stage generalizing store with
  | nil => rfl
  | cons e stage ih =>
      obtain ⟨hnew, hrest⟩ := List.nodup_cons.1 h
      show written stage (Function.update store e.1 e.2) k = _
      rw [ih hrest, entry_cons]
      by_cases hk : e.1 = k
      · subst hk
        rw [entry_eq_none_iff.2 hnew, if_pos rfl, Option.getD_none, Function.update_self,
          Option.getD_some]
      · rw [if_neg hk, Function.update_of_ne (Ne.symm hk)]

@[simp] theorem staged_open (stages : List (List (K × V))) (store : K → V) :
    staged ([] :: stages) store = staged stages store := rfl

/-- **Writing the oldest stage** changes no value that the store will have. -/
theorem staged_written (stages : List (List (K × V))) (h : (stage.map Prod.fst).Nodup) :
    staged (stages ++ [stage]) store = staged stages (written stage store) := by
  induction stages with
  | nil =>
      funext k
      exact (written_apply h store k).symm
  | cons newest stages ih => rw [List.cons_append, staged, staged, ih]

/-- Two stores that agree on a key will agree on it. -/
theorem staged_congr {store' : K → V} {k : K} (stages : List (List (K × V)))
    (h : store k = store' k) : staged stages store k = staged stages store' k := by
  induction stages with
  | nil => exact h
  | cons stage stages ih =>
      show (entry stage k).getD _ = (entry stage k).getD _
      rw [ih]

end Stores

end Swirl.Lib

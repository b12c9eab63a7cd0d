import Mathlib.Data.List.Flatten
import Mathlib.Tactic

set_option autoImplicit false

/-! # Lines of a text

A text is cut into lines that keep their separator. Only the last line may be without one, and
lines of this form are found again in the text they make up.
-/

namespace Swirl.Lib

variable {α : Type*} [DecidableEq α] (sep : α)

/-- The lines of a text, each with its separator. -/
def lines : List α → List (List α)
  | [] => []
  | a :: l =>
      if a = sep then [a] :: lines l
      else
        match lines l with
        | [] => [[a]]
        | m :: ms => (a :: m) :: ms

/-- Lines as they are found in a text: the last one may be unfinished. -/
inductive Lined : List (List α) → Prop
  | nil : Lined []
  | unfinished {m : List α} (hne : m ≠ []) (hm : sep ∉ m) : Lined [m]
  | cons {m : List α} {ms : List (List α)} (hm : sep ∉ m) (hms : Lined ms) :
      Lined ((m ++ [sep]) :: ms)

variable {sep}

theorem flatten_lines (l : List α) : (lines sep l).flatten = l := by
  induction l with
  | nil => rfl
  | cons a l ih =>
      unfold lines
      split
      · rw [List.flatten_cons, ih]
        rfl
      · split
        next h =>
          rw [h] at ih
          rw [← ih]
          rfl
        next m ms h =>
          rw [h] at ih
          rw [← ih]
          rfl

theorem lined_lines (l : List α) : Lined sep (lines sep l) := by
  induction l with
  | nil => exact .nil
  | cons a l ih =>
      unfold lines
      split
      next h =>
        subst h
        exact .cons (m := []) List.not_mem_nil ih
      next h =>
        split
        next hl =>
          refine .unfinished (List.cons_ne_nil a []) ?_
          simpa using Ne.symm h
        next m ms hl =>
          -- the character goes to the front of the first line
          rw [hl] at ih
          cases ih with
          | unfinished hne hm =>
              refine .unfinished (List.cons_ne_nil a m) ?_
              rw [List.mem_cons, not_or]
              exact ⟨Ne.symm h, hm⟩
          | @cons m _ hm hms =>
              refine .cons (m := a :: m) ?_ hms
              rw [List.mem_cons, not_or]
              exact ⟨Ne.symm h, hm⟩

theorem lines_of_not_mem {m : List α} (hne : m ≠ []) (hm : sep ∉ m) : lines sep m = [m] := by
  induction m with
  | nil => exact absurd rfl hne
  | cons a m ih =>
      obtain ⟨ha, hm⟩ := not_or.mp (fun h => hm (List.mem_cons.mpr h))
      unfold lines
      rw [if_neg (Ne.symm ha)]
      cases m with
      | nil => rfl
      | cons b m => rw [ih (List.cons_ne_nil b m) hm]

theorem lines_append {m : List α} (hm : sep ∉ m) (l : List α) :
    lines sep (m ++ sep :: l) = (m ++ [sep]) :: lines sep l := by
  induction m with
  | nil =>
      rw [List.nil_append, lines, if_pos rfl]
      rfl
  | cons a m ih =>
      obtain ⟨ha, hm⟩ := not_or.mp (fun h => hm (List.mem_cons.mpr h))
      rw [List.cons_append, lines, if_neg (Ne.symm ha), ih hm]
      rfl

/-- **Lines are found again** in the text they make up. -/
theorem Lined.lines_flatten {ms : List (List α)} (h : Lined sep ms) :
    lines sep ms.flatten = ms := by
  induction h with
  | nil => rfl
  | @unfinished m hne hm =>
      rw [List.flatten_cons, List.flatten_nil, List.append_nil]
      exact lines_of_not_mem hne hm
  | @cons m ms hm hms ih =>
      rw [List.flatten_cons, List.append_assoc, List.singleton_append, lines_append hm, ih]

end Swirl.Lib

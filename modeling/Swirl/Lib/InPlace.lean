import Mathlib.Tactic

set_option autoImplicit false

/-! # Arrays that are changed in place

An array has a fixed number of cells, and what it holds is at its front; the cells behind are
cleared. Three loops change it: one moves the cells that pass a test to the front, one clears cells
from the end, and one opens a gap for a new cell. What the cells are during a loop is said by lists
that are taken from and dropped from; the rules follow the turns of the loops.
-/

namespace Swirl.Lib

variable {α : Type*}

/-- The cells of an array that holds a list, with `z` for a cleared cell. -/
def padded (size : ℕ) (z : α) (l : List α) : List α := l ++ List.replicate (size - l.length) z

section Padded

variable {size : ℕ} {z : α} {l : List α}

theorem padded_length (h : l.length ≤ size) : (padded size z l).length = size := by
  rw [padded, List.length_append, List.length_replicate]
  omega

theorem take_padded : (padded size z l).take l.length = l := List.take_left' rfl

theorem drop_padded : (padded size z l).drop l.length = List.replicate (size - l.length) z :=
  List.drop_left' rfl

end Padded

/-! ## Cells that are moved to the front -/

/-- The first `i` cells of `l` have been looked at: those that pass are the first `j` cells of the
array, and the cells that have not been looked at are where they were. -/
structure Compacting (p : α → Bool) (l : List α) (i j : ℕ) (xs : List α) : Prop where
  length : xs.length = l.length
  le : j ≤ i
  front : xs.take j = (l.take i).filter p
  behind : xs.drop i = l.drop i

namespace Compacting

variable {p : α → Bool} {l xs : List α} {i j : ℕ} {a : α}

theorem start (p : α → Bool) (l : List α) : Compacting p l 0 0 l := ⟨rfl, le_rfl, rfl, rfl⟩

theorem getElem? (h : Compacting p l i j xs) : xs[i]? = l[i]? := by
  have hget := congrArg (·[0]?) h.behind
  simpa only [List.getElem?_drop, Nat.add_zero] using hget

/-- The cell at `i` is copied to `j`, unless it is there. -/
def moved (i j : ℕ) (a : α) (xs : List α) : List α := if j < i then xs.set j a else xs

theorem moved_length : (moved i j a xs).length = xs.length := by
  unfold moved
  split
  · exact List.length_set
  · rfl

variable (h : Compacting p l i j xs) (ha : l[i]? = some a)
include h ha

theorem lt_length : i < xs.length := h.length ▸ (List.getElem?_eq_some_iff.1 ha).1

theorem moved_take : (moved i j a xs).take (j + 1) = (l.take i).filter p ++ [a] := by
  have hj : j < xs.length := lt_of_le_of_lt h.le (h.lt_length ha)
  have hget := h.getElem?.trans ha
  unfold moved
  rw [← h.front, List.take_add_one]
  split
  next hlt =>
    rw [List.take_set_of_le le_rfl, List.getElem?_set_self hj]
    rfl
  next hnot =>
    rw [show j = i from le_antisymm h.le (not_lt.1 hnot), hget]
    rfl

omit ha in
theorem moved_drop : (moved i j a xs).drop i = l.drop i := by
  unfold moved
  split
  next hlt => rw [List.drop_set_of_lt hlt, h.behind]
  next => exact h.behind

/-- The cell is still what it was when it is looked at. -/
theorem moved_getElem? : (moved i j a xs)[i]? = some a := by
  have hget := congrArg (·[0]?) (h.moved_drop (a := a))
  simp only [List.getElem?_drop, Nat.add_zero] at hget
  rw [hget, ha]

theorem keep (hp : p a = true) : Compacting p l (i + 1) (j + 1) (moved i j a xs) where
  length := moved_length.trans h.length
  le := Nat.succ_le_succ h.le
  front := by
    rw [h.moved_take ha, List.take_add_one, ha, List.filter_append]
    show _ = _ ++ [a].filter p
    rw [List.filter_cons_of_pos hp, List.filter_nil]
  behind := by rw [← List.drop_drop, h.moved_drop, List.drop_drop]

theorem leave (hp : p a = false) : Compacting p l (i + 1) j (moved i j a xs) where
  length := moved_length.trans h.length
  le := h.le.trans (Nat.le_succ i)
  front := by
    -- the cell that was copied is behind those that are kept
    have htake := congrArg (List.take j) (h.moved_take ha)
    have hlen : ((l.take i).filter p).length = j := by
      rw [← h.front, List.length_take]
      exact min_eq_left (h.le.trans (h.lt_length ha).le)
    rw [List.take_take, min_eq_left (Nat.le_succ j), List.take_left' hlen] at htake
    rw [htake, List.take_add_one, ha, List.filter_append]
    show _ = _ ++ [a].filter p
    rw [List.filter_cons_of_neg (by rw [hp]; exact Bool.false_ne_true), List.filter_nil,
      List.append_nil]
  behind := by rw [← List.drop_drop, h.moved_drop, List.drop_drop]

end Compacting

/-- When all cells have been looked at and the ones behind are cleared, the array holds the cells
that pass. -/
theorem Compacting.done {p : α → Bool} {l xs : List α} {size j : ℕ} {z : α}
    (hl : l.length ≤ size) (h : Compacting p (padded size z l) l.length j xs) :
    j = (l.filter p).length ∧
      xs.take j ++ List.replicate (l.length - j) z ++ xs.drop l.length =
        padded size z (l.filter p) := by
  have hfront := h.front
  rw [take_padded] at hfront
  have hj : j = (l.filter p).length := by
    rw [← hfront, List.length_take, h.length, padded_length hl]
    exact (min_eq_left (h.le.trans hl)).symm
  refine ⟨hj, ?_⟩
  -- the cells cleared now and those that were clear make one block
  have hle := h.le
  rw [hfront, h.behind, drop_padded, padded, List.append_assoc, List.replicate_append_replicate,
    ← hj]
  congr 2
  omega

/-! ## Cells that are cleared -/

/-- A cell is cleared, and then those before it. -/
theorem clear_take {xs : List α} {z : α} {n j : ℕ} (hj : j ≤ n) (hn : n < xs.length) :
    (xs.set n z).take j ++ List.replicate (n - j) z ++ (xs.set n z).drop n =
      xs.take j ++ List.replicate (n + 1 - j) z ++ xs.drop (n + 1) := by
  have hdrop : (xs.set n z).drop n = z :: xs.drop (n + 1) := by
    have hset : n < (xs.set n z).length := by rwa [List.length_set]
    rw [List.drop_eq_getElem_cons hset, List.getElem_set_self,
      List.drop_set_of_lt (Nat.lt_succ_self n)]
  rw [List.take_set_of_le hj, hdrop, Nat.succ_sub hj, List.replicate_succ', List.append_assoc,
    List.append_assoc, List.append_assoc]
  rfl

/-! ## A gap that is opened -/

/-- The cells of `l` from `j` to `n` have moved up by one place, and there is a gap at `j`. -/
structure Opening (l : List α) (n j : ℕ) (xs : List α) : Prop where
  length : xs.length = l.length
  front : xs.take j = l.take j
  behind : xs.drop (j + 1) = (l.drop j).take (n - j) ++ l.drop (n + 1)

namespace Opening

variable {l xs : List α} {n j : ℕ} {a : α}

theorem start (l : List α) (n : ℕ) : Opening l n n l where
  length := rfl
  front := rfl
  behind := by rw [Nat.sub_self, List.take_zero, List.nil_append]

theorem getElem? (h : Opening l n (j + 1) xs) : xs[j]? = l[j]? := by
  have hget := congrArg (·[j]?) h.front
  simpa only [List.getElem?_take_of_lt (Nat.lt_succ_self j)] using hget

/-- The gap moves down. -/
theorem move (h : Opening l n (j + 1) xs) (hn : n < l.length) (hj : j < n) (ha : l[j]? = some a) :
    Opening l n j (xs.set (j + 1) a) where
  length := List.length_set.trans h.length
  front := by
    have htake := congrArg (List.take j) h.front
    rw [List.take_take, List.take_take, min_eq_left (Nat.le_succ j)] at htake
    rw [List.take_set_of_le (Nat.le_succ j), htake]
  behind := by
    have hset : j + 1 < (xs.set (j + 1) a).length := by
      rw [List.length_set, h.length]
      omega
    obtain ⟨hlt, rfl⟩ := List.getElem?_eq_some_iff.1 ha
    rw [List.drop_eq_getElem_cons hset, List.getElem_set_self,
      List.drop_set_of_lt (Nat.lt_succ_self _), h.behind, List.drop_eq_getElem_cons hlt,
      show n - j = n - (j + 1) + 1 by omega, List.take_succ_cons]
    rfl

/-- A new cell goes into the gap. -/
theorem fill (h : Opening l n j xs) (hj : j < l.length) (a : α) :
    xs.set j a = l.take j ++ a :: ((l.drop j).take (n - j) ++ l.drop (n + 1)) := by
  have hlt : j < xs.length := h.length ▸ hj
  rw [List.set_eq_take_append_cons_drop, if_pos hlt, h.front, h.behind]

end Opening

/-- An array with room holds one cell more when the gap is filled. -/
theorem Opening.done {l xs : List α} {size j : ℕ} {z : α} (hl : l.length < size)
    (h : Opening (padded size z l) l.length j xs) (hj : j ≤ l.length) (a : α) :
    xs.set j a = padded size z (l.take j ++ a :: l.drop j) := by
  have hlen : (padded size z l).length = size := padded_length hl.le
  have htake : (padded size z l).take j = l.take j := List.take_append_of_le_length hj
  have hdrop : ((padded size z l).drop j).take (l.length - j) = l.drop j := by
    rw [padded, List.drop_append_of_le_length hj]
    exact List.take_left' (List.length_drop)
  have hbehind : (padded size z l).drop (l.length + 1) =
      List.replicate (size - (l.length + 1)) z := by
    rw [← List.drop_drop, drop_padded, List.drop_replicate]
    congr 1
  rw [h.fill (by omega), htake, hdrop, hbehind, padded, List.append_assoc, List.cons_append]
  congr 4
  simp only [List.length_append, List.length_cons, List.length_take, List.length_drop]
  omega

/-- The new cell goes behind the cells at the front that pass. -/
theorem Opening.done_takeWhile {l xs : List α} {size : ℕ} {z : α} (p : α → Bool)
    (hl : l.length < size)
    (h : Opening (padded size z l) l.length (l.takeWhile p).length xs) (a : α) :
    xs.set (l.takeWhile p).length a = padded size z (l.takeWhile p ++ a :: l.dropWhile p) := by
  have hsplit : l.takeWhile p ++ l.dropWhile p = l := List.takeWhile_append_dropWhile
  have htake : l.take (l.takeWhile p).length = l.takeWhile p :=
    (congrArg (List.take _) hsplit).symm.trans (List.take_left' rfl)
  have hdrop : l.drop (l.takeWhile p).length = l.dropWhile p :=
    (congrArg (List.drop _) hsplit).symm.trans (List.drop_left' rfl)
  rw [h.done hl (List.takeWhile_prefix p).length_le, htake, hdrop]

end Swirl.Lib

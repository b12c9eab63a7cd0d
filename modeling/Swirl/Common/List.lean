import Mathlib.Data.List.InsertIdx
import Mathlib.Logic.Equiv.Basic
import Mathlib.Tactic

set_option autoImplicit false

/-! # `list_t`

The operations of `common/list.c` on the items of a `list_t`. Indices are C `int`s. An index
outside the range the C code can serve is the caller's error: `listInsert` and `listDel` then
leave the list alone, and the callers that can produce such an index record it
(`State.listInsertAt`, `Swirl/Tree/State.lean`).
-/

namespace Swirl

variable {α : Type}

/-- `list_find`: the index of the first occurrence, `-1` when there is none. -/
def listFind [DecidableEq α] (l : List α) (item : α) : Int :=
  if item ∈ l then (l.idxOf item : Int) else -1

/-- The indices `list_insert` can serve. -/
def InsertOk (l : List α) (index : Int) : Prop := 0 ≤ index ∧ index ≤ l.length

instance (l : List α) (index : Int) : Decidable (InsertOk l index) :=
  inferInstanceAs (Decidable (_ ∧ _))

/-- `list_insert` -/
def listInsert (l : List α) (index : Int) (item : α) : List α :=
  if InsertOk l index then l.insertIdx index.toNat item else l

/-- `list_del` -/
def listDel (l : List α) (index : Int) : List α :=
  if 0 ≤ index then l.eraseIdx index.toNat else l

/-- `list_add` -/
def listAdd (l : List α) (item : α) : List α := l ++ [item]

/-- `list_swap` -/
def listSwap (l : List α) (src dest : Int) : List α :=
  match l[src.toNat]?, l[dest.toNat]? with
  | some a, some b => (l.set src.toNat b).set dest.toNat a
  | _, _ => l

/-- `list_move_to_end`; an item that is not in the list is only logged. -/
def listMoveToEnd [DecidableEq α] (l : List α) (item : α) : List α :=
  if item ∈ l then listAdd (listDel l (listFind l item)) item else l

/-! ## Finding -/

section Find

variable [DecidableEq α]

theorem listFind_nonneg {l : List α} {a : α} : 0 ≤ listFind l a ↔ a ∈ l := by
  unfold listFind
  split <;> simp_all

theorem listFind_of_mem {l : List α} {a : α} (h : a ∈ l) : listFind l a = (l.idxOf a : Int) := by
  simp [listFind, h]

theorem listFind_of_not_mem {l : List α} {a : α} (h : a ∉ l) : listFind l a = -1 := by
  simp [listFind, h]

theorem listFind_lt_length {l : List α} {a : α} (h : a ∈ l) : listFind l a < l.length := by
  rw [listFind_of_mem h]
  exact_mod_cast List.idxOf_lt_length_iff.mpr h

/-- Deleting what `list_find` found is erasing the first occurrence. -/
theorem listDel_listFind (l : List α) (a : α) : listDel l (listFind l a) = l.erase a := by
  by_cases h : a ∈ l
  · rw [listFind_of_mem h, listDel, if_pos (by omega), Int.toNat_natCast,
      List.erase_eq_eraseIdx_of_idxOf rfl]
  · rw [listFind_of_not_mem h, listDel, if_neg (by decide), List.erase_of_not_mem h]

theorem listMoveToEnd_perm (l : List α) (a : α) : (listMoveToEnd l a).Perm l := by
  unfold listMoveToEnd
  split
  next h =>
    rw [listDel_listFind, listAdd]
    exact (List.perm_append_comm).trans (List.perm_cons_erase h).symm
  next => exact List.Perm.refl _

end Find

/-! ## Inserting -/

theorem InsertOk.toNat_le {l : List α} {i : Int} (h : InsertOk l i) : i.toNat ≤ l.length := by
  have := h.1; have := h.2; omega

theorem listInsert_of_ok {l : List α} {i : Int} {a : α} (h : InsertOk l i) :
    listInsert l i a = l.insertIdx i.toNat a := if_pos h

theorem mem_listInsert_of_ok {l : List α} {i : Int} {a b : α} (h : InsertOk l i) :
    b ∈ listInsert l i a ↔ b = a ∨ b ∈ l := by
  rw [listInsert_of_ok h, List.mem_insertIdx h.toNat_le]

theorem mem_of_mem_listInsert {l : List α} {i : Int} {a b : α} (h : b ∈ listInsert l i a) :
    b = a ∨ b ∈ l := by
  by_cases ok : InsertOk l i
  · exact (mem_listInsert_of_ok ok).mp h
  · rw [listInsert, if_neg ok] at h
    exact Or.inr h

theorem listInsert_perm {l : List α} {i : Int} {a : α} (h : InsertOk l i) :
    (listInsert l i a).Perm (a :: l) := by
  rw [listInsert_of_ok h]
  exact List.perm_insertIdx a l h.toNat_le

theorem listInsert_nodup {l : List α} {i : Int} {a : α} (hl : l.Nodup) (ha : a ∉ l) :
    (listInsert l i a).Nodup := by
  by_cases ok : InsertOk l i
  · exact (listInsert_perm ok).nodup_iff.mpr (List.nodup_cons.mpr ⟨ha, hl⟩)
  · rwa [listInsert, if_neg ok]

/-! ## At the end of a prefix -/

theorem listInsert_append (p q : List α) (a : α) : listInsert (p ++ q) p.length a = p ++ a :: q := by
  rw [listInsert_of_ok ⟨Int.natCast_nonneg _, by simp⟩, Int.toNat_natCast]
  induction p with
  | nil => rfl
  | cons b p ih => simpa using ih

theorem listDel_append (p q : List α) (a : α) : listDel (p ++ a :: q) p.length = p ++ q := by
  rw [listDel, if_pos (Int.natCast_nonneg _), Int.toNat_natCast,
    List.eraseIdx_append_of_length_le (le_refl p.length)]
  simp

theorem listFind_append [DecidableEq α] {p q : List α} {a : α} (h : a ∉ p) :
    listFind (p ++ a :: q) a = p.length := by
  rw [listFind_of_mem (by simp), List.idxOf_append_of_notMem h, List.idxOf_cons_self]
  simp

/-- Renaming the items keeps the index of each. -/
theorem listFind_map [DecidableEq α] (e : Equiv.Perm α) (l : List α) (a : α) :
    listFind (l.map e) (e a) = listFind l a := by
  have hidx : (l.map e).idxOf (e a) = l.idxOf a := by
    induction l with
    | nil => rfl
    | cons b l ih => by_cases h : b = a <;> simp [h, List.idxOf_cons_ne, ih]
  simp [listFind, hidx]

/-! ## Exchanging -/

section Exchange

variable [DecidableEq α]

theorem map_swap_of_not_mem {l : List α} {a b : α} (ha : a ∉ l) (hb : b ∉ l) :
    l.map (Equiv.swap a b) = l := by
  have hid : ∀ c ∈ l, Equiv.swap a b c = id c := by
    intro c hc
    refine Equiv.swap_apply_of_ne_of_ne ?_ ?_ <;> rintro rfl <;> contradiction
  rw [List.map_congr_left hid, List.map_id]

theorem map_swap_perm {l : List α} {a b : α} (hl : l.Nodup) (ha : a ∈ l) (hb : b ∈ l) :
    (l.map (Equiv.swap a b)).Perm l := by
  refine (List.perm_ext_iff_of_nodup (hl.map (Equiv.swap a b).injective) hl).mpr ?_
  intro c
  rw [List.mem_map_of_involutive (Equiv.swap_apply_self a b), Equiv.swap_apply_def]
  split
  next h => simp [h, ha, hb]
  next =>
    split
    next h => simp [h, ha, hb]
    next => rfl

/-- Putting `a` where `b` was taken out is an exchange, at the index of `b` and at no other. -/
theorem listInsert_erase_eq_map_swap {l : List α} {a b : α} {i : Int} (hl : l.Nodup) (hb : b ∈ l)
    (ha : a ∉ l) (hi : InsertOk (l.erase b) i) :
    listInsert (l.erase b) i a = l.map (Equiv.swap a b) ↔ i = listFind l b := by
  obtain ⟨p, q, rfl⟩ := List.append_of_mem hb
  have hbp : b ∉ p := fun h => (List.nodup_append.mp hl).2.2 b h b (by simp) rfl
  have hbq : b ∉ q := (List.nodup_cons.mp (List.nodup_append.mp hl).2.1).1
  simp only [List.mem_append, List.mem_cons, not_or] at ha
  have hmap : (p ++ b :: q).map (Equiv.swap a b) = p ++ a :: q := by
    rw [List.map_append, List.map_cons, Equiv.swap_apply_right, map_swap_of_not_mem ha.1 hbp,
      map_swap_of_not_mem ha.2.2 hbq]
  have herase : (p ++ b :: q).erase b = p ++ q := by
    rw [List.erase_append_right _ hbp, List.erase_cons_head]
  rw [hmap, herase, listFind_append hbp]
  rw [herase] at hi
  constructor
  · intro h
    have hidx := congrArg (List.idxOf a) h
    rw [List.idxOf_append_of_notMem ha.1, List.idxOf_cons_self, listInsert_of_ok hi] at hidx
    have hget : ((p ++ q).insertIdx i.toNat a)[i.toNat]? = some a := by
      rw [List.getElem?_insertIdx_self, if_pos hi.toNat_le]
    have hnodup : ((p ++ q).insertIdx i.toNat a).Nodup := by
      rw [← listInsert_of_ok hi]
      refine listInsert_nodup (hl.sublist ?_) (by simp [ha])
      simp
    obtain ⟨hlt, hat⟩ := List.getElem?_eq_some_iff.mp hget
    have hpos := hnodup.idxOf_getElem i.toNat hlt
    rw [hat] at hpos
    have := hi.1
    omega
  · rintro rfl
    exact listInsert_append p q a

/-- What the same-list part of `workspace_swap_columns` makes of a list. -/
def exchange (l : List α) (a b : α) : List α :=
  let i := listFind l a
  let j := listFind l b
  let m := listInsert (listDel l i) (if i < j then j - 1 else j) a
  listInsert (listDel m (listFind m b)) i b

theorem exchange_of_left {p q r : List α} {a b : α} (hl : (p ++ a :: (q ++ b :: r)).Nodup) :
    exchange (p ++ a :: (q ++ b :: r)) a b = p ++ b :: (q ++ a :: r) := by
  have hap : a ∉ p := by grind
  have hb : b ∉ p ++ a :: q := by grind
  have hi := listFind_append (q := q ++ b :: r) hap
  have hj : listFind (p ++ a :: (q ++ b :: r)) b = (p ++ a :: q).length := by
    rw [← List.cons_append, ← List.append_assoc, listFind_append hb]
  have hm : listInsert (p ++ (q ++ b :: r)) ((p ++ q).length : Int) a =
      (p ++ q ++ [a]) ++ b :: r := by
    rw [← List.append_assoc, listInsert_append]
    simp
  have hb' : b ∉ p ++ q ++ [a] := by grind
  unfold exchange
  dsimp only
  rw [hi, hj, listDel_append, if_pos (by simp),
    show ((p ++ a :: q).length : Int) - 1 = (p ++ q).length by simp; omega, hm,
    listFind_append hb', listDel_append]
  simp only [List.append_assoc]
  rw [listInsert_append]
  simp

theorem exchange_of_right {p q r : List α} {a b : α} (hl : (p ++ b :: (q ++ a :: r)).Nodup) :
    exchange (p ++ b :: (q ++ a :: r)) a b = p ++ a :: (q ++ b :: r) := by
  have ha : a ∉ p ++ b :: q := by grind
  have hbp : b ∉ p := by grind
  have hi : listFind (p ++ b :: (q ++ a :: r)) a = (p ++ b :: q).length := by
    rw [← List.cons_append, ← List.append_assoc, listFind_append ha]
  have hj := listFind_append (q := q ++ a :: r) hbp
  have hdel : listDel (p ++ b :: (q ++ a :: r)) (p ++ b :: q).length = p ++ (b :: (q ++ r)) := by
    rw [← List.cons_append, ← List.append_assoc, listDel_append]
    simp
  have hb' : b ∉ p ++ [a] := by grind
  unfold exchange
  dsimp only
  rw [hi, hj, hdel, if_neg (by simp; omega), listInsert_append,
    show p ++ a :: b :: (q ++ r) = (p ++ [a]) ++ b :: (q ++ r) by simp, listFind_append hb',
    listDel_append, show (p ++ b :: q).length = (p ++ [a] ++ q).length by simp,
    ← List.append_assoc, listInsert_append]
  simp

/-- Taking `a` out, putting it in front of or behind `b`, taking `b` out and putting it where `a`
was is an exchange. -/
theorem exchange_eq_map_swap {l : List α} {a b : α} (hl : l.Nodup) (ha : a ∈ l) (hb : b ∈ l)
    (hab : a ≠ b) : exchange l a b = l.map (Equiv.swap a b) := by
  obtain ⟨p, q, rfl⟩ := List.append_of_mem ha
  rw [List.mem_append, List.mem_cons, or_iff_right hab.symm] at hb
  have hmap : ∀ x : List α, a ∉ x → b ∉ x → x.map (Equiv.swap a b) = x :=
    fun x => map_swap_of_not_mem
  rcases hb with hb | hb
  · -- `b` stands left of `a`
    obtain ⟨p₁, p₂, rfl⟩ := List.append_of_mem hb
    rw [List.append_assoc, List.cons_append] at hl ⊢
    rw [exchange_of_right hl]
    simp only [List.map_append, List.map_cons, Equiv.swap_apply_left, Equiv.swap_apply_right]
    rw [hmap p₁ (by grind) (by grind), hmap p₂ (by grind) (by grind), hmap q (by grind) (by grind)]
  · -- `b` stands right of `a`
    obtain ⟨q₁, q₂, rfl⟩ := List.append_of_mem hb
    rw [exchange_of_left hl]
    simp only [List.map_append, List.map_cons, Equiv.swap_apply_left, Equiv.swap_apply_right]
    rw [hmap p (by grind) (by grind), hmap q₁ (by grind) (by grind), hmap q₂ (by grind) (by grind)]

end Exchange

/-! ## Swapping -/

theorem listSwap_perm (l : List α) (src dest : Int) : (listSwap l src dest).Perm l := by
  unfold listSwap
  split
  next a b ha hb =>
    obtain ⟨hs, rfl⟩ := List.getElem?_eq_some_iff.mp ha
    obtain ⟨hd, rfl⟩ := List.getElem?_eq_some_iff.mp hb
    exact List.set_set_perm hs hd
  next => exact List.Perm.refl _

/-! ## Counting -/

/-- Where two predicates differ at one element of a list without repetitions only, the counts
differ by one. -/
theorem countP_of_flip {β : Type} {f : α → β} {p q : α → Bool} {l : List α} {a : α}
    (hnodup : (l.map f).Nodup) (ha : a ∈ l) (hp : p a = true) (hq : q a = false)
    (hrest : ∀ b ∈ l, f b ≠ f a → q b = p b) : l.countP p = l.countP q + 1 := by
  induction l with
  | nil => exact absurd ha List.not_mem_nil
  | cons b l ih =>
      obtain ⟨hb, hnodup'⟩ := List.nodup_cons.mp hnodup
      rw [List.countP_cons, List.countP_cons]
      rcases List.mem_cons.mp ha with rfl | hal
      · have hsame : l.countP p = l.countP q := by
          refine List.countP_congr fun c hc => ?_
          have hne : f c ≠ f a := fun h => hb (h ▸ List.mem_map_of_mem hc)
          rw [hrest c (List.mem_cons_of_mem a hc) hne]
        rw [hsame, hp, hq]
        rfl
      · have hne : f b ≠ f a := fun h => hb (h ▸ List.mem_map_of_mem hal)
        have hstep := ih hnodup' hal fun c hc => hrest c (List.mem_cons_of_mem b hc)
        rw [hstep, hrest b List.mem_cons_self hne]
        omega

end Swirl

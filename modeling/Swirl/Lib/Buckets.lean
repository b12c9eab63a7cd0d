import Mathlib.Tactic

set_option autoImplicit false

/-! # Sorting into buckets

The elements of a list go into buckets by a key. A bucket is opened for the first element with its
key, as long as there is room for one; later elements with that key go to its end. The buckets stand
in the order in which they were opened.
-/

namespace Swirl.Lib

variable {α κ : Type*} [DecidableEq κ] (key : α → κ)

/-- An element goes to the end of its bucket; a new bucket is opened while there is room. -/
def addTo (a : α) : ℕ → List (κ × List α) → List (κ × List α)
  | room, [] => if 0 < room then [(key a, [a])] else []
  | room, b :: bs =>
      if b.1 = key a then (b.1, b.2 ++ [a]) :: bs else b :: addTo a (room - 1) bs

/-- The elements of a list in at most `room` buckets. -/
def buckets (room : ℕ) (l : List α) : List (κ × List α) :=
  l.foldl (fun bs a => addTo key a room bs) []

/-! ## One element -/

theorem addTo_of_notMem {a : α} {room : ℕ} {bs : List (κ × List α)}
    (h : key a ∉ bs.map Prod.fst) :
    addTo key a room bs = if bs.length < room then bs ++ [(key a, [a])] else bs := by
  induction bs generalizing room with
  | nil => simp [addTo]
  | cons b bs ih =>
      simp only [List.map_cons, List.mem_cons, not_or] at h
      rw [addTo, if_neg (Ne.symm h.1), ih h.2, List.length_cons]
      by_cases hr : bs.length + 1 < room
      · rw [if_pos hr, if_pos (by omega), List.cons_append]
      · rw [if_neg hr, if_neg (by omega)]

theorem addTo_of_mem {a : α} {room : ℕ} {bs : List (κ × List α)}
    (hnodup : (bs.map Prod.fst).Nodup) (h : key a ∈ bs.map Prod.fst) :
    addTo key a room bs = bs.map fun b => if b.1 = key a then (b.1, b.2 ++ [a]) else b := by
  induction bs generalizing room with
  | nil => simp at h
  | cons b bs ih =>
      rw [List.map_cons, List.nodup_cons] at hnodup
      rw [addTo, List.map_cons]
      split
      · next hb =>
        -- the keys are distinct, so the other buckets stay
        have hrest : bs.map (fun b => if b.1 = key a then (b.1, b.2 ++ [a]) else b) = bs := by
          refine (List.map_congr_left fun c hc => if_neg fun hkey => ?_).trans (List.map_id _)
          exact hnodup.1 (List.mem_map.2 ⟨c, hc, hkey.trans hb.symm⟩)
        rw [hrest]
      · next hb =>
        have hmem : key a ∈ bs.map Prod.fst := by
          rcases List.mem_cons.1 h with h | h
          · exact absurd h.symm hb
          · exact h
        rw [ih hnodup.2 hmem]

/-- The keys after an element with a bucket of its own are the ones before. -/
theorem keys_addTo_of_mem {a : α} (room : ℕ) {bs : List (κ × List α)}
    (hnodup : (bs.map Prod.fst).Nodup) (h : key a ∈ bs.map Prod.fst) :
    (addTo key a room bs).map Prod.fst = bs.map Prod.fst := by
  rw [addTo_of_mem key hnodup h, List.map_map]
  refine List.map_congr_left fun b _ => ?_
  simp only [Function.comp_apply]
  split <;> rfl

/-! ## A list -/

/-- Buckets of a list: their keys are distinct, a bucket holds every element with its key, and none
is missing unless the room is used up. -/
structure IsBuckets (room : ℕ) (l : List α) (bs : List (κ × List α)) : Prop where
  nodup : (bs.map Prod.fst).Nodup
  holds : ∀ b ∈ bs, b.2 = l.filter fun a => decide (key a = b.1)
  opened : ∀ k ∈ bs.map Prod.fst, k ∈ l.map key
  full : (∀ a ∈ l, key a ∈ bs.map Prod.fst) ∨ room ≤ bs.length

variable {key}

theorem isBuckets_nil (room : ℕ) : IsBuckets key room ([] : List α) [] where
  nodup := List.nodup_nil
  holds _ hb := absurd hb List.not_mem_nil
  opened _ hk := absurd hk List.not_mem_nil
  full := .inl fun _ ha => absurd ha List.not_mem_nil

section Add

variable {room : ℕ} {l : List α} {bs : List (κ × List α)} {a : α} (h : IsBuckets key room l bs)

include h

/-- An element with a bucket of its own. -/
theorem IsBuckets.push (hmem : key a ∈ bs.map Prod.fst) :
    IsBuckets key room (l ++ [a]) (addTo key a room bs) := by
  have hkeys := keys_addTo_of_mem key room h.nodup hmem
  have hlength : (addTo key a room bs).length = bs.length := by
    simpa using congrArg List.length hkeys
  constructor
  · rw [hkeys]
    exact h.nodup
  · intro b hb
    rw [addTo_of_mem key h.nodup hmem] at hb
    obtain ⟨c, hc, rfl⟩ := List.mem_map.1 hb
    split
    · next hca => simp [h.holds c hc, List.filter_append, hca]
    · next hca => simp [h.holds c hc, List.filter_append, Ne.symm hca]
  · intro k hk
    rw [hkeys] at hk
    rw [List.map_append, List.mem_append]
    exact .inl (h.opened k hk)
  · rw [hkeys, hlength]
    refine h.full.imp_left fun hall c hc => ?_
    rcases List.mem_append.1 hc with hc | hc
    · exact hall c hc
    · rw [List.mem_singleton.1 hc]
      exact hmem

/-- An element with a new key, which leaves the buckets that are there as they are. -/
theorem IsBuckets.holds_of_notMem (hmem : key a ∉ bs.map Prod.fst) {b : κ × List α} (hb : b ∈ bs) :
    b.2 = (l ++ [a]).filter fun c => decide (key c = b.1) := by
  have hne : key a ≠ b.1 := fun heq => hmem (heq ▸ List.mem_map_of_mem hb)
  simp [h.holds b hb, List.filter_append, hne]

/-- It opens a bucket while there is room: no element before it has its key. -/
theorem IsBuckets.openBucket (hmem : key a ∉ bs.map Prod.fst) (hroom : bs.length < room) :
    IsBuckets key room (l ++ [a]) (bs ++ [(key a, [a])]) := by
  have hall : ∀ c ∈ l, key c ∈ bs.map Prod.fst := by
    rcases h.full with hall | hfull
    · exact hall
    · omega
  constructor
  · rw [List.map_append, List.nodup_append]
    refine ⟨h.nodup, List.nodup_singleton _, fun k hk k' hk' heq => ?_⟩
    rw [List.map_singleton, List.mem_singleton] at hk'
    rw [heq, hk'] at hk
    exact hmem hk
  · intro b hb
    rcases List.mem_append.1 hb with hb | hb
    · exact h.holds_of_notMem hmem hb
    · rw [List.mem_singleton.1 hb]
      have hnone : l.filter (fun c => decide (key c = key a)) = [] := by
        rw [List.filter_eq_nil_iff]
        intro c hc hca
        exact hmem (of_decide_eq_true hca ▸ hall c hc)
      simp [List.filter_append, hnone]
  · intro k hk
    simp only [List.map_append, List.mem_append, List.map_cons, List.map_nil,
      List.mem_singleton] at hk ⊢
    exact hk.imp_left (h.opened k)
  · refine .inl fun c hc => ?_
    simp only [List.map_append, List.mem_append, List.map_cons, List.map_nil,
      List.mem_singleton]
    rcases List.mem_append.1 hc with hc | hc
    · exact .inl (hall c hc)
    · exact .inr (by rw [List.mem_singleton.1 hc])

/-- It is left out when there is none. -/
theorem IsBuckets.leaveOut (hmem : key a ∉ bs.map Prod.fst) (hroom : ¬ bs.length < room) :
    IsBuckets key room (l ++ [a]) bs where
  nodup := h.nodup
  holds _ hb := h.holds_of_notMem hmem hb
  opened k hk := by
    rw [List.map_append, List.mem_append]
    exact .inl (h.opened k hk)
  full := .inr (not_lt.1 hroom)

/-- **One more element keeps the buckets.** -/
theorem IsBuckets.addTo : IsBuckets key room (l ++ [a]) (addTo key a room bs) := by
  by_cases hmem : key a ∈ bs.map Prod.fst
  · exact h.push hmem
  · rw [addTo_of_notMem key hmem]
    split
    · next hroom => exact h.openBucket hmem hroom
    · next hroom => exact h.leaveOut hmem hroom

end Add

/-- **The buckets of a list.** -/
theorem isBuckets_buckets (room : ℕ) (l : List α) :
    IsBuckets key room l (buckets key room l) := by
  induction l using List.reverseRecOn with
  | nil => exact isBuckets_nil room
  | append_singleton l a ih =>
      rw [buckets, List.foldl_append]
      exact ih.addTo

namespace IsBuckets

variable {room : ℕ} {l : List α} {bs : List (κ × List α)} (h : IsBuckets key room l bs)

include h

/-- With room for every key, every element has a bucket. -/
theorem mem_keys (hroom : (l.map key).toFinset.card ≤ room) {a : α} (ha : a ∈ l) :
    key a ∈ bs.map Prod.fst := by
  rcases h.full with hall | hfull
  · exact hall a ha
  · -- the buckets are as many as there are keys
    have hsub : (bs.map Prod.fst).toFinset ⊆ (l.map key).toFinset := fun k hk =>
      List.mem_toFinset.2 (h.opened k (List.mem_toFinset.1 hk))
    have hcard : (bs.map Prod.fst).toFinset.card = bs.length := by
      rw [List.toFinset_card_of_nodup h.nodup, List.length_map]
    have heq := Finset.eq_of_subset_of_card_le hsub (by omega)
    rw [← List.mem_toFinset, heq, List.mem_toFinset]
    exact List.mem_map_of_mem ha

/-- With room for every key, there are as many buckets as keys. -/
theorem length_eq (hroom : (l.map key).toFinset.card ≤ room) :
    bs.length = (l.map key).toFinset.card := by
  have heq : (bs.map Prod.fst).toFinset = (l.map key).toFinset := by
    ext k
    rw [List.mem_toFinset, List.mem_toFinset]
    constructor
    · exact h.opened k
    · intro hk
      obtain ⟨a, ha, rfl⟩ := List.mem_map.1 hk
      exact h.mem_keys hroom ha
  rw [← heq, List.toFinset_card_of_nodup h.nodup, List.length_map]

theorem length_bucket {b : κ × List α} (hb : b ∈ bs) :
    b.2.length = l.countP fun a => decide (key a = b.1) := by
  rw [h.holds b hb, List.countP_eq_length_filter]

/-- No bucket is empty. -/
theorem bucket_ne_nil {b : κ × List α} (hb : b ∈ bs) : b.2 ≠ [] := by
  obtain ⟨a, ha, hkey⟩ := List.mem_map.1 (h.opened b.1 (List.mem_map_of_mem hb))
  rw [h.holds b hb]
  exact List.ne_nil_of_mem (List.mem_filter.2 ⟨ha, decide_eq_true hkey⟩)

/-- An element is in the bucket of its key, and only there. -/
theorem mem_bucket {b : κ × List α} (hb : b ∈ bs) {a : α} : a ∈ b.2 ↔ a ∈ l ∧ key a = b.1 := by
  rw [h.holds b hb, List.mem_filter, decide_eq_true_iff]

end IsBuckets

end Swirl.Lib

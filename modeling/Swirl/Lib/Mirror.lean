import Mathlib.Tactic

set_option autoImplicit false

/-! # A list that is mirrored through a queue

A source keeps a list of different elements, and tells its mirrors what becomes of it: that an
element is new, that one is gone, or, to a mirror that asks, which elements there are. The messages
wait in a queue. What counts is the mirror as it will be when they have all arrived: every rule
here says what one more message does to that.
-/

namespace Swirl.Lib

/-- A message of the source. -/
inductive Update (α : Type*) where
  | added (a : α)
  | removed (a : α)
  | listed (l : List α)

variable {α : Type*} [DecidableEq α]

/-- An element goes to the end, unless it is there. -/
def insertNew (l : List α) (a : α) : List α := if a ∈ l then l else l ++ [a]

/-- A message arrives. -/
def Update.apply (l : List α) : Update α → List α
  | .added a => insertNew l a
  | .removed a => l.erase a
  | .listed new => new.foldl insertNew l

/-- The mirror when the whole queue has arrived. -/
def settled (l : List α) (queue : List (Update α)) : List α := queue.foldl Update.apply l

section Messages

variable {l new : List α} {a b : α}

theorem mem_insertNew : a ∈ insertNew l b ↔ a ∈ l ∨ a = b := by
  unfold insertNew
  split
  · rename_i hb
    constructor
    · exact Or.inl
    · rintro (h | rfl)
      · exact h
      · exact hb
  · simp

theorem nodup_insertNew (h : l.Nodup) (a : α) : (insertNew l a).Nodup := by
  unfold insertNew
  split
  · exact h
  · rename_i ha
    refine List.nodup_append.2 ⟨h, List.nodup_singleton a, fun x hx y hy => ?_⟩
    rw [List.mem_singleton.1 hy]
    exact fun he => ha (he ▸ hx)

theorem mem_foldl_insertNew : a ∈ new.foldl insertNew l ↔ a ∈ l ∨ a ∈ new := by
  induction new generalizing l with
  | nil => simp
  | cons b new ih => rw [List.foldl_cons, ih, mem_insertNew, List.mem_cons, or_assoc]

theorem nodup_apply (h : l.Nodup) (u : Update α) : (u.apply l).Nodup := by
  cases u with
  | added a => exact nodup_insertNew h a
  | removed a => exact h.erase a
  | listed new =>
      show (new.foldl insertNew l).Nodup
      induction new generalizing l with
      | nil => exact h
      | cons a new ih => exact ih (nodup_insertNew h a)

end Messages

section Queue

variable {l source new : List α} {queue : List (Update α)} {a : α} {p : α → Prop}

theorem settled_append (l : List α) (queue more : List (Update α)) :
    settled l (queue ++ more) = settled (settled l queue) more := List.foldl_append

theorem nodup_settled (h : l.Nodup) (queue : List (Update α)) : (settled l queue).Nodup := by
  induction queue generalizing l with
  | nil => exact h
  | cons u queue ih => exact ih (nodup_apply h u)

theorem mem_settled_added (b : α) :
    a ∈ settled l (queue ++ [.added b]) ↔ a ∈ settled l queue ∨ a = b := by
  rw [settled_append]
  exact mem_insertNew

theorem mem_settled_removed (h : l.Nodup) (b : α) :
    a ∈ settled l (queue ++ [.removed b]) ↔ a ≠ b ∧ a ∈ settled l queue := by
  rw [settled_append]
  exact (nodup_settled h queue).mem_erase_iff

theorem mem_settled_listed (new : List α) :
    a ∈ settled l (queue ++ [.listed new]) ↔ a ∈ settled l queue ∨ a ∈ new := by
  rw [settled_append]
  exact mem_foldl_insertNew

/-- Many elements are gone. -/
theorem mem_settled_removals (h : l.Nodup) (gone : List α) :
    a ∈ settled l (queue ++ gone.map .removed) ↔ a ∉ gone ∧ a ∈ settled l queue := by
  induction gone generalizing queue with
  | nil => simp
  | cons b gone ih =>
      have hsplit : queue ++ (b :: gone).map Update.removed =
          queue ++ [.removed b] ++ gone.map .removed := by simp
      rw [hsplit, ih, mem_settled_removed h, List.mem_cons, not_or]
      tauto

/-- The elements that a message is about. -/
def Update.mentions : Update α → List α
  | .added a => [a]
  | .removed a => [a]
  | .listed l => l

omit [DecidableEq α] in
theorem mentions_removals {gone : List α} {u : Update α} (hu : u ∈ gone.map Update.removed)
    (ha : a ∈ u.mentions) : a ∈ gone := by
  obtain ⟨b, hb, rfl⟩ := List.mem_map.1 hu
  rwa [List.mem_singleton.1 ha]

/-- Messages about other elements. -/
theorem mem_settled_foreign (hl : l.Nodup) {more : List (Update α)}
    (hmore : ∀ u ∈ more, a ∉ u.mentions) :
    a ∈ settled l (queue ++ more) ↔ a ∈ settled l queue := by
  induction more generalizing queue with
  | nil => rw [List.append_nil]
  | cons u more ih =>
      obtain ⟨hu, hrest⟩ := List.forall_mem_cons.1 hmore
      have hsplit : queue ++ u :: more = queue ++ [u] ++ more := by simp
      rw [hsplit, ih hrest]
      cases u with
      | added b =>
          have hab : a ≠ b := fun h => hu (List.mem_singleton.2 h)
          rw [mem_settled_added]
          tauto
      | removed b =>
          have hab : a ≠ b := fun h => hu (List.mem_singleton.2 h)
          rw [mem_settled_removed hl]
          tauto
      | listed new =>
          have hnew : a ∉ new := hu
          rw [mem_settled_listed]
          tauto

/-! ## What the mirror will have of the source -/

/-- What a source sends when its list changes. -/
inductive Told : List α → List (Update α) → List α → Prop
  | nothing (l : List α) : Told l [] l
  | added (l : List α) (b : α) : Told l [.added b] (l ++ [b])
  | removed {l gone kept : List α} (h : ∀ a, a ∈ kept ↔ a ∈ l ∧ a ∉ gone) :
      Told l (gone.map .removed) kept

/-- Everything the source has will be in the mirror. -/
def Covers (source l : List α) (queue : List (Update α)) : Prop :=
  ∀ a ∈ source, a ∈ settled l queue

/-- Of the elements that satisfy `p`, the mirror will have no others than the source. -/
def Within (p : α → Prop) (source l : List α) (queue : List (Update α)) : Prop :=
  ∀ a, p a → a ∈ settled l queue → a ∈ source

variable {source' : List α} {more : List (Update α)}

/-- A mirror that is told of a change covers what there is after it. -/
theorem Covers.told (hl : l.Nodup) (h : Covers source l queue) (ht : Told source more source') :
    Covers source' l (queue ++ more) := by
  intro a ha
  cases ht with
  | nothing => rw [List.append_nil]; exact h a ha
  | added b =>
      rw [mem_settled_added]
      rcases List.mem_append.1 ha with ha | ha
      · exact Or.inl (h a ha)
      · exact Or.inr (List.mem_singleton.1 ha)
  | removed hkept =>
      obtain ⟨hsource, hgone⟩ := (hkept a).1 ha
      exact (mem_settled_removals hl _).2 ⟨hgone, h a hsource⟩

theorem Within.told (hl : l.Nodup) (h : Within p source l queue) (ht : Told source more source') :
    Within p source' l (queue ++ more) := by
  intro a hp ha
  cases ht with
  | nothing => rw [List.append_nil] at ha; exact h a hp ha
  | added b =>
      rw [mem_settled_added] at ha
      rcases ha with ha | rfl
      · exact List.mem_append_left _ (h a hp ha)
      · simp
  | removed hkept =>
      obtain ⟨hgone, hsettled⟩ := (mem_settled_removals hl _).1 ha
      exact (hkept a).2 ⟨h a hp hsettled, hgone⟩

/-- What another source sends. -/
theorem Covers.foreign (hl : l.Nodup) (h : Covers source l queue)
    (hmore : ∀ a ∈ source, ∀ u ∈ more, a ∉ u.mentions) : Covers source l (queue ++ more) :=
  fun a ha => (mem_settled_foreign hl (hmore a ha)).2 (h a ha)

theorem Within.foreign (hl : l.Nodup) (h : Within p source l queue)
    (hmore : ∀ a, p a → ∀ u ∈ more, a ∉ u.mentions) : Within p source l (queue ++ more) :=
  fun a hp ha => h a hp ((mem_settled_foreign hl (hmore a hp)).1 ha)

/-- The answer to a question is all there is. -/
theorem Covers.listed (source l : List α) (queue : List (Update α)) :
    Covers source l (queue ++ [.listed source]) :=
  fun _ ha => (mem_settled_listed source).2 (Or.inr ha)

theorem Within.listed (h : Within p source l queue) :
    Within p source l (queue ++ [.listed source]) := by
  intro a hp ha
  rcases (mem_settled_listed source).1 ha with ha | ha
  · exact h a hp ha
  · exact ha

end Queue

end Swirl.Lib

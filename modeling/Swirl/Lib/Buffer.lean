import Mathlib.Data.List.TakeWhile
import Mathlib.Tactic

set_option autoImplicit false

/-! # Texts in buffers

A buffer is a list of cells, and the text in it is what comes before the first terminator; writing
outside the buffer fails. A computation in `BufferM` writes to a buffer, or, where it has none, goes
through the same steps without one, so that it can be run once to count and once to write. `Appends`
says what it returns, and which text it puts behind the text that is there, when the buffer is
cleared and has room for it.
-/

namespace Swirl.Lib

universe u

variable {α β γ : Type u} (stop : α)

/-- The text in a buffer. -/
def content [DecidableEq α] (cells : List α) : List α := cells.takeWhile (· ≠ stop)

/-- A text and a terminator over the cells from a place on. -/
def overwrite (place : Nat) (text cells : List α) : Option (List α) :=
  if place + text.length < cells.length then
    some (cells.take place ++ text ++ stop :: cells.drop (place + text.length + 1))
  else none

/-- A computation that writes to a buffer, or to none. -/
abbrev BufferM (α β : Type u) := StateT (Option (List α)) Option β

/-- A text is written at a place that is given. -/
def putAt (place : Nat) (text : List α) : BufferM α PUnit
  | none => some (⟨⟩, none)
  | some cells => (overwrite stop place text cells).map fun cells => (⟨⟩, some cells)

/-- The text of a buffer is written behind the text that is there. -/
def cat [DecidableEq α] (source : List α) : BufferM α PUnit
  | none => some (⟨⟩, none)
  | some cells => putAt stop (content stop cells).length (content stop source) (some cells)

/-- Behind a text of a length, the computation writes a text, and returns the same without a
buffer. -/
structure AppendsAt (n : Nat) (m : BufferM α β) (b : β) (text : List α) : Prop where
  plain : stop ∉ text
  counts : m none = some (b, none)
  fills : ∀ before room, before.length = n → stop ∉ before → text.length < room →
    m (some (before ++ List.replicate room stop)) =
      some (b, some (before ++ text ++ List.replicate (room - text.length) stop))

/-- The computation writes a text wherever it begins. -/
def Appends (m : BufferM α β) (b : β) (text : List α) : Prop := ∀ n, AppendsAt stop n m b text

variable {stop}

section Content

variable [DecidableEq α]

theorem content_plain {text : List α} (h : stop ∉ text) (rest : List α) :
    content stop (text ++ stop :: rest) = text := by
  have htext : ∀ a ∈ text, decide (a ≠ stop) = true := by
    intro a ha
    rw [decide_eq_true_iff]
    rintro rfl
    exact h ha
  unfold content
  rw [List.takeWhile_append_of_pos htext, List.takeWhile_cons_of_neg (by simp), List.append_nil]

theorem content_of_not_mem {text : List α} (h : stop ∉ text) : content stop text = text := by
  induction text with
  | nil => rfl
  | cons a text ih =>
      rw [List.mem_cons, not_or] at h
      have hne : decide (a ≠ stop) = true := decide_eq_true (Ne.symm h.1)
      have hcons : content stop (a :: text) = a :: content stop text :=
        List.takeWhile_cons_of_pos hne
      rw [hcons, ih h.2]

theorem not_mem_content (cells : List α) : stop ∉ content stop cells := by
  intro h
  have hne := List.mem_takeWhile_imp h
  rw [decide_eq_true_iff] at hne
  exact hne rfl

/-- A cleared buffer holds the text before the first terminator. -/
theorem content_cleared {before : List α} (h : stop ∉ before) {room : Nat} (hroom : 0 < room) :
    content stop (before ++ List.replicate room stop) = before := by
  obtain ⟨room, rfl⟩ := Nat.exists_eq_succ_of_ne_zero hroom.ne'
  rw [List.replicate_succ]
  exact content_plain h _

end Content

theorem overwrite_cleared {before text : List α} {room : Nat} (hroom : text.length < room) :
    overwrite stop before.length text (before ++ List.replicate room stop) =
      some (before ++ text ++ List.replicate (room - text.length) stop) := by
  have hfits : before.length + text.length < (before ++ List.replicate room stop).length := by
    rw [List.length_append, List.length_replicate]
    omega
  have hrest : stop :: (before ++ List.replicate room stop).drop (before.length + text.length + 1) =
      List.replicate (room - text.length) stop := by
    have hmore : before.length + text.length + 1 = before.length + (text.length + 1) := by omega
    rw [hmore, List.drop_append, List.drop_eq_nil_of_le (Nat.le_add_right _ _), List.nil_append,
      Nat.add_sub_cancel_left, List.drop_replicate, ← List.replicate_succ]
    congr 1
    omega
  unfold overwrite
  rw [if_pos hfits, hrest, List.take_left]

namespace AppendsAt

variable {n : Nat} {m : BufferM α β} {b : β} {text : List α}

theorem pure (b : β) : AppendsAt stop n (Pure.pure b) b [] where
  plain := List.not_mem_nil
  counts := rfl
  fills before room _ _ _ := by
    rw [List.append_nil]
    rfl

theorem bind {f : β → BufferM α γ} {c : γ} {text' : List α} (hm : AppendsAt stop n m b text)
    (hf : AppendsAt stop (n + text.length) (f b) c text') :
    AppendsAt stop n (m >>= f) c (text ++ text') where
  plain := by
    rw [List.mem_append, not_or]
    exact ⟨hm.plain, hf.plain⟩
  counts := by
    have hbind : (m >>= f) none = (m none).bind fun p => f p.1 p.2 := rfl
    rw [hbind, hm.counts]
    exact hf.counts
  fills before room hlength hbefore hroom := by
    have hbind : (m >>= f) (some (before ++ List.replicate room stop)) =
        (m (some (before ++ List.replicate room stop))).bind fun p => f p.1 p.2 := rfl
    rw [List.length_append] at hroom
    have hplain : stop ∉ before ++ text := by
      rw [List.mem_append, not_or]
      exact ⟨hbefore, hm.plain⟩
    rw [hbind, hm.fills before room hlength hbefore (by omega), Option.bind_some,
      hf.fills (before ++ text) _ (by rw [List.length_append, hlength]) hplain (by omega),
      List.append_assoc before text text', List.length_append, Nat.sub_sub]

/-- Writing at the place where the text ends. -/
theorem putAt (text : List α) (h : stop ∉ text) : AppendsAt stop n (putAt stop n text) ⟨⟩ text where
  plain := h
  counts := rfl
  fills before room hlength _ hroom := by
    unfold Lib.putAt
    dsimp only
    rw [← hlength, overwrite_cleared hroom]
    rfl

end AppendsAt

namespace Appends

variable {m : BufferM α β} {b : β} {text : List α}

theorem pure (b : β) : Appends stop (Pure.pure b) b [] := fun _ => AppendsAt.pure b

theorem bind {f : β → BufferM α γ} {c : γ} {text' : List α} (hm : Appends stop m b text)
    (hf : Appends stop (f b) c text') : Appends stop (m >>= f) c (text ++ text') :=
  fun n => (hm n).bind (hf _)

theorem cat [DecidableEq α] (source : List α) : Appends stop (cat stop source) ⟨⟩ (content stop source) := by
  intro n
  have hput := @AppendsAt.putAt α stop n (content stop source) (not_mem_content source)
  refine ⟨hput.plain, rfl, fun before room hlength hbefore hroom => ?_⟩
  have hpos : 0 < room := by omega
  unfold Lib.cat
  dsimp only
  rw [content_cleared hbefore hpos, hlength]
  exact hput.fills before room hlength hbefore hroom

/-- A text without a terminator. -/
theorem cat_plain [DecidableEq α] {text : List α} (h : stop ∉ text) : Appends stop (Lib.cat stop text) ⟨⟩ text := by
  have hcat := @Appends.cat α stop _ text
  rwa [content_of_not_mem h] at hcat

/-- **Counting and writing agree**: what is returned without a buffer is returned with a cleared
buffer of one cell more than the text, which then holds the text. -/
theorem measured (h : Appends stop m b text) : m none = some (b, none) ∧
    m (some (List.replicate (text.length + 1) stop)) = some (b, some (text ++ [stop])) := by
  refine ⟨(h 0).counts, ?_⟩
  have hfills := (h 0).fills [] (text.length + 1) rfl List.not_mem_nil (Nat.lt_succ_self _)
  rw [List.nil_append, List.nil_append, Nat.add_sub_cancel_left] at hfills
  exact hfills

end Appends

end Swirl.Lib

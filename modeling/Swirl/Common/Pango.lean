import Swirl.Common.Unescape
import Swirl.Lib.Buffer

set_option autoImplicit false

/-! # Markup in texts

`escape_markup_text` is run twice, without a buffer for the length and with one for the text. The
characters that markup is made of are replaced; every other one is put at the place that the length
so far gives.
-/

namespace Swirl

open Lib

/-- `strlen` -/
def strlen (s : List Char) : Nat := (cString s).length

/-- `lenient_strcat` -/
def lenientStrcat (src : List Char) : BufferM Char Unit := cat nul src

/-- The `switch` of `escape_markup_text`: what is added to the length, and what is appended. -/
def markupEscape (c : Char) : Option (Nat × List Char) :=
  if c = '&' then some (5, "&amp;".toList)
  else if c = '<' then some (4, "&lt;".toList)
  else if c = '>' then some (4, "&gt;".toList)
  else if c = apostrophe then some (6, "&apos;".toList)
  else if c = doubleQuote then some (6, "&quot;".toList)
  else none

/-- The loop of `escape_markup_text`. -/
def escapeLoop : Nat → List Char → BufferM Char Nat
  | length, [] => pure length
  | length, c :: src =>
      match markupEscape c with
      | some (n, text) => do
          lenientStrcat text
          escapeLoop (length + n) src
      | none => do
          putAt nul length [c]
          escapeLoop (length + 1) src

/-- `escape_markup_text`. A buffer is emptied first. -/
def escapeMarkupText (src : List Char) : BufferM Char Nat := do
  putAt nul 0 []
  escapeLoop 0 (cString src)

/-- `escape_pango_markup`: the buffer, unless something is written outside it. -/
def escapePangoMarkup (buffer : List Char) : Option (List Char) := do
  let (length, _) ← escapeMarkupText buffer none
  let (_, escapedTitle) ← escapeMarkupText buffer (some (List.replicate (length + 1) nul))
  escapedTitle

/-! ## The text -/

/-- A text with every character of markup replaced. -/
def escapeText (src : List Char) : List Char :=
  src.flatMap fun c => (markupEscape c).elim [c] Prod.snd

theorem escapeText_cons (c : Char) (src : List Char) :
    escapeText (c :: src) = (markupEscape c).elim [c] Prod.snd ++ escapeText src := List.flatMap_cons

/-- The lengths in the `switch` are those of the texts. -/
theorem markupEscape_length {c : Char} {n : Nat} {text : List Char}
    (h : markupEscape c = some (n, text)) : n = text.length ∧ nul ∉ text := by
  unfold markupEscape at h
  split_ifs at h
  all_goals
    obtain ⟨rfl, rfl⟩ := Prod.mk.inj (Option.some.inj h)
    decide

theorem escapeLoop_writes (length : Nat) {src : List Char} (h : nul ∉ src) :
    AppendsAt nul length (escapeLoop length src) (length + (escapeText src).length)
      (escapeText src) := by
  induction src generalizing length with
  | nil => exact AppendsAt.pure length
  | cons c src ih =>
      rw [List.mem_cons, not_or] at h
      obtain ⟨hc, hsrc⟩ := h
      unfold escapeLoop
      rw [escapeText_cons, List.length_append, ← Nat.add_assoc]
      cases hescape : markupEscape c with
      | none =>
          have hput : nul ∉ [c] := by
            rw [List.mem_singleton]
            exact hc
          exact (AppendsAt.putAt [c] hput).bind (ih (length + 1) hsrc)
      | some escape =>
          obtain ⟨n, text⟩ := escape
          obtain ⟨rfl, hplain⟩ := markupEscape_length hescape
          exact (Appends.cat_plain hplain length).bind (ih (length + text.length) hsrc)

theorem nul_notMem_cString (s : List Char) : nul ∉ cString s := not_mem_content s

theorem escapeMarkupText_writes (src : List Char) :
    AppendsAt nul 0 (escapeMarkupText src) (escapeText (cString src)).length
      (escapeText (cString src)) := by
  have hloop := escapeLoop_writes 0 (nul_notMem_cString src)
  rw [Nat.zero_add] at hloop
  exact (AppendsAt.putAt [] List.not_mem_nil).bind hloop

/-- **The buffer of `escape_pango_markup`** is large enough. -/
theorem escapePangoMarkup_eq (buffer : List Char) :
    escapePangoMarkup buffer = some (escapeText (cString buffer) ++ [nul]) := by
  have hwrites := escapeMarkupText_writes buffer
  have hfills := hwrites.fills [] ((escapeText (cString buffer)).length + 1) rfl List.not_mem_nil
    (Nat.lt_succ_self _)
  rw [List.nil_append, List.nil_append, Nat.add_sub_cancel_left] at hfills
  unfold escapePangoMarkup
  rw [hwrites.counts]
  dsimp only [bind, Option.bind]
  rw [hfills]
  rfl

end Swirl

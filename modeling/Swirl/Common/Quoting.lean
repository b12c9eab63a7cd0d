import Swirl.Common.Argsep
import Mathlib.Tactic

set_option autoImplicit false

/-! # Where commands are cut

`Quotes.read` is what quotes and backslashes mean, one character at a time: a backslash escapes the
next character and no other. `split_args` reads a text so. `argsep` looks at quotes, backslashes
and delimiters only, and forgets a backslash where something else stands between two of them: it
cuts a text where it should exactly when no run of them makes a difference (`Aligned`).
-/

namespace Swirl

/-! ## What quotes mean -/

/-- What is open after a character. -/
def Quotes.read (q : Quotes) (c : Char) : Quotes :=
  if c = doubleQuote ∧ !q.inChar ∧ !q.escaped then { q with inString := !q.inString }
  else if c = apostrophe ∧ !q.inString ∧ !q.escaped then { q with inChar := !q.inChar }
  else if c = backslash then { q with escaped := !q.escaped }
  else { q with escaped := false }

/-- What is open after a text. -/
def Quotes.readAll (text : List Char) : Quotes := text.foldl Quotes.read {}

/-- The pieces of a text that is cut at the delimiters where nothing is open, with the delimiter
that ends each; `read` tells what is open, and a delimiter that nothing is before is dropped. -/
def cutBy (delim : List Char) (read : Quotes → Char → Quotes) :
    Quotes → List Char → List Char → List (List Char × Option Char)
  | _, piece, [] => [(piece, none)]
  | q, piece, c :: rest =>
      if q = {} ∧ c ∈ delim then
        if piece.isEmpty then cutBy delim read q piece rest
        else (piece, some c) :: cutBy delim read {} [] rest
      else cutBy delim read (read q c) (piece ++ [c]) rest

/-- The pieces of a text that is cut exactly at the delimiters that are not quoted or escaped. -/
def cuts (delim text : List Char) : List (List Char × Option Char) :=
  cutBy delim Quotes.read {} [] text

/-- The loop stands there in one of the calls of `argsep` on a text. -/
inductive ArgsepStands (delim text : List Char) : Argsep → Prop
  | start : ArgsepStands delim text (Argsep.start text)
  | again {a b : Argsep} : ArgsepStands delim text a → a.turn delim = .again b →
      ArgsepStands delim text b
  | call {a : Argsep} {piece rest : List Char} {c : Char} : ArgsepStands delim text a →
      a.turn delim = .cut piece rest c → ArgsepStands delim text (Argsep.start rest)

/-- The same quotes are open. -/
def Quotes.SameOpen (q q' : Quotes) : Prop := q.inString = q'.inString ∧ q.inChar = q'.inChar

/-- `argsep` cuts a text where it should, and wherever its loop stands, `split_args` has the same
quotes open. -/
def CutsRight (delim text : List Char) : Prop :=
  argsepAll delim text = cuts delim text ∧
    ∀ a, ArgsepStands delim text a → a.quotes.SameOpen (SplitArgs.readAll a.piece).quotes

/-! ## When it does -/

/-- What a character is depends on whether it is escaped: a quote that the other kind does not
enclose, or a delimiter that is not quoted. -/
def Quotes.Matters (delim : List Char) (q : Quotes) (c : Char) : Prop :=
  c = doubleQuote ∧ q.inChar = false ∨ c = apostrophe ∧ q.inString = false ∨
    c ∈ delim ∧ q.inString = false ∧ q.inChar = false

/-- The backslashes directly before a place. -/
def trailingBackslashes (before : List Char) : Nat :=
  (before.reverse.takeWhile fun c => c == backslash).length

/-- The backslashes in the run of quotes, backslashes and delimiters directly before a place. -/
def runBackslashes (delim before : List Char) : Nat :=
  ((before.reverse.takeWhile (isInteresting delim)).filter fun c => c == backslash).length

/-- Wherever it matters, both counts of backslashes are even, or both are odd. -/
def Aligned (delim text : List Char) : Prop :=
  ∀ u c v, text = u ++ c :: v → (Quotes.readAll u).Matters delim c →
    runBackslashes delim u % 2 = trailingBackslashes u % 2

/-! ## `split_args` -/

theorem Quotes.readAll_concat (text : List Char) (c : Char) :
    Quotes.readAll (text ++ [c]) = (Quotes.readAll text).read c := List.foldl_concat _ _ _ _

/-- Between two arguments no backslash waits. -/
theorem SplitArgs.read_quotes {a : SplitArgs} (h : a.inToken = false → a.quotes.escaped = false)
    (c : Char) : (a.read c).quotes = a.quotes.read c ∧
      ((a.read c).inToken = false → (a.read c).quotes.escaped = false) := by
  obtain ⟨argv, token, inToken, inBrackets, ⟨inString, inChar, escaped⟩⟩ := a
  unfold SplitArgs.read Quotes.read
  dsimp only at h ⊢
  by_cases hspace : (!inToken) = true ∧ isSpace c = true
  · have hquote : c ≠ doubleQuote ∧ c ≠ apostrophe ∧ c ≠ backslash := by
      refine ⟨?_, ?_, ?_⟩ <;> rintro rfl <;> exact absurd hspace.2 (by decide)
    have hescaped := h (Bool.not_eq_true' _ ▸ hspace.1)
    subst hescaped
    rw [if_pos hspace, if_neg (fun h' => hquote.1 h'.1), if_neg (fun h' => hquote.2.1 h'.1),
      if_neg hquote.2.2]
    exact ⟨rfl, fun _ => rfl⟩
  · rw [if_neg hspace]
    by_cases hdouble : c = doubleQuote ∧ (!inChar) = true ∧ (!escaped) = true
    · rw [if_pos hdouble, if_pos hdouble]
      obtain ⟨-, -, hescaped⟩ := hdouble
      rw [Bool.not_eq_true'] at hescaped
      subst hescaped
      exact ⟨rfl, fun _ => rfl⟩
    · rw [if_neg hdouble, if_neg hdouble]
      by_cases hsingle : c = apostrophe ∧ (!inString) = true ∧ (!escaped) = true
      · rw [if_pos hsingle, if_pos hsingle]
        obtain ⟨-, -, hescaped⟩ := hsingle
        rw [Bool.not_eq_true'] at hescaped
        subst hescaped
        exact ⟨rfl, fun _ => rfl⟩
      · rw [if_neg hsingle, if_neg hsingle]
        by_cases hslash : c = backslash
        · subst hslash
          rw [if_neg (by decide +revert), if_neg (by decide +revert), if_pos rfl, if_pos rfl]
          exact ⟨rfl, fun h' => by cases h'⟩
        · rw [if_neg hslash, if_neg hslash]
          split_ifs <;> exact ⟨rfl, fun _ => rfl⟩

/-- **`split_args`** has open what quotes and backslashes mean. -/
theorem SplitArgs.readAll_quotes (text : List Char) :
    (SplitArgs.readAll text).quotes = Quotes.readAll text := by
  have hboth : (SplitArgs.readAll text).quotes = Quotes.readAll text ∧
      ((SplitArgs.readAll text).inToken = false →
        (SplitArgs.readAll text).quotes.escaped = false) := by
    induction text using List.reverseRecOn with
    | nil => exact ⟨rfl, fun _ => rfl⟩
    | append_singleton text c ih =>
        have hread : SplitArgs.readAll (text ++ [c]) = (SplitArgs.readAll text).read c :=
          List.foldl_concat _ _ _ _
        rw [hread, Quotes.readAll_concat, ← ih.1]
        exact SplitArgs.read_quotes ih.2 c
  exact hboth.1

/-! ## `argsep`, one character at a time -/

/-- What `argsep` has open after a character: a backslash before a quote or a delimiter is not
forgotten. -/
def Quotes.argsepRead (delim : List Char) (q : Quotes) (c : Char) : Quotes :=
  if c = doubleQuote ∧ !q.inChar ∧ !q.escaped then { q with inString := !q.inString }
  else if c = apostrophe ∧ !q.inString ∧ !q.escaped then { q with inChar := !q.inChar }
  else if c = backslash then { q with escaped := !q.escaped }
  else if isInteresting delim c then q
  else { q with escaped := false }

/-- What is open after characters that `argsep` does not look at. -/
def Quotes.skip (q : Quotes) (skipped : List Char) : Quotes :=
  if q.escaped && !skipped.isEmpty then { q with escaped := false } else q

/-- No delimiter is a quote or a backslash. -/
def PlainDelims (delim : List Char) : Prop :=
  ∀ c ∈ delim, c ≠ doubleQuote ∧ c ≠ apostrophe ∧ c ≠ backslash

section Turn

variable {delim : List Char}

theorem Quotes.skip_nil (q : Quotes) : q.skip [] = q := by
  unfold Quotes.skip
  rw [List.isEmpty_nil, Bool.not_true, Bool.and_false]
  rfl

theorem Quotes.skip_cons (q : Quotes) (c : Char) (skipped : List Char) :
    q.skip (c :: skipped) = { q with escaped := false } := by
  obtain ⟨inString, inChar, escaped⟩ := q
  cases escaped <;> rfl

theorem plain_of_not_interesting {c : Char} (h : isInteresting delim c = false) :
    c ≠ doubleQuote ∧ c ≠ apostrophe ∧ c ≠ backslash ∧ c ∉ delim := by
  unfold isInteresting at h
  simpa [and_assoc] using h

theorem Quotes.argsepRead_plain {q : Quotes} {c : Char} (h : isInteresting delim c = false) :
    q.argsepRead delim c = { q with escaped := false } := by
  obtain ⟨hdouble, hsingle, hslash, -⟩ := plain_of_not_interesting h
  unfold Quotes.argsepRead
  rw [if_neg (fun h' => hdouble h'.1), if_neg (fun h' => hsingle h'.1), if_neg hslash, h]
  rfl

/-- **What a turn of `argsep` does**: the characters it does not look at are passed; the next one
is read, dropped, or ends the piece, unless only the first of those before it was passed. -/
inductive Argsep.Turns (delim : List Char) (a : Argsep) : ArgsepTurn → Prop
  | stop : (∀ c ∈ a.rest, isInteresting delim c = false) → Argsep.Turns delim a .stop
  | read {skipped rest : List Char} {c : Char} : a.rest = skipped ++ c :: rest →
      (∀ d ∈ skipped, isInteresting delim d = false) →
      ¬ (a.quotes.skip skipped = {} ∧ c ∈ delim) →
      Argsep.Turns delim a (.again
        ⟨a.piece ++ skipped ++ [c], rest, (a.quotes.skip skipped).argsepRead delim c⟩)
  | drop {rest : List Char} {c : Char} : a.rest = c :: rest → a.quotes = {} → c ∈ delim →
      a.piece = [] → Argsep.Turns delim a (.again ⟨[], rest, {}⟩)
  | lag {rest : List Char} {d : Char} : a.rest = d :: rest → isInteresting delim d = false →
      Argsep.Turns delim a (.again ⟨a.piece ++ [d], rest, { a.quotes with escaped := false }⟩)
  | cut {skipped rest : List Char} {c : Char} : a.rest = skipped ++ c :: rest →
      (∀ d ∈ skipped, isInteresting delim d = false) → a.quotes.skip skipped = {} → c ∈ delim →
      a.piece ++ skipped ≠ [] → Argsep.Turns delim a (.cut (a.piece ++ skipped) rest c)

theorem Argsep.turns (hdelim : PlainDelims delim) (a : Argsep) : a.Turns delim (a.turn delim) := by
  have hsplit := List.takeWhile_append_dropWhile (p := fun c => !isInteresting delim c) (l := a.rest)
  have hskipped : ∀ d ∈ a.rest.takeWhile (fun c => !isInteresting delim c),
      isInteresting delim d = false := by
    intro d hd
    simpa using List.mem_takeWhile_imp hd
  unfold Argsep.turn
  dsimp only
  generalize a.rest.takeWhile (fun c => !isInteresting delim c) = skipped at *
  cases hrest : a.rest.dropWhile fun c => !isInteresting delim c with
  | nil =>
      rw [hrest, List.append_nil] at hsplit
      exact .stop (hsplit ▸ hskipped)
  | cons c rest =>
      rw [hrest] at hsplit
      have hinteresting : isInteresting delim c = true := by
        have h := List.head?_dropWhile_not (fun c => !isInteresting delim c) a.rest
        rw [hrest] at h
        simpa using h
      have hskip : (if (a.quotes.escaped && !skipped.isEmpty) = true then
          { a.quotes with escaped := false } else a.quotes) = a.quotes.skip skipped := rfl
      dsimp only at hskip ⊢
      rw [hskip]
      generalize hq : a.quotes.skip skipped = q
      by_cases hdouble : c = doubleQuote ∧ (!q.inChar) = true ∧ (!q.escaped) = true
      · rw [if_pos hdouble]
        have hread : q.argsepRead delim c = { q with inString := !q.inString } := if_pos hdouble
        rw [← hread, ← hq]
        refine .read hsplit.symm hskipped fun h => ?_
        exact (hdelim c h.2).1 hdouble.1
      · rw [if_neg hdouble]
        by_cases hsingle : c = apostrophe ∧ (!q.inString) = true ∧ (!q.escaped) = true
        · rw [if_pos hsingle]
          have hread : q.argsepRead delim c = { q with inChar := !q.inChar } := by
            unfold Quotes.argsepRead
            rw [if_neg hdouble, if_pos hsingle]
          rw [← hread, ← hq]
          refine .read hsplit.symm hskipped fun h => ?_
          exact (hdelim c h.2).2.1 hsingle.1
        · rw [if_neg hsingle]
          by_cases hslash : c = backslash
          · rw [if_pos hslash]
            have hread : q.argsepRead delim c = { q with escaped := !q.escaped } := by
              unfold Quotes.argsepRead
              rw [if_neg hdouble, if_neg hsingle, if_pos hslash]
            rw [← hread, ← hq]
            refine .read hsplit.symm hskipped fun h => ?_
            exact (hdelim c h.2).2.2 hslash
          · rw [if_neg hslash]
            have hread : q.argsepRead delim c = q := by
              unfold Quotes.argsepRead
              rw [if_neg hdouble, if_neg hsingle, if_neg hslash, if_pos hinteresting]
            by_cases hout : (!q.inString) = true ∧ (!q.inChar) = true ∧ (!q.escaped) = true
            · rw [if_pos hout]
              have hempty : q = {} := by
                obtain ⟨inString, inChar, escaped⟩ := q
                simpa using hout
              have hmem : c ∈ delim := by
                unfold isInteresting at hinteresting
                have hnotDouble : c ≠ doubleQuote := fun h => hdouble ⟨h, hout.2.1, hout.2.2⟩
                have hnotSingle : c ≠ apostrophe := fun h => hsingle ⟨h, hout.1, hout.2.2⟩
                simpa [hnotDouble, hnotSingle, hslash] using hinteresting
              by_cases hpiece : (a.piece ++ skipped).isEmpty = true
              · rw [if_pos hpiece, hempty]
                obtain ⟨hnone, rfl⟩ := List.append_eq_nil_iff.mp (List.isEmpty_iff.mp hpiece)
                rw [Quotes.skip_nil] at hq
                exact .drop hsplit.symm (hq.trans hempty) hmem hnone
              · rw [if_neg hpiece]
                exact .cut hsplit.symm hskipped (hq.trans hempty) hmem
                  (fun h => hpiece (List.isEmpty_iff.mpr h))
            · -- an escaped quote or delimiter, or a quoted one
              rw [if_neg hout]
              cases skipped with
              | nil =>
                  rw [Quotes.skip_nil] at hq
                  have hturn := Argsep.Turns.read hsplit.symm hskipped fun h =>
                    hout (by rw [Quotes.skip_nil, hq] at h; rw [h.1]; decide)
                  rw [Quotes.skip_nil, hq, hread, List.append_nil] at hturn
                  rw [← hsplit]
                  exact hturn
              | cons d skipped =>
                  rw [Quotes.skip_cons] at hq
                  have hturn : a.Turns delim _ :=
                    .lag hsplit.symm (hskipped d List.mem_cons_self)
                  rw [hq] at hturn
                  rw [← hsplit]
                  exact hturn

end Turn

/-! ## The pieces -/

section Pieces

variable {delim : List Char}

theorem cutBy_cut {read : Quotes → Char → Quotes} {piece rest : List Char} {c : Char}
    (hc : c ∈ delim) (hpiece : piece ≠ []) :
    cutBy delim read {} piece (c :: rest) = (piece, some c) :: cutBy delim read {} [] rest := by
  rw [cutBy, if_pos ⟨rfl, hc⟩, if_neg (fun h => hpiece (List.isEmpty_iff.mp h))]

theorem cutBy_drop {read : Quotes → Char → Quotes} {rest : List Char} {c : Char} (hc : c ∈ delim) :
    cutBy delim read {} [] (c :: rest) = cutBy delim read {} [] rest := by
  rw [cutBy, if_pos ⟨rfl, hc⟩]
  rfl

theorem cutBy_read {read : Quotes → Char → Quotes} {q : Quotes} {piece rest : List Char} {c : Char}
    (h : ¬ (q = {} ∧ c ∈ delim)) :
    cutBy delim read q piece (c :: rest) = cutBy delim read (read q c) (piece ++ [c]) rest := by
  rw [cutBy, if_neg h]

/-- Characters that `argsep` does not look at go to the piece. -/
theorem cutBy_skip {q : Quotes} {piece skipped rest : List Char}
    (h : ∀ d ∈ skipped, isInteresting delim d = false) :
    cutBy delim (Quotes.argsepRead delim) q piece (skipped ++ rest) =
      cutBy delim (Quotes.argsepRead delim) (q.skip skipped) (piece ++ skipped) rest := by
  induction skipped generalizing q piece with
  | nil => rw [Quotes.skip_nil, List.append_nil, List.nil_append]
  | cons d skipped ih =>
      have hd := h d List.mem_cons_self
      have hskip : ({ q with escaped := false } : Quotes).skip skipped = q.skip (d :: skipped) := by
        rw [Quotes.skip_cons]
        unfold Quotes.skip
        rfl
      rw [List.cons_append, cutBy_read (fun h' => (plain_of_not_interesting hd).2.2.2 h'.2),
        Quotes.argsepRead_plain hd, ih fun e he => h e (List.mem_cons_of_mem d he), hskip,
        List.append_assoc]
      rfl

/-- The loop of `argsep` takes the first piece. -/
theorem cutBy_argsepLoop (hdelim : PlainDelims delim) (a : Argsep) :
    cutBy delim (Quotes.argsepRead delim) a.quotes a.piece a.rest =
      match argsepLoop delim a with
      | (piece, some (rest, c)) =>
          (piece, some c) :: cutBy delim (Quotes.argsepRead delim) {} [] rest
      | (piece, none) => [(piece, none)] := by
  induction a using argsepLoop.induct delim with
  | case1 a b hturn ih =>
      have hloop : argsepLoop delim a = argsepLoop delim b := by
        rw [argsepLoop]
        split
        next h => rw [ArgsepTurn.again.inj (hturn.symm.trans h)]
        next h => cases hturn.symm.trans h
        next h => cases hturn.symm.trans h
      have hspec := a.turns hdelim
      rw [hloop, ← ih]
      rw [hturn] at hspec
      cases hspec with
      | read hrest hskipped hread => rw [hrest, cutBy_skip hskipped, cutBy_read hread]
      | drop hrest hquotes hc hpiece => rw [hrest, hquotes, hpiece, cutBy_drop hc]
      | lag hrest hd =>
          rw [hrest, cutBy_read (fun h => (plain_of_not_interesting hd).2.2.2 h.2),
            Quotes.argsepRead_plain hd]
  | case2 a piece rest c hturn =>
      have hloop : argsepLoop delim a = (piece, some (rest, c)) := by
        rw [argsepLoop]
        split
        next h => cases hturn.symm.trans h
        next h =>
          obtain ⟨rfl, rfl, rfl⟩ := ArgsepTurn.cut.inj (hturn.symm.trans h)
          rfl
        next h => cases hturn.symm.trans h
      have hspec := a.turns hdelim
      rw [hloop]
      rw [hturn] at hspec
      cases hspec with
      | cut hrest hskipped hquotes hc hpiece =>
          rw [hrest, cutBy_skip hskipped, hquotes, cutBy_cut hc hpiece]
  | case3 a hturn =>
      have hloop : argsepLoop delim a = (a.piece ++ a.rest, none) := by
        rw [argsepLoop]
        split
        next h => cases hturn.symm.trans h
        next h => cases hturn.symm.trans h
        next h => rfl
      have hspec := a.turns hdelim
      rw [hloop]
      rw [hturn] at hspec
      cases hspec with
      | stop hrest =>
          have h : cutBy delim _ a.quotes a.piece (a.rest ++ []) = _ := cutBy_skip hrest
          rw [List.append_nil] at h
          rw [h]
          rfl

/-- **Repeated calls of `argsep`** cut by what `argsep` has open. -/
theorem argsepAll_eq (hdelim : PlainDelims delim) (text : List Char) :
    argsepAll delim text = cutBy delim (Quotes.argsepRead delim) {} [] text := by
  induction text using argsepAll.induct delim with
  | case1 text piece rest c hcall ih =>
      have hfirst := cutBy_argsepLoop hdelim (Argsep.start text)
      have hloop : argsepLoop delim (Argsep.start text) = (piece, some (rest, c)) := hcall
      rw [hloop] at hfirst
      rw [argsepAll]
      split
      next h =>
        obtain ⟨rfl, hsome⟩ := Prod.mk.inj (hcall.symm.trans h)
        obtain ⟨rfl, rfl⟩ := Prod.mk.inj (Option.some.inj hsome)
        rw [ih]
        exact hfirst.symm
      next h => cases congrArg Prod.snd (hcall.symm.trans h)
  | case2 text piece hcall =>
      have hfirst := cutBy_argsepLoop hdelim (Argsep.start text)
      have hloop : argsepLoop delim (Argsep.start text) = (piece, none) := hcall
      rw [hloop] at hfirst
      rw [argsepAll]
      split
      next h => cases congrArg Prod.snd (hcall.symm.trans h)
      next h =>
        obtain ⟨rfl, -⟩ := Prod.mk.inj (hcall.symm.trans h)
        exact hfirst.symm

end Pieces

/-! ## What is open -/

section Open

variable {delim : List Char} {f q : Quotes} {piece rest : List Char} {c : Char}

/-- Along the text, `argsep` has the quotes open that are. -/
def Follows (delim : List Char) : Quotes → List Char → List Char → Prop
  | f, piece, [] => f.SameOpen (Quotes.readAll piece)
  | f, piece, c :: rest => f.SameOpen (Quotes.readAll piece) ∧
      if f = {} ∧ c ∈ delim then
        if piece.isEmpty then Follows delim f piece rest else Follows delim {} [] rest
      else Follows delim (f.argsepRead delim c) (piece ++ [c]) rest

theorem Follows.sameOpen (h : Follows delim f piece rest) : f.SameOpen (Quotes.readAll piece) := by
  cases rest with
  | nil => exact h
  | cons c rest => exact h.1

theorem follows_read (h : ¬ (f = {} ∧ c ∈ delim)) :
    Follows delim f piece (c :: rest) ↔ f.SameOpen (Quotes.readAll piece) ∧
      Follows delim (f.argsepRead delim c) (piece ++ [c]) rest := by
  rw [Follows, if_neg h]

theorem follows_cut (hc : c ∈ delim) (hpiece : piece ≠ []) :
    Follows delim {} piece (c :: rest) ↔
      Quotes.SameOpen {} (Quotes.readAll piece) ∧ Follows delim {} [] rest := by
  rw [Follows, if_pos ⟨rfl, hc⟩, if_neg (fun h => hpiece (List.isEmpty_iff.mp h))]

theorem follows_drop (hc : c ∈ delim) :
    Follows delim {} [] (c :: rest) ↔ Follows delim {} [] rest := by
  rw [Follows, if_pos ⟨rfl, hc⟩]
  exact ⟨fun h => h.2, fun h => ⟨⟨rfl, rfl⟩, h⟩⟩

/-- What is open stays open over characters that `argsep` does not look at. -/
theorem Quotes.SameOpen.plain (h : f.SameOpen q) (hc : isInteresting delim c = false) :
    Quotes.SameOpen { f with escaped := false } (q.read c) := by
  obtain ⟨hdouble, hsingle, hslash, -⟩ := plain_of_not_interesting hc
  unfold Quotes.read
  rw [if_neg (fun h' => hdouble h'.1), if_neg (fun h' => hsingle h'.1), if_neg hslash]
  exact h

theorem Quotes.SameOpen.skip {skipped : List Char} (h : f.SameOpen (Quotes.readAll piece))
    (hskipped : ∀ d ∈ skipped, isInteresting delim d = false) :
    (f.skip skipped).SameOpen (Quotes.readAll (piece ++ skipped)) := by
  induction skipped using List.reverseRecOn with
  | nil =>
      rw [Quotes.skip_nil, List.append_nil]
      exact h
  | append_singleton skipped d ih =>
      have hbefore := ih fun e he => hskipped e (List.mem_append_left _ he)
      have hplain := hbefore.plain (hskipped d (List.mem_append_right _ List.mem_cons_self))
      rw [← List.append_assoc, Quotes.readAll_concat]
      have hskip : f.skip (skipped ++ [d]) = { f.skip skipped with escaped := false } := by
        obtain ⟨inString, inChar, escaped⟩ := f
        cases skipped <;> cases escaped <;> rfl
      rw [hskip]
      exact hplain

theorem follows_skip {skipped : List Char} (h : ∀ d ∈ skipped, isInteresting delim d = false) :
    Follows delim f piece (skipped ++ rest) ↔ f.SameOpen (Quotes.readAll piece) ∧
      Follows delim (f.skip skipped) (piece ++ skipped) rest := by
  induction skipped generalizing f piece with
  | nil =>
      rw [Quotes.skip_nil, List.append_nil, List.nil_append]
      exact ⟨fun h => ⟨h.sameOpen, h⟩, fun h => h.2⟩
  | cons d skipped ih =>
      have hd := h d List.mem_cons_self
      have hskip : ({ f with escaped := false } : Quotes).skip skipped = f.skip (d :: skipped) := by
        rw [Quotes.skip_cons]
        unfold Quotes.skip
        rfl
      rw [List.cons_append, follows_read (fun h' => (plain_of_not_interesting hd).2.2.2 h'.2),
        Quotes.argsepRead_plain hd, ih fun e he => h e (List.mem_cons_of_mem d he), hskip,
        List.append_assoc, Quotes.readAll_concat]
      exact ⟨fun h' => ⟨h'.1, h'.2.2⟩, fun h' => ⟨h'.1, h'.1.plain hd, h'.2⟩⟩

/-- One turn of the loop. -/
theorem follows_turn {a b : Argsep} (hdelim : PlainDelims delim) (h : a.turn delim = .again b) :
    Follows delim a.quotes a.piece a.rest ↔ a.quotes.SameOpen (Quotes.readAll a.piece) ∧
      Follows delim b.quotes b.piece b.rest := by
  have hspec := a.turns hdelim
  rw [h] at hspec
  cases hspec with
  | read hrest hskipped hread =>
      rw [hrest, follows_skip hskipped, follows_read hread]
      exact ⟨fun h' => ⟨h'.1, h'.2.2⟩, fun h' => ⟨h'.1, h'.1.skip hskipped, h'.2⟩⟩
  | drop hrest hquotes hc hpiece =>
      rw [hrest, hquotes, hpiece, follows_drop hc]
      exact ⟨fun h' => ⟨⟨rfl, rfl⟩, h'⟩, fun h' => h'.2⟩
  | lag hrest hd =>
      rw [hrest, follows_read (fun h' => (plain_of_not_interesting hd).2.2.2 h'.2),
        Quotes.argsepRead_plain hd]

/-- The turn that ends a piece. -/
theorem follows_call {a : Argsep} (hdelim : PlainDelims delim)
    (h : a.turn delim = .cut piece rest c) :
    Follows delim a.quotes a.piece a.rest ↔ a.quotes.SameOpen (Quotes.readAll a.piece) ∧
      Follows delim {} [] rest := by
  have hspec := a.turns hdelim
  rw [h] at hspec
  cases hspec with
  | cut hrest hskipped hquotes hc hpiece =>
      rw [hrest, follows_skip hskipped, hquotes, follows_cut hc hpiece]
      refine ⟨fun h' => ⟨h'.1, h'.2.2⟩, fun h' => ⟨h'.1, ?_, h'.2⟩⟩
      have hskip := h'.1.skip hskipped
      rw [hquotes] at hskip
      exact hskip

theorem follows_of_stands (hdelim : PlainDelims delim) (a : Argsep)
    (h : ∀ b, ArgsepStands delim rest b → b.quotes.SameOpen (Quotes.readAll b.piece))
    (ha : ArgsepStands delim rest a) : Follows delim a.quotes a.piece a.rest := by
  induction hn : a.rest.length using Nat.strong_induction_on generalizing a with
  | _ n ih =>
      subst hn
      cases hturn : a.turn delim with
      | again b =>
          rw [follows_turn hdelim hturn]
          exact ⟨h a ha, ih _ (Argsep.turn_again_lt hturn) b (ha.again hturn) rfl⟩
      | cut piece rest' c =>
          rw [follows_call hdelim hturn]
          exact ⟨h a ha, ih _ (Argsep.turn_cut_lt hturn) _ (ha.call hturn) rfl⟩
      | stop =>
          have hspec := a.turns hdelim
          rw [hturn] at hspec
          cases hspec with
          | stop hrest =>
              rw [← List.append_nil a.rest, follows_skip hrest]
              exact ⟨h a ha, (h a ha).skip hrest⟩

theorem stands_follows (hdelim : PlainDelims delim) (h : Follows delim {} [] rest) {a : Argsep}
    (ha : ArgsepStands delim rest a) : Follows delim a.quotes a.piece a.rest := by
  induction ha with
  | start => exact h
  | again _ hturn ih => exact ((follows_turn hdelim hturn).mp ih).2
  | call _ hturn ih => exact ((follows_call hdelim hturn).mp ih).2

/-- **Wherever the loop stands**, the right quotes are open if they are so along the text. -/
theorem stands_iff_follows (hdelim : PlainDelims delim) (text : List Char) :
    (∀ a, ArgsepStands delim text a → a.quotes.SameOpen (SplitArgs.readAll a.piece).quotes) ↔
      Follows delim {} [] text := by
  have hquotes : ∀ a : Argsep, (SplitArgs.readAll a.piece).quotes = Quotes.readAll a.piece :=
    fun a => SplitArgs.readAll_quotes a.piece
  constructor
  · intro h
    exact follows_of_stands hdelim (Argsep.start text)
      (fun b hb => hquotes b ▸ h b hb) .start
  · intro h a ha
    rw [hquotes]
    exact (stands_follows hdelim h ha).sameOpen

end Open

/-! ## When the pieces are right -/

section Aligned

variable {delim : List Char} {f q : Quotes} {piece rest : List Char} {c : Char}

/-- Whether the number of backslashes in the run of quotes, backslashes and delimiters is odd. -/
def nextParity (delim : List Char) (odd : Bool) (c : Char) : Bool :=
  if c = backslash then !odd else isInteresting delim c && odd

/-- From a place on, what matters is escaped for both or for none. -/
def AlignedFrom (delim : List Char) : Bool → Quotes → List Char → Prop
  | _, _, [] => True
  | odd, q, c :: rest => (q.Matters delim c → odd = q.escaped) ∧
      AlignedFrom delim (nextParity delim odd c) (q.read c) rest

theorem argsepRead_escaped (f : Quotes) (c : Char) :
    (f.argsepRead delim c).escaped = nextParity delim f.escaped c := by
  unfold Quotes.argsepRead nextParity
  by_cases hdouble : c = doubleQuote ∧ (!f.inChar) = true ∧ (!f.escaped) = true
  · have hescaped : f.escaped = false := Bool.not_eq_true' _ ▸ hdouble.2.2
    rw [if_pos hdouble, if_neg (by rw [hdouble.1]; decide), hescaped, Bool.and_false]
  · rw [if_neg hdouble]
    by_cases hsingle : c = apostrophe ∧ (!f.inString) = true ∧ (!f.escaped) = true
    · have hescaped : f.escaped = false := Bool.not_eq_true' _ ▸ hsingle.2.2
      rw [if_pos hsingle, if_neg (by rw [hsingle.1]; decide), hescaped, Bool.and_false]
    · rw [if_neg hsingle]
      by_cases hslash : c = backslash
      · rw [if_pos hslash, if_pos hslash]
      · rw [if_neg hslash, if_neg hslash]
        cases hinteresting : isInteresting delim c with
        | true => rfl
        | false => rfl

/-- A character that ends no piece opens or closes the same for both, unless it matters and is
escaped for one of them only. -/
theorem sameOpen_read_iff (h : f.SameOpen q) (hc : c ∉ delim ∨ q.inString ∨ q.inChar) :
    (f.argsepRead delim c).SameOpen (q.read c) ↔ (q.Matters delim c → f.escaped = q.escaped) := by
  obtain ⟨inString, inChar, escaped⟩ := f
  obtain ⟨inString', inChar', escaped'⟩ := q
  obtain ⟨rfl, rfl⟩ : inString = inString' ∧ inChar = inChar' := h
  have hdelim : ¬ (c ∈ delim ∧ inString = false ∧ inChar = false) := by
    rintro ⟨hmem, rfl, rfl⟩
    rcases hc with hc | hc | hc
    · exact hc hmem
    · cases hc
    · cases hc
  unfold Quotes.Matters Quotes.SameOpen Quotes.argsepRead Quotes.read
  dsimp only
  by_cases hdouble : c = doubleQuote
  · subst hdouble
    have hne : doubleQuote ≠ apostrophe := by decide
    have hne' : doubleQuote ≠ backslash := by decide
    have hinteresting : isInteresting delim doubleQuote = true := rfl
    cases inString <;> cases inChar <;> cases escaped <;> cases escaped' <;>
      simp_all
  · by_cases hsingle : c = apostrophe
    · subst hsingle
      have hne : apostrophe ≠ backslash := by decide
      have hinteresting : isInteresting delim apostrophe = true := rfl
      cases inString <;> cases inChar <;> cases escaped <;> cases escaped' <;>
        simp_all
    · have hnot : ¬ (c = doubleQuote ∧ inChar = false ∨ c = apostrophe ∧ inString = false ∨
          c ∈ delim ∧ inString = false ∧ inChar = false) := by
        rintro (h | h | h)
        · exact hdouble h.1
        · exact hsingle h.1
        · exact hdelim h
      refine ⟨fun _ h => absurd h hnot, fun _ => ?_⟩
      simp only [hdouble, hsingle, false_and, if_false]
      split_ifs <;> exact ⟨rfl, rfl⟩

/-- The first piece begins with what was read before. -/
theorem cutBy_head {read : Quotes → Char → Quotes} (hpiece : piece ≠ []) :
    ∃ more matched pieces, cutBy delim read q piece rest = (piece ++ more, matched) :: pieces := by
  induction rest generalizing q piece with
  | nil => exact ⟨[], none, [], by rw [List.append_nil]; rfl⟩
  | cons c rest ih =>
      by_cases hcut : q = {} ∧ c ∈ delim
      · rw [hcut.1, cutBy_cut hcut.2 hpiece]
        exact ⟨[], some c, _, by rw [List.append_nil]⟩
      · rw [cutBy_read hcut]
        obtain ⟨more, matched, pieces, h⟩ := ih (List.append_ne_nil_of_right_ne_nil _
          (List.cons_ne_nil c []))
        exact ⟨c :: more, matched, pieces, by rw [h, List.append_assoc]; rfl⟩

/-- A piece that ends is another one than a piece that goes on. -/
theorem cutBy_cut_ne {read read' : Quotes → Char → Quotes} (hc : c ∈ delim) (hpiece : piece ≠ []) :
    cutBy delim read {} piece (c :: rest) ≠ cutBy delim read' q (piece ++ [c]) rest := by
  obtain ⟨more, matched, pieces, hhead⟩ : ∃ more matched pieces,
      cutBy delim read' q (piece ++ [c]) rest = (piece ++ [c] ++ more, matched) :: pieces :=
    cutBy_head (List.append_ne_nil_of_right_ne_nil piece (List.cons_ne_nil c []))
  rw [cutBy_cut hc hpiece, hhead]
  intro h
  have hsame : piece = piece ++ [c] ++ more := (Prod.mk.inj (List.cons.inj h).1).1
  have hlen := congrArg List.length hsame
  simp only [List.length_append, List.length_cons, List.length_nil] at hlen
  omega

theorem argsepRead_delim (hdelim : PlainDelims delim) (hc : c ∈ delim) :
    f.argsepRead delim c = f := by
  obtain ⟨hdouble, hsingle, hslash⟩ := hdelim c hc
  have hinteresting : isInteresting delim c = true := by
    unfold isInteresting
    rw [List.contains_iff_mem.mpr hc, Bool.or_true]
  unfold Quotes.argsepRead
  rw [if_neg (fun h => hdouble h.1), if_neg (fun h => hsingle h.1), if_neg hslash,
    if_pos hinteresting]

theorem read_delim (hdelim : PlainDelims delim) (hc : c ∈ delim) :
    q.read c = { q with escaped := false } := by
  obtain ⟨hdouble, hsingle, hslash⟩ := hdelim c hc
  unfold Quotes.read
  rw [if_neg (fun h => hdouble h.1), if_neg (fun h => hsingle h.1), if_neg hslash]

theorem eq_closed (h : f.inString = false ∧ f.inChar = false) (he : f.escaped = false) :
    f = {} := by
  obtain ⟨inString, inChar, escaped⟩ := f
  obtain ⟨rfl, rfl⟩ := h
  subst he
  rfl

/-- **From a place on**, the pieces are right and the right quotes are open if and only if nothing
that matters is escaped for one of the readings only. -/
theorem cutBy_iff (hdelim : PlainDelims delim) (hf : piece = [] → f = {})
    (hq : q = Quotes.readAll piece) (hopen : f.SameOpen q) :
    (cutBy delim (Quotes.argsepRead delim) f piece rest = cutBy delim Quotes.read q piece rest ∧
        Follows delim f piece rest) ↔ AlignedFrom delim f.escaped q rest := by
  induction rest generalizing f q piece with
  | nil =>
      refine ⟨fun _ => trivial, fun _ => ⟨rfl, ?_⟩⟩
      rw [hq] at hopen
      exact hopen
  | cons c rest ih =>
      by_cases hout : c ∈ delim ∧ q.inString = false ∧ q.inChar = false
      · -- a delimiter that is not quoted
        obtain ⟨hc, hclosed⟩ := hout
        have hclosed' : f.inString = false ∧ f.inChar = false :=
          ⟨hopen.1.trans hclosed.1, hopen.2.trans hclosed.2⟩
        have hmatters : q.Matters delim c := Or.inr (Or.inr ⟨hc, hclosed⟩)
        rw [AlignedFrom]
        cases hfe : f.escaped with
        | false =>
            have hfempty := eq_closed hclosed' hfe
            cases hqe : q.escaped with
            | false =>
                -- both end the piece
                have hqempty := eq_closed hclosed hqe
                have hrest : nextParity delim false c = false := by
                  unfold nextParity
                  rw [if_neg (hdelim c hc).2.2, Bool.and_false]
                have hread : q.read c = {} := by rw [read_delim hdelim hc, hqempty]
                have hfrom : (cutBy delim (Quotes.argsepRead delim) {} [] rest =
                    cutBy delim Quotes.read {} [] rest ∧ Follows delim {} [] rest) ↔
                    AlignedFrom delim false {} rest := ih (fun _ => rfl) rfl ⟨rfl, rfl⟩
                rw [hrest, hread, hfempty, hqempty]
                by_cases hpiece : piece = []
                · rw [hpiece, cutBy_drop hc, cutBy_drop hc, follows_drop hc, hfrom]
                  exact ⟨fun h => ⟨fun _ => rfl, h⟩, fun h => h.2⟩
                · have hsame : Quotes.SameOpen {} (Quotes.readAll piece) := by
                    rw [← hq, hqempty]
                    exact ⟨rfl, rfl⟩
                  rw [cutBy_cut hc hpiece, cutBy_cut hc hpiece, follows_cut hc hpiece]
                  constructor
                  · rintro ⟨hcuts, -, hfollows⟩
                    exact ⟨fun _ => rfl, hfrom.mp ⟨(List.cons.inj hcuts).2, hfollows⟩⟩
                  · rintro ⟨-, haligned⟩
                    obtain ⟨hcuts, hfollows⟩ := hfrom.mpr haligned
                    exact ⟨by rw [hcuts], hsame, hfollows⟩
            | true =>
                -- only `argsep` ends the piece
                have hpiece : piece ≠ [] := by
                  rintro rfl
                  rw [hq] at hqe
                  cases hqe
                have hno : ¬ (q = {} ∧ c ∈ delim) := by
                  rintro ⟨rfl, -⟩
                  cases hqe
                rw [hfempty, cutBy_read hno]
                exact ⟨fun h => absurd h.1 (cutBy_cut_ne hc hpiece),
                  fun h => absurd (h.1 hmatters) (by decide)⟩
        | true =>
            have hpiece : piece ≠ [] := by
              intro h
              rw [hf h] at hfe
              cases hfe
            have hno : ¬ (f = {} ∧ c ∈ delim) := by
              rintro ⟨rfl, -⟩
              cases hfe
            cases hqe : q.escaped with
            | false =>
                -- only `argsep` goes on
                have hqempty := eq_closed hclosed hqe
                rw [hqempty, cutBy_read hno]
                exact ⟨fun h => absurd h.1.symm (cutBy_cut_ne hc hpiece),
                  fun h => absurd (h.1 (hqempty ▸ hmatters)) (by decide)⟩
            | true =>
                -- both go on
                have hno' : ¬ (q = {} ∧ c ∈ delim) := by
                  rintro ⟨rfl, -⟩
                  cases hqe
                have hrest : nextParity delim true c = f.escaped := by
                  rw [← hfe, ← argsepRead_escaped, argsepRead_delim hdelim hc]
                have hsame : f.SameOpen (q.read c) := by
                  rw [read_delim hdelim hc]
                  exact hopen
                have hfrom := ih (fun h => absurd h (List.append_ne_nil_of_right_ne_nil piece
                  (List.cons_ne_nil c []))) (by rw [Quotes.readAll_concat, hq]) hsame
                rw [cutBy_read hno, cutBy_read hno', follows_read hno, argsepRead_delim hdelim hc,
                  hrest, ← hq]
                constructor
                · rintro ⟨hcuts, -, hfollows⟩
                  exact ⟨fun _ => rfl, hfrom.mp ⟨hcuts, hfollows⟩⟩
                · rintro ⟨-, haligned⟩
                  obtain ⟨hcuts, hfollows⟩ := hfrom.mpr haligned
                  exact ⟨hcuts, hopen, hfollows⟩
      · have hin : c ∉ delim ∨ q.inString = true ∨ q.inChar = true := by
          by_contra hnot
          push Not at hnot
          exact hout ⟨hnot.1, Bool.eq_false_iff.mpr hnot.2.1, Bool.eq_false_iff.mpr hnot.2.2⟩
        have hnocut : ¬ (q = {} ∧ c ∈ delim) := by
          rintro ⟨rfl, hc⟩
          exact hout ⟨hc, rfl, rfl⟩
        have hnocut' : ¬ (f = {} ∧ c ∈ delim) := by
          rintro ⟨rfl, hc⟩
          exact hout ⟨hc, hopen.1.symm, hopen.2.symm⟩
        have hiff := sameOpen_read_iff hopen hin
        rw [cutBy_read hnocut, cutBy_read hnocut', follows_read hnocut', ← hq, AlignedFrom,
          ← argsepRead_escaped]
        have hnext : q.read c = Quotes.readAll (piece ++ [c]) := by
          rw [Quotes.readAll_concat, hq]
        have hne : piece ++ [c] = [] → f.argsepRead delim c = {} := fun h =>
          absurd h (List.append_ne_nil_of_right_ne_nil _ (List.cons_ne_nil c []))
        constructor
        · rintro ⟨hcuts, -, hfollows⟩
          have hsame : (f.argsepRead delim c).SameOpen (q.read c) := hnext ▸ hfollows.sameOpen
          exact ⟨hiff.mp hsame, (ih hne hnext hsame).mp ⟨hcuts, hfollows⟩⟩
        · rintro ⟨hmatters, haligned⟩
          have hsame := hiff.mpr hmatters
          obtain ⟨hcuts, hfollows⟩ := (ih hne hnext hsame).mpr haligned
          exact ⟨hcuts, hopen, hfollows⟩

/-! ## Counting backslashes -/

theorem trailingBackslashes_concat (u : List Char) (c : Char) :
    trailingBackslashes (u ++ [c]) = if c = backslash then trailingBackslashes u + 1 else 0 := by
  unfold trailingBackslashes
  rw [List.reverse_concat, List.takeWhile_cons]
  by_cases hslash : c = backslash
  · rw [if_pos hslash, if_pos (beq_iff_eq.mpr hslash), List.length_cons]
  · rw [if_neg hslash, if_neg (fun h => hslash (beq_iff_eq.mp h)), List.length_nil]

theorem runBackslashes_concat (u : List Char) (c : Char) : runBackslashes delim (u ++ [c]) =
    if c = backslash then runBackslashes delim u + 1
    else if isInteresting delim c then runBackslashes delim u else 0 := by
  unfold runBackslashes
  rw [List.reverse_concat, List.takeWhile_cons]
  by_cases hslash : c = backslash
  · have hinteresting : isInteresting delim c = true := by
      rw [hslash]
      rfl
    rw [if_pos hslash, if_pos hinteresting, List.filter_cons, if_pos (beq_iff_eq.mpr hslash),
      List.length_cons]
  · rw [if_neg hslash]
    cases hinteresting : isInteresting delim c with
    | true =>
        rw [if_pos rfl, if_pos rfl, List.filter_cons, if_neg (fun h => hslash (beq_iff_eq.mp h))]
    | false =>
        rw [if_neg Bool.false_ne_true, if_neg Bool.false_ne_true]
        rfl

/-- A character is escaped after an odd number of backslashes. -/
theorem readAll_escaped (u : List Char) :
    (Quotes.readAll u).escaped = decide (trailingBackslashes u % 2 = 1) := by
  induction u using List.reverseRecOn with
  | nil => rfl
  | append_singleton u c ih =>
      have hread : ((Quotes.readAll u).read c).escaped =
          if c = backslash then !(Quotes.readAll u).escaped else false := by
        generalize Quotes.readAll u = q
        unfold Quotes.read
        by_cases hdouble : c = doubleQuote ∧ (!q.inChar) = true ∧ (!q.escaped) = true
        · rw [if_pos hdouble, if_neg (by rw [hdouble.1]; decide)]
          exact Bool.not_eq_true' _ ▸ hdouble.2.2
        · rw [if_neg hdouble]
          by_cases hsingle : c = apostrophe ∧ (!q.inString) = true ∧ (!q.escaped) = true
          · rw [if_pos hsingle, if_neg (by rw [hsingle.1]; decide)]
            exact Bool.not_eq_true' _ ▸ hsingle.2.2
          · rw [if_neg hsingle]
            by_cases hslash : c = backslash
            · rw [if_pos hslash, if_pos hslash]
            · rw [if_neg hslash, if_neg hslash]
      rw [Quotes.readAll_concat, hread, trailingBackslashes_concat, ih]
      by_cases hslash : c = backslash
      · rw [if_pos hslash, if_pos hslash, ← decide_not, decide_eq_decide]
        omega
      · rw [if_neg hslash, if_neg hslash]
        rfl

/-- The run of quotes, backslashes and delimiters, character by character. -/
theorem nextParity_run (u : List Char) (c : Char) :
    nextParity delim (decide (runBackslashes delim u % 2 = 1)) c =
      decide (runBackslashes delim (u ++ [c]) % 2 = 1) := by
  unfold nextParity
  rw [runBackslashes_concat]
  by_cases hslash : c = backslash
  · rw [if_pos hslash, if_pos hslash, ← decide_not, decide_eq_decide]
    omega
  · rw [if_neg hslash, if_neg hslash]
    cases isInteresting delim c with
    | true => rfl
    | false => rfl

theorem alignedFrom_iff (w rest : List Char) :
    AlignedFrom delim (decide (runBackslashes delim w % 2 = 1)) (Quotes.readAll w) rest ↔
      ∀ u c v, rest = u ++ c :: v → (Quotes.readAll (w ++ u)).Matters delim c →
        runBackslashes delim (w ++ u) % 2 = trailingBackslashes (w ++ u) % 2 := by
  induction rest generalizing w with
  | nil =>
      refine ⟨fun _ u c v h => ?_, fun _ => trivial⟩
      exact absurd h.symm (List.append_ne_nil_of_right_ne_nil u (List.cons_ne_nil c v))
  | cons d rest ih =>
      have hparity : decide (runBackslashes delim w % 2 = 1) = (Quotes.readAll w).escaped ↔
          runBackslashes delim w % 2 = trailingBackslashes w % 2 := by
        rw [readAll_escaped, decide_eq_decide]
        omega
      rw [AlignedFrom, nextParity_run, ← Quotes.readAll_concat, ih, hparity]
      constructor
      · rintro ⟨hfirst, hrest⟩ u c v h
        cases u with
        | nil =>
            obtain ⟨rfl, rfl⟩ := List.cons.inj h
            rw [List.append_nil]
            exact hfirst
        | cons e u =>
            obtain ⟨rfl, htail⟩ := List.cons.inj h
            have happend : w ++ d :: u = w ++ [d] ++ u := by rw [List.append_assoc]; rfl
            rw [happend]
            exact hrest u c v htail
      · intro h
        refine ⟨?_, fun u c v htail => ?_⟩
        · have hfirst := h [] d rest rfl
          rw [List.append_nil] at hfirst
          exact hfirst
        · have happend : w ++ [d] ++ u = w ++ d :: u := by rw [List.append_assoc]; rfl
          rw [happend]
          exact h (d :: u) c v (by rw [htail]; rfl)

end Aligned

/-- The delimiters of a list of commands. -/
def commandDelims : List Char := [';', ',']

theorem commandDelims_plain : PlainDelims commandDelims := by
  intro c hc
  rcases List.mem_cons.mp hc with rfl | hc
  · decide
  · obtain rfl := List.mem_singleton.mp hc
    decide

/-- **`argsep` cuts a list of commands where it should** if and only if no run of quotes,
backslashes and delimiters makes a difference. -/
theorem argsep_cutsRight_iff (text : List Char) :
    CutsRight commandDelims text ↔ Aligned commandDelims text := by
  have hpieces : (cutBy commandDelims (Quotes.argsepRead commandDelims) {} [] text =
      cutBy commandDelims Quotes.read {} [] text ∧ Follows commandDelims {} [] text) ↔
      AlignedFrom commandDelims false {} text :=
    cutBy_iff commandDelims_plain (fun _ => rfl) rfl ⟨rfl, rfl⟩
  unfold CutsRight cuts
  rw [argsepAll_eq commandDelims_plain, stands_iff_follows commandDelims_plain, hpieces]
  exact alignedFrom_iff [] text

/-- Behind an escaped quote the closing one is not seen, and the second command stays quoted. -/
theorem argsep_escapedQuote : ¬ CutsRight commandDelims "exec echo \"say \\\"hi\\\"\"; kill".toList := by
  rintro ⟨hpieces, -⟩
  rw [argsepAll_eq commandDelims_plain] at hpieces
  exact absurd hpieces (by decide)

end Swirl

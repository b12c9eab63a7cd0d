import Swirl.Common.Quoting

set_option autoImplicit false

/-! # The cursors of `split_args`

`splitArgs` reads a text one character at a time. The source keeps two cursors: `start` stands at
the last token, also after it was added, and the loop ends when `start` is at the end of the text.
`splitArgsRun` is that loop; it ends because `end` moves on, or the loop leaves a token, and it
gives what `splitArgs` gives. `Splits` says what the tokens of a text are.
-/

namespace Swirl

/-! ## The loop -/

/-- The variables of the loop: `token` is the text from `start` to `end`, `rest` that from `end`
on. -/
structure SplitCursors where
  argv : List (List Char) := []
  token : List Char := []
  rest : List Char
  inToken : Bool := false
  inBrackets : Bool := false
  quotes : Quotes := {}

/-- `start` is moved to `end`, and both behind the whitespace, unless a token is being read. -/
def SplitCursors.enterToken (s : SplitCursors) : SplitCursors :=
  if s.inToken then s
  else { s with token := [], rest := s.rest.dropWhile isSpace, inToken := true }

/-- `add_token` -/
def SplitCursors.addToken (s : SplitCursors) : SplitCursors :=
  { s with
    argv := if 0 < s.token.length then s.argv ++ [s.token] else s.argv
    inToken := false, quotes := { s.quotes with escaped := false } }

/-- `end` is moved behind a character, which ends what is escaped unless it is a backslash. -/
def SplitCursors.advance (s : SplitCursors) (c : Char) (rest : List Char) : SplitCursors :=
  let s := if c ≠ backslash then { s with quotes := { s.quotes with escaped := false } } else s
  { s with token := s.token ++ [c], rest }

/-- One turn of the loop of `split_args`. -/
def SplitCursors.turn (s : SplitCursors) : SplitCursors :=
  let s := s.enterToken
  let q := s.quotes
  match s.rest with
  | [] => s.addToken
  | c :: rest =>
      if c = doubleQuote ∧ !q.inChar ∧ !q.escaped then
        { s with quotes := { q with inString := !q.inString } }.advance c rest
      else if c = apostrophe ∧ !q.inString ∧ !q.escaped then
        { s with quotes := { q with inChar := !q.inChar } }.advance c rest
      else if c = '[' ∧ !q.inString ∧ !q.inChar ∧ !s.inBrackets ∧ !q.escaped then
        { s with inBrackets := true }.advance c rest
      else if c = ']' ∧ !q.inString ∧ !q.inChar ∧ s.inBrackets ∧ !q.escaped then
        { s with inBrackets := false }.advance c rest
      else if c = backslash then
        { s with quotes := { q with escaped := !q.escaped } }.advance c rest
      else if !q.inString ∧ !q.inChar ∧ !s.inBrackets ∧ !q.escaped ∧ isSpace c then s.addToken
      else s.advance c rest

/-! ## What quotes and brackets mean -/

/-- What is open at a place: quotes, brackets, a backslash. -/
structure Nesting where
  quotes : Quotes := {}
  inBrackets : Bool := false
  deriving DecidableEq

/-- What is open after a character. A bracket counts where no quotes and no backslash are before
it; brackets do not nest. -/
def Nesting.read (n : Nesting) (c : Char) : Nesting where
  quotes := n.quotes.read c
  inBrackets :=
    if c = '[' ∧ n.quotes = {} then true
    else if c = ']' ∧ n.quotes = {} then false
    else n.inBrackets

/-- What is open after a text. -/
def Nesting.readAll (text : List Char) : Nesting := text.foldl Nesting.read {}

theorem Nesting.readAll_concat (text : List Char) (c : Char) :
    Nesting.readAll (text ++ [c]) = (Nesting.readAll text).read c := List.foldl_concat _ _ _ _

/-- What the loop takes to be open. -/
def SplitCursors.nesting (s : SplitCursors) : Nesting := ⟨s.quotes, s.inBrackets⟩

/-- `end` is moved behind a character that is read. -/
def SplitCursors.passed (s : SplitCursors) (c : Char) (rest : List Char) : SplitCursors :=
  { s with
    token := s.token ++ [c], rest, quotes := (s.nesting.read c).quotes
    inBrackets := (s.nesting.read c).inBrackets }

/-- **What a turn does**, once `start` stands at a token: the token ends at the end of the text or
at whitespace where nothing is open, and any other character is read. -/
theorem SplitCursors.turn_cases (s : SplitCursors) :
    (s.enterToken.rest = [] ∧ s.turn = s.enterToken.addToken) ∨
    (∃ c rest, s.enterToken.rest = c :: rest ∧ s.enterToken.nesting = {} ∧ isSpace c = true ∧
      s.turn = s.enterToken.addToken) ∨
    (∃ c rest, s.enterToken.rest = c :: rest ∧ ¬ (s.enterToken.nesting = {} ∧ isSpace c = true) ∧
      s.turn = s.enterToken.passed c rest) := by
  unfold SplitCursors.turn
  dsimp only
  generalize s.enterToken = s
  obtain ⟨argv, token, rest, inToken, inBrackets, ⟨inString, inChar, escaped⟩⟩ := s
  cases rest with
  | nil => exact .inl ⟨rfl, rfl⟩
  | cons c rest =>
      dsimp only
      by_cases hdouble : c = doubleQuote ∧ (!inChar) = true ∧ (!escaped) = true
      · rw [if_pos hdouble]
        obtain ⟨rfl, hchar, hescaped⟩ := hdouble
        rw [Bool.not_eq_true'] at hchar hescaped
        subst hchar hescaped
        exact .inr (.inr ⟨_, rest, rfl, fun h => absurd h.2 (by decide), rfl⟩)
      rw [if_neg hdouble]
      by_cases hsingle : c = apostrophe ∧ (!inString) = true ∧ (!escaped) = true
      · rw [if_pos hsingle]
        obtain ⟨rfl, hstring, hescaped⟩ := hsingle
        rw [Bool.not_eq_true'] at hstring hescaped
        subst hstring hescaped
        exact .inr (.inr ⟨_, rest, rfl, fun h => absurd h.2 (by decide), rfl⟩)
      rw [if_neg hsingle]
      by_cases hopen : c = '[' ∧ (!inString) = true ∧ (!inChar) = true ∧ (!inBrackets) = true ∧
          (!escaped) = true
      · rw [if_pos hopen]
        obtain ⟨rfl, hstring, hchar, hbrackets, hescaped⟩ := hopen
        rw [Bool.not_eq_true'] at hstring hchar hbrackets hescaped
        subst hstring hchar hbrackets hescaped
        exact .inr (.inr ⟨_, rest, rfl, fun h => absurd h.2 (by decide), rfl⟩)
      rw [if_neg hopen]
      by_cases hclose : c = ']' ∧ (!inString) = true ∧ (!inChar) = true ∧ inBrackets = true ∧
          (!escaped) = true
      · rw [if_pos hclose]
        obtain ⟨rfl, hstring, hchar, hbrackets, hescaped⟩ := hclose
        rw [Bool.not_eq_true'] at hstring hchar hescaped
        subst hstring hchar hbrackets hescaped
        exact .inr (.inr ⟨_, rest, rfl, fun h => absurd h.2 (by decide), rfl⟩)
      rw [if_neg hclose]
      -- no quote and no bracket changes anything from here on
      have hbracket : (if c = '[' ∧ (⟨inString, inChar, escaped⟩ : Quotes) = {} then true
          else if c = ']' ∧ (⟨inString, inChar, escaped⟩ : Quotes) = {} then false
          else inBrackets) = inBrackets := by
        by_cases hempty : (⟨inString, inChar, escaped⟩ : Quotes) = {}
        · obtain ⟨rfl, rfl, rfl⟩ := Quotes.mk.inj hempty
          cases inBrackets with
          | false =>
              rw [if_neg fun h => hopen ⟨h.1, rfl, rfl, rfl, rfl⟩]
              split_ifs <;> rfl
          | true =>
              split_ifs with hleft hright
              · rfl
              · exact absurd ⟨hright.1, rfl, rfl, rfl, rfl⟩ hclose
              · rfl
        · rw [if_neg fun h => hempty h.2, if_neg fun h => hempty h.2]
      by_cases hslash : c = backslash
      · rw [if_pos hslash]
        have hread : (Quotes.mk inString inChar escaped).read c = ⟨inString, inChar, !escaped⟩ := by
          unfold Quotes.read
          rw [if_neg hdouble, if_neg hsingle, if_pos hslash]
        refine .inr (.inr ⟨c, rest, rfl, fun h => ?_, ?_⟩)
        · rw [hslash] at h
          exact absurd h.2 (by decide)
        · unfold SplitCursors.advance SplitCursors.passed SplitCursors.nesting Nesting.read
          dsimp only
          rw [if_neg (not_not.mpr hslash), hread, hbracket]
      rw [if_neg hslash]
      have hread : (Quotes.mk inString inChar escaped).read c = ⟨inString, inChar, false⟩ := by
        unfold Quotes.read
        rw [if_neg hdouble, if_neg hsingle, if_neg hslash]
      by_cases hcut : (!inString) = true ∧ (!inChar) = true ∧ (!inBrackets) = true ∧
          (!escaped) = true ∧ isSpace c = true
      · rw [if_pos hcut]
        obtain ⟨hstring, hchar, hbrackets, hescaped, hspace⟩ := hcut
        rw [Bool.not_eq_true'] at hstring hchar hbrackets hescaped
        subst hstring hchar hbrackets hescaped
        exact .inr (.inl ⟨c, rest, rfl, rfl, hspace, rfl⟩)
      · rw [if_neg hcut]
        refine .inr (.inr ⟨c, rest, rfl, fun h => hcut ?_, ?_⟩)
        · obtain ⟨hnesting, hspace⟩ := h
          obtain ⟨hquotes, rfl⟩ := Nesting.mk.inj hnesting
          obtain ⟨rfl, rfl, rfl⟩ := Quotes.mk.inj hquotes
          exact ⟨rfl, rfl, rfl, rfl, hspace⟩
        · unfold SplitCursors.advance SplitCursors.passed SplitCursors.nesting Nesting.read
          dsimp only
          rw [if_pos hslash, hread, hbracket]

/-! ## The loop ends -/

/-- What a turn makes smaller. -/
def SplitCursors.left (s : SplitCursors) : Nat :=
  4 * s.rest.length + (if s.inToken then 2 else 0) + (if s.token = [] then 0 else 1)

theorem SplitCursors.left_addToken_le (s : SplitCursors) :
    s.addToken.left ≤ 4 * s.rest.length + (if s.token = [] then 0 else 1) := by
  unfold SplitCursors.left SplitCursors.addToken
  simp

theorem SplitCursors.left_passed_le (s : SplitCursors) (c : Char) (rest : List Char) :
    (s.passed c rest).left ≤ 4 * rest.length + (if s.inToken then 2 else 0) + 1 := by
  unfold SplitCursors.left SplitCursors.passed
  dsimp only
  split_ifs <;> omega

/-- Outside a token the whitespace is passed before anything is looked at. -/
theorem SplitCursors.enterToken_head {s : SplitCursors} {c : Char} {rest : List Char}
    (hs : s.inToken = false) (h : s.enterToken.rest = c :: rest) : isSpace c = false := by
  unfold SplitCursors.enterToken at h
  rw [hs] at h
  have hhead := List.head?_dropWhile_not isSpace s.rest
  have hdrop : s.rest.dropWhile isSpace = c :: rest := h
  rw [hdrop] at hhead
  simpa using hhead

theorem SplitCursors.left_turn (s : SplitCursors) (h : s.token ++ s.rest ≠ []) :
    s.turn.left < s.left := by
  obtain hin | hout := Bool.eq_false_or_eq_true s.inToken
  · -- the token ends, or a character is read
    have hleft : s.left = 4 * s.rest.length + 2 + (if s.token = [] then 0 else 1) := by
      unfold SplitCursors.left
      rw [if_pos hin]
    have henter : s.enterToken = s := if_pos hin
    have hadd := s.left_addToken_le
    obtain ⟨-, hturn⟩ | ⟨c, rest, -, -, -, hturn⟩ | ⟨c, rest, hrest, -, hturn⟩ := s.turn_cases
    · rw [hturn, henter]
      omega
    · rw [hturn, henter]
      omega
    · have hpassed := s.left_passed_le c rest
      rw [henter] at hrest hturn
      rw [if_pos hin] at hpassed
      rw [hrest, List.length_cons] at hleft
      rw [hturn]
      omega
  · -- `start` is moved on
    have hleft : s.left = 4 * s.rest.length + (if s.token = [] then 0 else 1) := by
      unfold SplitCursors.left
      rw [hout]
      rfl
    have henter : s.enterToken =
        { s with token := [], rest := s.rest.dropWhile isSpace, inToken := true } := by
      unfold SplitCursors.enterToken
      rw [hout]
      rfl
    have hlength : s.enterToken.rest.length ≤ s.rest.length := by
      rw [henter]
      exact (List.dropWhile_suffix isSpace).length_le
    obtain ⟨hrest, hturn⟩ | ⟨c, rest, hrest, -, hspace, -⟩ | ⟨c, rest, hrest, -, hturn⟩ :=
      s.turn_cases
    · have hadd := s.enterToken.left_addToken_le
      have htoken : s.enterToken.token = [] := by rw [henter]
      rw [hrest, htoken, if_pos rfl, List.length_nil] at hadd
      have hpos : 0 < s.left := by
        rw [hleft]
        by_cases htoken : s.token = []
        · rw [htoken, List.nil_append] at h
          have := List.length_pos_iff.mpr h
          omega
        · rw [if_neg htoken]
          omega
      rw [hturn]
      omega
    · rw [SplitCursors.enterToken_head hout hrest] at hspace
      cases hspace
    · have hpassed := s.enterToken.left_passed_le c rest
      rw [hrest, List.length_cons] at hlength
      rw [hturn]
      have hin : s.enterToken.inToken = true := by rw [henter]
      rw [if_pos hin] at hpassed
      omega

/-- The loop of `split_args`, which runs while `start` is not at the end of the text. -/
def SplitCursors.run (s : SplitCursors) : List (List Char) :=
  if _h : s.token ++ s.rest ≠ [] then s.turn.run else s.argv
termination_by s.left
decreasing_by exact s.left_turn _h

/-- The loop begins, with both cursors at the start of the text. -/
def SplitCursors.begin (text : List Char) : SplitCursors := { rest := text }

/-- `split_args`, as the source has it. -/
def splitArgsRun (text : List Char) : List (List Char) := (SplitCursors.begin text).run

/-- `start` is at the end of the text. -/
def SplitCursors.Ended (s : SplitCursors) : Prop := s.token ++ s.rest = []

/-- The loop ends after some turns. -/
theorem SplitCursors.run_ends (s : SplitCursors) :
    ∃ n, (∀ m < n, ¬ (SplitCursors.turn^[m] s).Ended) ∧ (SplitCursors.turn^[n] s).Ended ∧
      (SplitCursors.turn^[n] s).argv = s.run := by
  induction s using SplitCursors.run.induct with
  | case1 s h ih =>
      obtain ⟨n, hgoes, hended, hargv⟩ := ih
      refine ⟨n + 1, fun m hm => ?_, hended, ?_⟩
      · cases m with
        | zero => exact h
        | succ m => exact hgoes m (by omega)
      · rw [SplitCursors.run, dif_pos h, ← hargv, Function.iterate_succ_apply]
  | case2 s h =>
      refine ⟨0, fun m hm => absurd hm (Nat.not_lt_zero m), not_not.mp h, ?_⟩
      rw [SplitCursors.run, dif_neg h]
      rfl

/-! ## What the loop gives -/

/-- What `splitArgs` knows at a place of the loop. -/
def SplitCursors.toSplitArgs (s : SplitCursors) : SplitArgs where
  argv := s.argv
  token := if s.inToken then s.token else []
  inToken := s.inToken
  inBrackets := s.inBrackets
  quotes := s.quotes

/-- The tokens once the end of the text is met. -/
def SplitArgs.finish (a : SplitArgs) : List (List Char) :=
  if a.token.isEmpty then a.argv else a.argv ++ [a.token]

/-- Within a token the loop and `splitArgs` do the same with a character. -/
theorem SplitCursors.toSplitArgs_turn {s : SplitCursors} {c : Char} {rest : List Char}
    (hs : s.inToken = true) (h : s.rest = c :: rest) :
    s.turn.toSplitArgs = s.toSplitArgs.read c := by
  have henter : s.enterToken = s := if_pos hs
  unfold SplitCursors.turn SplitArgs.read
  rw [henter]
  obtain ⟨argv, token, _, inToken, inBrackets, ⟨inString, inChar, escaped⟩⟩ := s
  obtain rfl : inToken = true := hs
  dsimp only at h
  subst h
  have hnot : ¬ ((!true) = true ∧ isSpace c = true) := fun h => by cases h.1
  have hadvance {s : SplitCursors} (hc : c ≠ backslash) : s.advance c rest =
      { s with
        token := s.token ++ [c], rest, quotes := { s.quotes with escaped := false } } := by
    unfold SplitCursors.advance
    rw [if_pos hc]
  dsimp only
  unfold SplitCursors.toSplitArgs
  rw [if_neg hnot]
  by_cases hdouble : c = doubleQuote ∧ (!inChar) = true ∧ (!escaped) = true
  · rw [if_pos hdouble, if_pos hdouble, hadvance (by rw [hdouble.1]; decide)]
    rfl
  rw [if_neg hdouble, if_neg hdouble]
  by_cases hsingle : c = apostrophe ∧ (!inString) = true ∧ (!escaped) = true
  · rw [if_pos hsingle, if_pos hsingle, hadvance (by rw [hsingle.1]; decide)]
    rfl
  rw [if_neg hsingle, if_neg hsingle]
  by_cases hopen : c = '[' ∧ (!inString) = true ∧ (!inChar) = true ∧ (!inBrackets) = true ∧
      (!escaped) = true
  · rw [if_pos hopen, if_pos hopen, hadvance (by rw [hopen.1]; decide)]
    rfl
  rw [if_neg hopen, if_neg hopen]
  by_cases hclose : c = ']' ∧ (!inString) = true ∧ (!inChar) = true ∧ inBrackets = true ∧
      (!escaped) = true
  · rw [if_pos hclose, if_pos hclose, hadvance (by rw [hclose.1]; decide)]
    rfl
  rw [if_neg hclose, if_neg hclose]
  by_cases hslash : c = backslash
  · rw [if_pos hslash, if_pos hslash]
    unfold SplitCursors.advance
    rw [if_neg (not_not.mpr hslash)]
    rfl
  rw [if_neg hslash, if_neg hslash]
  by_cases hcut : (!inString) = true ∧ (!inChar) = true ∧ (!inBrackets) = true ∧
      (!escaped) = true ∧ isSpace c = true
  · rw [if_pos hcut, if_pos hcut]
    cases token <;> rfl
  · rw [if_neg hcut, if_neg hcut, hadvance hslash]
    rfl

theorem SplitCursors.inToken_enterToken (s : SplitCursors) : s.enterToken.inToken = true := by
  unfold SplitCursors.enterToken
  split_ifs with h
  · exact h
  · rfl

theorem SplitCursors.turn_enterToken (s : SplitCursors) : s.enterToken.turn = s.turn := by
  have henter : s.enterToken.enterToken = s.enterToken := if_pos s.inToken_enterToken
  unfold SplitCursors.turn
  rw [henter]

theorem SplitArgs.read_space {a : SplitArgs} {c : Char} (ha : a.inToken = false)
    (hc : isSpace c = true) : a.read c = a := by
  unfold SplitArgs.read
  exact if_pos ⟨by rw [ha]; rfl, hc⟩

theorem SplitArgs.foldl_dropWhile {a : SplitArgs} (ha : a.inToken = false) (rest : List Char) :
    rest.foldl SplitArgs.read a = (rest.dropWhile isSpace).foldl SplitArgs.read a := by
  induction rest with
  | nil => rfl
  | cons c rest ih =>
      rw [List.dropWhile_cons]
      by_cases hspace : isSpace c = true
      · rw [if_pos hspace, List.foldl_cons, SplitArgs.read_space ha hspace]
        exact ih
      · rw [if_neg hspace]

/-- Whether a token is about to begin makes no difference to what it begins with. -/
theorem SplitArgs.read_enter {a : SplitArgs} {c : Char} (hc : isSpace c = false) :
    SplitArgs.read { a with inToken := true } c = a.read c := by
  have hno : ¬ ((!a.inToken) = true ∧ isSpace c = true) := fun h => by
    rw [hc] at h
    cases h.2
  have hno' : ¬ ((!true) = true ∧ isSpace c = true) := fun h => by cases h.1
  unfold SplitArgs.read
  dsimp only
  rw [if_neg hno, if_neg hno']

theorem SplitCursors.finish_enterToken (s : SplitCursors) :
    (s.enterToken.rest.foldl SplitArgs.read s.enterToken.toSplitArgs).finish =
      (s.rest.foldl SplitArgs.read s.toSplitArgs).finish := by
  obtain hin | hout := Bool.eq_false_or_eq_true s.inToken
  · have henter : s.enterToken = s := if_pos hin
    rw [henter]
  · have henter : s.enterToken =
        { s with token := [], rest := s.rest.dropWhile isSpace, inToken := true } := by
      unfold SplitCursors.enterToken
      rw [hout]
      rfl
    have hto : s.enterToken.toSplitArgs = { s.toSplitArgs with inToken := true } := by
      rw [henter]
      unfold SplitCursors.toSplitArgs
      rw [hout]
      rfl
    have hrest : s.enterToken.rest = s.rest.dropWhile isSpace := by rw [henter]
    rw [SplitArgs.foldl_dropWhile (a := s.toSplitArgs) hout, ← hrest, hto]
    cases h : s.enterToken.rest with
    | nil => rfl
    | cons c rest =>
        have hc := SplitCursors.enterToken_head hout h
        rw [List.foldl_cons, List.foldl_cons, SplitArgs.read_enter hc]

theorem SplitCursors.finish_addToken {s : SplitCursors} (hs : s.inToken = true) :
    s.addToken.toSplitArgs.finish = s.toSplitArgs.finish := by
  unfold SplitCursors.toSplitArgs SplitArgs.finish SplitCursors.addToken
  rw [hs]
  cases s.token <;> rfl

/-- The loop gives what `splitArgs` gives from the same place. -/
theorem SplitCursors.run_eq (s : SplitCursors) :
    s.run = (s.rest.foldl SplitArgs.read s.toSplitArgs).finish := by
  induction s using SplitCursors.run.induct with
  | case1 s h ih =>
      rw [SplitCursors.run, dif_pos h, ih, ← s.finish_enterToken]
      have hin := s.inToken_enterToken
      obtain ⟨hrest, hturn⟩ | ⟨c, rest, hrest, -, hspace, hturn⟩ | ⟨c, rest, hrest, -, hturn⟩ :=
        s.turn_cases
      · have hnone : s.turn.rest = [] := by
          rw [hturn]
          exact hrest
        rw [hnone, hrest, hturn]
        exact SplitCursors.finish_addToken hin
      · -- the whitespace is met once more, outside the token
        have hsame : s.turn.rest = c :: rest := by
          rw [hturn]
          exact hrest
        have hout : s.turn.toSplitArgs.inToken = false := by
          rw [hturn]
          rfl
        rw [hsame, hrest, List.foldl_cons, List.foldl_cons, SplitArgs.read_space hout hspace,
          ← SplitCursors.toSplitArgs_turn hin hrest, s.turn_enterToken]
      · have hnext : s.turn.rest = rest := by
          rw [hturn]
          rfl
        rw [hnext, hrest, List.foldl_cons, ← SplitCursors.toSplitArgs_turn hin hrest,
          s.turn_enterToken]
  | case2 s h =>
      rw [not_not] at h
      obtain ⟨htoken, hrest⟩ := List.append_eq_nil_iff.mp h
      rw [SplitCursors.run, dif_neg (not_not.mpr h), hrest]
      unfold SplitCursors.toSplitArgs
      rw [htoken, ite_self]
      rfl

/-- **The loop of `split_args`** gives what `splitArgs` gives. -/
theorem splitArgsRun_eq (text : List Char) : splitArgsRun text = splitArgs text :=
  SplitCursors.run_eq _

/-! ## The tokens of a text -/

/-- Whitespace at a place ends the token before it. -/
def CutsAt (before : List Char) (c : Char) : Prop :=
  isSpace c = true ∧ Nesting.readAll before = {}

/-- **The tokens of a text**, behind a text that was read before: whitespace and tokens by turns,
in the order of the text. A token is not empty, it ends where the text ends or is cut, and it is
not cut anywhere else. -/
inductive Splits : List Char → List Char → List (List Char) → Prop
  | done {before gap : List Char} : (∀ c ∈ gap, isSpace c = true) → Splits before gap []
  | token {before gap token rest : List Char} {tokens : List (List Char)} :
      (∀ c ∈ gap, isSpace c = true) → token ≠ [] →
      (∀ u c v, token = u ++ c :: v → ¬ CutsAt (before ++ gap ++ u) c) →
      (∀ c v, rest = c :: v → CutsAt (before ++ gap ++ token) c) →
      Splits (before ++ gap ++ token) rest tokens →
      Splits before (gap ++ token ++ rest) (token :: tokens)

/-- Whitespace opens nothing. -/
theorem Nesting.readAll_space {before gap : List Char} (hbefore : Nesting.readAll before = {})
    (hgap : ∀ c ∈ gap, isSpace c = true) : Nesting.readAll (before ++ gap) = {} := by
  induction gap using List.reverseRecOn with
  | nil => rwa [List.append_nil]
  | append_singleton gap c ih =>
      have hc := hgap c (List.mem_append_right _ List.mem_cons_self)
      have hgap' := ih fun d hd => hgap d (List.mem_append_left _ hd)
      rw [← List.append_assoc, Nesting.readAll_concat, hgap']
      have hplain : c ≠ doubleQuote ∧ c ≠ apostrophe ∧ c ≠ backslash ∧ c ≠ '[' ∧ c ≠ ']' := by
        refine ⟨?_, ?_, ?_, ?_, ?_⟩ <;> rintro rfl <;> exact absurd hc (by decide)
      obtain ⟨hdouble, hsingle, hslash, hopen, hclose⟩ := hplain
      unfold Nesting.read Quotes.read
      rw [if_neg fun h => hdouble h.1, if_neg fun h => hsingle h.1, if_neg hslash,
        if_neg fun h => hopen h.1, if_neg fun h => hclose h.1]

theorem SplitCursors.run_turn {s : SplitCursors} (h : s.token ++ s.rest ≠ []) :
    s.run = s.turn.run := by
  rw [SplitCursors.run, dif_pos h]

theorem SplitCursors.run_done {s : SplitCursors} (h : s.inToken = false) (hrest : s.rest = []) :
    s.run = s.argv := by
  rw [SplitCursors.run_eq, hrest]
  unfold SplitCursors.toSplitArgs
  rw [h]
  rfl

theorem SplitCursors.run_enterToken (s : SplitCursors) : s.enterToken.run = s.run := by
  rw [SplitCursors.run_eq, SplitCursors.run_eq, s.finish_enterToken]

/-- The loop is within a token, behind `before` and the whitespace `gap`: what was read of the token
is not cut, and where nothing was read the whitespace is passed. -/
structure SplitCursors.Within (s : SplitCursors) (before gap : List Char) : Prop where
  inToken : s.inToken = true
  nesting : s.nesting = Nesting.readAll (before ++ gap ++ s.token)
  space : ∀ c ∈ gap, isSpace c = true
  uncut : ∀ u c v, s.token = u ++ c :: v → ¬ CutsAt (before ++ gap ++ u) c
  first : s.token = [] → ∀ c v, s.rest = c :: v → isSpace c = false

/-- Between two tokens all whitespace is passed. -/
theorem SplitCursors.within_enterToken {s : SplitCursors} {before : List Char}
    (hin : s.inToken = false) (hnesting : s.nesting = {}) (hread : Nesting.readAll before = {}) :
    s.enterToken.Within before (s.rest.takeWhile isSpace) := by
  have hgap : ∀ c ∈ s.rest.takeWhile isSpace, isSpace c = true := fun c hc =>
    List.mem_takeWhile_imp hc
  have henter : s.enterToken =
      { s with token := [], rest := s.rest.dropWhile isSpace, inToken := true } :=
    if_neg (by rw [hin]; exact Bool.false_ne_true)
  have htoken : s.enterToken.token = [] := by rw [henter]
  have hopen : s.enterToken.nesting = s.nesting := by rw [henter]; rfl
  constructor
  · exact s.inToken_enterToken
  · rw [hopen, hnesting, htoken, List.append_nil]
    exact (Nesting.readAll_space hread hgap).symm
  · exact hgap
  · intro u c v h
    exact absurd (htoken.symm.trans h).symm
      (List.append_ne_nil_of_right_ne_nil u (List.cons_ne_nil c v))
  · exact fun _ c v h => SplitCursors.enterToken_head hin h

/-- A character goes to the token. -/
theorem SplitCursors.Within.passed {s : SplitCursors} {before gap : List Char}
    (h : s.Within before gap) {c : Char} (hread : ¬ (s.nesting = {} ∧ isSpace c = true))
    (rest : List Char) : (s.passed c rest).Within before gap := by
  have htoken : (s.passed c rest).token = s.token ++ [c] := rfl
  constructor
  · exact h.inToken
  · have hnext : (s.passed c rest).nesting = s.nesting.read c := rfl
    rw [hnext, htoken, ← List.append_assoc, Nesting.readAll_concat, h.nesting]
  · exact h.space
  · intro u d v hsplit hcut
    rw [htoken] at hsplit
    rcases List.eq_nil_or_concat v with rfl | ⟨v, e, rfl⟩
    · obtain ⟨rfl, hd⟩ := List.append_inj' hsplit rfl
      obtain ⟨rfl, -⟩ := List.cons.inj hd
      exact hread ⟨h.nesting.trans hcut.2, hcut.1⟩
    · rw [List.concat_eq_append, ← List.cons_append, ← List.append_assoc] at hsplit
      exact h.uncut u d v (List.append_inj' hsplit rfl).1 hcut
  · exact fun hnil => absurd (htoken.symm.trans hnil)
      (List.append_ne_nil_of_right_ne_nil s.token (List.cons_ne_nil c []))

/-- The text ends within a token, or behind whitespace. -/
theorem SplitCursors.Within.ends {s : SplitCursors} {before gap : List Char}
    (h : s.Within before gap) (hrest : s.rest = []) (hturn : s.turn = s.addToken) :
    ∃ tokens, s.run = s.argv ++ tokens ∧ Splits before (gap ++ s.token ++ s.rest) tokens := by
  cases htoken : s.token with
  | nil =>
      refine ⟨[], ?_, ?_⟩
      · rw [SplitCursors.run, dif_neg (by rw [htoken, hrest]; simp), List.append_nil]
      · rw [hrest, List.append_nil, List.append_nil]
        exact .done h.space
  | cons d token =>
      have hne : s.token ≠ [] := by simp [htoken]
      refine ⟨[s.token], ?_, ?_⟩
      · have hdone : s.addToken.run = s.addToken.argv := SplitCursors.run_done rfl hrest
        rw [SplitCursors.run_turn (by simp [hne]), hturn, hdone]
        exact if_pos (List.length_pos_iff.mpr hne)
      · rw [← htoken, hrest]
        refine .token h.space hne h.uncut (fun c v h => by cases h) (.done ?_)
        intro c hc
        cases hc

/-- **From within a token on**, the loop gives the tokens of the rest of the text. -/
theorem SplitCursors.Within.run_splits {s : SplitCursors} {before gap : List Char}
    (h : s.Within before gap) :
    ∃ tokens, s.run = s.argv ++ tokens ∧ Splits before (gap ++ s.token ++ s.rest) tokens := by
  induction hn : s.rest.length using Nat.strong_induction_on generalizing s before gap with
  | _ n ih =>
      have henter : s.enterToken = s := if_pos h.inToken
      obtain ⟨hrest, hturn⟩ | ⟨c, rest, hrest, hempty, hspace, hturn⟩ |
          ⟨c, rest, hrest, hread, hturn⟩ := s.turn_cases
      · rw [henter] at hrest hturn
        exact h.ends hrest hturn
      · -- whitespace ends the token
        rw [henter] at hrest hturn hempty
        have hne : s.token ≠ [] := by
          intro htoken
          rw [h.first htoken c rest hrest] at hspace
          cases hspace
        have hread : Nesting.readAll (before ++ gap ++ s.token) = {} := by rw [← h.nesting, hempty]
        have hnone : s.addToken.nesting = {} := by
          have hnesting : s.addToken.nesting =
              ⟨{ s.quotes with escaped := false }, s.inBrackets⟩ := rfl
          obtain ⟨hquotes, hbrackets⟩ := Nesting.mk.inj hempty
          rw [hnesting, hquotes, hbrackets]
        have hrestNext : s.addToken.enterToken.rest = s.rest.dropWhile isSpace := rfl
        have hshorter : s.addToken.enterToken.rest.length < n := by
          have hle := (List.dropWhile_suffix (l := rest) isSpace).length_le
          rw [hrestNext, hrest, List.dropWhile_cons, if_pos hspace, ← hn, hrest, List.length_cons]
          omega
        obtain ⟨tokens, hrun, hsplits⟩ :=
          ih _ hshorter (SplitCursors.within_enterToken rfl hnone hread) rfl
        refine ⟨s.token :: tokens, ?_, ?_⟩
        · have hargv : s.addToken.enterToken.argv = s.argv ++ [s.token] :=
            if_pos (List.length_pos_iff.mpr hne)
          rw [SplitCursors.run_enterToken] at hrun
          rw [SplitCursors.run_turn (by simp [hne]), hturn, hrun, hargv, List.append_assoc]
          rfl
        · have htoken : s.addToken.enterToken.token = [] := rfl
          have hwhole : s.addToken.rest.takeWhile isSpace ++ s.addToken.enterToken.rest = s.rest :=
            List.takeWhile_append_dropWhile
          rw [htoken, List.append_nil, hwhole] at hsplits
          refine .token h.space hne h.uncut (fun d v hcons => ?_) hsplits
          obtain ⟨rfl, -⟩ := List.cons.inj (hrest.symm.trans hcons)
          exact ⟨hspace, hread⟩
      · -- the character goes to the token
        rw [henter] at hrest hturn hread
        have hpassed : (s.passed c rest).rest = rest := rfl
        have hshorter : (s.passed c rest).rest.length < n := by
          rw [hpassed, ← hn, hrest, List.length_cons]
          omega
        obtain ⟨tokens, hrun, hsplits⟩ := ih _ hshorter (h.passed hread rest) rfl
        refine ⟨tokens, ?_, ?_⟩
        · rw [SplitCursors.run_turn (by simp [hrest]), hturn, hrun]
          rfl
        · have htoken : (s.passed c rest).token = s.token ++ [c] := rfl
          have htext : gap ++ s.token ++ s.rest =
              gap ++ (s.passed c rest).token ++ (s.passed c rest).rest := by
            rw [htoken, hpassed, hrest]
            simp
          rw [htext]
          exact hsplits

/-- The loop gives the tokens of the text. -/
theorem SplitCursors.begin_splits (text : List Char) :
    Splits [] text (SplitCursors.begin text).run := by
  have hrest : (SplitCursors.begin text).enterToken.rest = text.dropWhile isSpace := rfl
  have htoken : (SplitCursors.begin text).enterToken.token = [] := rfl
  have hargv : (SplitCursors.begin text).enterToken.argv = [] := rfl
  have hwithin : (SplitCursors.begin text).enterToken.Within [] (text.takeWhile isSpace) :=
    SplitCursors.within_enterToken rfl rfl rfl
  obtain ⟨tokens, hrun, hsplits⟩ := hwithin.run_splits
  rw [SplitCursors.run_enterToken, hargv, List.nil_append] at hrun
  rw [hrest, htoken, List.append_nil, List.takeWhile_append_dropWhile] at hsplits
  rw [hrun]
  exact hsplits

/-- **`split_args`** ends on every text, whatever is left open in it, and gives the tokens of the
text. -/
theorem splitArgsRun_splits (text : List Char) :
    (∃ n, (∀ m < n, ¬ (SplitCursors.turn^[m] (SplitCursors.begin text)).Ended) ∧
      (SplitCursors.turn^[n] (SplitCursors.begin text)).Ended ∧
      (SplitCursors.turn^[n] (SplitCursors.begin text)).argv = splitArgsRun text) ∧
    Splits [] text (splitArgsRun text) :=
  ⟨(SplitCursors.begin text).run_ends, SplitCursors.begin_splits text⟩

end Swirl

import Swirl.Common.SplitArgs
import Swirl.Common.Unescape

set_option autoImplicit false

/-! # Quoting an argument

A string in double quotes, with a backslash before every double quote and every backslash, is one
argument of a command, and what `strip_quotes` and `unescape_string` make of it is the string.
-/

namespace Swirl

/-- A character with the backslash it needs. -/
def quoteChar (c : Char) : List Char :=
  if c = doubleQuote ∨ c = backslash then [backslash, c] else [c]

/-- A string with the backslashes it needs. -/
def escapeQuoted (s : List Char) : List Char := s.flatMap quoteChar

/-- A string as an argument. -/
def quoteArg (s : List Char) : List Char := doubleQuote :: escapeQuoted s ++ [doubleQuote]

/-- An argument can begin behind a text: nothing is there, or whitespace behind a text that leaves
nothing open. -/
def BeforeArg (before : List Char) : Prop :=
  before = [] ∨ ∃ u w, before = u ++ w ∧ w ≠ [] ∧ (∀ c ∈ w, isSpace c = true) ∧
    Nesting.readAll u = {}

/-- An argument can end before a text. -/
def AfterArg (after : List Char) : Prop := ∀ c ∈ after.head?, isSpace c = true

theorem escapeQuoted_escaped {c : Char} (s : List Char) (hc : c = doubleQuote ∨ c = backslash) :
    escapeQuoted (c :: s) = backslash :: c :: escapeQuoted s := by
  unfold escapeQuoted
  rw [List.flatMap_cons, quoteChar, if_pos hc]
  rfl

theorem escapeQuoted_plain {c : Char} (s : List Char) (hc : ¬ (c = doubleQuote ∨ c = backslash)) :
    escapeQuoted (c :: s) = c :: escapeQuoted s := by
  unfold escapeQuoted
  rw [List.flatMap_cons, quoteChar, if_neg hc]
  rfl

/-! ## What `split_args` does with a character -/

/-- What is open. -/
def SplitArgs.nesting (a : SplitArgs) : Nesting := ⟨a.quotes, a.inBrackets⟩

/-- A character that is read. -/
def SplitArgs.passed (a : SplitArgs) (c : Char) : SplitArgs :=
  { a with
    token := a.token ++ [c], inToken := true, quotes := (a.nesting.read c).quotes
    inBrackets := (a.nesting.read c).inBrackets }

/-- Nothing is open, and no argument has begun. -/
def SplitArgs.idle (argv : List (List Char)) : SplitArgs := { argv }

/-- The loop of the source stands in a token. -/
def SplitArgs.cursors (a : SplitArgs) (rest : List Char) : SplitCursors :=
  ⟨a.argv, a.token, rest, true, a.inBrackets, a.quotes⟩

/-- Within an argument, whitespace where nothing is open ends it, and any other character goes to
it. -/
theorem SplitArgs.read_inToken {a : SplitArgs} {c : Char} (ha : a.inToken = true) :
    a.read c = if a.nesting = {} ∧ isSpace c = true then .idle a.finish else a.passed c := by
  have hto : (a.cursors [c]).toSplitArgs = a := by
    obtain ⟨argv, token, inToken, inBrackets, quotes⟩ := a
    obtain rfl : inToken = true := ha
    rfl
  have hturn : (a.cursors [c]).turn.toSplitArgs = (a.cursors [c]).toSplitArgs.read c :=
    SplitCursors.toSplitArgs_turn rfl rfl
  rw [hto] at hturn
  rw [← hturn]
  obtain ⟨hrest, -⟩ | ⟨d, rest, hrest, hempty, hspace, hcut⟩ | ⟨d, rest, hrest, hread, hpass⟩ :=
    (a.cursors [c]).turn_cases
  · cases hrest
  · obtain ⟨rfl, -⟩ := List.cons.inj hrest
    rw [if_pos ⟨hempty, hspace⟩, hcut]
    obtain ⟨argv, token, inToken, inBrackets, quotes⟩ := a
    obtain ⟨rfl, rfl⟩ := Nesting.mk.inj hempty
    cases token <;> rfl
  · obtain ⟨rfl, -⟩ := List.cons.inj hrest
    have hread' : ¬ (a.nesting = {} ∧ isSpace c = true) := hread
    rw [if_neg hread', hpass]
    rfl

/-- Between arguments whitespace is passed, and any other character begins one. -/
theorem SplitArgs.read_idle (argv : List (List Char)) (c : Char) :
    (SplitArgs.idle argv).read c =
      if isSpace c = true then .idle argv else (SplitArgs.idle argv).passed c := by
  by_cases hc : isSpace c = true
  · rw [if_pos hc]
    exact SplitArgs.read_space rfl hc
  · have hspace := Bool.eq_false_iff.mpr hc
    rw [if_neg hc, ← SplitArgs.read_enter hspace, SplitArgs.read_inToken rfl,
      if_neg fun h => hc h.2]
    rfl

/-- What `split_args` knows behind a text: what is open, and nothing else where no argument has
begun. -/
theorem SplitArgs.readAll_nesting (text : List Char) :
    (SplitArgs.readAll text).nesting = Nesting.readAll text ∧
      ((SplitArgs.readAll text).inToken = true ∨
        SplitArgs.readAll text = .idle (SplitArgs.readAll text).argv) := by
  induction text using List.reverseRecOn with
  | nil => exact ⟨rfl, .inr rfl⟩
  | append_singleton text c ih =>
      have hread : SplitArgs.readAll (text ++ [c]) = (SplitArgs.readAll text).read c :=
        List.foldl_concat _ _ _ _
      rw [hread, Nesting.readAll_concat, ← ih.1]
      generalize SplitArgs.readAll text = a at ih ⊢
      have hidle (argv : List (List Char)) (hc : isSpace c = true) :
          (SplitArgs.idle argv).nesting = Nesting.read {} c :=
        (@Nesting.readAll_space [] _ rfl (List.forall_mem_singleton.mpr hc)).symm
      obtain hin | hidleBefore := ih.2
      · rw [SplitArgs.read_inToken hin]
        split_ifs with h
        · rw [h.1]
          exact ⟨hidle _ h.2, .inr rfl⟩
        · exact ⟨rfl, .inl rfl⟩
      · rw [hidleBefore, SplitArgs.read_idle]
        split_ifs with h
        · exact ⟨hidle _ h, .inr rfl⟩
        · exact ⟨rfl, .inl rfl⟩

theorem SplitArgs.foldl_space (argv : List (List Char)) {w : List Char}
    (hw : ∀ c ∈ w, isSpace c = true) : w.foldl SplitArgs.read (.idle argv) = .idle argv := by
  induction w with
  | nil => rfl
  | cons c w ih =>
      obtain ⟨hc, hw⟩ := List.forall_mem_cons.mp hw
      rw [List.foldl_cons, SplitArgs.read_space rfl hc, ih hw]

/-- What `split_args` knows where an argument can begin. -/
theorem SplitArgs.readAll_before {before : List Char} (h : BeforeArg before) :
    SplitArgs.readAll before = .idle (splitArgs before) := by
  obtain rfl | ⟨u, w, rfl, hne, hspace, hopen⟩ := h
  · rfl
  have hbefore : SplitArgs.readAll (u ++ w) = .idle (SplitArgs.readAll u).finish := by
    have happend : SplitArgs.readAll (u ++ w) = w.foldl SplitArgs.read (SplitArgs.readAll u) :=
      List.foldl_append
    obtain ⟨hnesting, hin | hidle⟩ := SplitArgs.readAll_nesting u
    · -- the first whitespace ends the last argument
      obtain ⟨c, w, rfl⟩ := List.exists_cons_of_ne_nil hne
      obtain ⟨hc, hw⟩ := List.forall_mem_cons.mp hspace
      rw [happend, List.foldl_cons, SplitArgs.read_inToken hin,
        if_pos ⟨hnesting.trans hopen, hc⟩]
      exact SplitArgs.foldl_space _ hw
    · rw [happend, hidle]
      exact SplitArgs.foldl_space _ hspace
  have htokens : splitArgs (u ++ w) = (SplitArgs.readAll (u ++ w)).finish := rfl
  rw [htokens, hbefore]
  rfl

/-- The arguments that were found before make no difference to a character. -/
theorem SplitArgs.read_argv (argv : List (List Char)) (a : SplitArgs) (c : Char) :
    SplitArgs.read { a with argv := argv ++ a.argv } c =
      { a.read c with argv := argv ++ (a.read c).argv } := by
  unfold SplitArgs.read
  dsimp only
  split_ifs
  all_goals first | rfl | exact congrArg (SplitArgs.mk · _ _ _ _) (List.append_assoc _ _ _)

theorem SplitArgs.foldl_argv (argv : List (List Char)) (a : SplitArgs) (text : List Char) :
    text.foldl SplitArgs.read { a with argv := argv ++ a.argv } =
      { text.foldl SplitArgs.read a with
        argv := argv ++ (text.foldl SplitArgs.read a).argv } := by
  induction text generalizing a with
  | nil => rfl
  | cons c text ih => rw [List.foldl_cons, List.foldl_cons, SplitArgs.read_argv, ih]

theorem SplitArgs.finish_argv (argv : List (List Char)) (a : SplitArgs) :
    SplitArgs.finish { a with argv := argv ++ a.argv } = argv ++ a.finish := by
  unfold SplitArgs.finish
  dsimp only
  split_ifs
  · rfl
  · exact List.append_assoc _ _ _

theorem SplitArgs.finish_idle (argv : List (List Char)) (text : List Char) :
    (text.foldl SplitArgs.read (.idle argv)).finish = argv ++ splitArgs text := by
  have hargv : SplitArgs.idle argv = { ({} : SplitArgs) with argv := argv ++ [] } := by
    rw [List.append_nil]
    rfl
  have hfold := SplitArgs.foldl_argv argv {} text
  rw [hargv, hfold, SplitArgs.finish_argv]
  rfl

/-- Double quotes are open, and nothing else is. -/
def SplitArgs.quoted (argv : List (List Char)) (token : List Char) : SplitArgs :=
  { argv, token, inToken := true, quotes := { inString := true } }

/-- Within double quotes a character goes to the argument with its backslash. -/
theorem SplitArgs.foldl_quoteChar (argv : List (List Char)) (token : List Char) (c : Char) :
    (quoteChar c).foldl SplitArgs.read (.quoted argv token) =
      .quoted argv (token ++ quoteChar c) := by
  have hread {a : SplitArgs} {c : Char} (ha : a.inToken = true)
      (hopen : a.quotes.inString = true) : a.read c = a.passed c := by
    rw [SplitArgs.read_inToken ha, if_neg]
    rintro ⟨hempty, -⟩
    obtain ⟨hquotes, -⟩ := Nesting.mk.inj hempty
    rw [hquotes] at hopen
    cases hopen
  unfold quoteChar
  split_ifs with hc
  · rw [List.foldl_cons, List.foldl_cons, List.foldl_nil, hread rfl rfl, hread rfl rfl]
    obtain rfl | rfl := hc
    · exact congrArg (SplitArgs.quoted argv) (List.append_assoc token [backslash] [doubleQuote])
    · exact congrArg (SplitArgs.quoted argv) (List.append_assoc token [backslash] [backslash])
  · rw [not_or] at hc
    have hnesting : (SplitArgs.quoted argv token).nesting.read c =
        (SplitArgs.quoted argv token).nesting := by
      unfold Nesting.read Quotes.read
      rw [if_neg fun h => hc.1 h.1, if_neg (fun h => by cases h.2.1), if_neg hc.2,
        if_neg (fun h => by cases h.2), if_neg (fun h => by cases h.2)]
      rfl
    rw [List.foldl_cons, List.foldl_nil, hread rfl rfl]
    unfold SplitArgs.passed
    rw [hnesting]
    rfl

theorem SplitArgs.foldl_quoted (argv : List (List Char)) (token s : List Char) :
    (escapeQuoted s).foldl SplitArgs.read (.quoted argv token) =
      .quoted argv (token ++ escapeQuoted s) := by
  induction s generalizing token with
  | nil =>
      unfold escapeQuoted
      rw [List.flatMap_nil, List.append_nil]
      rfl
  | cons c s ih =>
      unfold escapeQuoted at ih ⊢
      rw [List.flatMap_cons, List.foldl_append, SplitArgs.foldl_quoteChar, ih, List.append_assoc]

theorem SplitArgs.foldl_quoteArg (argv : List (List Char)) (s : List Char) :
    (quoteArg s).foldl SplitArgs.read (.idle argv) =
      { argv, token := quoteArg s, inToken := true } := by
  have hopening : (SplitArgs.idle argv).read doubleQuote = .quoted argv [doubleQuote] := by
    rw [SplitArgs.read_idle, if_neg (by decide)]
    rfl
  have hclosing : (SplitArgs.quoted argv ([doubleQuote] ++ escapeQuoted s)).read doubleQuote =
      { argv, token := quoteArg s, inToken := true } := by
    rw [SplitArgs.read_inToken rfl, if_neg fun h => absurd h.2 (by decide)]
    rfl
  unfold quoteArg
  rw [List.cons_append, List.foldl_cons, hopening, List.foldl_append, SplitArgs.foldl_quoted,
    List.foldl_cons, hclosing]
  rfl

/-- **A quoted string is one argument.** -/
theorem splitArgs_quoteArg {before after : List Char} (s : List Char) (hbefore : BeforeArg before)
    (hafter : AfterArg after) : splitArgs (before ++ quoteArg s ++ after) =
      splitArgs before ++ [quoteArg s] ++ splitArgs after := by
  have hread : splitArgs (before ++ quoteArg s ++ after) = (after.foldl SplitArgs.read
      ((quoteArg s).foldl SplitArgs.read (SplitArgs.readAll before))).finish := by
    have happend : SplitArgs.readAll (before ++ quoteArg s ++ after) = after.foldl SplitArgs.read
        ((quoteArg s).foldl SplitArgs.read (SplitArgs.readAll before)) := by
      unfold SplitArgs.readAll
      rw [List.foldl_append, List.foldl_append]
    rw [← happend]
    rfl
  rw [hread, SplitArgs.readAll_before hbefore, SplitArgs.foldl_quoteArg]
  cases after with
  | nil => exact (List.append_nil _).symm
  | cons c after =>
      have hc : isSpace c = true := hafter c rfl
      have hafterArgs : splitArgs (c :: after) = splitArgs after := by
        have hskip : SplitArgs.readAll (c :: after) = SplitArgs.readAll after :=
          congrArg (after.foldl SplitArgs.read) (SplitArgs.read_space rfl hc)
        unfold splitArgs
        rw [hskip]
      rw [List.foldl_cons, SplitArgs.read_inToken rfl, if_pos ⟨rfl, hc⟩, SplitArgs.finish_idle,
        hafterArgs]
      rfl

/-! ## What is made of the argument -/

/-- `strip_quotes` takes the quotes that enclose a string. -/
theorem stripQuotesFrom_quoted (s : List Char) :
    stripQuotesFrom true false false (escapeQuoted s ++ [doubleQuote]) = escapeQuoted s := by
  induction s with
  | nil => rfl
  | cons c s ih =>
      by_cases hc : c = doubleQuote ∨ c = backslash
      · -- the backslash keeps the character from being looked at
        rw [escapeQuoted_escaped s hc]
        obtain rfl | rfl := hc
        · exact congrArg (backslash :: doubleQuote :: ·) ih
        · exact congrArg (backslash :: backslash :: ·) ih
      · rw [escapeQuoted_plain s hc]
        rw [not_or] at hc
        have hdouble : ¬ (c.toNat = 34 ∧ (!false) = true ∧ (!false) = true) := fun h =>
          hc.1 (Char.toNat_inj.mp h.1)
        have hslash : c.toNat ≠ 92 := fun h => hc.2 (Char.toNat_inj.mp h)
        rw [List.cons_append, stripQuotesFrom, if_neg (fun h => by cases h.2.1), if_neg hdouble,
          if_neg hslash, ih]

/-- The piece of a character with the backslash it needs. -/
def quotePiece (c : Char) : Piece :=
  if c = doubleQuote ∨ c = backslash then .escape c c else .char c

theorem pieces_escapeQuoted (s : List Char) : pieces (escapeQuoted s) = s.map quotePiece := by
  induction s with
  | nil => rfl
  | cons c s ih =>
      rw [List.map_cons, ← ih]
      unfold quotePiece
      split_ifs with hc
      · rw [escapeQuoted_escaped s hc]
        obtain rfl | rfl := hc
        · exact pieces_escape (by decide) (by decide)
        · exact pieces_escape (by decide) (by decide)
      · rw [escapeQuoted_plain s hc]
        exact pieces_char fun h => hc (.inr h)

theorem goesOn_quotePiece (c : Char) : (quotePiece c).goesOn = true := by
  unfold quotePiece
  split_ifs <;> rfl

/-- A string with backslashes stands for the string. -/
theorem decoded_escapeQuoted (s : List Char) : decoded (escapeQuoted s) = s := by
  unfold decoded
  rw [pieces_escapeQuoted]
  induction s with
  | nil => rfl
  | cons c s ih =>
      rw [List.map_cons]
      unfold quotePiece
      split_ifs
      · exact congrArg (c :: ·) ih
      · exact congrArg (c :: ·) ih

/-- Nothing in it ends the loop of `unescape_string`. -/
theorem decodable_escapeQuoted (s : List Char) : Decodable (escapeQuoted s) := by
  have hgoes : ∀ p ∈ s.map quotePiece, p.goesOn = true := by
    intro p hp
    obtain ⟨c, -, rfl⟩ := List.mem_map.mp hp
    exact goesOn_quotePiece c
  unfold Decodable
  dsimp only
  rw [pieces_escapeQuoted, List.takeWhile_eq_self_iff.mpr hgoes,
    List.dropWhile_eq_nil_iff.mpr hgoes]
  dsimp only
  intro hmem
  obtain ⟨c, -, hc⟩ := List.mem_map.mp hmem
  unfold quotePiece at hc
  split_ifs at hc

theorem nul_not_mem_escapeQuoted {s : List Char} (hs : nul ∉ s) : nul ∉ escapeQuoted s := by
  intro hmem
  obtain ⟨c, hc, hmem⟩ := List.mem_flatMap.mp hmem
  unfold quoteChar at hmem
  split_ifs at hmem
  · rcases List.mem_cons.mp hmem with h | h
    · exact absurd h (by decide)
    · exact hs (List.mem_singleton.mp h ▸ hc)
  · exact hs (List.mem_singleton.mp hmem ▸ hc)

/-- **The quoting of an argument** is undone: `split_args` keeps the quoted string as one argument,
and `strip_quotes` and `unescape_string` give the string back. -/
theorem quoteArg_roundTrip (s : Text) {before after : List Char} (hbefore : BeforeArg before)
    (hafter : AfterArg after) :
    splitArgsRun (before ++ quoteArg s.chars ++ after) =
        splitArgsRun before ++ [quoteArg s.chars] ++ splitArgsRun after ∧
      ∃ buffer, unescapeString (stripQuotesFrom false false false (quoteArg s.chars)) =
          some (buffer, s.chars.length) ∧ cString buffer = s.chars := by
  refine ⟨?_, ?_⟩
  · rw [splitArgsRun_eq, splitArgsRun_eq, splitArgsRun_eq]
    exact splitArgs_quoteArg s.chars hbefore hafter
  · have hstrip : stripQuotesFrom false false false (quoteArg s.chars) =
        escapeQuoted s.chars := stripQuotesFrom_quoted s.chars
    obtain ⟨buffer, n, hrun, hleft, rfl⟩ :=
      (unescapesRight_iff (nul_not_mem_escapeQuoted s.noNul)).mpr (decodable_escapeQuoted s.chars)
    rw [decoded_escapeQuoted] at hleft
    rw [hleft] at hrun
    exact ⟨buffer, by rw [hstrip, hrun], hleft⟩

theorem quoteArg_roundTrip_say :
    splitArgsRun ("exec ".toList ++ quoteArg "say \"[hi\\".toList ++ " ;".toList) =
        splitArgsRun "exec ".toList ++ [quoteArg "say \"[hi\\".toList] ++
          splitArgsRun " ;".toList ∧
      ∃ buffer, unescapeString (stripQuotesFrom false false false
          (quoteArg "say \"[hi\\".toList)) = some (buffer, "say \"[hi\\".toList.length) ∧
        cString buffer = "say \"[hi\\".toList :=
  quoteArg_roundTrip ⟨"say \"[hi\\".toList, by decide⟩
    (.inr ⟨"exec".toList, " ".toList, rfl, by decide, List.all_eq_true.mp (by decide), by decide⟩)
    (fun c hc => by
      obtain rfl := Option.some.inj hc
      decide)

end Swirl

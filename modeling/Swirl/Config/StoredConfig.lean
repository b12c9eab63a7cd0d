import Swirl.Config.ReadConfig

set_option autoImplicit false

/-! # The stored config

`read_config` keeps the text of the main config, which is what is sent to a client that asks for
it. A line is copied with the lines it goes on with, but the look-ahead for a brace on a line of
its own runs past the copy: the brace is read and not stored. So the stored text reads like the
file when no command line of the file, its continuation lines joined, has its brace on a later
line, and only then.
-/

namespace Swirl

open Lib

/-! ## The lines as they are read -/

/-- The lines from one on, with those each goes on with. -/
def joinFrom (line : Line) : List Line → List Line
  | [] => [line]
  | next :: rest =>
      if continues line then joinFrom (line.take (line.length - 2) ++ next) rest
      else line :: joinFrom next rest

/-- The lines of a file, with their continuation lines joined. -/
def joinLines : List Line → List Line
  | [] => []
  | line :: rest => joinFrom line rest

/-- No command line has its brace on a later line. -/
def BracesAttached : List Line → Prop
  | [] => True
  | line :: rest =>
      (isSkipped (lineText line) = false → takesBrace (lineText line) = true →
        detectBrace rest = none) ∧ BracesAttached rest

/-- No line but the last goes on. -/
def Settled : List Line → Prop
  | [] => True
  | line :: rest => (rest = [] ∨ continues line = false) ∧ Settled rest

/-- The commands `read_config` finds in a file, with whether a brace is added, and the lines it
copies. -/
def scan : Nat → List Line → List (Line × Bool) × List Line
  | 0, _ => ([], [])
  | n + 1, file =>
      match getlineWithCont file with
      | none => ([], [])
      | some (line, rest) =>
          let text := lineText line
          if isSkipped text then
            let r := scan n rest
            (r.1, line :: r.2)
          else
            let brace := if takesBrace text then detectBrace rest else none
            let r := scan n (brace.getD rest)
            ((text, brace.isSome) :: r.1, line :: r.2)

/-- The command lines among some lines. -/
def commandTexts (file : List Line) : List Line :=
  (file.map lineText).filter fun text => !isSkipped text

section Joining

variable {line next : Line} {file rest rest' : List Line} {n : Nat}

theorem joinFrom_eq (line : Line) (rest : List Line) :
    joinFrom line rest = (joinLine line rest).1 :: joinLines (joinLine line rest).2 := by
  induction rest generalizing line with
  | nil => rfl
  | cons next rest ih =>
      rw [joinFrom, joinLine]
      split
      · exact ih _
      · rfl

theorem joinLine_length (line : Line) (rest : List Line) :
    (joinLine line rest).2.length ≤ rest.length := by
  induction rest generalizing line with
  | nil => exact le_rfl
  | cons next rest ih =>
      rw [joinLine]
      split
      · exact (ih _).trans (Nat.le_succ _)
      · exact le_rfl

/-- Joining makes no text longer. -/
theorem joinLine_flatten_length (line : Line) (rest : List Line) :
    (joinLine line rest).1.length + (joinLine line rest).2.flatten.length ≤
      line.length + rest.flatten.length := by
  induction rest generalizing line with
  | nil => exact le_rfl
  | cons next rest ih =>
      rw [joinLine]
      split
      · refine (ih _).trans ?_
        simp only [List.length_append, List.length_take, List.flatten_cons]
        omega
      · exact le_rfl

/-- The line that was joined does not go on, unless the file ends. -/
theorem joinLine_settled (line : Line) (rest : List Line) :
    (joinLine line rest).2 = [] ∨ continues (joinLine line rest).1 = false := by
  induction rest generalizing line with
  | nil => exact Or.inl rfl
  | cons next rest ih =>
      rw [joinLine]
      split
      · exact ih _
      next h => exact Or.inr (by simpa using h)

theorem joinLine_of_settled (h : rest = [] ∨ continues line = false) :
    joinLine line rest = (line, rest) := by
  cases rest with
  | nil => rfl
  | cons next rest =>
      rcases h with h | h
      · cases h
      · rw [joinLine, h]
        rfl

theorem joinLines_of_settled (h : Settled file) : joinLines file = file := by
  induction file with
  | nil => rfl
  | cons line rest ih =>
      show joinFrom line rest = line :: rest
      rw [joinFrom_eq, joinLine_of_settled h.1, ih h.2]

theorem detectBrace_suffix (h : detectBrace file = some rest) : rest <:+ file := by
  induction file with
  | nil => cases h
  | cons line file ih =>
      rw [detectBrace] at h
      split at h
      · exact (ih h).trans (List.suffix_cons line file)
      · split at h
        · obtain rfl := Option.some.inj h
          exact List.suffix_cons line _
        · cases h

theorem Settled.suffix (h : Settled file) (hs : rest <:+ file) : Settled rest := by
  induction file with
  | nil =>
      rw [List.suffix_nil.mp hs]
      exact trivial
  | cons line file ih =>
      rcases List.suffix_cons_iff.mp hs with rfl | hs
      · exact h
      · exact ih h.2 hs

/-! ## Blanks -/

theorem mem_dropWhile {α : Type} {p : α → Bool} {a : α} {l : List α} (h : a ∈ l)
    (ha : p a = false) : a ∈ l.dropWhile p := by
  rw [← List.takeWhile_append_dropWhile (p := p) (l := l), List.mem_append] at h
  rcases h with h | h
  · have htake := List.mem_takeWhile_imp h
    rw [ha] at htake
    cases htake
  · exact h

theorem mem_stripWhitespace {a : Char} (h : a ∈ line) (ha : isSpace a = false) :
    a ∈ stripWhitespace line := by
  unfold stripWhitespace List.rdropWhile
  rw [List.mem_reverse]
  refine mem_dropWhile ?_ ha
  rw [List.mem_reverse]
  exact mem_dropWhile h ha

/-- The newline is a blank like others. -/
theorem lineText_eq (line : Line) : lineText line = stripWhitespace line := by
  unfold lineText
  split
  next hlast =>
    obtain ⟨l, rfl⟩ := List.getLast?_eq_some_iff.mp hlast
    have hspace : isSpace newline = true := by decide
    unfold stripWhitespace
    rw [List.dropLast_concat, List.dropWhile_append]
    split
    next hall =>
      rw [List.isEmpty_iff.mp hall, List.dropWhile_cons_of_pos hspace]
      rfl
    next => rw [List.rdropWhile_concat_pos _ _ _ hspace]
  next => rfl

/-- A line that goes on holds a backslash, so it is neither blank nor a brace. -/
theorem not_continues (h : backslash ∉ stripWhitespace line) : continues line = false := by
  by_contra hc
  rw [Bool.not_eq_false] at hc
  obtain ⟨-, hend, -⟩ := of_decide_eq_true hc
  refine h (mem_stripWhitespace ?_ (by decide))
  refine List.mem_of_mem_drop (i := line.length - 2) ?_
  rw [hend]
  exact List.mem_cons_self

theorem joinLines_cons (h : continues line = false) :
    joinLines (line :: rest) = line :: joinLines rest := by
  show joinFrom line rest = _
  rw [joinFrom_eq, joinLine_of_settled (Or.inr h)]

/-- A brace that is found among the lines of the file is one of the joined lines. -/
theorem detectBrace_joinLines (h : detectBrace file = some rest) :
    (detectBrace (joinLines file)).isSome := by
  induction file with
  | nil => cases h
  | cons line file ih =>
      rw [detectBrace] at h
      by_cases hblank : stripWhitespace line = []
      · rw [if_pos hblank] at h
        have hgoes : continues line = false := not_continues (by rw [hblank]; simp)
        rw [joinLines_cons hgoes, detectBrace, if_pos hblank]
        exact ih h
      · rw [if_neg hblank] at h
        by_cases hbrace : stripWhitespace line = [openBrace]
        · have hgoes : continues line = false := not_continues (by rw [hbrace]; decide)
          rw [joinLines_cons hgoes, detectBrace, if_neg hblank, if_pos hbrace]
          rfl
        · rw [if_neg hbrace] at h
          cases h

end Joining

/-! ## What is found in a file -/

section Scan

variable {line : Line} {file rest : List Line} {n : Nat}

theorem scan_nil (n : Nat) : scan n [] = ([], []) := by
  cases n with
  | zero => rfl
  | succ n => rfl

/-- A line that is skipped. -/
theorem scan_skipped (h : isSkipped (lineText (joinLine line rest).1) = true) :
    scan (n + 1) (line :: rest) = ((scan n (joinLine line rest).2).1,
      (joinLine line rest).1 :: (scan n (joinLine line rest).2).2) := by
  rw [scan, getlineWithCont]
  dsimp only
  rw [if_pos h]

/-- The brace that is looked for after a line. -/
def braceAfter (text : Line) (rest : List Line) : Option (List Line) :=
  if takesBrace text then detectBrace rest else none

/-- A command line. -/
theorem scan_command (h : isSkipped (lineText (joinLine line rest).1) = false) :
    scan (n + 1) (line :: rest) =
      let text := lineText (joinLine line rest).1
      let brace := braceAfter text (joinLine line rest).2
      let r := scan n (brace.getD (joinLine line rest).2)
      ((text, brace.isSome) :: r.1, (joinLine line rest).1 :: r.2) := by
  rw [scan, getlineWithCont]
  dsimp only
  rw [if_neg (by rw [h]; exact Bool.false_ne_true)]
  rfl

theorem braceAfter_suffix (text : Line) (rest : List Line) :
    (braceAfter text rest).getD rest <:+ rest := by
  unfold braceAfter
  split
  · cases hb : detectBrace rest with
    | none => exact List.suffix_rfl
    | some rest' => exact detectBrace_suffix hb
  · exact List.suffix_rfl

theorem commandTexts_cons (line : Line) (file : List Line) : commandTexts (line :: file) =
    if isSkipped (lineText line) then commandTexts file
    else lineText line :: commandTexts file := by
  unfold commandTexts
  rw [List.map_cons, List.filter_cons]
  cases isSkipped (lineText line) <;> rfl

/-- The commands are the command lines among the lines that are copied. -/
theorem scan_texts (n : Nat) (file : List Line) :
    (scan n file).1.map Prod.fst = commandTexts (scan n file).2 := by
  induction n generalizing file with
  | zero => rfl
  | succ n ih =>
      cases file with
      | nil => rfl
      | cons line rest =>
          cases hskip : isSkipped (lineText (joinLine line rest).1) with
          | true =>
              rw [scan_skipped hskip, commandTexts_cons, if_pos hskip]
              exact ih _
          | false =>
              rw [scan_command hskip, commandTexts_cons, hskip]
              dsimp only
              rw [List.map_cons, ih]
              rfl

/-- **Nothing is joined twice**: of the lines that are copied only the last may go on. -/
theorem settled_scan (n : Nat) (file : List Line) : Settled (scan n file).2 := by
  induction n generalizing file with
  | zero => exact trivial
  | succ n ih =>
      cases file with
      | nil => exact trivial
      | cons line rest =>
          have hlast : ∀ r, r <:+ (joinLine line rest).2 →
              (scan n r).2 = [] ∨ continues (joinLine line rest).1 = false := by
            intro r hr
            rcases joinLine_settled line rest with hend | hgoes
            · rw [hend] at hr
              rw [List.suffix_nil.mp hr, scan_nil]
              exact Or.inl rfl
            · exact Or.inr hgoes
          cases hskip : isSkipped (lineText (joinLine line rest).1) with
          | true =>
              rw [scan_skipped hskip]
              exact ⟨hlast _ List.suffix_rfl, ih _⟩
          | false =>
              rw [scan_command hskip]
              exact ⟨hlast _ (braceAfter_suffix _ _), ih _⟩

/-- **Where the braces are attached** the lines that are copied are those of the file, and no brace
is added. -/
theorem scan_of_attached (hn : file.length ≤ n) (h : BracesAttached (joinLines file)) :
    scan n file = ((commandTexts (joinLines file)).map fun text => (text, false),
      joinLines file) := by
  induction n generalizing file with
  | zero =>
      rw [List.length_eq_zero_iff.mp (Nat.le_zero.mp hn)]
      rfl
  | succ n ih =>
      cases file with
      | nil => rfl
      | cons line rest =>
          have hjoin : joinLines (line :: rest) =
              (joinLine line rest).1 :: joinLines (joinLine line rest).2 := joinFrom_eq line rest
          rw [hjoin] at h ⊢
          have hrest : (joinLine line rest).2.length ≤ n :=
            (joinLine_length line rest).trans (Nat.le_of_succ_le_succ hn)
          cases hskip : isSkipped (lineText (joinLine line rest).1) with
          | true =>
              rw [scan_skipped hskip, ih hrest h.2, commandTexts_cons, if_pos hskip]
          | false =>
              -- a brace in the file would be one among the joined lines
              have hnone : braceAfter (lineText (joinLine line rest).1) (joinLine line rest).2 =
                  none := by
                unfold braceAfter
                split
                next htakes =>
                  have hjoined := h.1 hskip htakes
                  cases hb : detectBrace (joinLine line rest).2 with
                  | none => rfl
                  | some r =>
                      have hsome := detectBrace_joinLines hb
                      rw [hjoined] at hsome
                      cases hsome
                next => rfl
              rw [scan_command hskip, commandTexts_cons, hskip]
              dsimp only
              rw [hnone, Option.getD_none, ih hrest h.2]
              rfl

/-- Where no brace is added, the lines that are copied are those of the file. -/
theorem scan_lines (hn : file.length ≤ n) (h : ∀ c ∈ (scan n file).1, c.2 = false) :
    (scan n file).2 = joinLines file := by
  induction n generalizing file with
  | zero =>
      rw [List.length_eq_zero_iff.mp (Nat.le_zero.mp hn)]
      rfl
  | succ n ih =>
      cases file with
      | nil => rfl
      | cons line rest =>
          have hjoin : joinLines (line :: rest) =
              (joinLine line rest).1 :: joinLines (joinLine line rest).2 := joinFrom_eq line rest
          have hrest : (joinLine line rest).2.length ≤ n :=
            (joinLine_length line rest).trans (Nat.le_of_succ_le_succ hn)
          rw [hjoin]
          cases hskip : isSkipped (lineText (joinLine line rest).1) with
          | true =>
              rw [scan_skipped hskip] at h ⊢
              rw [ih hrest h]
          | false =>
              rw [scan_command hskip] at h ⊢
              have hnone := h _ List.mem_cons_self
              dsimp only at hnone h ⊢
              rw [Option.isSome_eq_false_iff, Option.isNone_iff_eq_none] at hnone
              rw [hnone] at h ⊢
              rw [Option.getD_none] at h ⊢
              rw [ih hrest fun c hc => h c (List.mem_cons_of_mem _ hc)]

/-- The lines after a brace hold one command line less at least. -/
theorem detectBrace_texts (h : detectBrace file = some rest) :
    (commandTexts rest).Sublist (commandTexts file) ∧
      (commandTexts rest).length < (commandTexts file).length := by
  induction file with
  | nil => cases h
  | cons line file ih =>
      rw [detectBrace] at h
      rw [commandTexts_cons, lineText_eq]
      by_cases hblank : stripWhitespace line = []
      · rw [if_pos hblank] at h
        have hskip : isSkipped (stripWhitespace line) = true := by
          rw [hblank]
          decide
        rw [if_pos hskip]
        exact ih h
      · rw [if_neg hblank] at h
        by_cases hbrace : stripWhitespace line = [openBrace]
        · rw [if_pos hbrace] at h
          obtain rfl := Option.some.inj h
          have hskip : isSkipped (stripWhitespace line) = false := by
            rw [hbrace]
            decide
          rw [hskip]
          exact ⟨List.sublist_cons_self _ _, Nat.lt_succ_self _⟩
        · rw [if_neg hbrace] at h
          cases h

/-- **Of settled lines** the commands found are some of the command lines, and not all of them when
a brace is added. -/
theorem scan_of_settled (hn : file.length ≤ n) (h : Settled file) :
    ((scan n file).1.map Prod.fst).Sublist (commandTexts file) ∧
      ((∃ c ∈ (scan n file).1, c.2 = true) →
        (scan n file).1.length < (commandTexts file).length) := by
  induction n generalizing file with
  | zero =>
      rw [List.length_eq_zero_iff.mp (Nat.le_zero.mp hn)]
      exact ⟨List.Sublist.refl _, fun ⟨c, hc, _⟩ => absurd hc List.not_mem_nil⟩
  | succ n ih =>
      cases file with
      | nil => exact ⟨List.Sublist.refl _, fun ⟨c, hc, _⟩ => absurd hc List.not_mem_nil⟩
      | cons line rest =>
          have hjoin := joinLine_of_settled h.1
          have hrest : rest.length ≤ n := Nat.le_of_succ_le_succ hn
          rw [commandTexts_cons]
          cases hskip : isSkipped (lineText line) with
          | true =>
              rw [scan_skipped (by rw [hjoin]; exact hskip), hjoin, if_pos rfl]
              exact ih hrest h.2
          | false =>
              rw [scan_command (by rw [hjoin]; exact hskip), hjoin]
              dsimp only
              rw [if_neg Bool.false_ne_true]
              cases hb : braceAfter (lineText line) rest with
              | none =>
                  obtain ⟨hsub, hless⟩ := ih hrest h.2
                  refine ⟨hsub.cons_cons _, ?_⟩
                  rintro ⟨c, hc, hc'⟩
                  rcases List.mem_cons.mp hc with rfl | hc
                  · cases hc'
                  · exact Nat.succ_lt_succ (hless ⟨c, hc, hc'⟩)
              | some rest' =>
                  have hfound : detectBrace rest = some rest' := by
                    unfold braceAfter at hb
                    split at hb
                    · exact hb
                    · cases hb
                  have hsuffix := detectBrace_suffix hfound
                  obtain ⟨hsub', hless'⟩ := detectBrace_texts hfound
                  obtain ⟨hsub, -⟩ := ih (hsuffix.length_le.trans hrest) (h.2.suffix hsuffix)
                  refine ⟨(hsub.trans hsub').cons_cons _, fun _ => Nat.succ_lt_succ ?_⟩
                  have hle := hsub.length_le
                  rw [List.length_map] at hle
                  exact hle.trans_lt hless'

/-- On settled lines, no brace is added only where the braces are attached. -/
theorem attached_of_scan (hn : file.length ≤ n) (hs : Settled file)
    (h : ∀ c ∈ (scan n file).1, c.2 = false) : BracesAttached file := by
  induction n generalizing file with
  | zero =>
      rw [List.length_eq_zero_iff.mp (Nat.le_zero.mp hn)]
      exact trivial
  | succ n ih =>
      cases file with
      | nil => exact trivial
      | cons line rest =>
          have hjoin := joinLine_of_settled hs.1
          have hrest : rest.length ≤ n := Nat.le_of_succ_le_succ hn
          cases hskip : isSkipped (lineText line) with
          | true =>
              rw [scan_skipped (by rw [hjoin]; exact hskip), hjoin] at h
              refine ⟨fun hcommand => ?_, ih hrest hs.2 h⟩
              rw [hskip] at hcommand
              cases hcommand
          | false =>
              rw [scan_command (by rw [hjoin]; exact hskip), hjoin] at h
              have hnone := h _ List.mem_cons_self
              dsimp only at hnone h
              rw [Option.isSome_eq_false_iff, Option.isNone_iff_eq_none] at hnone
              rw [hnone, Option.getD_none] at h
              refine ⟨fun _ htakes => ?_, ih hrest hs.2 fun c hc => h c (List.mem_cons_of_mem _ hc)⟩
              unfold braceAfter at hnone
              rwa [if_pos htakes] at hnone

end Scan

/-! ## The text that is stored -/

section Stored

variable {line : Line} {file rest : List Line}

theorem Lined.suffix (h : Lined newline file) (hs : rest <:+ file) : Lined newline rest := by
  induction h with
  | nil =>
      rw [List.suffix_nil.mp hs]
      exact .nil
  | @unfinished m hne hm =>
      rcases List.suffix_cons_iff.mp hs with rfl | hs
      · exact .unfinished hne hm
      · rw [List.suffix_nil.mp hs]
        exact .nil
  | @cons m ms hm hms ih =>
      rcases List.suffix_cons_iff.mp hs with rfl | hs
      · exact .cons hm hms
      · exact ih hs

/-- Lines may be left out after the first one. -/
theorem Lined.cons_suffix (h : Lined newline (line :: file)) (hs : rest <:+ file) :
    Lined newline (line :: rest) := by
  cases h with
  | unfinished hne hm =>
      rw [List.suffix_nil.mp hs]
      exact .unfinished hne hm
  | cons hm hms => exact .cons hm (Lined.suffix hms hs)

/-- The next line takes the place of the newline. -/
theorem Lined.join {next : Line} (h : Lined newline (line :: next :: rest))
    (hgoes : continues line = true) :
    Lined newline ((line.take (line.length - 2) ++ next) :: rest) := by
  obtain ⟨hlen, -, -⟩ := of_decide_eq_true hgoes
  cases h with
  | @cons m _ hm hms =>
      have hfront : newline ∉ (m ++ [newline]).take ((m ++ [newline]).length - 2) := by
        intro hin
        refine hm (List.mem_of_mem_take (i := (m ++ [newline]).length - 2) ?_)
        rwa [List.take_append_of_le_length (by simp)] at hin
      cases hms with
      | @unfinished m' hne hm' =>
          refine .unfinished (fun hnil => hne (List.append_eq_nil_iff.mp hnil).2) ?_
          rw [List.mem_append, not_or]
          exact ⟨hfront, hm'⟩
      | @cons m' _ hm' hms' =>
          rw [← List.append_assoc]
          refine .cons ?_ hms'
          rw [List.mem_append, not_or]
          exact ⟨hfront, hm'⟩

theorem lined_joinLine (h : Lined newline (line :: rest)) :
    Lined newline ((joinLine line rest).1 :: (joinLine line rest).2) := by
  induction rest generalizing line with
  | nil => exact h
  | cons next rest ih =>
      rw [joinLine]
      split
      next hgoes => exact ih (Lined.join h hgoes)
      next => exact h

/-- The lines that are copied are found again in the stored text. -/
theorem lined_scan (n : Nat) (h : Lined newline file) : Lined newline (scan n file).2 := by
  induction n generalizing file with
  | zero => exact .nil
  | succ n ih =>
      cases file with
      | nil => exact .nil
      | cons line rest =>
          have hjoined := lined_joinLine h
          have hput : ∀ r, r <:+ (joinLine line rest).2 →
              Lined newline ((joinLine line rest).1 :: (scan n r).2) := by
            intro r hr
            have hlined := Lined.cons_suffix hjoined hr
            have hmore := ih (Lined.suffix hjoined (hr.trans (List.suffix_cons _ _)))
            generalize (joinLine line rest).1 = first at hlined
            cases hlined with
            | unfinished hne hm =>
                rw [scan_nil]
                exact .unfinished hne hm
            | cons hm hms => exact .cons hm hmore
          cases hskip : isSkipped (lineText (joinLine line rest).1) with
          | true =>
              rw [scan_skipped hskip]
              exact hput _ List.suffix_rfl
          | false =>
              rw [scan_command hskip]
              exact hput _ (braceAfter_suffix _ _)

end Stored

/-! ## The run -/

section Run

variable {σ : Type} {h : ConfigCommands σ} {size : Option Nat}

/-- The calls for some commands. -/
def runCommands (h : ConfigCommands σ) (r : ConfigRun σ) (commands : List (Line × Bool)) :
    ConfigRun σ := commands.foldl (fun r c => r.line h c.1 c.2) r

/-- **Reading runs the commands of the file and stores its lines**: the copy never outgrows the
file. -/
theorem readLoop_eq (n : Nat) (file : List Line) (r : ConfigRun σ) (stored : List Char)
    (hsize : ∀ k, size = some k → stored.length + file.flatten.length ≤ k) :
    readLoop h size n file r stored = (runCommands h r (scan n file).1,
      if size.isSome then stored ++ (scan n file).2.flatten else stored) := by
  induction n generalizing file r stored with
  | zero => simp [readLoop, scan, runCommands]
  | succ n ih =>
      cases file with
      | nil => simp [readLoop, scan, runCommands, getlineWithCont]
      | cons line rest =>
          have hjoined := joinLine_flatten_length line rest
          have hfits : (size.any fun k => k < stored.length + (joinLine line rest).1.length) =
              false := by
            cases size with
            | none => rfl
            | some k =>
                have hk := hsize k rfl
                rw [List.flatten_cons, List.length_append] at hk
                simp only [Option.any_some, decide_eq_false_iff_not]
                omega
          have hnext : ∀ r', r' <:+ (joinLine line rest).2 → ∀ k, size = some k →
              (if size.isSome then stored ++ (joinLine line rest).1 else stored).length +
                r'.flatten.length ≤ k := by
            intro r' hr' k hk
            have hle := hsize k hk
            obtain ⟨front, hfront⟩ := hr'
            rw [← hfront] at hjoined
            rw [hk, Option.isSome_some, if_pos rfl]
            simp only [List.flatten_cons, List.flatten_append, List.length_append] at hle hjoined ⊢
            omega
          have hcopy : ∀ ls : List Line,
              (if size.isSome then (if size.isSome then stored ++ (joinLine line rest).1
                else stored) ++ ls.flatten else
                (if size.isSome then stored ++ (joinLine line rest).1 else stored)) =
              if size.isSome then stored ++ ((joinLine line rest).1 :: ls).flatten else stored := by
            intro ls
            cases size with
            | none => rfl
            | some k => simp
          rw [readLoop, getlineWithCont]
          dsimp only
          rw [hfits, if_neg Bool.false_ne_true]
          cases hskip : isSkipped (lineText (joinLine line rest).1) with
          | true =>
              rw [if_pos rfl, ih _ _ _ (hnext _ List.suffix_rfl), scan_skipped hskip, hcopy]
          | false =>
              rw [if_neg Bool.false_ne_true, scan_command hskip]
              have hrun := ih _ (r.line h (lineText (joinLine line rest).1)
                (braceAfter (lineText (joinLine line rest).1) (joinLine line rest).2).isSome) _
                (hnext _ (braceAfter_suffix (lineText (joinLine line rest).1) _))
              rw [hcopy] at hrun
              exact hrun

/-- What a file gives: the run over its commands, and for the main config the lines that are
copied. -/
theorem readConfig_eq (c : σ) (text : List Char) (main : Bool) :
    readConfig h c text main =
      (runCommands h { config := c, stack := [], success := true, calls := [] }
        (scan (lines newline text).length (lines newline text)).1,
        if main then (scan (lines newline text).length (lines newline text)).2.flatten else []) := by
  unfold readConfig
  dsimp only
  rw [readLoop_eq]
  · cases main <;> rfl
  · intro k hk
    rw [flatten_lines]
    cases main with
    | false => cases hk
    | true =>
        obtain rfl := Option.some.inj hk
        simp

/-- What is added to the calls: one call for each command, expanded in its block. -/
theorem calls_runCommands (r : ConfigRun σ) (commands : List (Line × Bool)) :
    ∃ calls, (runCommands h r commands).calls = r.calls ++ calls ∧
      List.Forall₂ (fun call c => call.2 = expandLine call.1 c.1 c.2) calls commands := by
  have hhandle : ∀ (r : ConfigRun σ) line status, (r.handle h line status).calls = r.calls := by
    intro r line status
    unfold ConfigRun.handle
    split <;> (try rfl)
    split <;> rfl
  induction commands generalizing r with
  | nil => exact ⟨[], (List.append_nil _).symm, .nil⟩
  | cons c commands ih =>
      obtain ⟨calls, hcalls, heach⟩ := ih (r.line h c.1 c.2)
      refine ⟨(r.stack.head?, expandLine r.stack.head? c.1 c.2) :: calls, ?_, .cons rfl heach⟩
      have hline : (r.line h c.1 c.2).calls =
          r.calls ++ [(r.stack.head?, expandLine r.stack.head? c.1 c.2)] := hhandle _ _ _
      calc (runCommands h r (c :: commands)).calls
          = (runCommands h (r.line h c.1 c.2) commands).calls := rfl
        _ = r.calls ++ ((r.stack.head?, expandLine r.stack.head? c.1 c.2) :: calls) := by
            rw [hcalls, hline, List.append_assoc]
            rfl

theorem expandLine_inj {block : Option Line} {line : Line} {brace : Bool}
    (heq : expandLine block line brace = expandLine block line false) : brace = false := by
  cases brace with
  | false => rfl
  | true =>
      have hlen := congrArg List.length heq
      simp [expandLine] at hlen

/-- The same calls for the same command lines: if one list of commands adds no brace, the other adds
none either. -/
theorem bare_of_same_calls {calls : List (Option Line × Line)} {l l' : List (Line × Bool)}
    (hl : List.Forall₂ (fun call c => call.2 = expandLine call.1 c.1 c.2) calls l)
    (hl' : List.Forall₂ (fun call c => call.2 = expandLine call.1 c.1 c.2) calls l')
    (hfst : l'.map Prod.fst = l.map Prod.fst) (hbare : ∀ d ∈ l', d.2 = false) :
    ∀ d ∈ l, d.2 = false := by
  induction hl generalizing l' with
  | nil => exact fun d hd => absurd hd List.not_mem_nil
  | @cons call d calls l hd _ ih =>
      cases hl' with
      | @cons _ d' _ l' hd' hrest =>
          rw [List.map_cons, List.map_cons, List.cons_eq_cons] at hfst
          have hd'bare := hbare d' List.mem_cons_self
          rw [hd', hfst.1, hd'bare] at hd
          intro e he
          rcases List.mem_cons.mp he with rfl | he
          · exact expandLine_inj hd.symm
          · exact ih hrest hfst.2 (fun d hd => hbare d (List.mem_cons_of_mem _ hd)) e he

/-- **The stored text reads like the file** when, with the continuation lines joined, no command
line has its brace on a later line, and only then. -/
theorem readConfig_stored_iff (h : ConfigCommands σ) (c : σ) (text : List Char) (main : Bool) :
    (readConfig h c (readConfig h c text true).2 main).1.calls =
        (readConfig h c text true).1.calls ↔
      BracesAttached (joinLines (lines newline text)) := by
  set file := lines newline text with hfile
  have hfirst : readConfig h c text true = (runCommands h
      { config := c, stack := [], success := true, calls := [] } (scan file.length file).1,
      (scan file.length file).2.flatten) := readConfig_eq c text true
  set stored := (scan file.length file).2 with hstored
  have hagain : lines newline stored.flatten = stored :=
    (lined_scan file.length (lined_lines text)).lines_flatten
  have hsettled : Settled stored := settled_scan file.length file
  have hjoined : joinLines stored = stored := joinLines_of_settled hsettled
  have hsecond : (readConfig h c stored.flatten main).1 = runCommands h
      { config := c, stack := [], success := true, calls := [] } (scan stored.length stored).1 := by
    rw [readConfig_eq, hagain]
  rw [hfirst]
  dsimp only
  rw [hsecond]
  constructor
  · intro hcalls
    obtain ⟨calls, hran, heach⟩ := calls_runCommands (h := h)
      { config := c, stack := [], success := true, calls := [] } (scan file.length file).1
    obtain ⟨calls', hran', heach'⟩ := calls_runCommands (h := h)
      { config := c, stack := [], success := true, calls := [] } (scan stored.length stored).1
    obtain rfl : calls' = calls := by
      rw [hran, hran'] at hcalls
      exact hcalls
    -- as many calls: so no brace was added the second time
    have htexts := scan_texts file.length file
    obtain ⟨hsub, hless⟩ := scan_of_settled (le_refl stored.length) hsettled
    have hlength : (scan stored.length stored).1.length = (commandTexts stored).length := by
      rw [← hstored] at htexts
      rw [← heach'.length_eq, heach.length_eq, ← htexts, List.length_map]
    have hsecondBare : ∀ d ∈ (scan stored.length stored).1, d.2 = false := by
      intro d hd
      by_contra hset
      exact absurd (hless ⟨d, hd, by simpa using hset⟩) (by rw [hlength]; exact lt_irrefl _)
    -- the same strings: so none was added the first time
    have hsame : (scan stored.length stored).1.map Prod.fst =
        (scan file.length file).1.map Prod.fst := by
      rw [htexts]
      exact hsub.eq_of_length (by rw [List.length_map, hlength])
    have hfirstBare : ∀ d ∈ (scan file.length file).1, d.2 = false :=
      bare_of_same_calls heach heach' hsame hsecondBare
    rw [← scan_lines le_rfl hfirstBare]
    exact attached_of_scan le_rfl hsettled hsecondBare
  · intro hattached
    have hscan := scan_of_attached le_rfl hattached
    have hkept : stored = joinLines file := by rw [hstored, hscan]
    have hagainBare : scan stored.length stored = scan file.length file := by
      have hsecondScan := scan_of_attached (le_refl stored.length)
        (by rw [hjoined, hkept]; exact hattached)
      rw [hsecondScan, hscan, hjoined, hkept]
    rw [hagainBare]

end Run

/-! ## A brace on its own line -/

/-- Commands that end in a brace begin a block of that name. -/
def blocksOnly : ConfigCommands Unit where
  command _ line :=
    ((), if line.getLast? = some openBrace then .block (line.takeWhile fun c => !isSpace c)
      else if line.getLast? = some closeBrace then .blockEnd
      else .success)
  commandsCommand _ _ := ((), .success)
  defer _ _ := ()
  clearBar _ := ()
  clearContext _ := ()

/-- A block of one command, with the brace on its own line. -/
def looseBrace : List Char :=
  "bar".toList ++ newline :: openBrace :: newline :: "mode dock".toList ++
    [newline, closeBrace, newline]

/-- The stored text has lost the brace, so its commands are in no block. -/
theorem readConfig_stored_looseBrace :
    (readConfig blocksOnly () looseBrace true).1.calls =
        [(none, "bar ".toList ++ [openBrace]), (some "bar".toList, "bar mode dock".toList),
          (some "bar".toList, "bar ".toList ++ [closeBrace])] ∧
      (readConfig blocksOnly () (readConfig blocksOnly () looseBrace true).2 true).1.calls =
        [(none, "bar".toList), (none, "mode dock".toList), (none, [closeBrace])] ∧
      (readConfig blocksOnly () (readConfig blocksOnly () looseBrace true).2 true).1.calls ≠
        (readConfig blocksOnly () looseBrace true).1.calls := by
  refine ⟨by decide +kernel, by decide +kernel, by decide +kernel⟩

end Swirl

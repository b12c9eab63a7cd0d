import Swirl.Common.Stringop

set_option autoImplicit false

/-! # Cutting commands apart

`argsep` cuts a text at delimiters, `split_args` cuts a command into its arguments. Both keep
whether they are within a string, within a character or behind a backslash. A place in the text is
told by what is between the start and the place, and by what follows it.
-/

namespace Swirl

def doubleQuote : Char := Char.ofNat 34
def apostrophe : Char := Char.ofNat 39

/-- `in_string`, `in_char` and `escaped` -/
structure Quotes where
  inString : Bool := false
  inChar : Bool := false
  escaped : Bool := false
  deriving DecidableEq, Repr

/-! ## `argsep` -/

/-- One of the characters `argsep_next_interesting` looks for. -/
def isInteresting (delim : List Char) (c : Char) : Bool :=
  c == doubleQuote || c == apostrophe || c == backslash || delim.contains c

/-- The variables of the loop: `piece` is the text from `start` to `end`, `rest` that from `end`
on. -/
structure Argsep where
  piece : List Char
  rest : List Char
  quotes : Quotes
  deriving DecidableEq, Repr

/-- A call begins. -/
def Argsep.start (text : List Char) : Argsep := { piece := [], rest := text, quotes := {} }

/-- What one turn of the loop comes to: another turn, the end of the piece at a delimiter, or the
end of the text. -/
inductive ArgsepTurn where
  | again (a : Argsep)
  | cut (piece rest : List Char) (matched : Char)
  | stop

/-- One turn of the loop of `argsep`. -/
def Argsep.turn (delim : List Char) (a : Argsep) : ArgsepTurn :=
  let skipped := a.rest.takeWhile fun c => !isInteresting delim c
  match a.rest.dropWhile fun c => !isInteresting delim c with
  | [] => .stop
  | c :: rest =>
      let q := if a.quotes.escaped && !skipped.isEmpty then { a.quotes with escaped := false }
        else a.quotes
      let piece := a.piece ++ skipped
      if c = doubleQuote ∧ !q.inChar ∧ !q.escaped then
        .again { piece := piece ++ [c], rest, quotes := { q with inString := !q.inString } }
      else if c = apostrophe ∧ !q.inString ∧ !q.escaped then
        .again { piece := piece ++ [c], rest, quotes := { q with inChar := !q.inChar } }
      else if c = backslash then
        .again { piece := piece ++ [c], rest, quotes := { q with escaped := !q.escaped } }
      else if !q.inString ∧ !q.inChar ∧ !q.escaped then
        -- the start moves behind a delimiter that nothing is before
        if piece.isEmpty then .again { piece := [], rest, quotes := q }
        else .cut piece rest c
      else
        .again { piece := a.piece ++ a.rest.take 1, rest := a.rest.drop 1, quotes := q }

theorem Argsep.turn_again_lt {delim : List Char} {a b : Argsep} (h : a.turn delim = .again b) :
    b.rest.length < a.rest.length := by
  unfold Argsep.turn at h
  dsimp only at h
  split at h
  · cases h
  next c rest hrest =>
    have hsuffix : rest.length < a.rest.length := by
      have hle := (List.dropWhile_suffix (l := a.rest) fun c => !isInteresting delim c).length_le
      rw [hrest, List.length_cons] at hle
      omega
    have hdrop : (a.rest.drop 1).length < a.rest.length := by
      rw [List.length_drop]
      omega
    split_ifs at h
    all_goals obtain rfl := ArgsepTurn.again.inj h
    all_goals first | exact hsuffix | exact hdrop

/-- The loop of `argsep`: the piece, with the rest of the text and the delimiter where one has
ended it. -/
def argsepLoop (delim : List Char) (a : Argsep) : List Char × Option (List Char × Char) :=
  match _h : a.turn delim with
  | .again b => argsepLoop delim b
  | .cut piece rest matched => (piece, some (rest, matched))
  | .stop => (a.piece ++ a.rest, none)
termination_by a.rest.length
decreasing_by exact Argsep.turn_again_lt _h

/-- `argsep` -/
def argsep (delim text : List Char) : List Char × Option (List Char × Char) :=
  argsepLoop delim (Argsep.start text)

theorem Argsep.turn_cut_lt {delim : List Char} {a : Argsep} {piece rest : List Char} {c : Char}
    (h : a.turn delim = .cut piece rest c) : rest.length < a.rest.length := by
  unfold Argsep.turn at h
  dsimp only at h
  split at h
  · cases h
  next c rest hrest =>
    have hle := (List.dropWhile_suffix (l := a.rest) fun c => !isInteresting delim c).length_le
    rw [hrest, List.length_cons] at hle
    split_ifs at h
    all_goals
      obtain ⟨-, rfl, -⟩ := ArgsepTurn.cut.inj h
      exact hle

theorem argsepLoop_lt {delim : List Char} {a : Argsep} {piece rest : List Char} {c : Char}
    (h : argsepLoop delim a = (piece, some (rest, c))) : rest.length < a.rest.length := by
  induction a using argsepLoop.induct delim with
  | case1 a b hturn ih =>
      rw [argsepLoop] at h
      split at h
      next hturn' =>
        obtain rfl := ArgsepTurn.again.inj (hturn.symm.trans hturn')
        exact (ih h).trans (Argsep.turn_again_lt hturn)
      next hturn' => cases hturn.symm.trans hturn'
      next hturn' => cases hturn.symm.trans hturn'
  | case2 a piece' rest' c' hturn =>
      rw [argsepLoop] at h
      split at h
      next hturn' => cases hturn.symm.trans hturn'
      next hturn' =>
        obtain ⟨rfl, rfl, rfl⟩ := ArgsepTurn.cut.inj (hturn.symm.trans hturn')
        obtain ⟨-, rfl, -⟩ : _ ∧ rest' = rest ∧ c' = c := by simpa using h
        exact Argsep.turn_cut_lt hturn
      next hturn' => cases hturn.symm.trans hturn'
  | case3 a hturn =>
      rw [argsepLoop] at h
      split at h
      next hturn' => cases hturn.symm.trans hturn'
      next hturn' => cases hturn.symm.trans hturn'
      next hturn' => cases h

/-- Calls of `argsep` until nothing is left: the pieces, each with the delimiter that ended it. -/
def argsepAll (delim text : List Char) : List (List Char × Option Char) :=
  match _h : argsep delim text with
  | (piece, some (rest, matched)) => (piece, some matched) :: argsepAll delim rest
  | (piece, none) => [(piece, none)]
termination_by text.length
decreasing_by exact argsepLoop_lt _h

/-! ## `split_args` -/

/-- The variables of the loop; `token` is the text from `start` to `end`. -/
structure SplitArgs where
  argv : List (List Char) := []
  token : List Char := []
  inToken : Bool := false
  inBrackets : Bool := false
  quotes : Quotes := {}

/-- The loop of `split_args` on one character that is not the end of the text. -/
def SplitArgs.read (a : SplitArgs) (c : Char) : SplitArgs :=
  let q := a.quotes
  if !a.inToken ∧ isSpace c then a
  else if c = doubleQuote ∧ !q.inChar ∧ !q.escaped then
    { a with
      inToken := true, token := a.token ++ [c]
      quotes := { q with inString := !q.inString, escaped := false } }
  else if c = apostrophe ∧ !q.inString ∧ !q.escaped then
    { a with
      inToken := true, token := a.token ++ [c]
      quotes := { q with inChar := !q.inChar, escaped := false } }
  else if c = '[' ∧ !q.inString ∧ !q.inChar ∧ !a.inBrackets ∧ !q.escaped then
    { a with
      inToken := true, token := a.token ++ [c], inBrackets := true
      quotes := { q with escaped := false } }
  else if c = ']' ∧ !q.inString ∧ !q.inChar ∧ a.inBrackets ∧ !q.escaped then
    { a with
      inToken := true, token := a.token ++ [c], inBrackets := false
      quotes := { q with escaped := false } }
  else if c = backslash then
    { a with
      inToken := true, token := a.token ++ [c], quotes := { q with escaped := !q.escaped } }
  else if !q.inString ∧ !q.inChar ∧ !a.inBrackets ∧ !q.escaped ∧ isSpace c then
    { a with
      argv := if a.token.isEmpty then a.argv else a.argv ++ [a.token]
      token := [], inToken := false, quotes := { q with escaped := false } }
  else
    { a with
      inToken := true, token := a.token ++ [c], quotes := { q with escaped := false } }

/-- `split_args` on some of the text. -/
def SplitArgs.readAll (text : List Char) : SplitArgs := text.foldl SplitArgs.read {}

/-- `split_args` -/
def splitArgs (text : List Char) : List (List Char) :=
  let a := SplitArgs.readAll text
  if a.token.isEmpty then a.argv else a.argv ++ [a.token]

end Swirl

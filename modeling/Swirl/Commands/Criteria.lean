import Swirl.Common.Stringop
import Swirl.Lib.Faults

set_option autoImplicit false

/-! # Criteria

`criteria_parse` reads a criteria string such as `[title="foo" floating]`. A pattern is either
`__focused__` or a regular expression, which the library compiles; its type is a parameter here.
-/

namespace Swirl

/-! ## Patterns -/

/-- The regular expression library: `pcre2_compile`, which gives a regular expression or the text of
an error, and `pcre2_match`. -/
structure Pcre (ρ : Type) where
  compile : String → Except String ρ
  run : ρ → String → Int

/-- `enum pattern_type` -/
inductive PatternType
  | pcre2
  | focused
  deriving DecidableEq

/-- `struct pattern` -/
structure Pattern (ρ : Type) where
  matchType : PatternType
  regex : Option ρ

/-- The criteria that are patterns, by what they are matched with. -/
inductive PatternField
  | title
  | shell
  | appId
  | conMark
  | «class»
  | «instance»
  | windowRole
  | workspace
  | sandboxEngine
  | sandboxAppId
  | sandboxInstanceId
  | tag
  deriving DecidableEq

/-- The window types of `enum atom_name`. `ATOM_LAST` is none of them. -/
inductive WindowType
  | normal
  | dialog
  | utility
  | toolbar
  | splash
  | menu
  | dropdownMenu
  | popupMenu
  | tooltip
  | notification
  deriving DecidableEq

/-- `urgent` of `struct criteria`, without the 0. -/
inductive UrgentOrder
  | oldest
  | latest
  deriving DecidableEq

/-- `struct criteria`, as `criteria_parse` fills it in. -/
structure Criteria (ρ : Type) where
  pattern : PatternField → Option (Pattern ρ)
  conId : Nat
  id : Nat
  windowType : Option WindowType
  all : Bool
  floating : Bool
  tiling : Bool
  urgent : Option UrgentOrder
  pid : Int

/-- The criteria of `calloc`, with the default window type. -/
def Criteria.init (ρ : Type) : Criteria ρ :=
  ⟨fun _ => none, 0, 0, none, false, false, false, none, 0⟩

/-- The fields that are patterns. -/
def patternFields : List PatternField :=
  [.title, .shell, .appId, .conMark, .class, .instance, .windowRole, .workspace, .sandboxEngine,
    .sandboxAppId, .sandboxInstanceId, .tag]

section Parsing

variable {ρ : Type}

/-- `criteria_is_empty` -/
def criteriaIsEmpty (criteria : Criteria ρ) : Bool :=
  patternFields.all (fun field => (criteria.pattern field).isNone) && !criteria.all &&
    decide (criteria.conId = 0) && decide (criteria.id = 0) && criteria.windowType.isNone &&
    !criteria.floating && !criteria.tiling && criteria.urgent.isNone && decide (criteria.pid = 0)

/-- `pattern_create`, with `generate_regex`. -/
def patternCreate (pcre : Pcre ρ) (value : String) : Except String (Pattern ρ) :=
  if value = "__focused__" then .ok ⟨.focused, none⟩
  else
    match pcre.compile value with
    | .ok regex => .ok ⟨.pcre2, some regex⟩
    | .error message => .error ("Regex compilation for '" ++ value ++ "' failed: " ++ message)

/-- A pattern for a field. -/
def Criteria.setPattern (criteria : Criteria ρ) (pcre : Pcre ρ) (field : PatternField)
    (value : String) : Except String (Criteria ρ) := do
  let pattern ← patternCreate pcre value
  pure { criteria with pattern := Function.update criteria.pattern field (some pattern) }

/-- `strtoul` in base ten, with an `unsigned long` of 64 bits: the value and what follows it. -/
def strtoul (s : List Char) : Nat × List Char :=
  let t := s.dropWhile isSpace
  let negative := t.head? == some '-'
  let t := if t.head? == some '-' || t.head? == some '+' then t.tail else t
  let digits := t.takeWhile Char.isDigit
  let value := (digitsValue digits).toNat
  if digits = [] then (0, s)
  else
    (if 2 ^ 64 ≤ value then 2 ^ 64 - 1
      else if negative then (2 ^ 64 - value) % 2 ^ 64 else value, t.dropWhile Char.isDigit)

/-- A value that has to be a number. -/
def numericValue (value : String) (message : String) : Except String Nat :=
  if (strtoul value.toList).2 ≠ [] then .error message else .ok (strtoul value.toList).1

/-- `parse_window_type` -/
def parseWindowType (type : String) : Option WindowType :=
  if sameIgnoringCase type "normal" then some .normal
  else if sameIgnoringCase type "dialog" then some .dialog
  else if sameIgnoringCase type "utility" then some .utility
  else if sameIgnoringCase type "toolbar" then some .toolbar
  else if sameIgnoringCase type "splash" then some .splash
  else if sameIgnoringCase type "menu" then some .menu
  else if sameIgnoringCase type "dropdown_menu" then some .dropdownMenu
  else if sameIgnoringCase type "popup_menu" then some .popupMenu
  else if sameIgnoringCase type "tooltip" then some .tooltip
  else if sameIgnoringCase type "notification" then some .notification
  else none

/-- `enum criteria_token`, without `T_INVALID`. -/
inductive CriteriaToken
  | all
  | floating
  | tiling
  | conId
  | id
  | windowType
  | urgent
  | pid
  | pattern (field : PatternField)
  deriving DecidableEq

/-- `token_from_name` -/
def tokenFromName (name : String) : Option CriteriaToken :=
  if name = "all" then some .all
  else if name = "app_id" then some (.pattern .appId)
  else if name = "con_id" then some .conId
  else if name = "con_mark" then some (.pattern .conMark)
  else if name = "class" then some (.pattern .class)
  else if name = "id" then some .id
  else if name = "instance" then some (.pattern .instance)
  else if name = "window_role" then some (.pattern .windowRole)
  else if name = "window_type" then some .windowType
  else if name = "shell" then some (.pattern .shell)
  else if name = "title" then some (.pattern .title)
  else if name = "urgent" then some .urgent
  else if name = "workspace" then some (.pattern .workspace)
  else if name = "tiling" then some .tiling
  else if name = "floating" then some .floating
  else if name = "pid" then some .pid
  else if name = "sandbox_engine" then some (.pattern .sandboxEngine)
  else if name = "sandbox_app_id" then some (.pattern .sandboxAppId)
  else if name = "sandbox_instance_id" then some (.pattern .sandboxInstanceId)
  else if name = "tag" then some (.pattern .tag)
  else none

/-- The value of `urgent`. -/
def parseUrgent (value : String) : Except String UrgentOrder :=
  if value = "latest" ∨ value = "newest" ∨ value = "last" ∨ value = "recent" then .ok .latest
  else if value = "oldest" ∨ value = "first" then .ok .oldest
  else
    .error ("The value for 'urgent' must be 'first', 'last', " ++
      "'latest', 'newest', 'oldest' or 'recent'")

/-- The `switch` of `parse_token`, for a token with a value. `focusId` is the id of the focused
container, or 0. -/
def parseTokenValue (pcre : Pcre ρ) (focusId : Nat) (criteria : Criteria ρ) (value : String) :
    CriteriaToken → Except String (Criteria ρ)
  | .all => .ok { criteria with all := true }
  | .floating => .ok { criteria with floating := true }
  | .tiling => .ok { criteria with tiling := true }
  | .conId =>
      if value = "__focused__" then .ok { criteria with conId := focusId % 2 ^ 32 }
      else do
        let conId ← numericValue value
          "The value for 'con_id' should be '__focused__' or numeric"
        pure { criteria with conId := conId % 2 ^ 32 }
  | .id => do
      let id ← numericValue value "The value for 'id' should be numeric"
      pure { criteria with id := id % 2 ^ 32 }
  | .windowType => .ok { criteria with windowType := parseWindowType value }
  | .urgent => do
      let urgent ← parseUrgent value
      pure { criteria with urgent := some urgent }
  | .pid => do
      let pid ← numericValue value "The value for 'pid' should be numeric"
      pure { criteria with pid := toInt pid }
  | .pattern field => criteria.setPattern pcre field value

/-- `parse_token` -/
def parseToken (pcre : Pcre ρ) (focusId : Nat) (criteria : Criteria ρ) (name : String)
    (value : Option String) : Except String (Criteria ρ) :=
  match tokenFromName name, value with
  | none, _ => .error ("Token '" ++ name ++ "' is not recognized")
  | some token, some value => parseTokenValue pcre focusId criteria value token
  -- a value is required, unless the token is all, floating or tiling
  | some .all, none => .ok { criteria with all := true }
  | some .floating, none => .ok { criteria with floating := true }
  | some .tiling, none => .ok { criteria with tiling := true }
  | some _, none => .error ("Token '" ++ name ++ "' requires a value")

/-- `skip_spaces` -/
def skipSpaces (head : List Char) : List Char := head.dropWhile (· == ' ')

/-- `unescape` -/
def unescape : List Char → List Char
  | [] => []
  | '\\' :: '"' :: value => '"' :: unescape value
  | c :: value => c :: unescape value

/-- The characters of a token name. -/
def isNameChar (c : Char) : Bool := (decide ('a' ≤ c) && decide (c ≤ 'z')) || c == '_'

/-- A value in quotes, from behind the opening one: the value and what follows the closing quote,
which is not behind a backslash. `prev` is the character before. -/
def quotedValue (prev : Char) : List Char → Option (List Char × List Char)
  | [] => none
  | c :: head =>
      if c = '"' ∧ prev ≠ '\\' then some ([], head)
      else
        match quotedValue c head with
        | some (value, rest) => some (c :: value, rest)
        | none => none

/-- A value, from behind the equals sign. -/
def tokenValue (head : List Char) : Option (List Char × List Char) :=
  match skipSpaces head with
  | '"' :: head => quotedValue '"' head
  | head =>
      some (head.takeWhile fun c => c != ' ' && c != ']', head.dropWhile fun c => c != ' ' && c != ']')

/-- One turn of the loop in `criteria_parse`: a token with its value, and what follows it. -/
def criteriaToken (pcre : Pcre ρ) (focusId : Nat) (criteria : Criteria ρ) (head : List Char) :
    Except String (Criteria ρ × List Char) :=
  let head := skipSpaces head
  let name := String.ofList (head.takeWhile isNameChar)
  match skipSpaces (head.dropWhile isNameChar) with
  | '=' :: head =>
      match tokenValue head with
      | none => .error "Quote mismatch in criteria"
      | some (value, head) => do
          let criteria ← parseToken pcre focusId criteria name
            (some (String.ofList (unescape value)))
          pure (criteria, skipSpaces head)
  | head => do
      let criteria ← parseToken pcre focusId criteria name none
      pure (criteria, skipSpaces head)

/-- The loop of `criteria_parse`. Every turn takes some characters, so that there are never more
turns than characters. -/
def criteriaTokens (pcre : Pcre ρ) (focusId : Nat) :
    Nat → Criteria ρ → List Char → Except String (Criteria ρ × List Char)
  | 0, criteria, head => .ok (criteria, head)
  | turns + 1, criteria, head =>
      if head = [] ∨ head.head? = some ']' then .ok (criteria, head)
      else do
        let next ← criteriaToken pcre focusId criteria head
        criteriaTokens pcre focusId turns next.1 next.2

/-- `criteria_parse` -/
def criteriaParse (pcre : Pcre ρ) (focusId : Nat) (raw : String) : Except String (Criteria ρ) :=
  match skipSpaces raw.toList with
  | '[' :: head => do
      let parsed ← criteriaTokens pcre focusId head.length (Criteria.init ρ) head
      if parsed.2.head? ≠ some ']' then .error "No closing brace found in criteria"
      else if criteriaIsEmpty parsed.1 then .error "Criteria is empty"
      else .ok parsed.1
  | _ => .error "No criteria"

end Parsing

/-! ## What is accepted -/

section Accepted

open Lib

variable {ρ : Type} {pcre : Pcre ρ} {focusId : Nat} {criteria : Criteria ρ}

/-- A pattern that is not `__focused__` has a regular expression. -/
def Criteria.WellFormed (criteria : Criteria ρ) : Prop :=
  ∀ field pattern, criteria.pattern field = some pattern → pattern.matchType = .pcre2 →
    pattern.regex.isSome = true

/-- A value that comes out of a successful parse. -/
def Accepted (P : Criteria ρ → Prop) : Except String (Criteria ρ) → Prop := Ends P fun _ => True

theorem wellFormed_init : (Criteria.init ρ).WellFormed := fun _ _ h => by cases h

/-- The other fields do not matter. -/
theorem Criteria.WellFormed.congr {criteria' : Criteria ρ} (h : criteria.WellFormed)
    (hpattern : criteria'.pattern = criteria.pattern) : criteria'.WellFormed := by
  unfold Criteria.WellFormed
  rw [hpattern]
  exact h

theorem setPattern_wellFormed (h : criteria.WellFormed) (field : PatternField) (value : String) :
    Accepted Criteria.WellFormed (criteria.setPattern pcre field value) := by
  have hcreate : Ends (fun pattern : Pattern ρ => pattern.matchType = .pcre2 →
      pattern.regex.isSome = true) (fun _ => True) (patternCreate pcre value) := by
    unfold patternCreate
    split_ifs
    · exact fun hpcre => by cases hpcre
    · cases pcre.compile value with
      | ok regex => exact fun _ => rfl
      | error message => exact trivial
  unfold Criteria.setPattern
  refine hcreate.bind fun pattern hpattern => Ends.pure ?_
  intro field' pattern' hfield' hpcre
  dsimp only at hfield'
  by_cases hsame : field' = field
  · subst hsame
    rw [Function.update_self] at hfield'
    obtain rfl := Option.some.inj hfield'
    exact hpattern hpcre
  · rw [Function.update_of_ne hsame] at hfield'
    exact h field' pattern' hfield' hpcre

theorem parseTokenValue_wellFormed (h : criteria.WellFormed) (value : String)
    (token : CriteriaToken) :
    Accepted Criteria.WellFormed (parseTokenValue pcre focusId criteria value token) := by
  have hany : ∀ {α : Type} (x : Except String α), Ends (fun _ => True) (fun _ => True) x := by
    intro α x
    cases x <;> exact trivial
  cases token with
  | all => exact h
  | floating => exact h
  | tiling => exact h
  | conId =>
      unfold parseTokenValue
      split_ifs
      · exact h
      · exact (hany _).bind fun _ _ => Ends.pure (h.congr rfl)
  | id =>
      unfold parseTokenValue
      exact (hany _).bind fun _ _ => Ends.pure (h.congr rfl)
  | windowType => exact h
  | urgent =>
      unfold parseTokenValue
      exact (hany _).bind fun _ _ => Ends.pure (h.congr rfl)
  | pid =>
      unfold parseTokenValue
      exact (hany _).bind fun _ _ => Ends.pure (h.congr rfl)
  | pattern field => exact setPattern_wellFormed h field value

theorem parseToken_wellFormed (h : criteria.WellFormed) (name : String) (value : Option String) :
    Accepted Criteria.WellFormed (parseToken pcre focusId criteria name value) := by
  unfold parseToken
  split
  · exact trivial
  · exact parseTokenValue_wellFormed h _ _
  · exact h
  · exact h
  · exact h
  · exact trivial

theorem criteriaToken_wellFormed (h : criteria.WellFormed) (head : List Char) :
    Ends (fun next : Criteria ρ × List Char => next.1.WellFormed) (fun _ => True)
      (criteriaToken pcre focusId criteria head) := by
  unfold criteriaToken
  dsimp only
  split
  · split
    · exact trivial
    · exact Ends.bind (parseToken_wellFormed h _ _) fun _ h' => Ends.pure h'
  · exact Ends.bind (parseToken_wellFormed h _ _) fun _ h' => Ends.pure h'

theorem criteriaTokens_wellFormed (h : criteria.WellFormed) (turns : Nat) (head : List Char) :
    Ends (fun parsed : Criteria ρ × List Char => parsed.1.WellFormed) (fun _ => True)
      (criteriaTokens pcre focusId turns criteria head) := by
  induction turns generalizing criteria head with
  | zero => exact h
  | succ turns ih =>
      unfold criteriaTokens
      split_ifs
      · exact h
      · exact (criteriaToken_wellFormed h head).bind fun next hnext => ih hnext next.2

/-- What `criteria_parse` accepts is well formed. -/
theorem criteriaParse_wellFormed {raw : String}
    (h : criteriaParse pcre focusId raw = .ok criteria) : criteria.WellFormed := by
  have hends : Ends Criteria.WellFormed (fun _ => True) (criteriaParse pcre focusId raw) := by
    unfold criteriaParse
    split
    · refine (criteriaTokens_wellFormed wellFormed_init _ _).bind fun parsed hparsed => ?_
      split_ifs
      · exact trivial
      · exact trivial
      · exact hparsed
    · exact trivial
  rw [h] at hends
  exact hends

end Accepted

/-! ## The turns of the loop -/

section Turns

open Lib

theorem skipSpaces_length (head : List Char) : (skipSpaces head).length ≤ head.length :=
  (List.dropWhile_sublist _).length_le

theorem quotedValue_length {prev : Char} {head value rest : List Char}
    (h : quotedValue prev head = some (value, rest)) : rest.length < head.length := by
  induction head generalizing prev value with
  | nil => cases h
  | cons c head ih =>
      unfold quotedValue at h
      split_ifs at h with hquote
      · obtain ⟨-, rfl⟩ := Prod.mk.inj (Option.some.inj h)
        exact Nat.lt_succ_self _
      · cases hrest : quotedValue c head with
        | none =>
            rw [hrest] at h
            cases h
        | some found =>
            rw [hrest] at h
            obtain ⟨-, rfl⟩ := Prod.mk.inj (Option.some.inj h)
            exact Nat.lt_succ_of_lt (ih hrest)

theorem tokenValue_length {head value rest : List Char}
    (h : tokenValue head = some (value, rest)) : rest.length ≤ head.length := by
  have hskip := skipSpaces_length head
  unfold tokenValue at h
  split at h
  · rename_i head' hquote
    rw [hquote] at hskip
    have hvalue := quotedValue_length h
    simp only [List.length_cons] at hskip
    omega
  · obtain ⟨-, rfl⟩ := Prod.mk.inj (Option.some.inj h)
    exact (List.dropWhile_sublist _).length_le.trans hskip

variable {ρ : Type} {pcre : Pcre ρ} {focusId : Nat} {criteria : Criteria ρ}

/-- A token that is recognized has a name, so that its characters are gone afterwards. -/
theorem criteriaToken_shorter (head : List Char) :
    Ends (fun next : Criteria ρ × List Char => next.2.length < head.length) (fun _ => True)
      (criteriaToken pcre focusId criteria head) := by
  have hskip := skipSpaces_length head
  have hname : ∀ value : Option String,
      Ends (fun _ => ((skipSpaces head).dropWhile isNameChar).length < head.length)
        (fun _ => True) (parseToken pcre focusId criteria
          (String.ofList ((skipSpaces head).takeWhile isNameChar)) value) := by
    intro value
    cases hempty : (skipSpaces head).takeWhile isNameChar with
    | nil => exact trivial
    | cons c name =>
        have hsplit := congrArg List.length
          (List.takeWhile_append_dropWhile (p := isNameChar) (l := skipSpaces head))
        rw [hempty, List.length_append, List.length_cons] at hsplit
        have hlt : ((skipSpaces head).dropWhile isNameChar).length < head.length := by omega
        cases parseToken pcre focusId criteria (String.ofList (c :: name)) value with
        | ok _ => exact hlt
        | error _ => exact trivial
  have hrest := skipSpaces_length ((skipSpaces head).dropWhile isNameChar)
  unfold criteriaToken
  dsimp only
  split
  · rename_i head' hequals
    rw [hequals, List.length_cons] at hrest
    split
    · exact trivial
    · rename_i value rest hvalue
      have hle := tokenValue_length hvalue
      have hend := skipSpaces_length rest
      refine (hname _).bind fun _ hlt => Ends.pure ?_
      dsimp only
      omega
  · have hend := skipSpaces_length (skipSpaces ((skipSpaces head).dropWhile isNameChar))
    refine (hname _).bind fun _ hlt => Ends.pure ?_
    dsimp only
    omega

/-- With as many turns as there are characters the loop ends by itself: at the end of the string or
at the closing bracket. -/
theorem criteriaTokens_end (turns : Nat) (head : List Char) (hlen : head.length ≤ turns) :
    Ends (fun parsed : Criteria ρ × List Char => parsed.2 = [] ∨ parsed.2.head? = some ']')
      (fun _ => True) (criteriaTokens pcre focusId turns criteria head) := by
  induction turns generalizing criteria head with
  | zero => exact Or.inl (List.eq_nil_of_length_eq_zero (Nat.le_zero.1 hlen))
  | succ turns ih =>
      unfold criteriaTokens
      split_ifs with hend
      · exact hend
      · refine (criteriaToken_shorter head).bind fun next hnext => ih next.2 ?_
        omega

end Turns

end Swirl

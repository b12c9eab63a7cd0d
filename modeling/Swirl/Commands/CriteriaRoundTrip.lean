import Swirl.Commands.Criteria

set_option autoImplicit false

/-! # Writing criteria

Attributes are written as `name="value"`, with a backslash before every double quote of a value.
`criteria_parse` hands them to `parse_token` one by one, unless a value ends in a backslash: the
quote behind it is then not the closing one.
-/

namespace Swirl

/-! ## `criteria_parse` with what it copies -/

section Raw

variable {ρ σ : Type}

/-- One turn of the loop in `criteria_parse`, with any `parse_token`. -/
def readToken (parse : σ → String → Option String → Except String σ) (s : σ) (head : List Char) :
    Except String (σ × List Char) :=
  let head := skipSpaces head
  let name := String.ofList (head.takeWhile isNameChar)
  match skipSpaces (head.dropWhile isNameChar) with
  | '=' :: head =>
      match tokenValue head with
      | none => .error "Quote mismatch in criteria"
      | some (value, head) => do
          let s ← parse s name (some (String.ofList (unescape value)))
          pure (s, skipSpaces head)
  | head => do
      let s ← parse s name none
      pure (s, skipSpaces head)

/-- The loop of `criteria_parse`, with any `parse_token`. -/
def readTokens (parse : σ → String → Option String → Except String σ) :
    Nat → σ → List Char → Except String (σ × List Char)
  | 0, s, head => .ok (s, head)
  | turns + 1, s, head =>
      if head = [] ∨ head.head? = some ']' then .ok (s, head)
      else do
        let next ← readToken parse s head
        readTokens parse turns next.1 next.2

theorem criteriaTokens_eq (pcre : Pcre ρ) (focusId turns : Nat) (criteria : Criteria ρ)
    (head : List Char) : criteriaTokens pcre focusId turns criteria head =
      readTokens (parseToken pcre focusId) turns criteria head := by
  induction turns generalizing criteria head with
  | zero => rfl
  | succ turns ih =>
      unfold criteriaTokens readTokens
      simp only [ih]
      rfl

/-- `criteria_parse`, with the `raw` of the criteria. -/
def criteriaParseRaw (pcre : Pcre ρ) (focusId : Nat) (raw : List Char) :
    Except String (Criteria ρ × List Char) :=
  if (skipSpaces raw).head? ≠ some '[' then .error "No criteria"
  else do
    let head := (skipSpaces raw).tail
    let parsed ← criteriaTokens pcre focusId head.length (Criteria.init ρ) head
    if parsed.2.head? ≠ some ']' then .error "No closing brace found in criteria"
    else if criteriaIsEmpty parsed.1 then .error "Criteria is empty"
    else .ok (parsed.1, raw.take (raw.length - parsed.2.tail.length))

theorem criteriaParse_eq (pcre : Pcre ρ) (focusId : Nat) (raw : String) :
    criteriaParse pcre focusId raw = Prod.fst <$> criteriaParseRaw pcre focusId raw.toList := by
  unfold criteriaParse criteriaParseRaw
  split
  next head hhead =>
    rw [hhead, if_neg (not_not_intro List.head?_cons), List.tail_cons]
    dsimp only
    cases criteriaTokens pcre focusId head.length (Criteria.init ρ) head with
    | error message => rfl
    | ok parsed =>
        dsimp only [bind, Except.bind]
        split_ifs <;> rfl
  next hno =>
    have hfirst : (skipSpaces raw.toList).head? ≠ some '[' := by
      intro hsome
      obtain ⟨head, hhead⟩ := List.head?_eq_some_iff.mp hsome
      exact hno head hhead
    rw [if_pos hfirst]
    rfl

end Raw

/-! ## Writing attributes -/

/-- An attribute, with the spaces that are written before it. -/
structure Attribute where
  name : String
  value : List Char
  spaces : Nat
  known : (tokenFromName name).isSome = true

/-- A value with a backslash before every double quote. -/
def escapeQuotes (value : List Char) : List Char :=
  value.flatMap fun c => if c = '"' then ['\\', '"'] else [c]

/-- `name="value"` -/
def Attribute.text (a : Attribute) : List Char :=
  List.replicate a.spaces ' ' ++ a.name.toList ++ '=' :: '"' :: (escapeQuotes a.value ++ ['"'])

/-- Attributes in square brackets. -/
def criteriaText (attributes : List Attribute) : List Char :=
  '[' :: (attributes.flatMap Attribute.text ++ [']'])

/-- The attributes are handed to `parse_token` with their values. -/
def handOver {σ : Type} (parse : σ → String → Option String → Except String σ) (s : σ)
    (a : Attribute) : Except String σ := parse s a.name (some (String.ofList a.value))

/-- No value ends in a backslash. -/
def QuotesClose (attributes : List Attribute) : Prop :=
  ∀ a ∈ attributes, a.value.getLast? ≠ some '\\'

instance (attributes : List Attribute) : Decidable (QuotesClose attributes) :=
  inferInstanceAs (Decidable (∀ a ∈ attributes, a.value.getLast? ≠ some '\\'))

/-! ## Reading them again -/

section Reading

/-- The names that are known. -/
def tokenNames : List String :=
  ["all", "app_id", "con_id", "con_mark", "class", "id", "instance", "window_role", "window_type",
    "shell", "title", "urgent", "workspace", "tiling", "floating", "pid", "sandbox_engine",
    "sandbox_app_id", "sandbox_instance_id", "tag"]

theorem mem_tokenNames {name : String} (h : (tokenFromName name).isSome = true) :
    name ∈ tokenNames := by
  by_contra hno
  unfold tokenNames at hno
  simp only [List.mem_cons, List.not_mem_nil, or_false, not_or] at hno
  unfold tokenFromName at h
  simp only [hno, if_false] at h
  cases h

/-- The names that are known are made of name characters. -/
theorem known_name {name : String} (h : (tokenFromName name).isSome = true) :
    name.toList ≠ [] ∧ ∀ c ∈ name.toList, isNameChar c = true := by
  have hall : ∀ name ∈ tokenNames,
      name.toList ≠ [] ∧ name.toList.all isNameChar = true := by decide +kernel
  obtain ⟨hne, hchars⟩ := hall name (mem_tokenNames h)
  exact ⟨hne, List.all_eq_true.mp hchars⟩

theorem escapeQuotes_quote (value : List Char) :
    escapeQuotes ('"' :: value) = '\\' :: '"' :: escapeQuotes value := rfl

theorem escapeQuotes_plain {c : Char} (value : List Char) (hc : c ≠ '"') :
    escapeQuotes (c :: value) = c :: escapeQuotes value := by
  unfold escapeQuotes
  rw [List.flatMap_cons, if_neg hc]
  rfl

theorem quotedValue_pass {prev c : Char} {head value rest : List Char}
    (h : ¬ (c = '"' ∧ prev ≠ '\\')) (hrest : quotedValue c head = some (value, rest)) :
    quotedValue prev (c :: head) = some (c :: value, rest) := by
  unfold quotedValue
  rw [if_neg h, hrest]

/-- The value ends at the quote that is written behind it. -/
theorem quotedValue_escapeQuotes {prev : Char} {value : List Char} (rest : List Char)
    (h : (prev :: value).getLast? ≠ some '\\') :
    quotedValue prev (escapeQuotes value ++ '"' :: rest) = some (escapeQuotes value, rest) := by
  induction value generalizing prev with
  | nil =>
      have hprev : prev ≠ '\\' := fun heq => h (by rw [heq]; rfl)
      exact if_pos ⟨rfl, hprev⟩
  | cons c value ih =>
      have hlast : (c :: value).getLast? ≠ some '\\' := by
        rwa [List.getLast?_cons_cons] at h
      by_cases hc : c = '"'
      · -- the backslash is looked back at
        subst hc
        have hquote : quotedValue '\\' ('"' :: (escapeQuotes value ++ '"' :: rest)) =
            some ('"' :: escapeQuotes value, rest) :=
          quotedValue_pass (fun hboth => hboth.2 rfl) (ih hlast)
        exact quotedValue_pass (fun hboth => absurd hboth.1 (by decide)) hquote
      · rw [escapeQuotes_plain value hc]
        exact quotedValue_pass (fun hboth => hc hboth.1) (ih hlast)

theorem unescape_plain {c : Char} {value : List Char}
    (h : ¬ (c = '\\' ∧ value.head? = some '"')) : unescape (c :: value) = c :: unescape value := by
  rw [unescape]
  intro rest hc hvalue
  exact h ⟨hc, by rw [hvalue]; rfl⟩

/-- A quote is never the first character, a backslash is before it. -/
theorem head?_escapeQuotes (value : List Char) : (escapeQuotes value).head? ≠ some '"' := by
  cases value with
  | nil => exact fun h => by cases h
  | cons c value =>
      by_cases hc : c = '"'
      · rw [hc, escapeQuotes_quote, List.head?_cons]
        decide
      · rw [escapeQuotes_plain value hc]
        exact fun h => hc (Option.some.inj h)

/-- The value is found again. -/
theorem unescape_escapeQuotes (value : List Char) : unescape (escapeQuotes value) = value := by
  induction value with
  | nil => rfl
  | cons c value ih =>
      by_cases hc : c = '"'
      · rw [hc, escapeQuotes_quote]
        exact congrArg ('"' :: ·) ih
      · rw [escapeQuotes_plain value hc,
          unescape_plain fun hboth => head?_escapeQuotes value hboth.2, ih]

variable {σ : Type} {parse : σ → String → Option String → Except String σ} {s : σ}

theorem skipSpaces_replicate (n : Nat) (head : List Char) :
    skipSpaces (List.replicate n ' ' ++ head) = skipSpaces head := by
  induction n with
  | zero => rfl
  | succ n ih => exact ih

theorem skipSpaces_of_ne {c : Char} (hc : c ≠ ' ') (head : List Char) :
    skipSpaces (c :: head) = c :: head :=
  List.dropWhile_cons_of_neg (by simpa using hc)

theorem skipSpaces_skipSpaces (head : List Char) : skipSpaces (skipSpaces head) = skipSpaces head :=
  List.dropWhile_idempotent _ _

/-- What is behind the spaces of an attribute. -/
theorem skipSpaces_attribute (a : Attribute) (rest : List Char) :
    skipSpaces (a.text ++ rest) =
      a.name.toList ++ '=' :: '"' :: (escapeQuotes a.value ++ '"' :: rest) := by
  obtain ⟨hne, hname⟩ := known_name a.known
  have htext : a.text ++ rest = List.replicate a.spaces ' ' ++
      (a.name.toList ++ '=' :: '"' :: (escapeQuotes a.value ++ '"' :: rest)) := by
    unfold Attribute.text
    simp
  obtain ⟨c, name, hc⟩ := List.exists_cons_of_ne_nil hne
  have hspace : c ≠ ' ' := by
    have hchar := hname c (by rw [hc]; exact List.mem_cons_self)
    rintro rfl
    exact absurd hchar (by decide)
  rw [htext, skipSpaces_replicate, hc]
  exact skipSpaces_of_ne hspace _

/-- A turn hands an attribute over. -/
theorem readToken_attribute (a : Attribute) (ha : a.value.getLast? ≠ some '\\')
    {head : List Char} (rest : List Char) (hhead : skipSpaces head = skipSpaces (a.text ++ rest)) :
    readToken parse s head = (handOver parse s a).map fun s => (s, skipSpaces rest) := by
  obtain ⟨-, hname⟩ := known_name a.known
  have hstop : isNameChar '=' = false := by decide
  have htake : (a.name.toList ++ '=' :: '"' :: (escapeQuotes a.value ++ '"' :: rest)).takeWhile
      isNameChar = a.name.toList := by
    rw [List.takeWhile_append_of_pos hname, List.takeWhile_cons_of_neg (by rw [hstop]; decide),
      List.append_nil]
  have hdrop : (a.name.toList ++ '=' :: '"' :: (escapeQuotes a.value ++ '"' :: rest)).dropWhile
      isNameChar = '=' :: '"' :: (escapeQuotes a.value ++ '"' :: rest) := by
    rw [List.dropWhile_append_of_pos hname, List.dropWhile_cons_of_neg (by rw [hstop]; decide)]
  have hvalue : tokenValue ('"' :: (escapeQuotes a.value ++ '"' :: rest)) =
      some (escapeQuotes a.value, rest) := by
    have hlast : ('"' :: a.value).getLast? ≠ some '\\' := by
      cases hcons : a.value with
      | nil => decide
      | cons c value =>
          rw [List.getLast?_cons_cons, ← hcons]
          exact ha
    exact quotedValue_escapeQuotes rest hlast
  unfold readToken
  rw [hhead, skipSpaces_attribute]
  dsimp only
  rw [htake, hdrop, skipSpaces_of_ne (by decide)]
  split
  next head' hequals =>
    obtain rfl := (List.cons.inj hequals).2
    rw [hvalue, String.ofList_toList]
    dsimp only
    rw [unescape_escapeQuotes]
    unfold handOver
    cases parse s a.name (some (String.ofList a.value)) <;> rfl
  next hno => exact absurd rfl (hno _)

/-- Every attribute has some characters. -/
theorem length_le_text (attributes : List Attribute) :
    attributes.length ≤ (attributes.flatMap Attribute.text).length := by
  induction attributes with
  | nil => exact Nat.le_refl 0
  | cons a attributes ih =>
      have htext : 1 ≤ a.text.length := by
        unfold Attribute.text
        rw [List.length_append, List.length_cons]
        omega
      rw [List.flatMap_cons, List.length_append, List.length_cons]
      omega

/-- The loop hands the attributes over one after the other. -/
theorem readTokens_attributes {attributes : List Attribute} (hclose : QuotesClose attributes)
    {turns : Nat} (hturns : attributes.length ≤ turns) {head : List Char} (rest : List Char)
    (hhead : skipSpaces head = skipSpaces (attributes.flatMap Attribute.text ++ ']' :: rest))
    (hend : attributes = [] → head = ']' :: rest) :
    readTokens parse turns s head =
      (attributes.foldlM (handOver parse) s).map fun s => (s, ']' :: rest) := by
  induction attributes generalizing turns s head with
  | nil =>
      rw [hend rfl]
      cases turns with
      | zero => rfl
      | succ turns => exact if_pos (Or.inr rfl)
  | cons a attributes ih =>
      obtain ⟨turns, rfl⟩ : ∃ n, turns = n + 1 :=
        Nat.exists_eq_succ_of_ne_zero (by rw [List.length_cons] at hturns; omega)
      have htext : (a :: attributes).flatMap Attribute.text ++ ']' :: rest =
          a.text ++ (attributes.flatMap Attribute.text ++ ']' :: rest) := by
        rw [List.flatMap_cons, List.append_assoc]
      rw [htext] at hhead
      have hgoes : ¬ (head = [] ∨ head.head? = some ']') := by
        obtain ⟨hne, hname⟩ := known_name a.known
        obtain ⟨c, name, hc⟩ := List.exists_cons_of_ne_nil hne
        rw [skipSpaces_attribute, hc] at hhead
        rintro (rfl | hfirst)
        · cases hhead
        · obtain ⟨tail, rfl⟩ := List.head?_eq_some_iff.mp hfirst
          rw [skipSpaces_of_ne (by decide)] at hhead
          have hchar := hname c (by rw [hc]; exact List.mem_cons_self)
          rw [← (List.cons.inj hhead).1] at hchar
          exact absurd hchar (by decide)
      unfold readTokens
      rw [if_neg hgoes, readToken_attribute a (hclose a List.mem_cons_self) _ hhead,
        List.foldlM_cons]
      cases handOver parse s a with
      | error message => rfl
      | ok s' =>
          -- the spaces before the next attribute are skipped already
          refine ih (fun b hb => hclose b (List.mem_cons_of_mem a hb))
            (Nat.le_of_succ_le_succ hturns) (skipSpaces_skipSpaces _) fun hnil => ?_
          rw [hnil]
          exact skipSpaces_of_ne (show ']' ≠ ' ' by decide) rest

end Reading

/-! ## The round trip -/

section RoundTrip

variable {ρ : Type}

/-- Attributes whose values do not end in a backslash are handed to `parse_token` as they were
before they were written, and `raw` is their text, without what follows it. -/
theorem criteriaParse_roundTrip (pcre : Pcre ρ) (focusId : Nat) {attributes : List Attribute}
    (hne : attributes ≠ []) (hclose : QuotesClose attributes) (after : List Char) :
    (∀ (σ : Type) (parse : σ → String → Option String → Except String σ) (s : σ) (turns : Nat),
      attributes.length ≤ turns →
      readTokens parse turns s (criteriaText attributes ++ after).tail =
        (attributes.foldlM (handOver parse) s).map fun s => (s, ']' :: after)) ∧
    ∀ criteria : Criteria ρ,
      attributes.foldlM (handOver (parseToken pcre focusId)) (Criteria.init ρ) = .ok criteria →
      criteriaParseRaw pcre focusId (criteriaText attributes ++ after) =
        if criteriaIsEmpty criteria then .error "Criteria is empty"
        else .ok (criteria, criteriaText attributes) := by
  have hread : ∀ (σ : Type) (parse : σ → String → Option String → Except String σ) (s : σ)
      (turns : Nat), attributes.length ≤ turns →
      readTokens parse turns s (attributes.flatMap Attribute.text ++ ']' :: after) =
        (attributes.foldlM (handOver parse) s).map fun s => (s, ']' :: after) :=
    fun σ parse s turns hturns =>
      readTokens_attributes hclose hturns after rfl fun hnil => absurd hnil hne
  have htext : criteriaText attributes ++ after =
      '[' :: (attributes.flatMap Attribute.text ++ ']' :: after) := by
    unfold criteriaText
    rw [List.cons_append, List.append_assoc]
    rfl
  constructor
  · intro σ parse s turns hturns
    rw [htext]
    exact hread σ parse s turns hturns
  · intro criteria haccept
    have hlength : attributes.length ≤
        (attributes.flatMap Attribute.text ++ ']' :: after).length := by
      rw [List.length_append]
      exact (length_le_text attributes).trans (Nat.le_add_right _ _)
    unfold criteriaParseRaw
    rw [htext, skipSpaces_of_ne (by decide), if_neg (not_not_intro List.head?_cons), List.tail_cons]
    dsimp only
    rw [criteriaTokens_eq, hread _ _ _ _ hlength, haccept]
    have hraw : (criteriaText attributes ++ after).take
        ((criteriaText attributes ++ after).length - after.length) = criteriaText attributes := by
      rw [List.length_append, Nat.add_sub_cancel]
      exact List.take_left' rfl
    rw [htext] at hraw
    dsimp only [Except.map, bind, Except.bind]
    rw [if_neg (show ¬ (']' :: after).head? ≠ some ']' from not_not_intro rfl), List.tail_cons,
      hraw]

/-- `[all="a\"b" title="x]y\z"]`, where the second backslash stays. -/
theorem criteriaParse_roundTrip_two :
    let attributes : List Attribute :=
      [⟨"all", ['a', '"', 'b'], 0, by decide⟩, ⟨"title", ['x', ']', 'y', '\\', 'z'], 1, by decide⟩]
    let pcre : Pcre Unit := ⟨fun _ => .ok (), fun _ _ => 0⟩
    readTokens (fun calls name value => .ok (calls ++ [(name, value)])) 2 []
        (criteriaText attributes ++ [' ', 'k']).tail =
      .ok ([("all", some "a\"b"), ("title", some "x]y\\z")], [']', ' ', 'k']) ∧
    (criteriaParseRaw pcre 0 (criteriaText attributes ++ [' ', 'k'])).map Prod.snd =
      .ok (criteriaText attributes) := by
  intro attributes pcre
  obtain ⟨hread, hraw⟩ := @criteriaParse_roundTrip _ pcre 0 attributes (List.cons_ne_nil _ _)
    (by decide) [' ', 'k']
  refine ⟨hread _ _ [] 2 (by decide), ?_⟩
  rw [hraw _ rfl]
  rfl

/-- The quote behind `\` does not close the value, and criteria that say nothing are refused. -/
theorem criteriaParse_backslash :
    let pcre : Pcre Unit := ⟨fun _ => .ok (), fun _ _ => 0⟩
    ((parseToken pcre 0 (Criteria.init Unit) "all" (some "\\")).isOk = true ∧
      criteriaParseRaw pcre 0 (criteriaText [⟨"all", ['\\'], 0, by decide⟩]) =
        .error "Quote mismatch in criteria") ∧
    (parseToken pcre 0 (Criteria.init Unit) "pid" (some "0")).isOk = true ∧
      criteriaParseRaw pcre 0 (criteriaText [⟨"pid", ['0'], 0, by decide⟩]) =
        .error "Criteria is empty" :=
  ⟨⟨rfl, rfl⟩, rfl, rfl⟩

end RoundTrip

end Swirl

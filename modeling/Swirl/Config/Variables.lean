import Swirl.Common.Quoting
import Mathlib.Data.List.MinMax
import Mathlib.Data.List.Sort

set_option autoImplicit false

/-! # Variables

`set` keeps the variables in the order of their names' lengths, the longest first, so the first one
that a text begins with is the longest. `do_var_replacement` rewrites a text from the left; whether
a `$` is escaped it tells by the two characters before it in what it has written so far. `expand` is
the pass that counts the backslashes of the text it was given.
-/

namespace Swirl

/-! ## `cmd_set` -/

/-- `struct sway_variable` -/
structure SwayVariable where
  name : List Char
  value : List Char
  dollar : name.head? = some '$'
  deriving DecidableEq

theorem SwayVariable.name_ne_nil (var : SwayVariable) : var.name ≠ [] := by
  intro h
  have hdollar := var.dollar
  rw [h] at hdollar
  cases hdollar

/-- `has_prefix`, of a text and the name -/
def SwayVariable.begins (text : List Char) (var : SwayVariable) : Bool :=
  var.name.isPrefixOf text

/-- `strlen` of the name -/
def SwayVariable.length (var : SwayVariable) : Nat := var.name.length

theorem SwayVariable.begins_iff {text : List Char} {var : SwayVariable} :
    var.begins text = true ↔ var.name <+: text := List.isPrefixOf_iff_prefix

/-- `compare_set_qsort` -/
def compareSetQsort (l r : SwayVariable) : Int := (r.length : Int) - l.length

/-- A `qsort` with `compare_set_qsort`: the items in an order that the comparison allows. -/
structure SetQsort where
  sort : List SwayVariable → List SwayVariable
  perm : ∀ items, (sort items).Perm items
  sorted : ∀ items, (sort items).Pairwise fun l r => compareSetQsort l r ≤ 0

/-- `join_args`, character by character. -/
def joinChars (args : List (List Char)) : List Char := [' '].intercalate args

/-- `cmd_set`: a variable that is there gets the value, any other one is added and the list is
sorted. -/
def cmdSet (qsort : SetQsort) (symbols : List SwayVariable) (argv : List (List Char)) :
    List SwayVariable :=
  match argv with
  | name :: arg :: args =>
      if h : name.head? = some '$' then
        match symbols.findIdx? fun var => var.name == name with
        | some i => symbols.modify i fun var => { var with value := joinChars (arg :: args) }
        | none => qsort.sort (symbols ++ [⟨name, joinChars (arg :: args), h⟩])
      else symbols
  | _ => symbols

/-- The variables after some `set` commands. -/
def cmdSets (qsort : SetQsort) (argvs : List (List (List Char))) : List SwayVariable :=
  argvs.foldl (cmdSet qsort) []

/-! ## `do_var_replacement` -/

/-- The character before `find` is a backslash, and the one before that is not. -/
def looksEscaped (done : List Char) : Bool :=
  match done.reverse with
  | [] => false
  | [c] => c == backslash
  | c :: d :: _ => c == backslash && d != backslash

/-- The loop of `do_var_replacement`: `done` is the text from `str` to `find`, `rest` that from
`find` on. -/
def replaceLoop (symbols : List SwayVariable) (done rest : List Char) : List Char :=
  match _h : rest.dropWhile (· != '$') with
  | [] => done ++ rest
  | c :: after =>
      let done := done ++ rest.takeWhile (· != '$')
      if looksEscaped done then replaceLoop symbols (done ++ [c]) after
      else if after.head? = some '$' then replaceLoop symbols (done ++ ['$']) after.tail
      else
        match symbols.find? (SwayVariable.begins (c :: after)) with
        | some var =>
            replaceLoop symbols (done ++ var.value) ((c :: after).drop var.name.length)
        | none => replaceLoop symbols (done ++ [c]) after
termination_by rest.length
decreasing_by
  all_goals
    have hle := (List.dropWhile_suffix (l := rest) (· != '$')).length_le
    rw [_h, List.length_cons] at hle
  · omega
  · rw [List.length_tail]
    omega
  · have hname := List.length_pos_iff.mpr var.name_ne_nil
    rw [List.length_drop, List.length_cons]
    omega
  · omega

/-- `do_var_replacement` -/
def doVarReplacement (symbols : List SwayVariable) (str : List Char) : List Char :=
  replaceLoop symbols [] str

/-! ## One pass over the text -/

/-- What becomes of a place of the text. -/
inductive Replacement where
  | copied (c : Char)
  | dollar
  | expanded (var : SwayVariable)
  deriving DecidableEq

/-- What stands at the place. -/
def Replacement.text : Replacement → List Char
  | .copied c => [c]
  | .dollar => ['$', '$']
  | .expanded var => var.name

/-- What is put there. -/
def Replacement.result : Replacement → List Char
  | .copied c => [c]
  | .dollar => ['$']
  | .expanded var => var.value

/-- The variable with the longest name that a text begins with. -/
def longestVariable (symbols : List SwayVariable) (text : List Char) : Option SwayVariable :=
  (symbols.filter (SwayVariable.begins text)).argmax SwayVariable.length

/-- The pass over what is left of a text, behind the text that was read before. -/
def expandFrom (symbols : List SwayVariable) (before rest : List Char) : List Replacement :=
  match rest with
  | [] => []
  | c :: after =>
      if c ≠ '$' ∨ trailingBackslashes before % 2 = 1 then
        .copied c :: expandFrom symbols (before ++ [c]) after
      else if after.head? = some '$' then
        .dollar :: expandFrom symbols (before ++ ['$', '$']) after.tail
      else
        match longestVariable symbols (c :: after) with
        | some var =>
            .expanded var ::
              expandFrom symbols (before ++ var.name) ((c :: after).drop var.name.length)
        | none => .copied c :: expandFrom symbols (before ++ [c]) after
termination_by rest.length
decreasing_by
  · exact Nat.lt_succ_self _
  · rw [List.length_tail, List.length_cons]
    omega
  · have hname := List.length_pos_iff.mpr var.name_ne_nil
    rw [List.length_drop, List.length_cons]
    omega
  · exact Nat.lt_succ_self _

/-- **One pass over a text**, from left to right. -/
def expand (symbols : List SwayVariable) (text : List Char) : List Replacement :=
  expandFrom symbols [] text

/-- What the loop of `do_var_replacement` makes of what is left of a text, behind what it has
written. -/
def loopReplacements (symbols : List SwayVariable) (done rest : List Char) : List Replacement :=
  match rest with
  | [] => []
  | c :: after =>
      if c ≠ '$' ∨ looksEscaped done then
        .copied c :: loopReplacements symbols (done ++ [c]) after
      else if after.head? = some '$' then
        .dollar :: loopReplacements symbols (done ++ ['$']) after.tail
      else
        match symbols.find? (SwayVariable.begins (c :: after)) with
        | some var =>
            .expanded var ::
              loopReplacements symbols (done ++ var.value) ((c :: after).drop var.name.length)
        | none => .copied c :: loopReplacements symbols (done ++ [c]) after
termination_by rest.length
decreasing_by
  · exact Nat.lt_succ_self _
  · rw [List.length_tail, List.length_cons]
    omega
  · have hname := List.length_pos_iff.mpr var.name_ne_nil
    rw [List.length_drop, List.length_cons]
    omega
  · exact Nat.lt_succ_self _

/-- The text at some places. -/
def placesText (places : List Replacement) : List Char := places.flatMap Replacement.text

/-- What is written for some places. -/
def placesResult (places : List Replacement) : List Char := places.flatMap Replacement.result

/-- `do_var_replacement` does at every place what one pass does, and so gives what that gives. -/
def ReplacesInOnePass (symbols : List SwayVariable) (str : List Char) : Prop :=
  loopReplacements symbols [] str = expand symbols str ∧
    doVarReplacement symbols str = placesResult (expand symbols str)

/-- A text begins with `$$` or with a variable's name. -/
def BeginsReplacement (symbols : List SwayVariable) (text : List Char) : Prop :=
  ['$', '$'] <+: text ∨ ∃ var ∈ symbols, var.name <+: text

/-- **Looking back is right**: wherever a `$` would be replaced, the two characters before it in
what was written tell what the backslashes before it in the text say. -/
def LooksBackRight (symbols : List SwayVariable) (str : List Char) : Prop :=
  ∀ u p v, expand symbols str = u ++ p :: v → BeginsReplacement symbols (placesText (p :: v)) →
    (looksEscaped (placesResult u) = true ↔ trailingBackslashes (placesText u) % 2 = 1)

/-! ## The variables are in order -/

/-- The names are told apart, and the longer ones come first. -/
structure InOrder (symbols : List SwayVariable) : Prop where
  names : (symbols.map SwayVariable.name).Nodup
  longest : (symbols.map SwayVariable.name).Pairwise fun l r => r.length ≤ l.length

theorem map_name_modify (symbols : List SwayVariable) (i : Nat) (value : List Char) :
    (symbols.modify i fun var => { var with value }).map SwayVariable.name =
      symbols.map SwayVariable.name := by
  induction symbols generalizing i with
  | nil => rw [List.modify_nil]
  | cons var symbols ih =>
      cases i with
      | zero => rfl
      | succ i => exact congrArg (var.name :: ·) (ih i)

theorem cmdSet_inOrder (qsort : SetQsort) {symbols : List SwayVariable} (h : InOrder symbols)
    (argv : List (List Char)) : InOrder (cmdSet qsort symbols argv) := by
  unfold cmdSet
  split
  next name arg args =>
    split_ifs with hdollar
    · split
      next i _ =>
        -- only a value changes
        have hmap := map_name_modify symbols i (joinChars (arg :: args))
        refine ⟨?_, ?_⟩
        · rw [hmap]
          exact h.names
        · rw [hmap]
          exact h.longest
      next hnone =>
        generalize hvar : (⟨name, joinChars (arg :: args), hdollar⟩ : SwayVariable) = var
        have hnew : var.name ∉ symbols.map SwayVariable.name := by
          rw [← hvar]
          intro hmem
          obtain ⟨w, hw, hname⟩ := List.mem_map.mp hmem
          have hno := List.findIdx?_eq_none_iff.mp hnone w hw
          rw [hname, beq_self_eq_true] at hno
          cases hno
        refine ⟨?_, ?_⟩
        · rw [((qsort.perm _).map _).nodup_iff, List.map_append, List.nodup_append]
          refine ⟨h.names, List.nodup_singleton _, fun n hn m hm heq => ?_⟩
          obtain rfl := List.mem_singleton.mp hm
          exact hnew (heq ▸ hn)
        · rw [List.pairwise_map]
          refine (qsort.sorted _).imp fun hcompare => ?_
          unfold compareSetQsort SwayVariable.length at hcompare
          omega
    · exact h
  next => exact h

/-- **However variables were set**, they are in order. -/
theorem cmdSets_inOrder (qsort : SetQsort) (argvs : List (List (List Char))) :
    InOrder (cmdSets qsort argvs) := by
  unfold cmdSets
  induction argvs using List.reverseRecOn with
  | nil => exact ⟨List.nodup_nil, List.Pairwise.nil⟩
  | append_singleton argvs argv ih =>
      rw [List.foldl_append]
      exact cmdSet_inOrder qsort ih argv

/-- The first variable that a text begins with is the longest. -/
theorem find?_eq_longestVariable {symbols : List SwayVariable} (h : InOrder symbols)
    (text : List Char) :
    symbols.find? (SwayVariable.begins text) = longestVariable symbols text := by
  have hlongest := List.pairwise_map.mp h.longest
  clear h
  unfold longestVariable
  induction symbols with
  | nil => rfl
  | cons var symbols ih =>
      obtain ⟨hfirst, hrest⟩ := List.pairwise_cons.mp hlongest
      by_cases hvar : var.begins text = true
      · rw [List.find?_cons_of_pos hvar, List.filter_cons_of_pos hvar, eq_comm,
          List.argmax_eq_some_iff]
        refine ⟨List.mem_cons_self, fun w hw => ?_, fun w _ _ => ?_⟩
        · rcases List.mem_cons.mp hw with rfl | hw
          · exact le_refl _
          · exact hfirst w (List.mem_filter.mp hw).1
        · rw [List.idxOf_cons_self]
          exact Nat.zero_le _
      · rw [List.find?_cons_of_neg hvar, List.filter_cons_of_neg hvar, ih hrest]

/-- There is one longest variable. -/
theorem longestVariable_eq_some_iff {symbols : List SwayVariable} (h : InOrder symbols)
    {text : List Char} {var : SwayVariable} : longestVariable symbols text = some var ↔
      var ∈ symbols ∧ var.name <+: text ∧
        ∀ w ∈ symbols, w.name <+: text → w.length ≤ var.length := by
  have hmem {w : SwayVariable} : w ∈ symbols.filter (SwayVariable.begins text) ↔
      w ∈ symbols ∧ w.name <+: text := by
    rw [List.mem_filter, SwayVariable.begins_iff]
  unfold longestVariable
  constructor
  · intro hmax
    obtain ⟨hvar, hprefix⟩ := hmem.mp (List.argmax_mem hmax)
    exact ⟨hvar, hprefix, fun w hw hwp => List.le_of_mem_argmax (hmem.mpr ⟨hw, hwp⟩) hmax⟩
  · rintro ⟨hvar, hprefix, hlongest⟩
    cases hmax : (symbols.filter (SwayVariable.begins text)).argmax SwayVariable.length with
    | none =>
        have hin := hmem.mpr ⟨hvar, hprefix⟩
        rw [List.argmax_eq_none.mp hmax] at hin
        cases hin
    | some w =>
        -- names of one length that the text begins with are the same
        obtain ⟨hw, hwprefix⟩ := hmem.mp (List.argmax_mem hmax)
        have hle : var.length ≤ w.length :=
          List.le_of_mem_argmax (hmem.mpr ⟨hvar, hprefix⟩) hmax
        have hge : w.length ≤ var.length := hlongest w hw hwprefix
        have hname : w.name = var.name :=
          (List.prefix_of_prefix_length_le hwprefix hprefix hge).eq_of_length
            (Nat.le_antisymm hge hle)
        rw [List.inj_on_of_nodup_map h.names hw hvar hname]

/-! ## The loop, place by place -/

section Places

variable {symbols : List SwayVariable}

theorem loopReplacements_copied {done : List Char} {c : Char} {after : List Char}
    (h : c ≠ '$' ∨ looksEscaped done = true) : loopReplacements symbols done (c :: after) =
      .copied c :: loopReplacements symbols (done ++ [c]) after := by
  rw [loopReplacements, if_pos h]

theorem loopReplacements_append {w : List Char} (hw : ∀ c ∈ w, c ≠ '$') (done rest : List Char) :
    loopReplacements symbols done (w ++ rest) =
      w.map .copied ++ loopReplacements symbols (done ++ w) rest := by
  induction w generalizing done with
  | nil => rw [List.nil_append, List.append_nil, List.map_nil, List.nil_append]
  | cons c w ih =>
      obtain ⟨hc, hw⟩ := List.forall_mem_cons.mp hw
      rw [List.cons_append, loopReplacements_copied (.inl hc), ih hw, List.append_assoc]
      rfl

theorem placesResult_append (u v : List Replacement) :
    placesResult (u ++ v) = placesResult u ++ placesResult v := List.flatMap_append

theorem placesResult_cons (p : Replacement) (v : List Replacement) :
    placesResult (p :: v) = p.result ++ placesResult v := List.flatMap_cons

theorem placesResult_copied (w : List Char) : placesResult (w.map .copied) = w := by
  induction w with
  | nil => rfl
  | cons c w ih => exact congrArg (c :: ·) ih

/-- A text has a `$`, or it has none. -/
theorem exists_dollar (rest : List Char) : (∀ c ∈ rest, c ≠ '$') ∨
    ∃ w after, rest = w ++ '$' :: after ∧ ∀ c ∈ w, c ≠ '$' := by
  by_cases h : '$' ∈ rest
  · obtain ⟨w, after, hrest, hw⟩ := List.eq_append_cons_of_mem h
    exact .inr ⟨w, after, hrest, fun c hc heq => hw (heq ▸ hc)⟩
  · exact .inl fun c hc heq => h (heq ▸ hc)

theorem replaceLoop_none {rest : List Char} (h : ∀ c ∈ rest, c ≠ '$') (done : List Char) :
    replaceLoop symbols done rest = done ++ rest := by
  have hnone : rest.dropWhile (· != '$') = [] :=
    List.dropWhile_eq_nil_iff.mpr fun c hc => bne_iff_ne.mpr (h c hc)
  rw [replaceLoop]
  split
  next => rfl
  next hcons => rw [hnone] at hcons; cases hcons

/-- The turn of the loop at a `$`. -/
theorem replaceLoop_dollar {w : List Char} (hw : ∀ c ∈ w, c ≠ '$') (done after : List Char) :
    replaceLoop symbols done (w ++ '$' :: after) =
      if looksEscaped (done ++ w) then replaceLoop symbols (done ++ w ++ ['$']) after
      else if after.head? = some '$' then replaceLoop symbols (done ++ w ++ ['$']) after.tail
      else
        match symbols.find? (SwayVariable.begins ('$' :: after)) with
        | some var =>
            replaceLoop symbols (done ++ w ++ var.value) (('$' :: after).drop var.name.length)
        | none => replaceLoop symbols (done ++ w ++ ['$']) after := by
  have hskip : ∀ c ∈ w, (c != '$') = true := fun c hc => bne_iff_ne.mpr (hw c hc)
  have hdrop : (w ++ '$' :: after).dropWhile (· != '$') = '$' :: after := by
    rw [List.dropWhile_append_of_pos hskip]
    rfl
  have htake : (w ++ '$' :: after).takeWhile (· != '$') = w := by
    rw [List.takeWhile_append_of_pos hskip]
    exact List.append_nil w
  rw [replaceLoop]
  split
  next hnil => rw [hdrop] at hnil; cases hnil
  next c after' hcons =>
    obtain ⟨rfl, rfl⟩ := List.cons.inj (hdrop.symm.trans hcons)
    rw [htake]

theorem loopReplacements_dollar {done : List Char} (h : looksEscaped done = false)
    (after : List Char) : loopReplacements symbols done ('$' :: after) =
      if after.head? = some '$' then
        .dollar :: loopReplacements symbols (done ++ ['$']) after.tail
      else
        match symbols.find? (SwayVariable.begins ('$' :: after)) with
        | some var =>
            .expanded var ::
              loopReplacements symbols (done ++ var.value) (('$' :: after).drop var.name.length)
        | none => .copied '$' :: loopReplacements symbols (done ++ ['$']) after := by
  rw [loopReplacements, if_neg]
  simp [h]

/-- What a variable's name leaves of a text is shorter. -/
theorem length_drop_name_le (var : SwayVariable) (after : List Char) :
    (('$' :: after).drop var.name.length).length ≤ after.length := by
  have hname := List.length_pos_iff.mpr var.name_ne_nil
  rw [List.length_drop, List.length_cons]
  omega

/-- **The loop** writes what it makes of the places. -/
theorem replaceLoop_eq (done rest : List Char) : replaceLoop symbols done rest =
    done ++ placesResult (loopReplacements symbols done rest) := by
  induction hn : rest.length using Nat.strong_induction_on generalizing done rest with
  | _ n ih =>
      obtain hnone | ⟨w, after, rfl, hw⟩ := exists_dollar rest
      · have hplaces := @loopReplacements_append symbols _ hnone done []
        rw [List.append_nil] at hplaces
        rw [replaceLoop_none hnone, hplaces, placesResult_append, placesResult_copied,
          loopReplacements]
        exact congrArg (done ++ ·) (List.append_nil rest).symm
      rw [List.length_append, List.length_cons] at hn
      have hnext (p : Replacement) (rest : List Char) (hlength : rest.length ≤ after.length) :
          replaceLoop symbols (done ++ w ++ p.result) rest = done ++ (w ++ placesResult
            (p :: loopReplacements symbols (done ++ w ++ p.result) rest)) := by
        rw [ih rest.length (by omega) _ rest rfl, placesResult_cons]
        simp only [List.append_assoc]
      rw [replaceLoop_dollar hw, loopReplacements_append hw, placesResult_append,
        placesResult_copied]
      cases hlooks : looksEscaped (done ++ w) with
      | true =>
          rw [if_pos rfl, loopReplacements_copied (.inr hlooks)]
          exact hnext (.copied '$') after (Nat.le_refl _)
      | false =>
          rw [if_neg Bool.false_ne_true, loopReplacements_dollar hlooks]
          by_cases hdollar : after.head? = some '$'
          · rw [if_pos hdollar, if_pos hdollar]
            exact hnext .dollar after.tail (by rw [List.length_tail]; omega)
          · rw [if_neg hdollar, if_neg hdollar]
            cases symbols.find? (SwayVariable.begins ('$' :: after)) with
            | some var => exact hnext (.expanded var) _ (length_drop_name_le var after)
            | none => exact hnext (.copied '$') after (Nat.le_refl _)

theorem expandFrom_copied {before : List Char} {c : Char} {after : List Char}
    (h : c ≠ '$' ∨ trailingBackslashes before % 2 = 1) : expandFrom symbols before (c :: after) =
      .copied c :: expandFrom symbols (before ++ [c]) after := by
  rw [expandFrom, if_pos h]

theorem expandFrom_dollar {before : List Char} (h : ¬ trailingBackslashes before % 2 = 1)
    (after : List Char) : expandFrom symbols before ('$' :: after) =
      if after.head? = some '$' then
        .dollar :: expandFrom symbols (before ++ ['$', '$']) after.tail
      else
        match longestVariable symbols ('$' :: after) with
        | some var =>
            .expanded var ::
              expandFrom symbols (before ++ var.name) (('$' :: after).drop var.name.length)
        | none => .copied '$' :: expandFrom symbols (before ++ ['$']) after := by
  rw [expandFrom, if_neg]
  simp [h]

theorem longestVariable_starts {text : List Char} {var : SwayVariable}
    (h : longestVariable symbols text = some var) : var ∈ symbols ∧ var.name <+: text := by
  obtain ⟨hmem, hbegins⟩ := List.mem_filter.mp (List.argmax_mem h)
  exact ⟨hmem, SwayVariable.begins_iff.mp hbegins⟩

/-- The pass goes over the whole text. -/
theorem placesText_expandFrom (before rest : List Char) :
    placesText (expandFrom symbols before rest) = rest := by
  have hcons (p : Replacement) (v : List Replacement) :
      placesText (p :: v) = p.text ++ placesText v := List.flatMap_cons
  induction before, rest using expandFrom.induct symbols with
  | case1 before => rw [expandFrom]; rfl
  | case2 before c after h ih =>
      rw [expandFrom_copied h, hcons, ih]
      rfl
  | case3 before c after h hdollar ih =>
      rw [not_or, not_not] at h
      obtain ⟨rfl, h⟩ := h
      obtain ⟨d, after, rfl⟩ := List.exists_cons_of_ne_nil (l := after) (by rintro rfl; cases hdollar)
      obtain rfl := Option.some.inj hdollar
      rw [expandFrom_dollar h, if_pos hdollar, hcons, ih]
      rfl
  | case4 before c after h hdollar var hvar ih =>
      rw [not_or, not_not] at h
      obtain ⟨rfl, h⟩ := h
      obtain ⟨rest, hrest⟩ := (longestVariable_starts hvar).2
      rw [expandFrom_dollar h, if_neg hdollar, hvar]
      dsimp only
      rw [hcons, ih, ← hrest, List.drop_left]
      rfl
  | case5 before c after h hdollar hnone ih =>
      rw [not_or, not_not] at h
      obtain ⟨rfl, h⟩ := h
      rw [expandFrom_dollar h, if_neg hdollar, hnone]
      dsimp only
      rw [hcons, ih]
      rfl

/-! ## Looking back -/

/-- Looking back is right at some places, behind what was written and what was read. -/
def LooksRightFrom (symbols : List SwayVariable) (done before : List Char)
    (places : List Replacement) : Prop :=
  ∀ u p v, places = u ++ p :: v → BeginsReplacement symbols (placesText (p :: v)) →
    (looksEscaped (done ++ placesResult u) = true ↔
      trailingBackslashes (before ++ placesText u) % 2 = 1)

theorem looksRightFrom_cons {done before : List Char} {p : Replacement} {v : List Replacement} :
    LooksRightFrom symbols done before (p :: v) ↔
      (BeginsReplacement symbols (placesText (p :: v)) →
        (looksEscaped done = true ↔ trailingBackslashes before % 2 = 1)) ∧
      LooksRightFrom symbols (done ++ p.result) (before ++ p.text) v := by
  have hresult (u : List Replacement) :
      done ++ placesResult (p :: u) = done ++ p.result ++ placesResult u := by
    rw [placesResult_cons, List.append_assoc]
  have htext (u : List Replacement) :
      before ++ placesText (p :: u) = before ++ p.text ++ placesText u := by
    rw [List.append_assoc]
    rfl
  constructor
  · intro h
    refine ⟨fun hbegins => ?_, fun u q w heq hbegins => ?_⟩
    · have hfirst := h [] p v rfl hbegins
      rw [placesResult, placesText, List.flatMap_nil, List.flatMap_nil, List.append_nil,
        List.append_nil] at hfirst
      exact hfirst
    · have hnext := h (p :: u) q w (by rw [heq]; rfl) hbegins
      rw [hresult, htext] at hnext
      exact hnext
  · rintro ⟨hfirst, hnext⟩ u q w heq hbegins
    cases u with
    | nil =>
        obtain ⟨rfl, rfl⟩ := List.cons.inj heq
        rw [placesResult, placesText, List.flatMap_nil, List.flatMap_nil, List.append_nil,
          List.append_nil]
        exact hfirst hbegins
    | cons r u =>
        obtain ⟨rfl, htail⟩ := List.cons.inj heq
        rw [hresult, htext]
        exact hnext u q w htail hbegins

/-- Nothing is replaced where no `$` is. -/
theorem not_beginsReplacement {c : Char} {text : List Char} (hc : c ≠ '$') :
    ¬ BeginsReplacement symbols (c :: text) := by
  rintro (hdollar | ⟨var, -, hvar⟩)
  · exact hc (List.cons_prefix_cons.mp hdollar).1.symm
  · cases hname : var.name with
    | nil => exact var.name_ne_nil hname
    | cons d name =>
        rw [hname] at hvar
        have hdollar := var.dollar
        rw [hname] at hdollar
        exact hc ((List.cons_prefix_cons.mp hvar).1.symm.trans (Option.some.inj hdollar))

theorem beginsReplacement_dollar {after : List Char} (h : after.head? = some '$') :
    BeginsReplacement symbols ('$' :: after) := by
  obtain ⟨d, after, rfl⟩ := List.exists_cons_of_ne_nil (l := after) (by rintro rfl; cases h)
  obtain rfl := Option.some.inj h
  exact .inl ⟨after, rfl⟩

theorem not_beginsReplacement_dollar {after : List Char} (h : after.head? ≠ some '$')
    (hnone : symbols.find? (SwayVariable.begins ('$' :: after)) = none) :
    ¬ BeginsReplacement symbols ('$' :: after) := by
  rintro (⟨tail, htail⟩ | ⟨var, hvar, hprefix⟩)
  · obtain ⟨-, rfl⟩ := List.cons.inj htail
    exact h rfl
  · exact List.find?_eq_none.mp hnone var hvar (SwayVariable.begins_iff.mpr hprefix)

/-- What becomes of a place, where a `$` is escaped or not. -/
def replacementAt (symbols : List SwayVariable) (escaped : Bool) (c : Char) (after : List Char) :
    Replacement :=
  if c ≠ '$' ∨ escaped then .copied c
  else if after.head? = some '$' then .dollar
  else
    match symbols.find? (SwayVariable.begins (c :: after)) with
    | some var => .expanded var
    | none => .copied c

theorem loopReplacements_cons (done : List Char) (c : Char) (after : List Char) :
    loopReplacements symbols done (c :: after) =
      replacementAt symbols (looksEscaped done) c after ::
        loopReplacements symbols (done ++ (replacementAt symbols (looksEscaped done) c after).result)
          ((c :: after).drop (replacementAt symbols (looksEscaped done) c after).text.length) := by
  rw [loopReplacements]
  unfold replacementAt
  split_ifs with hcopied hdollar
  · rfl
  · cases after <;> rfl
  · split <;> rfl

theorem expandFrom_cons (h : InOrder symbols) (before : List Char) (c : Char) (after : List Char) :
    let p := replacementAt symbols (decide (trailingBackslashes before % 2 = 1)) c after
    expandFrom symbols before (c :: after) =
      p :: expandFrom symbols (before ++ p.text) ((c :: after).drop p.text.length) := by
  dsimp only
  rw [expandFrom, ← find?_eq_longestVariable h]
  unfold replacementAt
  simp only [decide_eq_true_eq]
  split_ifs with hcopied hdollar
  · rfl
  · cases after <;> rfl
  · split <;> rfl

/-- Being escaped makes a difference where something would be replaced. -/
theorem replacementAt_eq_iff (c : Char) (after : List Char) :
    replacementAt symbols true c after = replacementAt symbols false c after ↔
      ¬ BeginsReplacement symbols (c :: after) := by
  have hescaped : replacementAt symbols true c after = .copied c := if_pos (.inr rfl)
  rw [hescaped]
  by_cases hc : c = '$'
  · have hfree : replacementAt symbols false c after =
        if after.head? = some '$' then .dollar
        else
          match symbols.find? (SwayVariable.begins (c :: after)) with
          | some var => .expanded var
          | none => .copied c := if_neg (by simp [hc])
    rw [hfree, hc]
    by_cases hdollar : after.head? = some '$'
    · rw [if_pos hdollar]
      exact iff_of_false (by simp) (not_not.mpr (beginsReplacement_dollar hdollar))
    rw [if_neg hdollar]
    cases hfind : symbols.find? (SwayVariable.begins ('$' :: after)) with
    | some var =>
        refine iff_of_false (by simp) (not_not.mpr (.inr ⟨var, List.mem_of_find?_eq_some hfind, ?_⟩))
        exact SwayVariable.begins_iff.mp (List.find?_some hfind)
    | none => exact iff_of_true rfl (not_beginsReplacement_dollar hdollar hfind)
  · have hfree : replacementAt symbols false c after = .copied c := if_pos (.inl hc)
    rw [hfree]
    exact iff_of_true rfl (not_beginsReplacement hc)

theorem length_text_pos (p : Replacement) : 0 < p.text.length := by
  cases p with
  | copied c => exact Nat.one_pos
  | dollar => exact Nat.two_pos
  | expanded var => exact List.length_pos_iff.mpr var.name_ne_nil

/-- **From a place on**, the loop does what the pass does if and only if looking back is right. -/
theorem loopReplacements_iff (h : InOrder symbols) (done before rest : List Char) :
    loopReplacements symbols done rest = expandFrom symbols before rest ↔
      LooksRightFrom symbols done before (expandFrom symbols before rest) := by
  induction hn : rest.length using Nat.strong_induction_on generalizing done before rest with
  | _ n ih =>
      cases rest with
      | nil =>
          rw [loopReplacements, expandFrom]
          refine ⟨fun _ u p v hnil => ?_, fun _ => rfl⟩
          exact absurd hnil.symm (List.append_ne_nil_of_right_ne_nil u (List.cons_ne_nil p v))
      | cons c after =>
          have hloop := @loopReplacements_cons symbols done c after
          have hpass := expandFrom_cons h before c after
          have htext := @placesText_expandFrom symbols before (c :: after)
          dsimp only at hpass
          rw [hpass] at htext
          rw [hloop, hpass, looksRightFrom_cons, htext]
          have hflags : (looksEscaped done = true ↔ trailingBackslashes before % 2 = 1) ↔
              looksEscaped done = decide (trailingBackslashes before % 2 = 1) := by
            constructor
            · intro hiff
              exact Bool.eq_iff_iff.mpr (hiff.trans decide_eq_true_iff.symm)
            · intro heq
              rw [heq]
              exact decide_eq_true_iff
          rw [hflags]
          generalize decide (trailingBackslashes before % 2 = 1) = escaped
          generalize looksEscaped done = looks
          have hdiffer : looks ≠ escaped → (replacementAt symbols looks c after =
              replacementAt symbols escaped c after ↔ ¬ BeginsReplacement symbols (c :: after)) := by
            intro hne
            cases looks with
            | true =>
                obtain rfl : escaped = false := by simpa using hne
                exact replacementAt_eq_iff c after
            | false =>
                obtain rfl : escaped = true := by simpa using hne
                rw [eq_comm]
                exact replacementAt_eq_iff c after
          by_cases hsame : replacementAt symbols looks c after = replacementAt symbols escaped c after
          · -- both do the same here
            rw [hsame, List.cons_inj_right]
            have hpos := length_text_pos (replacementAt symbols escaped c after)
            have hshorter : ((c :: after).drop
                (replacementAt symbols escaped c after).text.length).length < n := by
              rw [List.length_drop, hn]
              rw [List.length_cons] at hn
              omega
            rw [ih _ hshorter _ _ _ rfl]
            refine ⟨fun hrest => ⟨fun hbegins => ?_, hrest⟩, fun hboth => hboth.2⟩
            by_contra hne
            exact (hdiffer hne).mp hsame hbegins
          · -- one replaces what the other copies
            have hne : looks ≠ escaped := fun heq => hsame (by rw [heq])
            have hbegins : BeginsReplacement symbols (c :: after) :=
              not_not.mp fun hnot => hsame ((hdiffer hne).mpr hnot)
            exact iff_of_false (fun heq => hsame (List.cons.inj heq).1)
              fun hboth => hne (hboth.1 hbegins)

end Places

/-- **`do_var_replacement`** is one pass over the text if and only if looking back is right. -/
theorem replacesInOnePass_iff {symbols : List SwayVariable} (h : InOrder symbols)
    (str : List Char) : ReplacesInOnePass symbols str ↔ LooksBackRight symbols str := by
  have hiff := loopReplacements_iff h [] [] str
  have hresult : doVarReplacement symbols str =
      placesResult (loopReplacements symbols [] str) := replaceLoop_eq [] str
  have hlooks : LooksRightFrom symbols [] [] (expandFrom symbols [] str) ↔
      LooksBackRight symbols str := Iff.rfl
  unfold ReplacesInOnePass
  rw [hresult, ← hlooks, ← hiff]
  exact ⟨fun hboth => hboth.1, fun heq => ⟨heq, congrArg placesResult heq⟩⟩

/-- **Whatever variables were set**, `do_var_replacement` ends, and is one pass over a text if and
only if looking back is right. -/
theorem doVarReplacement_onePass_iff (qsort : SetQsort) (argvs : List (List (List Char)))
    (str : List Char) :
    ReplacesInOnePass (cmdSets qsort argvs) str ↔ LooksBackRight (cmdSets qsort argvs) str :=
  replacesInOnePass_iff (cmdSets_inOrder qsort argvs) str

/-- A `qsort` by merging. -/
def mergeQsort : SetQsort where
  sort items := items.mergeSort fun l r => decide (compareSetQsort l r ≤ 0)
  perm items := List.mergeSort_perm items _
  sorted items := by
    have hsorted := @List.pairwise_mergeSort _ (fun l r => decide (compareSetQsort l r ≤ 0))
      ?_ ?_ items
    · exact hsorted.imp fun h => of_decide_eq_true h
    · intro a b c hab hbc
      rw [decide_eq_true_iff] at hab hbc ⊢
      unfold compareSetQsort at hab hbc ⊢
      omega
    · intro a b
      rw [Bool.or_eq_true, decide_eq_true_iff, decide_eq_true_iff]
      unfold compareSetQsort
      omega

/-- Behind three backslashes a variable is replaced. -/
theorem doVarReplacement_threeBackslashes :
    doVarReplacement (cmdSets mergeQsort [["$a".toList, "b".toList]]) "\\\\\\$a".toList ≠
      placesResult (expand (cmdSets mergeQsort [["$a".toList, "b".toList]])
        "\\\\\\$a".toList) := by
  have hsymbols : cmdSets mergeQsort [["$a".toList, "b".toList]] =
      [⟨"$a".toList, "b".toList, rfl⟩] := List.mergeSort_singleton _
  have htext : "\\\\\\$a".toList = [backslash, backslash, backslash] ++ '$' :: ['a'] := by decide
  generalize hvar : (⟨"$a".toList, "b".toList, rfl⟩ : SwayVariable) = var at hsymbols
  have hplain : ∀ c ∈ [backslash, backslash, backslash], c ≠ '$' := by
    simp only [List.forall_mem_cons]
    exact ⟨by decide, by decide, by decide, fun c hc => by cases hc⟩
  have hfind : [var].find? (SwayVariable.begins ['$', 'a']) = some var := by
    rw [← hvar]
    rfl
  have hvalue : var.value = ['b'] ∧ var.name.length = 2 := by
    rw [← hvar]
    exact ⟨rfl, rfl⟩
  have hloop : doVarReplacement [var] ([backslash, backslash, backslash] ++ '$' :: ['a']) =
      [backslash, backslash, backslash, 'b'] := by
    unfold doVarReplacement
    rw [replaceLoop_dollar hplain, if_neg (by decide), if_neg (by decide), hfind]
    dsimp only
    rw [hvalue.1, hvalue.2, replaceLoop_none fun c hc => by cases hc]
    rfl
  have hpass : expand [var] ([backslash, backslash, backslash] ++ '$' :: ['a']) =
      [backslash, backslash, backslash, '$', 'a'].map .copied := by
    have hstep {before : List Char} {c : Char} {after : List Char}
        (h : c ≠ '$' ∨ trailingBackslashes before % 2 = 1) :
        expandFrom [var] before (c :: after) =
          .copied c :: expandFrom [var] (before ++ [c]) after := expandFrom_copied h
    unfold expand
    rw [List.cons_append, List.cons_append, List.cons_append, List.nil_append,
      hstep (by decide), hstep (by decide), hstep (by decide), hstep (by decide),
      hstep (by decide), expandFrom]
    rfl
  rw [hsymbols, htext, hloop, hpass, placesResult_copied]
  decide

end Swirl

import Swirl.Commands.Criteria
import Swirl.Commands.Mark

set_option autoImplicit false

/-! # Matching criteria

`criteria_matches_view` makes the checks of a criteria one after the other, up to the first one that
rejects the view. Three of them read something that may not be there: the regular expression of a
`con_mark` pattern, which has none when it is `__focused__`, the first or the last urgent view, and
the workspace of the focused view.
-/

namespace Swirl

open Swirl.Lib

/-! ## Views -/

/-- `enum sway_view_type` -/
inductive ViewType
  | xdgShell
  | xwayland
  deriving DecidableEq

/-- `struct timespec` -/
structure Timespec where
  sec : Int
  nsec : Int
  deriving DecidableEq

/-- What the criteria read of a `struct sway_view`, with its address. -/
structure ViewInfo where
  address : Nat
  container : Option ConId
  type : ViewType
  title : Option String
  appId : Option String
  «class» : Option String
  «instance» : Option String
  windowRole : Option String
  sandboxEngine : Option String
  sandboxAppId : Option String
  sandboxInstanceId : Option String
  tag : Option String
  x11WindowId : Nat
  windowTypes : List WindowType
  urgent : Timespec
  pid : Int
  deriving DecidableEq

/-- The compositor with its marks, the views of the containers that have one, and the ids of their
nodes. -/
structure Windows where
  marked : Marked
  view : ConId → ViewInfo
  nodeId : ConId → Nat

/-- `view_get_shell` -/
def viewGetShell (view : ViewInfo) : String :=
  match view.type with
  | .xdgShell => "xdg_shell"
  | .xwayland => "xwayland"

/-- What a view has for a pattern: `view_get_title` and the like. -/
def viewText (view : ViewInfo) : PatternField → Option String
  | .title => view.title
  | .shell => some (viewGetShell view)
  | .appId => view.appId
  | .class => view.class
  | .instance => view.instance
  | .windowRole => view.windowRole
  | .sandboxEngine => view.sandboxEngine
  | .sandboxAppId => view.sandboxAppId
  | .sandboxInstanceId => view.sandboxInstanceId
  | .tag => view.tag
  | .conMark | .workspace => none

/-- `view_is_urgent` -/
def viewIsUrgent (view : ViewInfo) : Bool := decide (view.urgent.sec ≠ 0 ∨ view.urgent.nsec ≠ 0)

/-- `cmp_urgent` does not put the second view before the first one. -/
def notLaterUrgent (a b : ViewInfo) : Bool :=
  decide (a.urgent.sec < b.urgent.sec) ||
    (decide (a.urgent.sec = b.urgent.sec) && decide (a.urgent.nsec ≤ b.urgent.nsec))

/-- The focused view of the current seat, by its container. -/
def focusedView (w : Windows) : Option ConId :=
  match seatGetFocusedContainer w.marked.state w.marked.state.currentSeat with
  | some c => if (w.marked.state.tree.con c).view.isSome then some c else none
  | none => none

/-- The urgent views among those of `root_for_each_container`, in their order. -/
def urgentViews (w : Windows) : List ViewInfo :=
  ((rootForEachContainer w.marked.state.tree w.marked.state.pool).filter fun c =>
    (w.marked.state.tree.con c).view.isSome && viewIsUrgent (w.view c)).map w.view

/-! ## The checks -/

/-- What goes wrong in a check. -/
inductive MatchFault
  /-- `regex_cmp` is called without a regular expression. -/
  | missingRegex
  /-- An index outside the list of urgent views. -/
  | urgentIndex
  /-- The name of a workspace that is not there is read. -/
  | nullWorkspace
  deriving DecidableEq

section Checks

variable {ρ : Type} (pcre : Pcre ρ) (w : Windows) (criteria : Criteria ρ)

/-- `regex_cmp` -/
def regexCmp (item : String) (regex : Option ρ) : Except MatchFault Int :=
  match regex with
  | some regex => .ok (pcre.run regex item)
  | none => .error .missingRegex

/-- A match of a text with a pattern; `equal` says whether the focused view has the same. -/
def patternMatches (pattern : Pattern ρ) (text : String) (equal : Bool) : Except MatchFault Bool :=
  match pattern.matchType with
  | .focused => .ok equal
  | .pcre2 =>
      match regexCmp pcre text pattern.regex with
      | .ok result => .ok (decide (0 ≤ result))
      | .error fault => .error fault

/-- The check of a pattern against a text of the view, if it has one. -/
def textCheck (field : PatternField) (text : Option String) : Except MatchFault Bool :=
  match criteria.pattern field, text with
  | none, _ => .ok true
  | some _, none => .ok false
  | some pattern, some text =>
      patternMatches pcre pattern text
        (match focusedView w with
          | some focused => decide (viewText (w.view focused) field = some text)
          | none => false)

/-- A pattern for which a view without a text counts as one with an empty text: title, shell,
app_id, class, instance and window_role. -/
def viewTextCheck (view : ViewInfo) (field : PatternField) : Except MatchFault Bool :=
  textCheck pcre w criteria field (some ((viewText view field).getD ""))

/-- A pattern that rejects a view without a text: the sandbox and tag criteria. -/
def viewTextRequired (view : ViewInfo) (field : PatternField) : Except MatchFault Bool :=
  textCheck pcre w criteria field (viewText view field)

/-- The loop over the marks in `criteria_matches_container`. -/
def anyMarkMatches (regex : Option ρ) : List String → Except MatchFault Bool
  | [] => .ok false
  | mark :: marks =>
      match regexCmp pcre mark regex with
      | .error fault => .error fault
      | .ok result => if 0 ≤ result then .ok true else anyMarkMatches regex marks

/-- `criteria_matches_container` -/
def criteriaMatchesContainer (c : ConId) : Except MatchFault Bool :=
  runChecks [
    match criteria.pattern .conMark with
      | some pattern => anyMarkMatches pcre pattern.regex (w.marked.marks c)
      | none => .ok true,
    .ok (decide (criteria.conId = 0) || decide (w.nodeId c = criteria.conId))]

/-- The view that `urgent` asks for. -/
def urgentTarget (order : UrgentOrder) : Option ViewInfo :=
  match order with
  | .oldest => ((urgentViews w).mergeSort notLaterUrgent).head?
  | .latest => ((urgentViews w).mergeSort notLaterUrgent).getLast?

/-- The check of `urgent`. -/
def urgentCheck (view : ViewInfo) : Except MatchFault Bool :=
  match criteria.urgent with
  | none => .ok true
  | some order =>
      if !viewIsUrgent view then .ok false
      else
        match urgentTarget w order with
        | none => .error .urgentIndex
        | some target => .ok (decide (view.address = target.address))

/-- The check of `workspace`, for the container of the view. -/
def workspaceCheck (c : ConId) : Except MatchFault Bool :=
  let tree := w.marked.state.tree
  match criteria.pattern .workspace, (tree.con c).workspace with
  | none, _ => .ok true
  | some _, none => .ok false
  | some pattern, some ws =>
      match pattern.matchType, focusedView w with
      | .pcre2, _ => patternMatches pcre pattern (tree.ws ws).name false
      | .focused, none => .ok false
      | .focused, some focused =>
          match (tree.con focused).workspace with
          | some focusedWs => .ok (decide ((tree.ws ws).name = (tree.ws focusedWs).name))
          | none => .error .nullWorkspace

/-- The checks before `criteria_matches_container`. -/
def textChecks (view : ViewInfo) : List (Except MatchFault Bool) :=
  [viewTextCheck pcre w criteria view .title, viewTextCheck pcre w criteria view .shell,
    viewTextCheck pcre w criteria view .appId, viewTextRequired pcre w criteria view .sandboxEngine,
    viewTextRequired pcre w criteria view .sandboxAppId,
    viewTextRequired pcre w criteria view .sandboxInstanceId,
    viewTextRequired pcre w criteria view .tag]

/-- The checks between `criteria_matches_container` and that of `urgent`. -/
def windowChecks (view : ViewInfo) (c : ConId) : List (Except MatchFault Bool) :=
  let floating := containerIsFloating w.marked.state.tree c
  [.ok (decide (criteria.id = 0) || (decide (view.x11WindowId ≠ 0) &&
      decide (view.x11WindowId = criteria.id))),
    viewTextCheck pcre w criteria view .class, viewTextCheck pcre w criteria view .instance,
    viewTextCheck pcre w criteria view .windowRole,
    .ok (match criteria.windowType with
      | none => true
      | some type => decide (view.type = .xwayland) && decide (type ∈ view.windowTypes)),
    .ok (!criteria.floating || floating), .ok (!criteria.tiling || !floating)]

/-- The checks up to the one of `urgent`. -/
def checksBeforeUrgent (view : ViewInfo) (c : ConId) : List (Except MatchFault Bool) :=
  textChecks pcre w criteria view ++
    criteriaMatchesContainer pcre w criteria c :: windowChecks pcre w criteria view c

/-- `criteria_matches_view` -/
def criteriaMatchesView (view : ViewInfo) : Except MatchFault Bool :=
  match view.container with
  | none => .ok false
  | some c =>
      runChecks (checksBeforeUrgent pcre w criteria view c ++
        [urgentCheck w criteria view, workspaceCheck pcre w criteria c,
          .ok (decide (criteria.pid = 0) || decide (criteria.pid = view.pid))])

end Checks

/-! ## What the checks read -/

section Reads

variable {ρ : Type} {pcre : Pcre ρ} {w : Windows} {criteria : Criteria ρ}

/-- A pattern that is not `__focused__` is matched without a fault. -/
theorem answers_patternMatches {pattern : Pattern ρ}
    (h : pattern.matchType = .pcre2 → pattern.regex.isSome = true) (text : String)
    (equal : Bool) : Answers (patternMatches pcre pattern text equal) := by
  unfold patternMatches
  cases htype : pattern.matchType with
  | focused => exact answers_ok equal
  | pcre2 =>
      obtain ⟨regex, hregex⟩ := Option.isSome_iff_exists.1 (h htype)
      rw [hregex]
      exact answers_ok _

theorem answers_textCheck (h : criteria.WellFormed) (field : PatternField)
    (text : Option String) : Answers (textCheck pcre w criteria field text) := by
  unfold textCheck
  cases hpattern : criteria.pattern field with
  | none => exact answers_ok true
  | some pattern =>
      cases text with
      | none => exact answers_ok false
      | some text => exact answers_patternMatches (h field pattern hpattern) text _

theorem answers_textChecks (h : criteria.WellFormed) (view : ViewInfo) :
    Answers (runChecks (textChecks pcre w criteria view)) := by
  refine answers_runChecks fun x hx => ?_
  simp only [textChecks, viewTextCheck, viewTextRequired, List.mem_cons, List.not_mem_nil,
    or_false] at hx
  rcases hx with rfl | rfl | rfl | rfl | rfl | rfl | rfl <;> exact answers_textCheck h _ _

theorem answers_windowChecks (h : criteria.WellFormed) (view : ViewInfo) (c : ConId) :
    Answers (runChecks (windowChecks pcre w criteria view c)) := by
  refine answers_runChecks fun x hx => ?_
  simp only [windowChecks, viewTextCheck, List.mem_cons, List.not_mem_nil, or_false] at hx
  rcases hx with rfl | rfl | rfl | rfl | rfl | rfl | rfl
  · exact answers_ok _
  · exact answers_textCheck h _ _
  · exact answers_textCheck h _ _
  · exact answers_textCheck h _ _
  · exact answers_ok _
  · exact answers_ok _
  · exact answers_ok _

/-- The loop over the marks reads a missing regular expression at the first mark. -/
theorem answers_anyMarkMatches {regex : Option ρ} {marks : List String} :
    Answers (anyMarkMatches pcre regex marks) ↔ (regex = none → marks = []) := by
  cases regex with
  | none =>
      cases marks with
      | nil => exact iff_of_true (answers_ok false) fun _ => rfl
      | cons mark marks =>
          refine iff_of_false ?_ fun h => by cases h rfl
          rintro ⟨b, hb⟩
          cases hb
  | some regex =>
      refine iff_of_true ?_ fun h => by cases h
      induction marks with
      | nil => exact answers_ok false
      | cons mark marks ih =>
          unfold anyMarkMatches regexCmp
          dsimp only
          split_ifs
          · exact answers_ok true
          · exact ih

/-- The regular expression of `con_mark` is there, or the container has no mark. -/
def MarksReadable (w : Windows) (criteria : Criteria ρ) (c : ConId) : Prop :=
  ∀ pattern, criteria.pattern .conMark = some pattern → pattern.regex = none →
    w.marked.marks c = []

theorem answers_criteriaMatchesContainer {c : ConId} :
    Answers (criteriaMatchesContainer pcre w criteria c) ↔ MarksReadable w criteria c := by
  unfold criteriaMatchesContainer MarksReadable
  rw [answers_runChecks_cons]
  rw [and_iff_left fun _ => answers_runChecks_singleton _]
  cases criteria.pattern .conMark with
  | none => exact iff_of_true (answers_ok true) fun pattern h => by cases h
  | some pattern =>
      rw [answers_anyMarkMatches]
      constructor
      · rintro h pattern' hpattern'
        obtain rfl := Option.some.inj hpattern'
        exact h
      · exact fun h => h pattern rfl

/-- Up to the check of `urgent` only the marks can go wrong. -/
theorem answers_checksBeforeUrgent (h : criteria.WellFormed) (view : ViewInfo) (c : ConId) :
    Answers (runChecks (checksBeforeUrgent pcre w criteria view c)) ↔
      (runChecks (textChecks pcre w criteria view) = .ok true → MarksReadable w criteria c) := by
  unfold checksBeforeUrgent
  rw [answers_runChecks_append, answers_runChecks_cons, answers_criteriaMatchesContainer,
    and_iff_right (answers_textChecks h view)]
  exact imp_congr_right fun _ => and_iff_left fun _ => answers_windowChecks h view c

theorem urgentTarget_eq_none_iff {order : UrgentOrder} :
    urgentTarget w order = none ↔ urgentViews w = [] := by
  have hperm := List.mergeSort_perm (urgentViews w) notLaterUrgent
  have hnil : (urgentViews w).mergeSort notLaterUrgent = [] ↔ urgentViews w = [] :=
    ⟨fun h => (h ▸ hperm).symm.eq_nil, fun h => by simp [h]⟩
  cases order with
  | oldest => exact List.head?_eq_none_iff.trans hnil
  | latest => exact List.getLast?_eq_none_iff.trans hnil

/-- If an urgent view is asked for and the view is urgent, `root_for_each_container` comes to an
urgent view. -/
def UrgentListed (w : Windows) (criteria : Criteria ρ) (view : ViewInfo) : Prop :=
  criteria.urgent ≠ none → viewIsUrgent view = true →
    ∃ c ∈ rootForEachContainer w.marked.state.tree w.marked.state.pool,
      (w.marked.state.tree.con c).view.isSome = true ∧ viewIsUrgent (w.view c) = true

theorem urgentViews_ne_nil_iff :
    urgentViews w ≠ [] ↔ ∃ c ∈ rootForEachContainer w.marked.state.tree w.marked.state.pool,
      (w.marked.state.tree.con c).view.isSome = true ∧ viewIsUrgent (w.view c) = true := by
  unfold urgentViews
  rw [Ne, List.map_eq_nil_iff, List.filter_eq_nil_iff]
  push Not
  simp only [Bool.and_eq_true]

theorem answers_urgentCheck {view : ViewInfo} :
    Answers (urgentCheck w criteria view) ↔ UrgentListed w criteria view := by
  unfold urgentCheck UrgentListed
  rw [← urgentViews_ne_nil_iff]
  cases criteria.urgent with
  | none => exact iff_of_true (answers_ok true) fun h => absurd rfl h
  | some order =>
      cases hurgent : viewIsUrgent view with
      | false => exact iff_of_true (answers_ok false) fun _ h => by cases h
      | true =>
          simp only [Bool.not_true, Bool.false_eq_true, if_false]
          cases htarget : urgentTarget w order with
          | none =>
              have hempty := urgentTarget_eq_none_iff.1 htarget
              refine iff_of_false ?_ fun h => h (by simp) trivial hempty
              rintro ⟨b, hb⟩
              cases hb
          | some target =>
              refine iff_of_true (answers_ok _) fun _ _ hempty => ?_
              rw [urgentTarget_eq_none_iff.2 hempty] at htarget
              cases htarget

/-- If the workspace of the focused view is asked for and both are there, it has one. -/
def WorkspaceReadable (w : Windows) (criteria : Criteria ρ) (c : ConId) : Prop :=
  ∀ pattern, criteria.pattern .workspace = some pattern → pattern.matchType = .focused →
    (w.marked.state.tree.con c).workspace ≠ none → ∀ focused, focusedView w = some focused →
      (w.marked.state.tree.con focused).workspace ≠ none

theorem answers_workspaceCheck (h : criteria.WellFormed) {c : ConId} :
    Answers (workspaceCheck pcre w criteria c) ↔ WorkspaceReadable w criteria c := by
  unfold workspaceCheck WorkspaceReadable
  dsimp only
  cases hpattern : criteria.pattern .workspace with
  | none => exact iff_of_true (answers_ok true) fun pattern h => by cases h
  | some pattern =>
      cases hws : (w.marked.state.tree.con c).workspace with
      | none => exact iff_of_true (answers_ok false) fun _ _ _ h => absurd rfl h
      | some ws =>
          obtain ⟨matchType, regex⟩ := pattern
          cases matchType with
          | pcre2 =>
              refine iff_of_true (answers_patternMatches (h .workspace _ hpattern) _ _) ?_
              intro pattern' hpattern' htype'
              obtain rfl := Option.some.inj hpattern'
              cases htype'
          | focused =>
              cases hfocused : focusedView w with
              | none => exact iff_of_true (answers_ok false) fun _ _ _ _ _ h => by cases h
              | some focused =>
                  dsimp only
                  cases hfws : (w.marked.state.tree.con focused).workspace with
                  | none =>
                      refine iff_of_false ?_ fun h => h _ rfl rfl (by simp) focused rfl hfws
                      rintro ⟨b, hb⟩
                      cases hb
                  | some focusedWs =>
                      refine iff_of_true (answers_ok _) ?_
                      intro _ _ _ _ focused' hfocused'
                      obtain rfl := Option.some.inj hfocused'
                      rw [hfws]
                      simp

end Reads

/-- The criteria that `criteria_parse` accepts are matched with a view without a fault exactly when
each of the three checks that read something finds it, if the checks before it accept the view: the
regular expression of `con_mark` for the marks of the container, an urgent view for `urgent`, and
the workspace of the focused view for `workspace`. -/
theorem criteriaMatchesView_answers_iff {ρ : Type} (pcre : Pcre ρ) (focusId : Nat) (raw : String)
    (criteria : Criteria ρ) (hparse : criteriaParse pcre focusId raw = .ok criteria) (w : Windows)
    (view : ViewInfo) (c : ConId) (hcontainer : view.container = some c) :
    Answers (criteriaMatchesView pcre w criteria view) ↔
      (runChecks (textChecks pcre w criteria view) = .ok true → MarksReadable w criteria c) ∧
      (runChecks (checksBeforeUrgent pcre w criteria view c) = .ok true →
        UrgentListed w criteria view) ∧
      (runChecks (checksBeforeUrgent pcre w criteria view c ++ [urgentCheck w criteria view]) =
        .ok true → WorkspaceReadable w criteria c) := by
  have hwf := criteriaParse_wellFormed hparse
  unfold criteriaMatchesView
  rw [hcontainer]
  dsimp only
  have hbefore := @answers_checksBeforeUrgent _ pcre w _ hwf view c
  have hlast : Answers (runChecks
      [(.ok (decide (criteria.pid = 0) || decide (criteria.pid = view.pid)) :
        Except MatchFault Bool)]) := answers_runChecks_singleton _
  have hsplit : ∀ l : List (Except MatchFault Bool), ∀ x y z,
      l ++ [x, y, z] = (l ++ [x]) ++ [y, z] := by simp
  rw [hsplit, answers_runChecks_append, answers_runChecks_append, answers_runChecks_cons,
    answers_runChecks_cons, answers_urgentCheck, answers_workspaceCheck hwf, hbefore, and_assoc]
  refine and_congr_right fun _ => and_congr ?_ ?_
  · exact imp_congr_right fun _ => and_iff_left fun _ => answers_ok true
  · exact imp_congr_right fun _ => and_iff_left fun _ => hlast

/-- Regular expressions without special characters: a match is a place where the text occurs. -/
def literalPcre : Pcre String where
  compile text := .ok text
  run regex item := if regex.toList <:+: item.toList then 1 else -1

/-- One window, which has the mark `a`. -/
def markedWindow : Windows where
  marked := ⟨windowOpened, fun _ => ["a"]⟩
  view _ := {
    address := 1, container := some 0, type := .xdgShell, title := some "vi", appId := none
    «class» := none, «instance» := none, windowRole := none, sandboxEngine := none
    sandboxAppId := none, sandboxInstanceId := none, tag := none, x11WindowId := 0
    windowTypes := [], urgent := ⟨0, 0⟩, pid := 100 }
  nodeId c := c + 2

/-- The criteria that `[con_mark=…]` is read as. -/
def markCriteria (pattern : Pattern String) : Criteria String :=
  { Criteria.init String with
    pattern := Function.update (fun _ => none) .conMark (some pattern) }

theorem criteriaMatchesView_answers_iff_marked :
    Answers (criteriaMatchesView literalPcre markedWindow (markCriteria ⟨.pcre2, some "a"⟩)
        (markedWindow.view 0)) ↔
      (runChecks (textChecks literalPcre markedWindow (markCriteria ⟨.pcre2, some "a"⟩)
          (markedWindow.view 0)) = .ok true →
        MarksReadable markedWindow (markCriteria ⟨.pcre2, some "a"⟩) 0) ∧
      (runChecks (checksBeforeUrgent literalPcre markedWindow (markCriteria ⟨.pcre2, some "a"⟩)
          (markedWindow.view 0) 0) = .ok true →
        UrgentListed markedWindow (markCriteria ⟨.pcre2, some "a"⟩) (markedWindow.view 0)) ∧
      (runChecks (checksBeforeUrgent literalPcre markedWindow (markCriteria ⟨.pcre2, some "a"⟩)
            (markedWindow.view 0) 0 ++
          [urgentCheck markedWindow (markCriteria ⟨.pcre2, some "a"⟩) (markedWindow.view 0)]) =
        .ok true → WorkspaceReadable markedWindow (markCriteria ⟨.pcre2, some "a"⟩) 0) :=
  criteriaMatchesView_answers_iff literalPcre 0 "[con_mark=a]" (markCriteria ⟨.pcre2, some "a"⟩)
    rfl markedWindow (markedWindow.view 0) 0 rfl

/-- `[con_mark=__focused__]` is accepted, and matching it with a window that has a mark calls
`regex_cmp` without a regular expression. -/
theorem criteriaMatchesView_missingRegex :
    criteriaParse literalPcre 0 "[con_mark=__focused__]" = .ok (markCriteria ⟨.focused, none⟩) ∧
      criteriaMatchesView literalPcre markedWindow (markCriteria ⟨.focused, none⟩)
        (markedWindow.view 0) = .error .missingRegex :=
  ⟨rfl, rfl⟩

end Swirl

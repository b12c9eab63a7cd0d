import Swirl.Common.Stringop
import Swirl.Lib.Holders
import Swirl.Lib.Runs
import Swirl.Tree.Root

set_option autoImplicit false

/-! # Marks

`cmd_mark` and `cmd_unmark`, on a state with the marks of its containers. A mark is meant to be
held by one container: `cmd_mark` takes it from whichever container `root_find_container` finds
with it. That walk does not go through the minimize pools.
-/

namespace Swirl

open Lib

/-- The compositor with the marks of its containers. -/
structure Marked where
  state : State
  marks : ConId → List String

/-- No container has marks at the start. -/
def Marked.start (config : Config) (area : Box) : Marked := ⟨State.start config area, fun _ => []⟩

/-! ## The marks of a container -/

/-- `container_has_mark` -/
def containerHasMark (s : Marked) (c : ConId) (mark : String) : Bool := decide (mark ∈ s.marks c)

/-- `container_clear_marks` -/
def containerClearMarks (s : Marked) (c : ConId) : Marked :=
  { s with marks := Function.update s.marks c [] }

/-- `container_add_mark` -/
def containerAddMark (s : Marked) (c : ConId) (mark : String) : Marked :=
  { s with marks := Function.update s.marks c (listAdd (s.marks c) mark) }

/-- `container_find_mark` -/
def containerFindMark (s : Marked) (mark : String) : Option ConId :=
  rootFindContainer s.state.tree fun c => containerHasMark s c mark

/-- `container_find_and_unmark` -/
def containerFindAndUnmark (s : Marked) (mark : String) : Marked :=
  match containerFindMark s mark with
  | some c => { s with marks := Function.update s.marks c ((s.marks c).erase mark) }
  | none => s

/-! ## The commands -/

/-- The loop of `cmd_mark` over the options: whether to add, whether to toggle, and the rest of
the arguments. -/
def markOptions (add toggle : Bool) : List String → Except String (Bool × Bool × List String)
  | [] => .ok (add, toggle, [])
  | arg :: rest =>
      if "--".toList.isPrefixOf arg.toList then
        if arg = "--add" then markOptions true toggle rest
        else if arg = "--replace" then markOptions false toggle rest
        else if arg = "--toggle" then markOptions add true rest
        else .error ("Unrecognized argument '" ++ arg ++ "'")
      else .ok (add, toggle, arg :: rest)

/-- The options of `cmd_mark` and the mark. -/
def markRequest (argv : List String) : Except String (Bool × Bool × String) :=
  match markOptions false false argv with
  | .error e => .error e
  | .ok (_, _, []) => .error "Expected '[--add|--replace] [--toggle] <identifier>'"
  | .ok (add, toggle, rest) => .ok (add, toggle, joinArgs rest)

/-- The marks of the container are cleared, unless the mark is to be added to them. -/
def clearUnlessAdding (s : Marked) (c : ConId) (add : Bool) : Marked :=
  if add then s else containerClearMarks s c

/-- `cmd_mark`, from the arguments on. -/
def applyMark (s : Marked) (c : ConId) (add toggle : Bool) (mark : String) : Marked :=
  let hadMark := containerHasMark s c mark
  let s := containerFindAndUnmark (clearUnlessAdding s c add) mark
  if toggle = false ∨ hadMark = false then containerAddMark s c mark else s

/-- `cmd_mark`, on the container of the command. -/
def cmdMark (s : Marked) (container : Option ConId) (argv : List String) : Except String Marked :=
  if argv = [] then .error "Invalid mark command (expected at least 1 argument, got 0)"
  else
    match container with
    | none => .error "Only containers can have marks"
    | some c =>
        match markRequest argv with
        | .error e => .error e
        | .ok (add, toggle, mark) => .ok (applyMark s c add toggle mark)

/-- `cmd_unmark`, on the container that criteria or an id gave. -/
def cmdUnmark (s : Marked) (container : Option ConId) (argv : List String) : Marked :=
  match container, argv with
  | some c, [] => containerClearMarks s c
  | some c, argv =>
      if containerHasMark s c (joinArgs argv) then containerFindAndUnmark s (joinArgs argv) else s
  | none, [] => (rootForEachContainer s.state.tree s.state.pool).foldl containerClearMarks s
  | none, argv => containerFindAndUnmark s (joinArgs argv)

/-! ## What a mark needs -/

/-- Every mark is held by one live container at most, and once. -/
def Marked.Unique (s : Marked) : Prop := Exclusive (Live s.state) s.marks

/-- **What `cmd_mark` relies on**: when it is going to give the mark to a live container, the live
container that holds the mark by then, if there is one, is what `root_find_container` finds. -/
def MarkFound (s : Marked) (c : ConId) (add toggle : Bool) (mark : String) : Prop :=
  Live s.state c → (toggle = true → containerHasMark s c mark = false) →
    ∀ d, Live s.state d → containerHasMark (clearUnlessAdding s c add) d mark = true →
      containerFindMark (clearUnlessAdding s c add) mark = some d

instance (s : Marked) (c : ConId) (add toggle : Bool) (mark : String) :
    Decidable (MarkFound s c add toggle mark) :=
  decidable_of_iff (Live s.state c → (toggle = true → containerHasMark s c mark = false) →
    ∀ d, d < s.state.tree.nextCon → (s.state.tree.con d).destroying = false →
      containerHasMark (clearUnlessAdding s c add) d mark = true →
      containerFindMark (clearUnlessAdding s c add) mark = some d)
    (by simp only [MarkFound, Live, and_imp])

section Unique

variable {s : Marked}

theorem clearUnlessAdding_state (s : Marked) (c : ConId) (add : Bool) :
    (clearUnlessAdding s c add).state = s.state := by
  unfold clearUnlessAdding
  split <;> rfl

theorem containerFindAndUnmark_state (s : Marked) (mark : String) :
    (containerFindAndUnmark s mark).state = s.state := by
  unfold containerFindAndUnmark
  split <;> rfl

theorem update_sublist {holds : ConId → List String} {c : ConId} {l : List String}
    (h : l.Sublist (holds c)) (d : ConId) : (Function.update holds c l d).Sublist (holds d) := by
  by_cases hdc : d = c
  · subst hdc
    rwa [Function.update_self]
  · rw [Function.update_of_ne hdc]

theorem containerClearMarks_sublist (s : Marked) (c d : ConId) :
    ((containerClearMarks s c).marks d).Sublist (s.marks d) := update_sublist (List.nil_sublist _) d

theorem clearUnlessAdding_sublist (s : Marked) (c : ConId) (add : Bool) (d : ConId) :
    ((clearUnlessAdding s c add).marks d).Sublist (s.marks d) := by
  unfold clearUnlessAdding
  split
  · exact List.Sublist.refl _
  · exact containerClearMarks_sublist s c d

theorem containerFindAndUnmark_sublist (s : Marked) (mark : String) (d : ConId) :
    ((containerFindAndUnmark s mark).marks d).Sublist (s.marks d) := by
  unfold containerFindAndUnmark
  split
  · exact update_sublist List.erase_sublist d
  · exact List.Sublist.refl _

/-- Fewer marks on the same containers. -/
theorem Marked.Unique.sublist {s' : Marked} (h : s.Unique) (hstate : s'.state = s.state)
    (hsub : ∀ c, (s'.marks c).Sublist (s.marks c)) : s'.Unique := by
  unfold Unique at h ⊢
  rw [hstate]
  exact h.mono (fun _ hc => Or.inl hc) hsub

/-- `container_find_and_unmark` leaves no live container with the mark exactly when the one that
held it was found. -/
theorem containerFindAndUnmark_free (h : s.Unique) (mark : String) :
    (∀ d, Live s.state d → mark ∉ (containerFindAndUnmark s mark).marks d) ↔
      ∀ d, Live s.state d → containerHasMark s d mark = true →
        containerFindMark s mark = some d := by
  unfold containerHasMark
  constructor
  · intro hfree d hd hm
    rw [decide_eq_true_eq] at hm
    have hgone := hfree d hd
    unfold containerFindAndUnmark at hgone
    cases hf : containerFindMark s mark with
    | none =>
        rw [hf] at hgone
        exact absurd hm hgone
    | some e =>
        rw [hf] at hgone
        by_cases hde : d = e
        · rw [hde]
        · dsimp only at hgone
          rw [Function.update_of_ne hde] at hgone
          exact absurd hm hgone
  · intro hfound d hd hm
    have hm' := (containerFindAndUnmark_sublist s mark d).subset hm
    have hf := hfound d hd (decide_eq_true hm')
    unfold containerFindAndUnmark at hm
    rw [hf] at hm
    refine Exclusive.take_back h (fun e he hme => ?_) hd hm
    have hfe := hfound e he (decide_eq_true hme)
    rw [hf] at hfe
    exact (Option.some.inj hfe).symm

/-- **The step**: `cmd_mark` keeps the marks unique exactly when it finds the holder. -/
theorem applyMark_unique_iff (h : s.Unique) (c : ConId) (add toggle : Bool) (mark : String) :
    (applyMark s c add toggle mark).Unique ↔ MarkFound s c add toggle mark := by
  set cleared := clearUnlessAdding s c add with hcleared
  have hstate : cleared.state = s.state := clearUnlessAdding_state s c add
  have h1 : cleared.Unique := h.sublist hstate (clearUnlessAdding_sublist s c add)
  have h2 : (containerFindAndUnmark cleared mark).Unique :=
    h1.sublist (containerFindAndUnmark_state cleared mark)
      (containerFindAndUnmark_sublist cleared mark)
  have hfree := containerFindAndUnmark_free h1 mark
  rw [hstate] at hfree
  unfold applyMark MarkFound
  rw [← hcleared, ← hfree]
  dsimp only
  split
  next hadd =>
    have hgives : toggle = true → containerHasMark s c mark = false := by
      intro ht
      rcases hadd with hf | hf
      · rw [ht] at hf
        exact Bool.noConfusion hf
      · exact hf
    have hgive : (containerAddMark (containerFindAndUnmark cleared mark) c mark).Unique ↔
        (Live s.state c → ∀ d, Live s.state d →
          mark ∉ (containerFindAndUnmark cleared mark).marks d) := by
      unfold Marked.Unique at h2 ⊢
      rw [containerFindAndUnmark_state, hstate] at h2
      rw [show (containerAddMark (containerFindAndUnmark cleared mark) c mark).state = s.state from
        (containerFindAndUnmark_state cleared mark).trans hstate]
      exact Exclusive.give_iff h2 c mark
    rw [hgive]
    exact ⟨fun hx hc _ => hx hc, fun hx hc => hx hc hgives⟩
  next hkeep =>
    rw [not_or, Bool.not_eq_false, Bool.not_eq_false] at hkeep
    refine iff_of_true h2 fun _ hno => ?_
    rw [hno hkeep.1] at hkeep
    exact absurd hkeep.2 Bool.false_ne_true

/-- Unmarking takes marks away, and nothing else. -/
theorem cmdUnmark_sublist (s : Marked) (container : Option ConId) (argv : List String) :
    (cmdUnmark s container argv).state = s.state ∧
      ∀ c, ((cmdUnmark s container argv).marks c).Sublist (s.marks c) := by
  have hclear : ∀ (l : List ConId) (t : Marked),
      (l.foldl containerClearMarks t).state = t.state ∧
        ∀ c, ((l.foldl containerClearMarks t).marks c).Sublist (t.marks c) := by
    intro l
    induction l with
    | nil => exact fun t => ⟨rfl, fun _ => List.Sublist.refl _⟩
    | cons a l ih =>
        intro t
        obtain ⟨h1, h2⟩ := ih (containerClearMarks t a)
        exact ⟨h1, fun c => (h2 c).trans (containerClearMarks_sublist t a c)⟩
  unfold cmdUnmark
  split
  · exact ⟨rfl, containerClearMarks_sublist s _⟩
  · split
    · exact ⟨containerFindAndUnmark_state s _, containerFindAndUnmark_sublist s _⟩
    · exact ⟨rfl, fun _ => List.Sublist.refl _⟩
  · exact hclear _ s
  · exact ⟨containerFindAndUnmark_state s _, containerFindAndUnmark_sublist s _⟩

end Unique

/-! ## Runs -/

/-- What can happen to the marks and to the containers that hold them. `tree` is any other change
of the compositor: windows that open and close, are minimized or restored, go to the scratchpad
or come back, outputs that appear and disappear. None of them touches a mark. -/
inductive MarkEvent where
  | mark (container : Option ConId) (argv : List String)
  | unmark (container : Option ConId) (argv : List String)
  | tree (s : State)

/-- One event. -/
def markStep (s : Marked) : MarkEvent → Marked
  | .mark container argv =>
      match cmdMark s container argv with
      | .ok s' => s'
      | .error _ => s
  | .unmark container argv => cmdUnmark s container argv
  | .tree state => { s with state }

/-- What can happen: commands run on containers, and the tree does not revive any. -/
def MarkPossible (s : Marked) : MarkEvent → Prop
  | .mark container _ => ∀ c, container = some c → c < s.state.tree.nextCon
  | .unmark _ _ => True
  | .tree state => KeepsLife s.state state

/-- `MarkFound` for the options and the mark of a command, if there are any. -/
def RequestFound (s : Marked) (c : ConId) : Except String (Bool × Bool × String) → Prop
  | .ok (add, toggle, mark) => MarkFound s c add toggle mark
  | .error _ => True

instance (s : Marked) (c : ConId) : (r : Except String (Bool × Bool × String)) →
    Decidable (RequestFound s c r)
  | .ok (add, toggle, mark) => inferInstanceAs (Decidable (MarkFound s c add toggle mark))
  | .error _ => inferInstanceAs (Decidable True)

/-- Whether an event that gives a mark finds the holder of it. -/
def MarkFinds (s : Marked) : MarkEvent → Prop
  | .mark (some c) argv => RequestFound s c (markRequest argv)
  | _ => True

instance (s : Marked) : (e : MarkEvent) → Decidable (MarkFinds s e)
  | .mark (some c) argv => inferInstanceAs (Decidable (RequestFound s c (markRequest argv)))
  | .mark none _ => inferInstanceAs (Decidable True)
  | .unmark _ _ => inferInstanceAs (Decidable True)
  | .tree _ => inferInstanceAs (Decidable True)

/-- The marks are unique, and the names not in use have none. -/
structure MarkInv (s : Marked) : Prop where
  unique : s.Unique
  unused : ∀ c, s.state.tree.nextCon ≤ c → s.marks c = []

theorem markInv_start (config : Config) (area : Box) : MarkInv (.start config area) :=
  ⟨⟨fun _ _ => List.nodup_nil, fun _ _ _ _ _ h => absurd h List.not_mem_nil⟩, fun _ _ => rfl⟩

section Step

variable {s : Marked}

/-- What a `mark` command does: nothing, or it marks the container. -/
theorem markStep_mark_cases (s : Marked) (container : Option ConId) (argv : List String) :
    (markStep s (.mark container argv) = s ∧ MarkFinds s (.mark container argv)) ∨
      ∃ c add toggle mark, container = some c ∧
        markStep s (.mark container argv) = applyMark s c add toggle mark ∧
        (MarkFinds s (.mark container argv) ↔ MarkFound s c add toggle mark) := by
  simp only [markStep, cmdMark]
  by_cases hargv : argv = []
  · subst hargv
    left
    cases container with
    | none => exact ⟨rfl, trivial⟩
    | some c => exact ⟨rfl, trivial⟩
  · rw [if_neg hargv]
    cases container with
    | none => exact Or.inl ⟨rfl, trivial⟩
    | some c =>
        simp only [MarkFinds]
        cases markRequest argv with
        | error e => exact Or.inl ⟨rfl, trivial⟩
        | ok r => exact Or.inr ⟨c, r.1, r.2.1, r.2.2, rfl, rfl, Iff.rfl⟩

/-- The commands leave the tree alone. -/
theorem markStep_mark_state (s : Marked) (container : Option ConId) (argv : List String) :
    (markStep s (.mark container argv)).state = s.state := by
  rcases markStep_mark_cases s container argv with ⟨hsame, -⟩ | ⟨c, add, toggle, mark, -, hs, -⟩
  · rw [hsame]
  · rw [hs]
    have hgone := (containerFindAndUnmark_state (clearUnlessAdding s c add) mark).trans
      (clearUnlessAdding_state s c add)
    unfold applyMark
    dsimp only
    split
    · exact hgone
    · exact hgone

/-- What one `mark` command does to the uniqueness. -/
theorem markStep_mark_iff (h : s.Unique) (container : Option ConId) (argv : List String) :
    (markStep s (.mark container argv)).Unique ↔ MarkFinds s (.mark container argv) := by
  rcases markStep_mark_cases s container argv with ⟨hsame, hfinds⟩ | ⟨c, add, toggle, mark, -, hs, hf⟩
  · rw [hsame]
    exact iff_of_true h hfinds
  · rw [hs, hf]
    exact applyMark_unique_iff h c add toggle mark

/-- Fewer marks on the same names. -/
theorem unused_of_sublist {s s' : Marked} (h : ∀ c, s.state.tree.nextCon ≤ c → s.marks c = [])
    (hstate : s'.state = s.state) (hsub : ∀ c, (s'.marks c).Sublist (s.marks c)) :
    ∀ c, s'.state.tree.nextCon ≤ c → s'.marks c = [] := by
  intro c hc
  have hc' := hsub c
  rw [h c (hstate ▸ hc)] at hc'
  exact List.sublist_nil.mp hc'

/-- Only the container of the command gets a mark. -/
theorem markStep_mark_unused (h : MarkInv s) {container : Option ConId} {argv : List String}
    (hok : MarkPossible s (.mark container argv)) :
    ∀ d, (markStep s (.mark container argv)).state.tree.nextCon ≤ d →
      (markStep s (.mark container argv)).marks d = [] := by
  rcases markStep_mark_cases s container argv with ⟨hsame, -⟩ | ⟨c, add, toggle, mark, rfl, hs, -⟩
  · rw [hsame]
    exact h.unused
  · rw [hs]
    have hcleared := unused_of_sublist h.unused (clearUnlessAdding_state s c add)
      (clearUnlessAdding_sublist s c add)
    have hgone := unused_of_sublist hcleared (containerFindAndUnmark_state _ mark)
      (containerFindAndUnmark_sublist _ mark)
    unfold applyMark
    dsimp only
    split
    · intro d hd
      have hd' : s.state.tree.nextCon ≤ d := by
        unfold containerAddMark at hd
        rwa [containerFindAndUnmark_state, clearUnlessAdding_state] at hd
      have hlt : c < s.state.tree.nextCon := hok c rfl
      have hdc : d ≠ c := (Nat.lt_of_lt_of_le hlt hd').ne'
      unfold containerAddMark
      dsimp only
      rw [Function.update_of_ne hdc]
      exact hgone d (by rwa [containerFindAndUnmark_state, clearUnlessAdding_state])
    · exact hgone

/-- **The step lemma.** -/
theorem markInv_step (h : MarkInv s) (e : MarkEvent) (hok : MarkPossible s e ∧ MarkFinds s e) :
    MarkInv (markStep s e) := by
  cases e with
  | mark container argv =>
      exact ⟨(markStep_mark_iff h.unique container argv).mpr hok.2, markStep_mark_unused h hok.1⟩
  | unmark container argv =>
      obtain ⟨hstate, hsub⟩ := cmdUnmark_sublist s container argv
      exact ⟨h.unique.sublist hstate hsub, unused_of_sublist h.unused hstate hsub⟩
  | tree state =>
      obtain ⟨hnext, hdead⟩ := hok.1
      refine ⟨h.unique.mono (fun c hc => ?_) (fun _ => List.Sublist.refl _), fun c hc => ?_⟩
      · by_cases hold : c < s.state.tree.nextCon
        · left
          refine ⟨hold, ?_⟩
          by_contra hd
          have hdead' := hdead c hold (by simpa using hd)
          exact absurd (hdead'.symm.trans hc.2) (fun h => Bool.noConfusion h)
        · exact Or.inr (h.unused c (Nat.not_lt.mp hold))
      · exact h.unused c (hnext.trans hc)

end Step

theorem markInv_run {config : Config} {area : Box} {s : Marked}
    (h : Run markStep (fun s e => MarkPossible s e ∧ MarkFinds s e) (.start config area) s) :
    MarkInv s :=
  h.invariant (fun _ e hs hok => markInv_step hs e hok) (markInv_start config area)

/-- **The marks over every run** in which every `mark` command finds the holder of its mark: they
are unique. And after any such run, the next `mark` command keeps them unique exactly when it finds
the holder of its mark, too. -/
theorem marks_unique {config : Config} {area : Box} {s : Marked}
    (h : Run markStep (fun s e => MarkPossible s e ∧ MarkFinds s e) (.start config area) s) :
    s.Unique ∧ ∀ container argv, (markStep s (.mark container argv)).Unique ↔
      MarkFinds s (.mark container argv) := by
  have hunique := (markInv_run h).unique
  exact ⟨hunique, markStep_mark_iff hunique⟩

/-! ## A minimized window with a mark -/

/-- The window, container `0`, is minimized; another one, container `2`, opens. -/
def windowMinimized : State := workspaceMinimizedHide (focusOps 3) windowOpened 0
def anotherOpened : State := viewMap (focusOps 3) windowMinimized (.plain 0)

/-- The first window was marked `foo` before it was minimized. -/
def minimizedMarked : Marked :=
  markStep (markStep (markStep (markStep (.start configDefaults ⟨0, 0, 1000, 800⟩)
    (.tree windowOpened)) (.mark (some 0) ["foo"])) (.tree windowMinimized)) (.tree anotherOpened)

theorem keepsLife_anotherOpened :
    KeepsLife freshState windowOpened ∧ KeepsLife windowOpened windowMinimized ∧
      KeepsLife windowMinimized anotherOpened := by decide +kernel

theorem run_minimizedMarked :
    Run markStep (fun s e => MarkPossible s e ∧ MarkFinds s e)
      (.start configDefaults ⟨0, 0, 1000, 800⟩) minimizedMarked := by
  obtain ⟨hopen, hmin, hagain⟩ := keepsLife_anotherOpened
  refine Run.step _ (Run.step _ (Run.step _ (Run.single ⟨hopen, trivial⟩) ⟨?_, ?_⟩) ⟨?_, trivial⟩)
    ⟨hagain, trivial⟩
  · rintro c hc
    obtain rfl := Option.some.inj hc
    decide +kernel
  · decide +kernel
  · show KeepsLife (markStep _ _).state _
    rw [markStep_mark_state]
    exact hmin

/-- Up to there the marks are unique, and they stay so with another mark. -/
theorem marks_unique_minimized :
    minimizedMarked.Unique ∧ (markStep minimizedMarked (.mark (some 2) ["bar"])).Unique := by
  obtain ⟨hunique, hnext⟩ := marks_unique run_minimizedMarked
  exact ⟨hunique, (hnext (some 2) ["bar"]).mpr (by decide +kernel)⟩

/-- The mark of a minimized window is given to another one, which is not minimized. -/
theorem marks_shared :
    Run markStep MarkPossible (.start configDefaults ⟨0, 0, 1000, 800⟩)
        (markStep minimizedMarked (.mark (some 2) ["foo"])) ∧
      ¬ (markStep minimizedMarked (.mark (some 2) ["foo"])).Unique := by
  refine ⟨Run.step _ (run_minimizedMarked.imp fun _ _ hok => hok.1) ?_, ?_⟩
  · rintro c hc
    obtain rfl := Option.some.inj hc
    decide +kernel
  · rw [markStep_mark_iff (markInv_run run_minimizedMarked).unique]
    decide +kernel

end Swirl

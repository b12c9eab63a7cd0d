import Swirl.Config.OutputSearch

set_option autoImplicit false

/-! # Applying output configurations

`apply_resolved_output_configs` asks the backend for the queued states, lets the search find others
when they are refused, and then either stops, for a test, or builds and commits them. What it
returns is the variable `ok`, which a successful search does not set.
-/

namespace Swirl

/-- What the backend and the scene graph do: testing states, building the state of an output for
its scene, and committing. -/
structure Backend where
  /-- `wlr_output_swapchain_manager_prepare` -/
  prepare : List OutputState → Bool
  /-- `wlr_scene_output_build_state` -/
  build : SwayOutput → OutputState → Option OutputState
  /-- `wlr_backend_commit` -/
  commit : List OutputState → Bool

/-- The loop that builds the states, up to the first one that fails. -/
def Backend.buildStates (b : Backend) : List MatchedOutputConfig → List OutputState →
    Option (List OutputState)
  | cfg :: configs, state :: states => do
      let built ← b.build cfg.output state
      let rest ← b.buildStates configs states
      some (built :: rest)
  | _, _ => some []

/-- `apply_resolved_output_configs`, as far as what it returns. -/
def applyResolvedOutputConfigs (b : Backend) (configs : List MatchedOutputConfig)
    (testOnly degradeToOff : Bool) : Bool :=
  let states := queuedStates configs
  let ok := b.prepare states
  let search :=
    if ok then (true, states) else searchValidConfig b.prepare degradeToOff configs 0 states
  if !search.1 then ok
  else if testOnly then ok
  else
    match b.buildStates configs search.2 with
    | none => ok
    | some built => b.commit built

/-- What a test run relies on: building succeeds, and the backend commits
what it has accepted in a test. -/
structure Backend.Trusted (b : Backend) : Prop where
  builds : ∀ o state, (b.build o state).isSome = true
  commits : ∀ configs states built, b.prepare states = true →
    b.buildStates configs states = some built → b.commit built = true

section

variable {b : Backend}

/-- The loop that builds the states gets through. -/
theorem Backend.Trusted.buildStates_isSome (h : b.Trusted) (configs : List MatchedOutputConfig)
    (states : List OutputState) : ∃ built, b.buildStates configs states = some built := by
  induction configs generalizing states with
  | nil => exact ⟨[], by unfold Backend.buildStates; rfl⟩
  | cons cfg configs ih =>
      cases states with
      | nil => exact ⟨[], rfl⟩
      | cons state states =>
          obtain ⟨built, hbuilt⟩ := Option.isSome_iff_exists.1 (h.builds cfg.output state)
          obtain ⟨rest, hrest⟩ := ih states
          refine ⟨built :: rest, ?_⟩
          unfold Backend.buildStates
          rw [hbuilt, hrest]
          rfl

/-- A run that is not a test commits accepted states. -/
theorem Backend.Trusted.commit_buildStates (h : b.Trusted) (configs : List MatchedOutputConfig)
    {states : List OutputState} (hprepare : b.prepare states = true) (ok : Bool) :
    (match b.buildStates configs states with
      | none => ok
      | some built => b.commit built) = true := by
  obtain ⟨built, hbuilt⟩ := h.buildStates_isSome configs states
  rw [hbuilt]
  exact h.commits configs states built hprepare hbuilt

/-- What is asked for is accepted at once: both runs succeed. -/
theorem applyResolvedOutputConfigs_accepted (h : b.Trusted) {configs : List MatchedOutputConfig}
    (hprepare : b.prepare (queuedStates configs) = true) (testOnly degradeToOff : Bool) :
    applyResolvedOutputConfigs b configs testOnly degradeToOff = true := by
  unfold applyResolvedOutputConfigs
  simp only [hprepare, if_true, Bool.not_true, Bool.false_eq_true, if_false]
  cases testOnly with
  | true => rfl
  | false => exact h.commit_buildStates configs hprepare true

/-- What is asked for is refused: a test fails, whatever the search finds. -/
theorem applyResolvedOutputConfigs_test_refused {configs : List MatchedOutputConfig}
    (hprepare : b.prepare (queuedStates configs) = false) (degradeToOff : Bool) :
    applyResolvedOutputConfigs b configs true degradeToOff = false := by
  unfold applyResolvedOutputConfigs
  simp [hprepare]

/-- What is asked for is refused: the real run goes on with what the search finds. -/
theorem applyResolvedOutputConfigs_refused {configs : List MatchedOutputConfig}
    (hprepare : b.prepare (queuedStates configs) = false) (degradeToOff : Bool) :
    applyResolvedOutputConfigs b configs false degradeToOff =
      let search := searchValidConfig b.prepare degradeToOff configs 0 (queuedStates configs)
      if search.1 then
        match b.buildStates configs search.2 with
        | none => false
        | some built => b.commit built
      else false := by
  unfold applyResolvedOutputConfigs
  simp only [hprepare, Bool.false_eq_true, if_false]
  cases (searchValidConfig b.prepare degradeToOff configs 0 (queuedStates configs)).1 <;> rfl

end

/-- A test predicts the real run exactly when the requested states are accepted as they are, when no
assignment is accepted, or when there is no output and a commit of nothing fails. -/
theorem applyResolvedOutputConfigs_test_iff (b : Backend) (h : b.Trusted)
    (configs : List MatchedOutputConfig) (degradeToOff : Bool) :
    (applyResolvedOutputConfigs b configs true degradeToOff = true ↔
        applyResolvedOutputConfigs b configs false degradeToOff = true) ↔
      (b.prepare (queuedStates configs) = true ∨
        (¬ ∃ choice, Assignment b.prepare degradeToOff configs choice) ∨
        (configs = [] ∧ b.commit [] = false)) := by
  cases hprepare : b.prepare (queuedStates configs) with
  | true =>
      have htest := applyResolvedOutputConfigs_accepted h hprepare true degradeToOff
      have hreal := applyResolvedOutputConfigs_accepted h hprepare false degradeToOff
      simp [htest, hreal]
  | false =>
      rw [applyResolvedOutputConfigs_test_refused hprepare,
        applyResolvedOutputConfigs_refused hprepare,
        ← searchValidConfig_iff b.prepare degradeToOff configs]
      have hfound := searchValidConfig_found b.prepare degradeToOff configs
      revert hfound
      generalize searchValidConfig b.prepare degradeToOff configs 0 (queuedStates configs) = search
      obtain ⟨ok, states⟩ := search
      intro hfound
      cases ok with
      | false => simp
      | true =>
          by_cases hempty : configs = []
          · -- nothing has been tested
            subst hempty
            simp [Backend.buildStates]
          · have haccepted : b.prepare states = true := (hfound rfl).prepare_choice hempty
            have hcommit := h.commit_buildStates configs haccepted false
            simp only [if_true, hcommit]
            simp [hempty]

/-- A backend that takes ARGB only, in tests and in commits. -/
def argbBackend : Backend where
  prepare := prepareArgb
  build _ state := some state
  commit _ := true

theorem argbBackend_trusted : argbBackend.Trusted where
  builds _ _ := rfl
  commits _ _ _ _ _ := rfl

theorem applyResolvedOutputConfigs_test_iff_argb :
    (applyResolvedOutputConfigs argbBackend [⟨panel, none⟩] true false = true ↔
        applyResolvedOutputConfigs argbBackend [⟨panel, none⟩] false false = true) ↔
      (argbBackend.prepare (queuedStates [⟨panel, none⟩]) = true ∨
        (¬ ∃ choice, Assignment argbBackend.prepare false [⟨panel, none⟩] choice) ∨
        (([⟨panel, none⟩] : List MatchedOutputConfig) = [] ∧ argbBackend.commit [] = false)) :=
  applyResolvedOutputConfigs_test_iff argbBackend argbBackend_trusted [⟨panel, none⟩] false

/-- The queued format is refused and the search finds another one: the test fails, and the real run
succeeds. -/
theorem applyResolvedOutputConfigs_test_fails :
    applyResolvedOutputConfigs argbBackend [⟨panel, none⟩] true false = false ∧
      applyResolvedOutputConfigs argbBackend [⟨panel, none⟩] false false = true := by
  decide +kernel

end Swirl

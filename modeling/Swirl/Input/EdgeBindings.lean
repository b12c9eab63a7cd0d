import Swirl.Tree.Arrange

set_option autoImplicit false

/-! # Edge bindings

`edge_bindings.c`: commands that run when the cursor enters or leaves a zone at the edges of an
output. At every motion of the cursor `edge_bindings_check` looks where it is, and remembers for
each binding whether it was inside. Where the cursor is on no output the check returns before it
comes to the bindings, and what is remembered stays.
-/

namespace Swirl

/-! ## The bindings -/

/-- The bits of `enum wlr_edges`. -/
structure EdgeMask where
  top : Bool
  bottom : Bool
  left : Bool
  right : Bool
  deriving DecidableEq, Repr

/-- `struct edge_binding_config`. Its `was_inside` is not used. -/
structure EdgeBinding where
  edges : EdgeMask
  range : Int
  command : String
  fireOnExit : Bool
  isGlobal : Bool
  workspaceName : Option String
  motionGate : Int
  deriving DecidableEq, Repr

/-- What a check finds: the boxes of the outputs, where the cursor is, the name of the focused
workspace, and whether a button is pressed. -/
structure EdgeCheck where
  outputs : List Box
  lx : ℚ
  ly : ℚ
  focusedWs : Option String
  pressed : Bool

/-! ## The check -/

/-- `compute_edge_zone` -/
def computeEdgeZone (output : Box) (edges : EdgeMask) (range : Int) : Box :=
  let zone := output
  let zone := if edges.left && range < zone.width then { zone with width := range } else zone
  let zone := if edges.top && range < zone.height then { zone with height := range } else zone
  let newX := output.x + output.width - range
  let zone :=
    if edges.right && zone.x < newX then
      { zone with x := newX, width := min (zone.width - (newX - zone.x)) range }
    else zone
  let newY := output.y + output.height - range
  if edges.bottom && zone.y < newY then
    { zone with y := newY, height := min (zone.height - (newY - zone.y)) range }
  else zone

/-- The box of the output that contains the cursor. -/
def EdgeCheck.output (k : EdgeCheck) : Option Box :=
  k.outputs.find? fun ob => decide (ob.Contains k.lx k.ly)

/-- The workspace filter of a binding lets a check pass. -/
def EdgeBinding.wsMatch (b : EdgeBinding) (k : EdgeCheck) : Bool :=
  b.isGlobal || (k.focusedWs.isSome && decide (b.workspaceName = k.focusedWs))

/-- The cursor is in the zone of a binding on an output. -/
def EdgeBinding.inside (b : EdgeBinding) (k : EdgeCheck) (output : Box) : Bool :=
  decide ((computeEdgeZone output b.edges b.range).Contains k.lx k.ly)

/-- The command that a transition runs. -/
def EdgeBinding.transition (b : EdgeBinding) (inside wasInside : Bool) : Option String :=
  if inside && !wasInside then if b.fireOnExit then none else some b.command
  else if !inside && wasInside then if b.fireOnExit then some b.command else none
  else none

/-- One turn of the loop of `edge_bindings_check`: what is remembered, and the command that is run,
if any. -/
def checkBinding (k : EdgeCheck) (output : Box) (b : EdgeBinding) (wasInside : Bool) :
    Bool × Option String :=
  if b.wsMatch k = false then
    (false, if wasInside && b.fireOnExit then some b.command else none)
  else
    let inside := b.inside k output
    if b.motionGate = -1 ∧ k.pressed = true then (inside, none)
    else if b.motionGate = 1 ∧ k.pressed = false then (inside, none)
    else (inside, b.transition inside wasInside)

/-- `ensure_states` -/
def ensureStates (states : List Bool) (count : Nat) : List Bool :=
  states ++ List.replicate (count - states.length) false

/-- `edge_bindings_check`: what is remembered, and for each binding the command that is run. -/
def edgeBindingsCheck (bindings : List EdgeBinding) (states : List Bool) (k : EdgeCheck) :
    List Bool × List (Option String) :=
  let states := ensureStates states bindings.length
  match k.output with
  | some output =>
      let turns := bindings.zipWith (checkBinding k output) states
      (turns.map Prod.fst ++ states.drop bindings.length, turns.map Prod.snd)
  | none => (states, bindings.map fun _ => none)

/-- What is remembered after some checks. -/
def statesAfter (bindings : List EdgeBinding) (ks : List EdgeCheck) : List Bool :=
  ks.foldl (fun states k => (edgeBindingsCheck bindings states k).1) []

/-! ## The condition -/

/-- The cursor is in the zone of the output under it, and the workspace filter holds. -/
def EdgeBinding.holds (b : EdgeBinding) (k : EdgeCheck) : Bool :=
  match k.output with
  | some output => b.wsMatch k && b.inside k output
  | none => false

/-- Whether the condition held at the last of some checks. -/
def EdgeBinding.held (b : EdgeBinding) (ks : List EdgeCheck) : Bool := ks.getLast?.any b.holds

/-- Whether it held at the last check with the cursor on an output. -/
def EdgeBinding.heldOnOutput (b : EdgeBinding) (ks : List EdgeCheck) : Bool :=
  (ks.filter fun k => k.output.isSome).getLast?.any b.holds

/-- What an enter binding runs when the condition turns true, and an exit binding when it turns
false. -/
def EdgeBinding.turn (b : EdgeBinding) (was now : Bool) : Option String :=
  if (if b.fireOnExit then was && !now else !was && now) then some b.command else none

/-- In a sequence of checks, the commands run exactly where the conditions turn. -/
def Alternate (bindings : List EdgeBinding) (ks : List EdgeCheck) : Prop :=
  ∀ pre k post, ks = pre ++ k :: post → ∀ (i : Nat) (b : EdgeBinding), bindings[i]? = some b →
    (edgeBindingsCheck bindings (statesAfter bindings pre) k).2[i]? =
      some (b.turn (b.held pre) (b.holds k))

/-- The cursor does not leave the outputs at a bad time: for an exit binding, not when the condition
held at the check before; for an enter binding, not between two checks where it holds. -/
def LeavesQuietly (bindings : List EdgeBinding) (ks : List EdgeCheck) : Prop :=
  ∀ pre k post, ks = pre ++ k :: post → ∀ b ∈ bindings,
    if b.fireOnExit then k.output = none → b.held pre = false
    else b.holds k = true → b.held pre = false → b.heldOnOutput pre = false

section Checks

variable {bindings : List EdgeBinding} {states : List Bool} {k : EdgeCheck} {b : EdgeBinding}
variable {ks pre : List EdgeCheck} {i : Nat}

theorem held_append (b : EdgeBinding) (ks : List EdgeCheck) (k : EdgeCheck) :
    b.held (ks ++ [k]) = b.holds k := by
  unfold EdgeBinding.held
  rw [List.getLast?_concat]
  rfl

theorem heldOnOutput_append (b : EdgeBinding) (ks : List EdgeCheck) (k : EdgeCheck) :
    b.heldOnOutput (ks ++ [k]) = if k.output.isSome then b.holds k else b.heldOnOutput ks := by
  unfold EdgeBinding.heldOnOutput
  rw [List.filter_append]
  by_cases h : k.output.isSome = true
  · have hlast : [k].filter (fun k => k.output.isSome) = [k] := List.filter_cons_of_pos h
    rw [hlast, if_pos h, List.getLast?_concat]
    rfl
  · have hlast : [k].filter (fun k => k.output.isSome) = [] := List.filter_cons_of_neg h
    rw [hlast, if_neg h, List.append_nil]

theorem holds_of_none (h : k.output = none) : b.holds k = false := by
  unfold EdgeBinding.holds
  rw [h]

theorem transition_eq (b : EdgeBinding) (inside was : Bool) :
    b.transition inside was = b.turn was inside := by
  unfold EdgeBinding.transition EdgeBinding.turn
  cases inside <;> cases was <;> cases b.fireOnExit <;> rfl

/-- **One binding**: what is remembered is the condition, and the command runs when it turns. -/
theorem checkBinding_eq {output : Box} (hout : k.output = some output) (hgate : b.motionGate = 0)
    (was : Bool) : checkBinding k output b was = (b.holds k, b.turn was (b.holds k)) := by
  have hidle : ¬ (b.motionGate = -1 ∧ k.pressed = true) := fun h => by
    rw [hgate] at h
    exact absurd h.1 (by decide)
  have hmoving : ¬ (b.motionGate = 1 ∧ k.pressed = false) := fun h => by
    rw [hgate] at h
    exact absurd h.1 (by decide)
  unfold checkBinding EdgeBinding.holds
  dsimp only
  rw [hout, if_neg hidle, if_neg hmoving, transition_eq]
  dsimp only
  cases b.wsMatch k with
  | false =>
      rw [if_pos rfl, Bool.false_and]
      unfold EdgeBinding.turn
      cases was <;> cases b.fireOnExit <;> rfl
  | true => rw [if_neg (by decide), Bool.true_and]

/-- **A check** runs nothing off the outputs; on an output it runs what turns. -/
theorem edgeBindingsCheck_spec (hgate : ∀ b ∈ bindings, b.motionGate = 0)
    (hi : bindings[i]? = some b) (k : EdgeCheck) :
    let was := (states[i]?).getD false
    ((edgeBindingsCheck bindings states k).1[i]?).getD false =
        (if k.output.isSome then b.holds k else was) ∧
      (edgeBindingsCheck bindings states k).2[i]? =
        some (if k.output.isSome then b.turn was (b.holds k) else none) := by
  obtain ⟨hlt, rfl⟩ := List.getElem?_eq_some_iff.1 hi
  have hlen : bindings.length ≤ (ensureStates states bindings.length).length := by
    unfold ensureStates
    rw [List.length_append, List.length_replicate]
    omega
  have hstate : (ensureStates states bindings.length)[i]? = some ((states[i]?).getD false) := by
    unfold ensureStates
    by_cases hold : i < states.length
    · rw [List.getElem?_append_left hold, List.getElem?_eq_getElem hold]
      rfl
    · rw [List.getElem?_append_right (not_lt.1 hold), List.getElem?_replicate,
        if_pos (by omega), List.getElem?_eq_none (not_lt.1 hold)]
      rfl
  dsimp only
  unfold edgeBindingsCheck
  cases hout : k.output with
  | none =>
      dsimp only
      rw [hstate, List.getElem?_map, hi]
      exact ⟨rfl, rfl⟩
  | some output =>
      dsimp only
      have hturn : (bindings.zipWith (checkBinding k output)
          (ensureStates states bindings.length))[i]? =
          some ((bindings[i].holds k), bindings[i].turn ((states[i]?).getD false)
            (bindings[i].holds k)) := by
        rw [List.getElem?_zipWith, hi, hstate]
        exact congrArg some (checkBinding_eq hout (hgate _ (List.getElem_mem hlt)) _)
      constructor
      · rw [List.getElem?_append_left, List.getElem?_map, hturn]
        · rfl
        · rw [List.length_map, List.length_zipWith]
          exact lt_min hlt (lt_of_lt_of_le hlt hlen)
      · rw [List.getElem?_map, hturn]
        rfl

/-- What is remembered of a binding is the condition at the last check on an output. -/
theorem statesAfter_eq (hgate : ∀ b ∈ bindings, b.motionGate = 0) (hi : bindings[i]? = some b)
    (ks : List EdgeCheck) :
    ((statesAfter bindings ks)[i]?).getD false = b.heldOnOutput ks := by
  induction ks using List.reverseRecOn with
  | nil => rfl
  | append_singleton ks k ih =>
      rw [heldOnOutput_append, statesAfter, List.foldl_append]
      refine ((edgeBindingsCheck_spec hgate hi k).1).trans ?_
      split
      · rfl
      · exact ih

/-- The command of a check, from what came before. -/
theorem edgeBindingsCheck_after (hgate : ∀ b ∈ bindings, b.motionGate = 0)
    (hi : bindings[i]? = some b) (ks : List EdgeCheck) (k : EdgeCheck) :
    (edgeBindingsCheck bindings (statesAfter bindings ks) k).2[i]? =
      some (if k.output.isSome then b.turn (b.heldOnOutput ks) (b.holds k) else none) := by
  rw [(edgeBindingsCheck_spec hgate hi k).2, statesAfter_eq hgate hi ks]

theorem turn_eq_iff (b : EdgeBinding) (was was' now : Bool) :
    b.turn was now = b.turn was' now ↔
      ((if b.fireOnExit then now = false else now = true) → was = was') := by
  unfold EdgeBinding.turn
  cases b.fireOnExit <;> cases was <;> cases was' <;> cases now <;> simp

/-- While the cursor leaves quietly, an exit binding remembers the condition at the check before. -/
theorem heldOnOutput_eq (hb : b ∈ bindings) (hexit : b.fireOnExit = true)
    (hquiet : LeavesQuietly bindings ks) (pre post : List EdgeCheck) (hks : ks = pre ++ post) :
    b.heldOnOutput pre = b.held pre := by
  induction pre using List.reverseRecOn generalizing post with
  | nil => rfl
  | append_singleton pre k ih =>
      have hsplit : ks = pre ++ k :: post := by
        rw [hks, List.append_assoc]
        rfl
      rw [heldOnOutput_append, held_append]
      cases hout : k.output with
      | some output => exact if_pos rfl
      | none =>
          have hheld := hquiet pre k post hsplit b hb
          rw [if_pos hexit] at hheld
          rw [holds_of_none hout, ih (k :: post) hsplit, hheld hout]
          rfl

/-- A check where the condition holds is on an output. -/
theorem heldOnOutput_of_held (h : b.held pre = true) : b.heldOnOutput pre = true := by
  induction pre using List.reverseRecOn with
  | nil => cases h
  | append_singleton pre k _ =>
      rw [held_append] at h
      rw [heldOnOutput_append]
      cases hout : k.output with
      | none =>
          rw [holds_of_none hout] at h
          cases h
      | some output => exact h

/-- The commands run where the conditions turn, as long as the cursor leaves quietly. -/
theorem alternate_of_leavesQuietly (hgate : ∀ b ∈ bindings, b.motionGate = 0)
    (h : LeavesQuietly bindings ks) : Alternate bindings ks := by
  intro pre k post hks i b hi
  have hb : b ∈ bindings := List.mem_of_getElem? hi
  have hquiet := h pre k post hks b hb
  rw [edgeBindingsCheck_after hgate hi]
  refine congrArg some ?_
  cases hout : k.output with
  | none =>
      -- nothing runs, and nothing turns
      rw [if_neg (show ¬ (none : Option Box).isSome = true from Bool.false_ne_true),
        holds_of_none hout]
      unfold EdgeBinding.turn
      cases hexit : b.fireOnExit with
      | true =>
          rw [hexit, if_pos rfl] at hquiet
          rw [hquiet hout]
          rfl
      | false => cases b.held pre <;> rfl
  | some output =>
      rw [if_pos (show (some output).isSome = true from rfl), turn_eq_iff]
      intro hnow
      cases hexit : b.fireOnExit with
      | true => exact heldOnOutput_eq hb hexit h pre (k :: post) hks
      | false =>
          rw [hexit, if_neg Bool.false_ne_true] at hquiet hnow
          cases hheld : b.held pre with
          | false => exact hquiet hnow hheld
          | true =>
              exact heldOnOutput_of_held hheld

/-- Where they do, the cursor left quietly. -/
theorem leavesQuietly_of_alternate (hgate : ∀ b ∈ bindings, b.motionGate = 0)
    (h : Alternate bindings ks) : LeavesQuietly bindings ks := by
  intro pre k post hks b hb
  obtain ⟨i, hi⟩ := List.getElem?_of_mem hb
  have hruns := h pre k post hks i b hi
  rw [edgeBindingsCheck_after hgate hi] at hruns
  replace hruns := Option.some.inj hruns
  cases hexit : b.fireOnExit with
  | true =>
      rw [if_pos rfl]
      intro hout
      rw [hout, if_neg (show ¬ (none : Option Box).isSome = true from Bool.false_ne_true),
        holds_of_none hout] at hruns
      unfold EdgeBinding.turn at hruns
      rw [hexit] at hruns
      cases hheld : b.held pre with
      | false => rfl
      | true =>
          rw [hheld] at hruns
          cases hruns
  | false =>
      rw [if_neg Bool.false_ne_true]
      intro hnow hheld
      have hout : k.output.isSome = true := by
        cases hout : k.output with
        | none =>
            rw [holds_of_none hout] at hnow
            cases hnow
        | some output => rfl
      rw [if_pos hout, turn_eq_iff, hexit, if_neg Bool.false_ne_true] at hruns
      rw [hruns hnow, hheld]

end Checks

/-- **Edge bindings alternate** in a sequence of checks exactly where the cursor leaves the outputs
quietly. -/
theorem edgeBindings_alternate_iff (bindings : List EdgeBinding)
    (hgate : ∀ b ∈ bindings, b.motionGate = 0) (ks : List EdgeCheck) :
    Alternate bindings ks ↔ LeavesQuietly bindings ks :=
  ⟨leavesQuietly_of_alternate hgate, alternate_of_leavesQuietly hgate⟩

/-- A binding that runs a command when the cursor leaves the left edge. -/
def leaveLeft : EdgeBinding where
  edges := ⟨false, false, true, false⟩
  range := 5
  command := "exec bye"
  fireOnExit := true
  isGlobal := true
  workspaceName := none
  motionGate := 0

/-- A check with a screen of 1000 by 800 pixels and the cursor at a place. -/
def screenCheck (lx ly : ℚ) : EdgeCheck := ⟨[⟨0, 0, 1000, 800⟩], lx, ly, none, false⟩

theorem edgeBindings_alternate_iff_leaveLeft :
    Alternate [leaveLeft] [screenCheck 2 400, screenCheck 10 400] ↔
      LeavesQuietly [leaveLeft] [screenCheck 2 400, screenCheck 10 400] :=
  edgeBindings_alternate_iff [leaveLeft] (fun b hb => by rw [List.mem_singleton.1 hb]; rfl) _

/-- The cursor leaves the edge for a place on no output: nothing runs. -/
theorem edgeBindings_left_silently :
    ¬ Alternate [leaveLeft] [screenCheck 2 400, screenCheck (-1) 400] := by
  intro h
  have hruns := h [screenCheck 2 400] (screenCheck (-1) 400) [] rfl 0 leaveLeft rfl
  exact absurd hruns (by decide +kernel)

end Swirl

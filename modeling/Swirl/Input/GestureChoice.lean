import Swirl.Input.Gestures
import Swirl.Lib.Choice

set_option autoImplicit false

/-! # Which gesture binding is chosen

`gesture_binding_match` scans the bindings that match a gesture of a device, and keeps one of them.
A binding for the device is better than one for all devices, then one with `--exact` than one
without, then one with more directions. The scan ends at the first binding for the device that has
all directions, with or without `--exact`.
-/

namespace Swirl

/-- `gesture_equal` -/
def gestureEqual (a b : Gesture) : Bool :=
  decide (a.type = b.type) && decide (a.fingers = b.fingers) &&
    decide (a.directions = b.directions)

/-- `binding_gesture_equal` -/
def bindingGestureEqual (a b : GestureBinding) : Bool :=
  if a.input ≠ b.input then false
  else if !gestureEqual a.gesture b.gesture then false
  else if a.exact ≠ b.exact then false
  else true

section Choice

variable (gesture : Gesture) (input : String)

/-- The binding matches a gesture of a device. -/
def GestureBinding.Matches (b : GestureBinding) : Prop :=
  gestureMatch b.gesture gesture b.exact = true ∧ (b.input = "*" ∨ b.input = input)

instance (b : GestureBinding) : Decidable (b.Matches gesture input) :=
  inferInstanceAs (Decidable (_ ∧ _))

/-- The first binding is better: by the device, then by `--exact`, then by the number of
directions. -/
def GestureBinding.Beats (a b : GestureBinding) : Prop :=
  (a.input = input ∧ b.input ≠ input) ∨
    (a.input = input ↔ b.input = input) ∧ ((a.exact = true ∧ b.exact = false) ∨
      a.exact = b.exact ∧
        gestureDirectionsCount b.gesture.directions < gestureDirectionsCount a.gesture.directions)

/-- Nothing is chosen if no binding matches, or else a matching one that no matching one beats. -/
def ChoosesGesture (bindings : List GestureBinding) : Option GestureBinding → Prop
  | none => ∀ b ∈ bindings, ¬ b.Matches gesture input
  | some b => b ∈ bindings ∧ b.Matches gesture input ∧
      ∀ c ∈ bindings, c.Matches gesture input → ¬ c.Beats input b

/-- A binding for the device has all directions of the gesture. -/
def GestureBinding.IsFull (b : GestureBinding) : Prop :=
  b.Matches gesture input ∧ b.input = input ∧ gestureCompare b.gesture gesture = 0

instance (b : GestureBinding) : Decidable (b.IsFull gesture input) :=
  inferInstanceAs (Decidable (_ ∧ _))

/-- The order of the bindings, as a number: there are at most 32 directions. -/
def GestureBinding.rank (b : GestureBinding) : Nat :=
  (if b.input = input then 66 else 0) + (if b.exact then 33 else 0) +
    gestureDirectionsCount b.gesture.directions

/-- A matching binding takes the place of another one. -/
def GestureBinding.prefers (current b : GestureBinding) : Bool :=
  !gestureBindingIsWorse (some current) b

/-- A matching binding ends the scan. -/
def GestureBinding.stops (b : GestureBinding) : Bool :=
  decide (b.input = input ∧ gestureCompare b.gesture gesture = 0)

/-! ## Directions -/

variable {gesture input} {a b c : GestureBinding}

theorem gestureDirectionsCount_le (directions : UInt32) :
    gestureDirectionsCount directions ≤ 32 := by
  unfold gestureDirectionsCount
  exact List.countP_le_length.trans (by rw [List.length_range])

/-- A target has no more directions than what it matches. -/
theorem gestureDirectionsCount_mono {d e : UInt32} (h : d &&& e = d) :
    gestureDirectionsCount d ≤ gestureDirectionsCount e := by
  unfold gestureDirectionsCount
  refine List.countP_mono_left fun i _ hi => ?_
  rw [← h, UInt32.toNat_and, Nat.testBit_and, Bool.and_eq_true] at hi
  exact hi.2

theorem directions_of_match {target toMatch : Gesture} {exact : Bool}
    (h : gestureMatch target toMatch exact = true) :
    target.directions &&& toMatch.directions = target.directions ∧
      (exact = true → target.directions = toMatch.directions) := by
  unfold gestureMatch at h
  split_ifs at h with hcheck hexact
  refine ⟨of_decide_eq_true h, fun he => ?_⟩
  by_contra hne
  exact hexact (by rw [he, decide_eq_true hne]; rfl)

theorem GestureBinding.Matches.count_le (h : b.Matches gesture input) :
    gestureDirectionsCount b.gesture.directions ≤ gestureDirectionsCount gesture.directions :=
  gestureDirectionsCount_mono (directions_of_match h.1).1

theorem GestureBinding.Matches.count_of_exact (h : b.Matches gesture input) (he : b.exact = true) :
    gestureDirectionsCount b.gesture.directions = gestureDirectionsCount gesture.directions := by
  rw [(directions_of_match h.1).2 he]

theorem gestureCompare_eq_zero {g g' : Gesture} : gestureCompare g g' = 0 ↔
    gestureDirectionsCount g.directions = gestureDirectionsCount g'.directions := by
  unfold gestureCompare
  omega

/-- A matching binding with `--exact` for the device has all directions. -/
theorem GestureBinding.Matches.isFull (h : b.Matches gesture input) (hinput : b.input = input)
    (he : b.exact = true) : b.IsFull gesture input :=
  ⟨h, hinput, gestureCompare_eq_zero.mpr (h.count_of_exact he)⟩

/-! ## The rule -/

theorem beats_iff_rank : a.Beats input b ↔ b.rank input < a.rank input := by
  have ha := gestureDirectionsCount_le a.gesture.directions
  have hb := gestureDirectionsCount_le b.gesture.directions
  unfold GestureBinding.Beats GestureBinding.rank
  by_cases hai : a.input = input <;> by_cases hbi : b.input = input <;>
    cases hae : a.exact <;> cases hbe : b.exact <;> simp [hai, hbi] <;> omega

/-- The rule of `gesture_binding_match` follows the rank. -/
theorem prefers_rank (ha : a.Matches gesture input) (hb : b.Matches gesture input) :
    (a.prefers b = true → a.rank input ≤ b.rank input) ∧
      (a.prefers b = false → b.rank input ≤ a.rank input) := by
  have hcounta := ha.count_le
  have hcountb := hb.count_le
  have hboundb := gestureDirectionsCount_le b.gesture.directions
  have hbounda := gestureDirectionsCount_le a.gesture.directions
  have hexactb : b.exact = true → _ := hb.count_of_exact
  unfold GestureBinding.prefers gestureBindingIsWorse GestureBinding.rank gestureCompare
  dsimp only
  by_cases hsame : a.input = b.input
  · -- for the same device, `--exact` and the directions decide
    rw [if_pos hsame, hsame]
    cases hae : a.exact with
    | false =>
        cases hbe : b.exact with
        | false => simp; omega
        | true =>
            have hfull := hexactb hbe
            simp
            omega
    | true =>
        cases hbe : b.exact with
        | false => simp; omega
        | true =>
            have hfull := hexactb hbe
            simp
            omega
  · -- one is for the device, and the other for all
    rw [if_neg hsame]
    by_cases hstar : b.input = "*"
    · have hai : a.input = input := ha.2.resolve_left fun h => hsame (h.trans hstar.symm)
      have hbi : b.input ≠ input := fun h => hsame (hai.trans h.symm)
      rw [if_pos hai, if_neg hbi, hstar]
      refine ⟨fun h => by simp at h, fun _ => ?_⟩
      split <;> omega
    · have hbi : b.input = input := hb.2.resolve_left hstar
      have hai : a.input ≠ input := fun h => hsame (h.trans hbi.symm)
      rw [if_pos hbi, if_neg hai, decide_eq_false hstar]
      refine ⟨fun _ => ?_, fun h => by simp at h⟩
      split <;> omega

/-- The loop chooses among the bindings that match. -/
theorem gestureBindingMatch_eq (bindings : List GestureBinding) (kept : Option GestureBinding) :
    gestureBindingMatch gesture input bindings kept =
      Lib.choose GestureBinding.prefers (GestureBinding.stops gesture input)
        (bindings.filter fun b => b.Matches gesture input) kept := by
  induction bindings generalizing kept with
  | nil => rfl
  | cons b bindings ih =>
      rw [gestureBindingMatch]
      by_cases hmatch : gestureMatch b.gesture gesture b.exact = true
      · by_cases hinput : b.input ≠ "*" ∧ b.input ≠ input
        · have hno : ¬ b.Matches gesture input := fun h => h.2.elim hinput.1 hinput.2
          rw [hmatch, if_neg (by decide), if_pos hinput,
            List.filter_cons_of_neg (by simpa using hno)]
          exact ih kept
        · have hyes : b.Matches gesture input := by
            refine ⟨hmatch, ?_⟩
            by_contra hnot
            push Not at hnot
            exact hinput hnot
          rw [hmatch, if_neg (by decide), if_neg hinput,
            List.filter_cons_of_pos (by simpa using hyes), Lib.choose]
          have hworse : kept.all (fun c => c.prefers b) =
              !gestureBindingIsWorse kept b := by
            cases kept <;> rfl
          rw [hworse]
          cases gestureBindingIsWorse kept b with
          | true => exact ih kept
          | false =>
              by_cases hfull : b.input = input ∧ gestureCompare b.gesture gesture = 0
              · have hstops : b.stops gesture input = true := decide_eq_true hfull
                rw [if_neg (by decide), if_pos hfull, if_pos (by decide), hstops]
                rfl
              · have hgoes : b.stops gesture input = false := decide_eq_false hfull
                rw [if_neg (by decide), if_neg hfull, if_pos (by decide), hgoes]
                exact ih (some b)
      · have hno : ¬ b.Matches gesture input := fun h => hmatch h.1
        rw [Bool.eq_false_iff.mpr hmatch, if_pos (by decide),
          List.filter_cons_of_neg (by simpa using hno)]
        exact ih kept

/-! ## The first binding with all directions -/

/-- A binding with all directions for the device is preferred to every one before it that has not
all of them. -/
theorem prefers_full (hb : b.IsFull gesture input) (ha : a.Matches gesture input)
    (hnot : ¬ a.IsFull gesture input) : a.prefers b = true := by
  obtain ⟨hmatch, hinput, hcompare⟩ := hb
  have hcount := gestureCompare_eq_zero.mp hcompare
  have hle := ha.count_le
  unfold GestureBinding.prefers gestureBindingIsWorse
  dsimp only
  by_cases hsame : a.input = b.input
  · have hae : a.exact = false := by
      by_contra hexact
      exact hnot (ha.isFull (hsame.trans hinput) (Bool.eq_true_of_not_eq_false hexact))
    rw [if_pos hsame, hae, Bool.and_false, Bool.false_or]
    unfold gestureCompare
    simp
    omega
  · have hstar : b.input ≠ "*" := by
      intro h
      have hother := ha.2.resolve_left fun h' => hsame (h'.trans h.symm)
      exact hsame (hother.trans hinput.symm)
    rw [if_neg hsame, decide_eq_false hstar]
    rfl

/-- A binding with all directions for the device is the best one, if it has `--exact` or none for
the device has. -/
theorem isBest_full (hb : b.IsFull gesture input) {l : List GestureBinding}
    (hl : ∀ c ∈ l, c.Matches gesture input)
    (hexact : b.exact = false → ∀ c ∈ l, c.input = input → c.exact = false) :
    Lib.IsBest (GestureBinding.rank input) l b := by
  intro c hc
  have hle := (hl c hc).count_le
  have hcount := gestureCompare_eq_zero.mp hb.2.2
  unfold GestureBinding.rank
  rw [if_pos hb.2.1, hcount]
  cases hbe : b.exact with
  | true =>
      split <;> split <;> simp <;> omega
  | false =>
      by_cases hci : c.input = input
      · rw [if_pos hci, hexact hbe c hc hci]
        simp
        exact hle
      · rw [if_neg hci]
        split <;> simp <;> omega

theorem mem_matching {bindings : List GestureBinding} :
    b ∈ bindings.filter (fun b => b.Matches gesture input) ↔
      b ∈ bindings ∧ b.Matches gesture input := by
  rw [List.mem_filter, decide_eq_true_iff]

theorem choosesGesture_some {bindings : List GestureBinding}
    (hb : b ∈ bindings.filter fun b => b.Matches gesture input)
    (hbest : Lib.IsBest (GestureBinding.rank input)
      (bindings.filter fun b => b.Matches gesture input) b) :
    ChoosesGesture gesture input bindings (some b) := by
  obtain ⟨hmem, hmatch⟩ := mem_matching.mp hb
  refine ⟨hmem, hmatch, fun c hc hcmatch hbeats => ?_⟩
  exact absurd (beats_iff_rank.mp hbeats) (not_lt.mpr (hbest c (mem_matching.mpr ⟨hc, hcmatch⟩)))

/-- The scan ends at the first binding for the device that has all directions. -/
theorem gestureBindingMatch_full {bindings : List GestureBinding}
    (h : bindings.find? (fun b => b.IsFull gesture input) = some b) :
    gestureBindingMatch gesture input bindings none = some b := by
  obtain ⟨hfull, u, v, hsplit, hu⟩ := List.find?_eq_some_iff_append.mp h
  have hfull := of_decide_eq_true hfull
  rw [gestureBindingMatch_eq, hsplit, List.filter_append,
    List.filter_cons_of_pos (by simpa using hfull.1)]
  refine Lib.choose_of_stops (fun c hc => by cases hc) (fun c hc => ?_) (decide_eq_true hfull.2)
  obtain ⟨hmem, hmatch⟩ := mem_matching.mp hc
  have hnot : ¬ c.IsFull gesture input := by simpa using hu c hmem
  exact ⟨prefers_full hfull hmatch hnot, decide_eq_false fun h' => hnot ⟨hmatch, h'⟩⟩

/-- Without such a binding the scan goes to the end, and leaves a best one. -/
theorem gestureBindingMatch_scan {bindings : List GestureBinding}
    (h : bindings.find? (fun b => b.IsFull gesture input) = none) :
    ChoosesGesture gesture input bindings (gestureBindingMatch gesture input bindings none) := by
  rw [List.find?_eq_none] at h
  have hgoes : ∀ c ∈ bindings.filter (fun b => b.Matches gesture input),
      c.stops gesture input = false := by
    intro c hc
    obtain ⟨hmem, hmatch⟩ := mem_matching.mp hc
    refine decide_eq_false fun h' => h c hmem ?_
    exact decide_eq_true (show c.IsFull gesture input from ⟨hmatch, h'⟩)
  rw [gestureBindingMatch_eq]
  cases hmatching : bindings.filter fun b => b.Matches gesture input with
  | nil =>
      intro b hb hmatch
      have hmem := mem_matching.mpr ⟨hb, hmatch⟩
      rw [hmatching] at hmem
      cases hmem
  | cons a l =>
      rw [hmatching] at hgoes
      rw [Lib.choose_first, hgoes a List.mem_cons_self, if_neg Bool.false_ne_true]
      have hall : ∀ c ∈ a :: l, c.Matches gesture input := by
        intro c hc
        rw [← hmatching] at hc
        exact (mem_matching.mp hc).2
      have hpairs : (a :: l).Pairwise fun c d =>
          (c.prefers d = true → c.rank input ≤ d.rank input) ∧
            (c.prefers d = false → d.rank input ≤ c.rank input) :=
        List.pairwise_of_forall_mem_list fun c hc d hd => prefers_rank (hall c hc) (hall d hd)
      have hstops : ∀ c ∈ l, c.stops gesture input = true →
          Lib.IsBest (GestureBinding.rank input) (a :: l) c := by
        intro c hc hstop
        rw [hgoes c (List.mem_cons_of_mem a hc)] at hstop
        cases hstop
      obtain ⟨c, hc, hchoose, hbest⟩ := Lib.choose_isBest hpairs hstops
      rw [hchoose]
      rw [← hmatching] at hc hbest
      exact choosesGesture_some hc hbest

/-- **The choice of a gesture binding** is right if and only if the first binding for the device
that has all directions has `--exact`, or no matching one for the device has. -/
theorem gestureBindingMatch_chooses_iff (bindings : List GestureBinding) :
    ChoosesGesture gesture input bindings (gestureBindingMatch gesture input bindings none) ↔
      ∀ b, bindings.find? (fun b => b.IsFull gesture input) = some b → b.exact = false →
        ∀ c ∈ bindings, c.Matches gesture input → c.input = input → c.exact = false := by
  cases hfind : bindings.find? fun b => b.IsFull gesture input with
  | none => exact iff_of_true (gestureBindingMatch_scan hfind) fun b hb => nomatch hb
  | some b =>
      have hfull : b.IsFull gesture input := by simpa using List.find?_some hfind
      have hmem := List.mem_of_find?_eq_some hfind
      rw [gestureBindingMatch_full hfind]
      constructor
      · intro h b' hb' hbe c hc hmatch hci
        obtain rfl := Option.some.inj hb'
        by_contra hce
        refine h.2.2 c hc hmatch (Or.inr ⟨?_, Or.inl ⟨Bool.eq_true_of_not_eq_false hce, hbe⟩⟩)
        exact iff_of_true hci hfull.2.1
      · intro h
        refine choosesGesture_some (mem_matching.mpr ⟨hmem, hfull.1⟩) (isBest_full hfull ?_ ?_)
        · exact fun c hc => (mem_matching.mp hc).2
        · intro hbe c hc hci
          obtain ⟨hcmem, hcmatch⟩ := mem_matching.mp hc
          exact h b rfl hbe c hcmem hcmatch hci

end Choice

/-- A swipe to the right with three fingers, on a touchpad: without `--exact` first, then with
it. -/
def swipeRightBindings : List GestureBinding :=
  [⟨"touchpad", false, ⟨.swipe, 3, 8⟩, "focus left"⟩, ⟨"touchpad", true, ⟨.swipe, 3, 8⟩, "kill"⟩]

/-- The binding without `--exact` is chosen, although the other one is better. -/
theorem gestureBindingMatch_notExact :
    (swipeRightBindings.Pairwise fun a b => bindingGestureEqual a b = false) ∧
      ¬ ChoosesGesture ⟨.swipe, 3, 8⟩ "touchpad" swipeRightBindings
        (gestureBindingMatch ⟨.swipe, 3, 8⟩ "touchpad" swipeRightBindings none) := by
  refine ⟨by decide, fun h => ?_⟩
  have hchosen : gestureBindingMatch ⟨.swipe, 3, 8⟩ "touchpad" swipeRightBindings none =
      some ⟨"touchpad", false, ⟨.swipe, 3, 8⟩, "focus left"⟩ := by decide
  rw [hchosen] at h
  exact h.2.2 ⟨"touchpad", true, ⟨.swipe, 3, 8⟩, "kill"⟩ (by decide) (by decide)
    (Or.inr ⟨by decide, Or.inl ⟨rfl, rfl⟩⟩)

end Swirl

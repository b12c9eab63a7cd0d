import Swirl.Input.TextInputEffects

set_option autoImplicit false

/-! # The pending and the focused surface of a text input

`sway_input_method_relay_set_focus` asserts that a text input never has a pending and a focused
surface. When an input method appears, only the first text input with a pending surface enters it;
the others keep theirs as pending. As long as keyboard focus is not given to such a surface while
there is an input method, the assertions hold in every run.
-/

namespace Swirl

open Swirl.Lib

/-- The text input has no pending surface or no focused one. -/
def TextInput.Exclusive (t : TextInput) : Prop :=
  t.pendingFocusedSurface = none ∨ t.focusedSurface = none

instance (t : TextInput) : Decidable t.Exclusive :=
  inferInstanceAs (Decidable (_ ∨ _))

/-- No text input has both a pending and a focused surface. -/
def Relay.Exclusive (relay : Relay) : Prop := ∀ t ∈ relay.textInputs, t.Exclusive

instance (relay : Relay) : Decidable relay.Exclusive :=
  inferInstanceAs (Decidable (∀ t ∈ relay.textInputs, t.Exclusive))

/-- Keyboard focus is not given, while there is an input method, to a surface that some text input
still has as pending. -/
def NoStalePending (relay : Relay) : RelayEvent → Prop
  | .setFocus surface =>
      relay.inputMethod = true → ∀ t ∈ relay.textInputs, t.pendingFocusedSurface = none ∨
        t.pendingFocusedSurface ≠ surface
  | _ => True

instance : (relay : Relay) → (e : RelayEvent) → Decidable (NoStalePending relay e)
  | relay, .setFocus surface =>
      inferInstanceAs (Decidable (relay.inputMethod = true → ∀ t ∈ relay.textInputs,
        t.pendingFocusedSurface = none ∨ t.pendingFocusedSurface ≠ surface))
  | _, .inputMethodNew | _, .inputMethodDestroy | _, .textInputNew .. | _, .textInputCommit ..
  | _, .textInputDestroy _ | _, .popupNew _ | _, .popupMap _ | _, .popupUnmap _
  | _, .popupCommit _ | _, .popupDestroy _ | _, .surfaceUnmap _ | _, .surfaceDestroy _
  | _, .surfaceRole .. => instDecidableTrue

/-! ## The loop over the text inputs -/

section Loop

variable {surface : Option FocusSurface} {Q : RelayFault → Prop}

/-- **The rule of the loop**: what a turn keeps of the text inputs that have had theirs and those
that have not, the loop keeps. -/
theorem relaySetFocusLoop_ends {J : List TextInput → List TextInput → Relay → Prop}
    (hturn : ∀ relay done t rest, relay.textInputs = done ++ t :: rest → J done (t :: rest) relay →
      Ends (fun relay' => ∃ t', relay'.textInputs = done ++ t' :: rest ∧
        J (done ++ [t']) rest relay') Q (relaySetFocusTurn surface relay done t rest))
    (left n : Nat) (relay : Relay) (hlen : n + left = relay.textInputs.length)
    (h : J (relay.textInputs.take n) (relay.textInputs.drop n) relay) :
    Ends (fun relay' => J relay'.textInputs [] relay') Q
      (relaySetFocusLoop surface n left relay) := by
  induction left generalizing n relay with
  | zero =>
      have htake : relay.textInputs.take n = relay.textInputs := List.take_of_length_le (by omega)
      have hdrop : relay.textInputs.drop n = [] := List.drop_of_length_le (by omega)
      rw [htake, hdrop] at h
      exact h
  | succ left ih =>
      unfold relaySetFocusLoop
      have hsplit := List.take_append_drop n relay.textInputs
      cases hdrop : relay.textInputs.drop n with
      | nil =>
          have := List.drop_eq_nil_iff.1 hdrop
          omega
      | cons t rest =>
          have hdone : (relay.textInputs.take n).length = n := by
            rw [List.length_take]
            omega
          rw [hdrop] at hsplit h
          refine (hturn relay _ t rest hsplit.symm h).bind ?_
          rintro relay' ⟨t', htexts, hJ⟩
          have hlen' : n + 1 + left = relay'.textInputs.length := by
            have hold := congrArg List.length hsplit
            rw [htexts]
            simp only [List.length_append, List.length_cons] at hold ⊢
            omega
          refine ih (n + 1) relay' hlen' ?_
          -- the text input that has had its turn has moved to the front part
          have htake : relay'.textInputs.take (n + 1) = relay.textInputs.take n ++ [t'] := by
            rw [htexts, List.take_append, hdone]
            simp [hdone]
          have hdrop' : relay'.textInputs.drop (n + 1) = rest := by
            rw [htexts, List.drop_append, hdone]
            simp [hdone]
          rw [htake, hdrop']
          exact hJ

variable (surface) in
theorem swayInputMethodRelaySetFocus_ends {J : List TextInput → List TextInput → Relay → Prop}
    (hturn : ∀ relay done t rest, relay.textInputs = done ++ t :: rest → J done (t :: rest) relay →
      Ends (fun relay' => ∃ t', relay'.textInputs = done ++ t' :: rest ∧
        J (done ++ [t']) rest relay') Q (relaySetFocusTurn surface relay done t rest))
    (relay : Relay) (h : J [] relay.textInputs relay) :
    Ends (fun relay' => J relay'.textInputs [] relay') Q
      (swayInputMethodRelaySetFocus relay surface) :=
  relaySetFocusLoop_ends hturn _ 0 relay (Nat.zero_add _) (by simpa using h)

end Loop

/-! ## One turn -/

theorem TextInput.enterOrPend_exclusive {t : TextInput} {inputMethod : Bool}
    {surface : Option FocusSurface}
    (hpending : inputMethod = true → surface ≠ none → t.pendingFocusedSurface = none)
    (hfocused : t.focusedSurface = none) : (t.enterOrPend inputMethod surface).Exclusive := by
  unfold TextInput.enterOrPend
  cases surface with
  | none => exact Or.inr hfocused
  | some s =>
      dsimp only
      split_ifs with hclient hmethod
      · exact Or.inl (hpending hmethod (by simp))
      · exact Or.inr hfocused
      · exact Or.inr hfocused

theorem relaySetFocusTurn_exclusive {surface : Option FocusSurface} {relay : Relay}
    {done : List TextInput} {t : TextInput} {rest : List TextInput}
    (hrelay : relay.textInputs = done ++ t :: rest) (ht : t.Exclusive)
    (hstale : relay.inputMethod = true →
      t.pendingFocusedSurface = none ∨ t.pendingFocusedSurface ≠ surface) :
    Ends (fun relay' => relay'.inputMethod = relay.inputMethod ∧
        ∃ t', relay'.textInputs = done ++ t' :: rest ∧ t'.Exclusive) (· ≠ .assertion)
      (relaySetFocusTurn surface relay done t rest) := by
  unfold relaySetFocusTurn
  dsimp only
  by_cases hpending : t.pendingFocusedSurface.isSome = true
  · rw [if_pos hpending]
    have hfocused : t.focusedSurface = none := by
      rcases ht with h | h
      · rw [h] at hpending
        cases hpending
      · exact h
    rw [hfocused]
    -- the first assertion
    simp only [Option.isSome_none, Bool.false_eq_true, if_false]
    refine Ends.pure ⟨rfl, _, rfl, ?_⟩
    by_cases hsame : surface ≠ t.pendingFocusedSurface
    · rw [if_pos hsame]
      exact TextInput.enterOrPend_exclusive (fun _ _ => rfl) hfocused
    · rw [if_neg hsame]
      refine TextInput.enterOrPend_exclusive (fun hmethod _ => ?_) hfocused
      rcases hstale hmethod with h | h
      · exact h
      · exact absurd (not_not.1 hsame).symm h
  · rw [if_neg hpending]
    have hnone : t.pendingFocusedSurface = none := by simpa using hpending
    by_cases hfocused : t.focusedSurface.isSome = true
    · rw [if_pos hfocused]
      by_cases hsame : surface ≠ t.focusedSurface
      · rw [if_pos hsame]
        have hdisable := relayDisableTextInput_ends
          { relay with textInputs := done ++ t.sendLeave :: rest }
        refine (hdisable.mono (fun _ h => h) ?_).bind fun relay' hrelay' => ?_
        · rintro _ rfl
          decide
        · exact Ends.pure ⟨hrelay'.1.inputMethod, _, rfl,
            TextInput.enterOrPend_exclusive (fun _ _ => hnone) rfl⟩
      · rw [if_neg hsame]
        exact Ends.pure ⟨rfl, t, hrelay, ht⟩
    · rw [if_neg hfocused]
      have hfnone : t.focusedSurface = none := by simpa using hfocused
      exact Ends.pure ⟨rfl, _, rfl, TextInput.enterOrPend_exclusive (fun _ _ => hnone) hfnone⟩

/-- Keyboard focus keeps the text inputs exclusive, unless it goes to a stale pending surface. -/
theorem swayInputMethodRelaySetFocus_exclusive {relay : Relay} {surface : Option FocusSurface}
    (h : relay.Exclusive) (hok : NoStalePending relay (.setFocus surface)) :
    Ends Relay.Exclusive (· ≠ .assertion) (swayInputMethodRelaySetFocus relay surface) := by
  have hloop := swayInputMethodRelaySetFocus_ends surface (Q := (· ≠ .assertion))
    (J := fun done rest relay' => relay'.inputMethod = relay.inputMethod ∧
      (∀ t ∈ done, t.Exclusive) ∧ ∀ t ∈ rest, t ∈ relay.textInputs) ?_ relay
    ⟨rfl, by simp, fun t ht => ht⟩
  · refine hloop.mono ?_ fun _ h => h
    exact fun relay' hJ => hJ.2.1
  · rintro relay' done t rest htexts ⟨hmethod, hdone, hrest⟩
    have ht := hrest t List.mem_cons_self
    refine (relaySetFocusTurn_exclusive htexts (h t ht) ?_).mono ?_ fun _ h => h
    · exact fun hm => hok (hmethod ▸ hm) t ht
    · rintro relay'' ⟨hmethod', t', htexts', ht'⟩
      refine ⟨t', htexts', hmethod'.trans hmethod, ?_, fun u hu => hrest u (List.mem_cons_of_mem t hu)⟩
      intro u hu
      rcases List.mem_append.1 hu with hu | hu
      · exact hdone u hu
      · rw [List.mem_singleton.1 hu]
        exact ht'

/-! ## The other events -/

section Events

variable {relay relay' : Relay}

theorem Relay.Exclusive.of_textInputs (h : relay.Exclusive)
    (htexts : relay'.textInputs = relay.textInputs) : relay'.Exclusive := by
  unfold Relay.Exclusive
  rw [htexts]
  exact h

theorem Relay.Exclusive.refreshed (h : relay.Exclusive) {x : Except RelayFault Relay}
    (hx : Ends (Refreshed relay) (· = .danglingLink) x) :
    Ends Relay.Exclusive (· ≠ .assertion) x := by
  refine hx.mono (fun relay' h' => h.of_textInputs h'.1.textInputs) ?_
  rintro _ rfl
  decide

/-- A change that keeps one text input exclusive. -/
theorem Relay.Exclusive.updateTextInput (h : relay.Exclusive) {p : TextInput → Bool}
    {f : TextInput → TextInput} (hf : ∀ t, p t = true → t.Exclusive → (f t).Exclusive) :
    (relay.updateTextInput p f).Exclusive := by
  intro t ht
  rcases mem_updateTextInput ht with ht | ⟨u, hu, hp, rfl⟩
  · exact h t ht
  · exact hf u hp (h u hu)

/-- The input method appears: the text input that enters its pending surface loses it as pending. -/
theorem relayHandleInputMethod_exclusive (h : relay.Exclusive) :
    Ends Relay.Exclusive (· ≠ .assertion) (relayHandleInputMethod relay) := by
  unfold relayHandleInputMethod
  cases relay.inputMethod with
  | true => exact h
  | false =>
      simp only [Bool.false_eq_true, if_false]
      cases hfind : relayGetFocusableTextInput { relay with inputMethod := true } with
      | none => exact h
      | some t =>
          dsimp only
          unfold textInputSendEnter
          refine (inputPopupsSetFocus_ends _ _).mono (fun _ h => h) ?_ |>.bind ?_
          · rintro _ (rfl | ⟨rfl, -⟩) <;> decide
          · rintro relay' ⟨honly, -⟩
            have htexts := updateTextInput_updateTextInput
              (p := fun u => u.pendingFocusedSurface.isSome)
              (f := fun u => u.sendEnter t.pendingFocusedSurface)
              (g := fun u => u.setPendingFocusedSurface none) (fun _ hu => hu) honly.textInputs
            have hentered : (({ relay with inputMethod := true } : Relay).updateTextInput
                (fun u => u.pendingFocusedSurface.isSome)
                fun u => (u.sendEnter t.pendingFocusedSurface).setPendingFocusedSurface
                  none).Exclusive :=
              h.updateTextInput fun u _ _ => Or.inl rfl
            exact Ends.pure (hentered.of_textInputs htexts)

/-- The input method is gone: the focused surface becomes pending. -/
theorem handleImDestroy_exclusive (h : relay.Exclusive) :
    Ends Relay.Exclusive (· ≠ .assertion) (handleImDestroy relay) := by
  unfold handleImDestroy
  cases relay.inputMethod with
  | false => exact h
  | true =>
      simp only [if_true]
      have hdestroy := handleImPopupDestroy_ends relay fun _ => true
      refine (hdestroy.mono (fun _ h => h) ?_).bind fun relay' hrelay' => ?_
      · rintro _ rfl
        decide
      · have hexcl : relay'.Exclusive := h.of_textInputs hrelay'.textInputs
        exact Ends.pure (hexcl.updateTextInput fun t _ _ => Or.inr rfl)

theorem handleTextInputDestroy_exclusive (h : relay.Exclusive) (address : Nat) :
    Ends Relay.Exclusive (· ≠ .assertion) (handleTextInputDestroy relay address) := by
  unfold handleTextInputDestroy
  cases relay.textInput address with
  | none => exact h
  | some t =>
      dsimp only
      split_ifs
      · refine (h.refreshed (relayDisableTextInput_refreshed relay)).bind fun relay' hrelay' => ?_
        exact Ends.pure fun u hu => hrelay' u (List.mem_filter.1 hu).1
      · exact fun u hu => h u (List.mem_filter.1 hu).1

theorem surfaceDestroyed_exclusive {t : TextInput} (h : t.Exclusive) (surface : FocusSurface) :
    (t.surfaceDestroyed surface).Exclusive := by
  unfold TextInput.surfaceDestroyed
  dsimp only
  split_ifs
  · exact Or.inl rfl
  · exact Or.inl rfl
  · exact Or.inr rfl
  · exact h

/-- Every step keeps the text inputs exclusive. -/
theorem relayStep_exclusive {e : RelayEvent} (h : relay.Exclusive) (hok : NoStalePending relay e) :
    Ends Relay.Exclusive (· ≠ .assertion) (relayStep relay e) := by
  cases e with
  | setFocus surface => exact swayInputMethodRelaySetFocus_exclusive h hok
  | inputMethodNew => exact relayHandleInputMethod_exclusive h
  | inputMethodDestroy => exact handleImDestroy_exclusive h
  | textInputNew address client =>
      intro t ht
      rcases List.mem_cons.1 ht with rfl | ht
      · exact Or.inl rfl
      · exact h t ht
  | textInputCommit address enabled =>
      have hupdate : (relay.updateTextInput (fun t => decide (t.address = address))
          fun t => { t with currentEnabled := enabled }).Exclusive :=
        h.updateTextInput fun t _ ht => ht
      exact hupdate.refreshed (textInputCommit_ends relay address enabled)
  | textInputDestroy address => exact handleTextInputDestroy_exclusive h address
  | popupNew address =>
      refine (handleImNewPopupSurface_ends relay address).mono ?_ ?_
      · exact fun relay' h' => h.of_textInputs h'.1
      · rintro _ rfl
        decide
  | popupMap address =>
      exact h.refreshed (onPopup_ends address fun popup _ =>
        (handleImPopupSurfaceMap_ends relay popup).mono (fun _ h => Or.inr h) fun _ h => h)
  | popupUnmap address =>
      exact h.refreshed (onPopup_ends address fun popup _ =>
        (handleImPopupSurfaceUnmap_ends relay popup).mono (fun _ h => Or.inr h) fun _ h => h)
  | popupCommit address =>
      have hcommit : Ends (Refreshed relay) (· = .noTextInput)
          (relay.onPopup address (handleImPopupSurfaceCommit relay)) :=
        onPopup_ends address fun popup hp =>
          (handleImPopupSurfaceCommit_ends hp).mono (fun _ h => h) fun _ h => h.1
      refine hcommit.mono (fun relay' h' => h.of_textInputs h'.1.textInputs) ?_
      rintro _ rfl
      decide
  | popupDestroy address =>
      refine (handleImPopupDestroy_ends relay _).mono ?_ ?_
      · exact fun relay' h' => h.of_textInputs h'.textInputs
      · rintro _ rfl
        decide
  | surfaceUnmap surface =>
      exact h.refreshed (refreshed_mapM fun popup hp => handleImFocusedSurfaceUnmap_ends surface hp)
  | surfaceDestroy surface =>
      intro t ht
      obtain ⟨u, hu, rfl⟩ := List.mem_map.1 ht
      exact surfaceDestroyed_exclusive (h u hu) surface
  | surfaceRole surface role => exact h

end Events

/-! ## Runs -/

/-- In every run in which keyboard focus is never given, while there is an input method, to a surface
that some text input still has as pending, no text input has a pending and a focused surface, and
the assertions hold. -/
theorem relay_run_exclusive (role : FocusSurface → FocusRole) (r : Except RelayFault Relay)
    (h : Run (faultStep relayStep) (BeforeFault NoStalePending) (.ok (Relay.init role)) r) :
    Ends Relay.Exclusive (· ≠ .assertion) r :=
  Run.ends (fun _ _ hs hok => relayStep_exclusive hs hok) (fun _ ht => by cases ht) h

/-- What a list of events makes of a new relay, when every surface is that of a view. -/
def runRelay (events : List RelayEvent) : Except RelayFault Relay :=
  events.foldl (faultStep relayStep) (.ok (Relay.init fun _ => .view))

/-- A window of the client 7. -/
def editor : FocusSurface := ⟨1, 7⟩

/-- Two text inputs of one client wait for an input method. -/
def twoWaiting : List RelayEvent :=
  [.textInputNew 10 7, .textInputNew 11 7, .setFocus (some editor)]

theorem relay_run_exclusive_twoWaiting :
    Ends Relay.Exclusive (· ≠ .assertion)
      (runRelay (twoWaiting ++ [.inputMethodNew, .setFocus none])) :=
  relay_run_exclusive (fun _ => .view) _ (Run.foldl (by decide +kernel))

/-- The input method comes, and the window is focused again: one text input has both surfaces, and
at the next change of focus the assertion fails. -/
theorem runRelay_twoWaiting_both :
    ¬ Ends Relay.Exclusive (fun _ => True)
        (runRelay (twoWaiting ++ [.inputMethodNew, .setFocus (some editor)])) ∧
      Ends (fun _ => False) (· = .assertion)
        (runRelay (twoWaiting ++ [.inputMethodNew, .setFocus (some editor), .setFocus none])) := by
  decide +kernel

end Swirl

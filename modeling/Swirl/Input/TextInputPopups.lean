import Swirl.Input.TextInputFocus

set_option autoImplicit false

/-! # The popups of the input method

`constrain_popup` reads the focused text input for every popup that is on a surface. The popups are
refreshed when text inputs are enabled, disabled or left, but not when a text input is destroyed
together with the focus it had: the popups stay on its surface, and the next commit of one of them
reads a text input that is not there.
-/

namespace Swirl

open Swirl.Lib

/-- Some text input is focused. -/
def Relay.HasFocus (relay : Relay) : Prop := ∃ t ∈ relay.textInputs, t.focusedSurface ≠ none

instance (relay : Relay) : Decidable relay.HasFocus :=
  inferInstanceAs (Decidable (∃ t ∈ relay.textInputs, t.focusedSurface ≠ none))

/-- A popup that is on a surface has a focused text input to be placed for, and there are popups
only with an input method. -/
structure Relay.Anchored (relay : Relay) : Prop where
  focus : ∀ popup ∈ relay.inputPopups, popup.relative ≠ none → relay.HasFocus
  owned : relay.inputPopups ≠ [] → relay.inputMethod = true

/-- The popups that the handler of a destroyed text input leaves on a surface: those it has put on
the focused surface once more, or those that were on one. -/
def NoPopupStays (relay : Relay) (t : TextInput) : Prop :=
  if t.currentEnabled = true ∧ relay.inputMethod = true then
    relay.inputPopups = [] ∨
      ∀ s ∈ relayFocusedSurface relay, (relay.role s).takesPopups = false
  else ∀ popup ∈ relay.inputPopups, popup.relative = none

instance (relay : Relay) (t : TextInput) : Decidable (NoPopupStays relay t) := by
  unfold NoPopupStays
  infer_instance

/-- The last focused text input, and the last focused surface, are not destroyed while popups stay
on a surface. -/
def KeepsAnchor (relay : Relay) : RelayEvent → Prop
  | .textInputDestroy address =>
      (∃ t ∈ relay.textInputs, t.address ≠ address ∧ t.focusedSurface ≠ none) ∨
        ¬ relay.HasFocus ∨ ∀ t ∈ relay.textInput address, NoPopupStays relay t
  | .surfaceDestroy surface =>
      (∃ t ∈ relay.textInputs, t.focusedSurface ≠ none ∧ t.focusedSurface ≠ some surface) ∨
        ¬ relay.HasFocus ∨ ∀ popup ∈ relay.inputPopups, popup.relative = none
  | _ => True

instance : (relay : Relay) → (e : RelayEvent) → Decidable (KeepsAnchor relay e)
  | relay, .textInputDestroy address =>
      inferInstanceAs (Decidable (
        (∃ t ∈ relay.textInputs, t.address ≠ address ∧ t.focusedSurface ≠ none) ∨
          ¬ relay.HasFocus ∨ ∀ t ∈ relay.textInput address, NoPopupStays relay t))
  | relay, .surfaceDestroy surface =>
      inferInstanceAs (Decidable (
        (∃ t ∈ relay.textInputs, t.focusedSurface ≠ none ∧ t.focusedSurface ≠ some surface) ∨
          ¬ relay.HasFocus ∨ ∀ popup ∈ relay.inputPopups, popup.relative = none))
  | _, .setFocus _ | _, .inputMethodNew | _, .inputMethodDestroy | _, .textInputNew ..
  | _, .textInputCommit .. | _, .popupNew _ | _, .popupMap _ | _, .popupUnmap _
  | _, .popupCommit _ | _, .popupDestroy _ | _, .surfaceUnmap _ | _, .surfaceRole .. =>
      instDecidableTrue

/-! ## Refreshed popups -/

section

variable {relay relay' : Relay}

theorem hasFocus_of_focusedSurface {s : FocusSurface} (h : relayFocusedSurface relay = some s) :
    relay.HasFocus := by
  obtain ⟨t, ht, hs⟩ := relayFocusedSurface_eq_some h
  exact ⟨t, ht, by rw [hs]; simp⟩

theorem hasFocus_congr (h : relay'.textInputs = relay.textInputs) :
    relay'.HasFocus ↔ relay.HasFocus := by
  unfold Relay.HasFocus
  rw [h]

/-- A popup on the surface of the focused text input is anchored. -/
theorem PlacedOn.hasFocus {popup : InputPopup}
    (h : PlacedOn relay.role (relayFocusedSurface relay) popup) (hrelative : popup.relative ≠ none) :
    relay.HasFocus := by
  rcases h with h | ⟨s, hs, -⟩
  · exact absurd h hrelative
  · exact hasFocus_of_focusedSurface hs

theorem OnlyPopups.owned (h : OnlyPopups relay relay')
    (howned : relay.inputPopups ≠ [] → relay.inputMethod = true) :
    relay'.inputPopups ≠ [] → relay'.inputMethod = true := by
  intro hne
  rw [h.inputMethod]
  refine howned fun hnil => hne ?_
  have hlen := h.length
  rw [hnil] at hlen
  exact List.eq_nil_of_length_eq_zero hlen

theorem Relay.Anchored.refreshed (h : relay.Anchored) (hr : Refreshed relay relay') :
    relay'.Anchored where
  focus popup hp hrelative := by
    rw [hasFocus_congr hr.1.textInputs]
    rcases hr.2 popup hp with hp | hp
    · exact h.focus popup hp hrelative
    · exact hp.hasFocus hrelative
  owned := hr.1.owned h.owned

/-- Other text inputs, among which some is focused if one was. -/
theorem Relay.Anchored.withTextInputs (h : relay.Anchored) {textInputs : List TextInput}
    (hfocus : relay.HasFocus → ({ relay with textInputs := textInputs } : Relay).HasFocus) :
    ({ relay with textInputs := textInputs } : Relay).Anchored where
  focus popup hp hrelative := hfocus (h.focus popup hp hrelative)
  owned := h.owned

theorem Ends.refreshed {x : Except RelayFault Relay} (h : relay.Anchored)
    (hx : Ends (Refreshed relay) (· = .danglingLink) x) :
    Ends Relay.Anchored (· ≠ .noTextInput) x := by
  refine hx.mono (fun _ h' => h.refreshed h') ?_
  rintro _ rfl
  decide

/-! ## Keyboard focus -/

theorem TextInput.enterOrPend_focused {t : TextInput} {inputMethod : Bool}
    {surface : Option FocusSurface} (h : t.focusedSurface ≠ none) :
    (t.enterOrPend inputMethod surface).focusedSurface ≠ none := by
  unfold TextInput.enterOrPend
  cases surface with
  | none => exact h
  | some s =>
      dsimp only
      split_ifs
      · simp [TextInput.sendEnter]
      · exact h
      · exact h

/-- The text input in the middle changes, and stays focused if it was. -/
theorem hasFocus_middle {done rest : List TextInput} {t t' : TextInput}
    (hrelay : relay.textInputs = done ++ t :: rest)
    (ht : t.focusedSurface ≠ none → t'.focusedSurface ≠ none) (h : relay.HasFocus) :
    ({ relay with textInputs := done ++ t' :: rest } : Relay).HasFocus := by
  obtain ⟨u, hu, hfocused⟩ := h
  rw [hrelay] at hu
  rcases List.mem_append.1 hu with hu | hu
  · exact ⟨u, List.mem_append_left _ hu, hfocused⟩
  · rcases List.mem_cons.1 hu with rfl | hu
    · exact ⟨t', List.mem_append_right _ List.mem_cons_self, ht hfocused⟩
    · exact ⟨u, List.mem_append_right _ (List.mem_cons_of_mem t' hu), hfocused⟩

theorem relaySetFocusTurn_anchored {surface : Option FocusSurface} {done : List TextInput}
    {t : TextInput} {rest : List TextInput} (hrelay : relay.textInputs = done ++ t :: rest)
    (h : relay.Anchored) :
    Ends (fun relay' => ∃ t', relay'.textInputs = done ++ t' :: rest ∧ relay'.Anchored)
      (· ≠ .noTextInput) (relaySetFocusTurn surface relay done t rest) := by
  have hmiddle : ∀ (t₀ : TextInput) (inputMethod : Bool), t.focusedSurface = t₀.focusedSurface →
      ({ relay with textInputs := done ++ t₀.enterOrPend inputMethod surface :: rest } :
        Relay).Anchored := by
    intro t₀ inputMethod hsame
    refine h.withTextInputs (hasFocus_middle hrelay fun hfocused => ?_)
    exact TextInput.enterOrPend_focused (hsame ▸ hfocused)
  unfold relaySetFocusTurn
  dsimp only
  by_cases hpending : t.pendingFocusedSurface.isSome = true
  · rw [if_pos hpending]
    split_ifs
    · exact fun hfault => by cases hfault
    · exact Ends.pure ⟨_, rfl, hmiddle (t.setPendingFocusedSurface none) _ rfl⟩
    · exact Ends.pure ⟨_, rfl, hmiddle t _ rfl⟩
  · rw [if_neg hpending]
    by_cases hfocused : t.focusedSurface.isSome = true
    · rw [if_pos hfocused]
      split_ifs with hsame
      · -- the popups go to the text input that is focused now, if there is one
        have hdisable := relayDisableTextInput_ends
          { relay with textInputs := done ++ t.sendLeave :: rest }
        refine (hdisable.mono (fun _ h => h) ?_).bind fun relay' hrelay' => ?_
        · rintro _ rfl
          decide
        · obtain ⟨honly, hplaced⟩ := hrelay'
          have howned := honly.owned h.owned
          have hanchored : relay'.Anchored := by
            refine ⟨fun popup hp hrelative => ?_, howned⟩
            have hmethod := howned (List.ne_nil_of_mem hp)
            rw [honly.inputMethod] at hmethod
            rw [hasFocus_congr honly.textInputs]
            exact (hplaced hmethod popup hp).hasFocus hrelative
          refine Ends.pure ⟨_, rfl, hanchored.withTextInputs ?_⟩
          exact hasFocus_middle honly.textInputs fun hf => TextInput.enterOrPend_focused hf
      · exact Ends.pure ⟨t, hrelay, h⟩
    · rw [if_neg hfocused]
      exact Ends.pure ⟨_, rfl, hmiddle t _ rfl⟩

theorem swayInputMethodRelaySetFocus_anchored (surface : Option FocusSurface)
    (h : relay.Anchored) :
    Ends Relay.Anchored (· ≠ .noTextInput) (swayInputMethodRelaySetFocus relay surface) :=
  swayInputMethodRelaySetFocus_ends surface (J := fun _ _ relay' => relay'.Anchored)
    (fun _ _ _ _ hrelay' h' => relaySetFocusTurn_anchored hrelay' h') relay h

/-! ## The other events -/

/-- A change of one text input that keeps its focus. -/
theorem hasFocus_updateTextInput {p : TextInput → Bool} {f : TextInput → TextInput}
    (hf : ∀ t, (f t).focusedSurface = t.focusedSurface) (h : relay.HasFocus) :
    (relay.updateTextInput p f).HasFocus := by
  obtain ⟨t, ht, hfocused⟩ := h
  unfold Relay.HasFocus Relay.updateTextInput
  dsimp only
  revert ht
  induction relay.textInputs with
  | nil => exact fun ht => by cases ht
  | cons u l ih =>
      intro ht
      rw [List.replaceF_cons]
      by_cases hu : p u = true
      · rw [if_pos hu]
        rcases List.mem_cons.1 ht with rfl | ht
        · exact ⟨f t, List.mem_cons_self, by rw [hf]; exact hfocused⟩
        · exact ⟨t, List.mem_cons_of_mem _ ht, hfocused⟩
      · rw [if_neg hu]
        rcases List.mem_cons.1 ht with rfl | ht
        · exact ⟨t, List.mem_cons_self, hfocused⟩
        · obtain ⟨v, hv, hvf⟩ := ih ht
          exact ⟨v, List.mem_cons_of_mem u hv, hvf⟩

/-- Without popups there is nothing to place. -/
theorem anchored_of_noPopups (h : relay.inputPopups = []) : relay.Anchored where
  focus popup hp := by
    rw [h] at hp
    cases hp
  owned hne := absurd h hne

theorem relayHandleInputMethod_anchored (h : relay.Anchored) :
    Ends Relay.Anchored (· ≠ .noTextInput) (relayHandleInputMethod relay) := by
  unfold relayHandleInputMethod
  cases hmethod : relay.inputMethod with
  | true => exact h
  | false =>
      have hnone : relay.inputPopups = [] := by
        by_contra hne
        have := h.owned hne
        rw [hmethod] at this
        cases this
      simp only [Bool.false_eq_true, if_false]
      cases relayGetFocusableTextInput { relay with inputMethod := true } with
      | none => exact anchored_of_noPopups hnone
      | some t =>
          unfold textInputSendEnter inputPopupsSetFocus Relay.updateTextInput
          simp only [hnone, List.mapM_nil]
          exact anchored_of_noPopups rfl

theorem handleImDestroy_anchored (h : relay.Anchored) :
    Ends Relay.Anchored (· ≠ .noTextInput) (handleImDestroy relay) := by
  unfold handleImDestroy
  split_ifs
  · refine ((handleImPopupDestroy_ends relay fun _ => true).mono (fun _ h => h) ?_).bind ?_
    · rintro _ rfl
      decide
    · intro relay' hrelay'
      refine Ends.pure (anchored_of_noPopups ?_)
      have hnone := hrelay'.inputPopups
      simp only [Bool.not_true, List.filter_false] at hnone
      exact hnone
  · exact h

/-- The popups when a text input is destroyed. -/
theorem handleTextInputDestroy_anchored (h : relay.Anchored) {address : Nat}
    (hok : KeepsAnchor relay (.textInputDestroy address)) :
    Ends Relay.Anchored (· ≠ .noTextInput) (handleTextInputDestroy relay address) := by
  unfold handleTextInputDestroy
  cases hfind : relay.textInput address with
  | none => exact h
  | some t =>
      -- a popup that stays has another text input
      have hleft : ∀ relay' : Relay, relay'.textInputs = relay.textInputs → relay'.Anchored →
          (relay.HasFocus → (∀ u ∈ relay.textInputs, u.address ≠ address →
            u.focusedSurface = none) → ∀ popup ∈ relay'.inputPopups, popup.relative = none) →
          ({ relay' with
            textInputs := relay'.textInputs.filter fun t => !decide (t.address = address) } :
            Relay).Anchored := by
        intro relay' htexts hanchored hstays
        refine ⟨fun popup hp hrelative => ?_, hanchored.owned⟩
        by_contra hno
        have hother : ∀ u ∈ relay.textInputs, u.address ≠ address → u.focusedSurface = none := by
          intro u hu haddress
          by_contra hfocused
          refine hno ⟨u, List.mem_filter.2 ⟨htexts ▸ hu, ?_⟩, hfocused⟩
          simpa using haddress
        have hfocus := (hasFocus_congr htexts).1 (hanchored.focus popup hp hrelative)
        exact hrelative (hstays hfocus hother popup hp)
      have hcase : relay.HasFocus → (∀ u ∈ relay.textInputs, u.address ≠ address →
          u.focusedSurface = none) → NoPopupStays relay t := by
        intro hfocus hother
        rcases hok with ⟨u, hu, haddress, hfocused⟩ | hno | hstay
        · exact absurd (hother u hu haddress) hfocused
        · exact absurd hfocus hno
        · exact hstay t hfind
      dsimp only
      split_ifs with henabled
      · refine ((relayDisableTextInput_ends relay).mono (fun _ h => h) ?_).bind ?_
        · rintro _ rfl
          decide
        · rintro relay' ⟨honly, hplaced⟩
          have hanchored : relay'.Anchored := by
            refine ⟨fun popup hp hrelative => ?_, honly.owned h.owned⟩
            have hmethod := honly.owned h.owned (List.ne_nil_of_mem hp)
            rw [honly.inputMethod] at hmethod
            rw [hasFocus_congr honly.textInputs]
            exact (hplaced hmethod popup hp).hasFocus hrelative
          refine Ends.pure (hleft relay' honly.textInputs hanchored ?_)
          intro hfocus hother popup hp
          have hmethod := honly.owned h.owned (List.ne_nil_of_mem hp)
          rw [honly.inputMethod] at hmethod
          have hstay := hcase hfocus hother
          unfold NoPopupStays at hstay
          rw [if_pos ⟨henabled, hmethod⟩] at hstay
          rcases hstay with hnone | htakes
          · have hlen := honly.length
            rw [hnone] at hlen
            rw [List.eq_nil_of_length_eq_zero hlen] at hp
            cases hp
          · rcases hplaced hmethod popup hp with hrel | ⟨s, hs, htake, -⟩
            · exact hrel
            · rw [htakes s hs] at htake
              cases htake
      · refine hleft relay rfl h fun hfocus hother => ?_
        have hstay := hcase hfocus hother
        unfold NoPopupStays at hstay
        rwa [if_neg fun hboth => henabled hboth.1] at hstay

theorem surfaceDestroyed_focusedSurface {t : TextInput} {surface : FocusSurface}
    (hne : t.focusedSurface ≠ some surface) :
    (t.surfaceDestroyed surface).focusedSurface = t.focusedSurface := by
  unfold TextInput.surfaceDestroyed
  dsimp only
  split_ifs
  · simp_all [TextInput.setPendingFocusedSurface]
  · rfl
  · rfl

/-- Every step keeps the popups anchored. -/
theorem relayStep_anchored {e : RelayEvent} (h : relay.Anchored) (hok : KeepsAnchor relay e) :
    Ends Relay.Anchored (· ≠ .noTextInput) (relayStep relay e) := by
  cases e with
  | setFocus surface => exact swayInputMethodRelaySetFocus_anchored surface h
  | inputMethodNew => exact relayHandleInputMethod_anchored h
  | inputMethodDestroy => exact handleImDestroy_anchored h
  | textInputNew address client =>
      refine h.withTextInputs ?_
      rintro ⟨t, ht, hfocused⟩
      exact ⟨t, List.mem_cons_of_mem _ ht, hfocused⟩
  | textInputCommit address enabled =>
      have hupdate : (relay.updateTextInput (fun t => decide (t.address = address))
          fun t => { t with currentEnabled := enabled }).Anchored :=
        h.withTextInputs (hasFocus_updateTextInput fun _ => rfl)
      exact Ends.refreshed hupdate (textInputCommit_ends relay address enabled)
  | textInputDestroy address => exact handleTextInputDestroy_anchored h hok
  | popupNew address =>
      refine (handleImNewPopupSurface_ends relay address).mono ?_ ?_
      · rintro relay' ⟨htexts, hmethod, howned, hpopups⟩
        refine ⟨fun popup hp hrelative => ?_, fun hne => ?_⟩
        · rw [hasFocus_congr htexts]
          rcases hpopups popup hp with hp | hp
          · exact h.focus popup hp hrelative
          · exact hp.hasFocus hrelative
        · rw [hmethod]
          rcases howned hne with hne | hmethod
          · exact h.owned hne
          · exact hmethod
      · rintro _ rfl
        decide
  | popupMap address =>
      exact Ends.refreshed h (onPopup_ends address fun popup _ =>
        (handleImPopupSurfaceMap_ends relay popup).mono (fun _ h => Or.inr h) fun _ h => h)
  | popupUnmap address =>
      exact Ends.refreshed h (onPopup_ends address fun popup _ =>
        (handleImPopupSurfaceUnmap_ends relay popup).mono (fun _ h => Or.inr h) fun _ h => h)
  | popupCommit address =>
      have hcommit : Ends (Refreshed relay) (· ≠ .noTextInput)
          (relay.onPopup address (handleImPopupSurfaceCommit relay)) := by
        refine onPopup_ends address fun popup hp =>
          (handleImPopupSurfaceCommit_ends hp).mono (fun _ h => h) ?_
        -- a popup on a surface has a focused text input
        rintro fault ⟨-, hrelative, hnone⟩
        obtain ⟨t, ht, hfocused⟩ := h.focus popup hp hrelative
        exact absurd (relayGetFocusedTextInput_eq_none_iff.1 hnone t ht) hfocused
      exact hcommit.mono (fun relay' h' => h.refreshed h') fun _ h => h
  | popupDestroy address =>
      refine (handleImPopupDestroy_ends relay _).mono ?_ ?_
      · intro relay' hfewer
        refine ⟨fun popup hp hrelative => ?_, fun hne => ?_⟩
        · rw [hfewer.inputPopups] at hp
          rw [hasFocus_congr hfewer.textInputs]
          exact h.focus popup (List.mem_filter.1 hp).1 hrelative
        · rw [hfewer.inputMethod]
          refine h.owned fun hnil => hne ?_
          rw [hfewer.inputPopups, hnil]
          rfl
      · rintro _ rfl
        decide
  | surfaceUnmap surface =>
      exact Ends.refreshed h (refreshed_mapM fun popup hp =>
        handleImFocusedSurfaceUnmap_ends surface hp)
  | surfaceDestroy surface =>
      refine ⟨fun popup hp hrelative => ?_, h.owned⟩
      rcases hok with ⟨t, ht, hfocused, hne⟩ | hno | hnone
      · refine ⟨t.surfaceDestroyed surface, List.mem_map.2 ⟨t, ht, rfl⟩, ?_⟩
        rw [surfaceDestroyed_focusedSurface hne]
        exact hfocused
      · exact absurd (h.focus popup hp hrelative) hno
      · exact absurd (hnone popup hp) hrelative
  | surfaceRole surface role => exact ⟨h.focus, h.owned⟩

end

/-! ## Runs -/

/-- In every run in which the last focused text input and the last focused surface are not destroyed
while popups stay on a surface, a popup that is on a surface always has a focused text input, and
`constrain_popup` never reads one that is not there. -/
theorem relay_run_anchored (role : FocusSurface → FocusRole) (r : Except RelayFault Relay)
    (h : Run (faultStep relayStep) (BeforeFault KeepsAnchor) (.ok (Relay.init role)) r) :
    Ends Relay.Anchored (· ≠ .noTextInput) r :=
  Run.ends (fun _ _ hs hok => relayStep_anchored hs hok) (anchored_of_noPopups rfl) h

/-- An input method with a popup for the text input of a window. -/
def composing : List RelayEvent :=
  [.inputMethodNew, .textInputNew 10 7, .setFocus (some editor), .textInputCommit 10 true,
    .popupNew 20, .popupMap 20, .popupCommit 20]

theorem relay_run_anchored_composing :
    Ends Relay.Anchored (· ≠ .noTextInput)
      (runRelay (composing ++ [.setFocus none, .textInputDestroy 10, .popupCommit 20])) :=
  relay_run_anchored (fun _ => .view) _ (Run.foldl (by decide +kernel))

/-- The client destroys its text input, and the popup is committed once more. -/
theorem runRelay_composing_destroyed :
    Ends (fun _ => False) (· = .noTextInput)
      (runRelay (composing ++ [.textInputDestroy 10, .popupCommit 20])) := by
  decide +kernel

end Swirl

import Swirl.Input.TextInput

set_option autoImplicit false

/-! # What the handlers of the relay do

A refresh of the popups changes nothing else in the relay, and leaves every popup either as it was
or on the surface of the focused text input. It can fault only at a link that was removed before.
-/

namespace Swirl

open Swirl.Lib

/-- A popup can be put on a surface of this role. -/
def FocusRole.takesPopups : FocusRole → Bool
  | .layer data | .lock data => data
  | .view => true
  | .unsupported => false

/-- The popup is on the surface, or on none. -/
def PlacedOn (role : FocusSurface → FocusRole) (surface : Option FocusSurface)
    (popup : InputPopup) : Prop :=
  popup.relative = none ∨
    ∃ s, surface = some s ∧ (role s).takesPopups = true ∧ popup.relative = some s

/-- The ways in which putting a popup on a surface may fault. -/
def PopupFault (relay : Relay) (surface : Option FocusSurface) (fault : RelayFault) : Prop :=
  fault = .danglingLink ∨
    (fault = .noTextInput ∧ surface ≠ none ∧ relayGetFocusedTextInput relay = none)

/-- Nothing but the popups has changed, and none has come or gone. -/
structure OnlyPopups (relay relay' : Relay) : Prop where
  inputMethod : relay'.inputMethod = relay.inputMethod
  textInputs : relay'.textInputs = relay.textInputs
  role : relay'.role = relay.role
  length : relay'.inputPopups.length = relay.inputPopups.length

theorem OnlyPopups.refl (relay : Relay) : OnlyPopups relay relay := ⟨rfl, rfl, rfl, rfl⟩

/-! ## The focused text input -/

theorem relayGetFocusedTextInput_eq_none_iff {relay : Relay} :
    relayGetFocusedTextInput relay = none ↔ ∀ t ∈ relay.textInputs, t.focusedSurface = none := by
  unfold relayGetFocusedTextInput
  simp [List.find?_eq_none]

theorem relayFocusedSurface_eq_some {relay : Relay} {s : FocusSurface}
    (h : relayFocusedSurface relay = some s) :
    ∃ t ∈ relay.textInputs, t.focusedSurface = some s := by
  unfold relayFocusedSurface relayGetFocusedTextInput at h
  obtain ⟨t, ht, hs⟩ := Option.bind_eq_some_iff.1 h
  exact ⟨t, List.mem_of_find?_eq_some ht, hs⟩

theorem OnlyPopups.relayFocusedSurface {relay relay' : Relay} (h : OnlyPopups relay relay') :
    relayFocusedSurface relay' = relayFocusedSurface relay := by
  unfold Swirl.relayFocusedSurface relayGetFocusedTextInput
  rw [h.textInputs]

/-! ## Changes of one text input -/

theorem mem_updateTextInput {relay : Relay} {p : TextInput → Bool} {f : TextInput → TextInput}
    {t : TextInput} (h : t ∈ (relay.updateTextInput p f).textInputs) :
    t ∈ relay.textInputs ∨ ∃ u ∈ relay.textInputs, p u = true ∧ t = f u := by
  unfold Relay.updateTextInput at h
  dsimp only at h
  revert h
  induction relay.textInputs with
  | nil => exact fun h => Or.inl h
  | cons u l ih =>
      intro h
      rw [List.replaceF_cons] at h
      by_cases hu : p u = true
      · rw [if_pos hu] at h
        rcases List.mem_cons.1 h with rfl | h
        · exact Or.inr ⟨u, List.mem_cons_self, hu, rfl⟩
        · exact Or.inl (List.mem_cons_of_mem u h)
      · rw [if_neg hu] at h
        rcases List.mem_cons.1 h with rfl | h
        · exact Or.inl List.mem_cons_self
        · rcases ih h with h | ⟨v, hv, hp, rfl⟩
          · exact Or.inl (List.mem_cons_of_mem u h)
          · exact Or.inr ⟨v, List.mem_cons_of_mem u hv, hp, rfl⟩

/-- Two changes of the first text input that passes a test, when it still passes after the first. -/
theorem updateTextInput_updateTextInput {relay relay' : Relay} {p : TextInput → Bool}
    {f g : TextInput → TextInput} (hp : ∀ t, p t = true → p (f t) = true)
    (h : relay'.textInputs = (relay.updateTextInput p f).textInputs) :
    (relay'.updateTextInput p g).textInputs =
      (relay.updateTextInput p fun t => g (f t)).textInputs := by
  unfold Relay.updateTextInput at h ⊢
  dsimp only at h ⊢
  rw [h]
  clear h
  induction relay.textInputs with
  | nil => rfl
  | cons u l ih =>
      by_cases hu : p u = true
      · simp [hu, hp u hu]
      · simp [hu, ih]

/-! ## Popups -/

theorem inputPopupAttach_ends (relay : Relay) (popup : InputPopup) (s : FocusSurface)
    (hrole : (relay.role s).takesPopups = true) :
    Ends (PlacedOn relay.role (some s)) (PopupFault relay (some s))
      (inputPopupAttach relay popup s) := by
  unfold inputPopupAttach constrainPopup
  cases hfocused : relayGetFocusedTextInput relay with
  | none => exact Or.inr ⟨rfl, by simp, hfocused⟩
  | some t => exact Or.inr ⟨s, rfl, hrole, rfl⟩

theorem inputPopupSetFocus_ends (relay : Relay) (surface : Option FocusSurface)
    (popup : InputPopup) :
    Ends (PlacedOn relay.role surface) (PopupFault relay surface)
      (inputPopupSetFocus relay surface popup) := by
  unfold inputPopupSetFocus removeUnmapListener
  by_cases hremoved : popup.focusedSurfaceUnmap = .removed
  · rw [if_pos hremoved]
    exact Or.inl rfl
  · rw [if_neg hremoved]
    cases surface with
    | none => exact Or.inl rfl
    | some s =>
        have hattach := inputPopupAttach_ends relay { popup with relative := none } s
        dsimp only
        cases hrole : relay.role s with
        | layer data =>
            cases data with
            | false => exact Or.inl rfl
            | true => exact hattach (by rw [hrole]; rfl)
        | lock data =>
            cases data with
            | false => exact Or.inl rfl
            | true => exact hattach (by rw [hrole]; rfl)
        | view => exact hattach (by rw [hrole]; rfl)
        | unsupported => exact Or.inl rfl

/-- On the surface of the focused text input a popup is never placed for no text input. -/
theorem PopupFault.focused {relay : Relay} {fault : RelayFault}
    (h : PopupFault relay (relayFocusedSurface relay) fault) : fault = .danglingLink := by
  rcases h with h | ⟨-, hsurface, hnone⟩
  · exact h
  · unfold relayFocusedSurface at hsurface
    rw [hnone] at hsurface
    exact absurd rfl hsurface

theorem PopupFault.detached {relay : Relay} {fault : RelayFault}
    (h : PopupFault relay none fault) : fault = .danglingLink := by
  rcases h with h | ⟨-, hsurface, -⟩
  · exact h
  · exact absurd rfl hsurface

/-- Every popup is put on the surface. -/
theorem inputPopupsSetFocus_ends (relay : Relay) (surface : Option FocusSurface) :
    Ends (fun relay' => OnlyPopups relay relay' ∧
        ∀ popup ∈ relay'.inputPopups, PlacedOn relay.role surface popup)
      (PopupFault relay surface) (inputPopupsSetFocus relay surface) := by
  unfold inputPopupsSetFocus
  refine (Ends.mapM fun popup _ => inputPopupSetFocus_ends relay surface popup).bind ?_
  rintro inputPopups ⟨hlen, hplaced⟩
  exact Ends.pure ⟨⟨rfl, rfl, rfl, hlen⟩, hplaced⟩

/-- Popups are refreshed: each is as it was, or on the surface of the focused text input. -/
def Refreshed (relay relay' : Relay) : Prop :=
  OnlyPopups relay relay' ∧ ∀ popup ∈ relay'.inputPopups,
    popup ∈ relay.inputPopups ∨ PlacedOn relay.role (relayFocusedSurface relay) popup

theorem Refreshed.refl (relay : Relay) : Refreshed relay relay :=
  ⟨OnlyPopups.refl relay, fun _ hp => Or.inl hp⟩

/-- A handler for some of the popups. -/
theorem refreshed_mapM {relay : Relay} {handle : InputPopup → Except RelayFault InputPopup}
    {Q : RelayFault → Prop}
    (h : ∀ popup ∈ relay.inputPopups, Ends (fun popup' => popup' ∈ relay.inputPopups ∨
      PlacedOn relay.role (relayFocusedSurface relay) popup') Q (handle popup)) :
    Ends (Refreshed relay) Q (do
      let inputPopups ← relay.inputPopups.mapM handle
      pure { relay with inputPopups := inputPopups }) := by
  refine (Ends.mapM h).bind ?_
  rintro inputPopups ⟨hlen, hplaced⟩
  exact Ends.pure ⟨⟨rfl, rfl, rfl, hlen⟩, hplaced⟩

theorem PlacedOn.of_none {role : FocusSurface → FocusRole} {surface : Option FocusSurface}
    {popup : InputPopup} (h : PlacedOn role none popup) : PlacedOn role surface popup := by
  rcases h with h | ⟨s, hs, -⟩
  · exact Or.inl h
  · cases hs

theorem handleImPopupSurfaceMap_ends (relay : Relay) (popup : InputPopup) :
    Ends (PlacedOn relay.role (relayFocusedSurface relay)) (· = .danglingLink)
      (handleImPopupSurfaceMap relay popup) :=
  (inputPopupSetFocus_ends relay _ popup).mono (fun _ h => h) fun _ h => h.focused

theorem handleImPopupSurfaceUnmap_ends (relay : Relay) (popup : InputPopup) :
    Ends (PlacedOn relay.role (relayFocusedSurface relay)) (· = .danglingLink)
      (handleImPopupSurfaceUnmap relay popup) :=
  (inputPopupSetFocus_ends relay none _).mono (fun _ h => h.of_none) fun _ h => h.detached

theorem handleImFocusedSurfaceUnmap_ends {relay : Relay} (surface : FocusSurface)
    {popup : InputPopup} (hp : popup ∈ relay.inputPopups) :
    Ends (fun popup' => popup' ∈ relay.inputPopups ∨
        PlacedOn relay.role (relayFocusedSurface relay) popup') (· = .danglingLink)
      (handleImFocusedSurfaceUnmap relay surface popup) := by
  unfold handleImFocusedSurfaceUnmap
  by_cases hon : popup.focusedSurfaceUnmap = .on surface
  · rw [if_pos hon]
    exact (inputPopupSetFocus_ends relay none popup).mono (fun _ h => Or.inr h.of_none)
      fun _ h => h.detached
  · rw [if_neg hon]
    exact Ends.pure (Or.inl hp)

/-- A handler for the popup at an address. -/
theorem onPopup_ends {relay : Relay} {handle : InputPopup → Except RelayFault InputPopup}
    {Q : RelayFault → Prop} (address : Nat)
    (h : ∀ popup ∈ relay.inputPopups, Ends (fun popup' => popup' ∈ relay.inputPopups ∨
      PlacedOn relay.role (relayFocusedSurface relay) popup') Q (handle popup)) :
    Ends (Refreshed relay) Q (relay.onPopup address handle) := by
  unfold Relay.onPopup
  refine refreshed_mapM fun popup hp => ?_
  by_cases haddress : popup.address = address
  · rw [if_pos haddress]
    exact h popup hp
  · rw [if_neg haddress]
    exact Ends.pure (Or.inl hp)

theorem handleImPopupSurfaceCommit_ends {relay : Relay} {popup : InputPopup}
    (hp : popup ∈ relay.inputPopups) :
    Ends (fun popup' => popup' ∈ relay.inputPopups ∨
        PlacedOn relay.role (relayFocusedSurface relay) popup')
      (fun fault => fault = .noTextInput ∧ popup.relative ≠ none ∧
        relayGetFocusedTextInput relay = none)
      (handleImPopupSurfaceCommit relay popup) := by
  unfold handleImPopupSurfaceCommit constrainPopup
  cases hrelative : popup.relative with
  | none => exact Or.inl hp
  | some s =>
      cases hfocused : relayGetFocusedTextInput relay with
      | none => exact ⟨rfl, by simp, rfl⟩
      | some t => exact Or.inl hp

/-- A new popup is put on the surface of the focused text input. -/
theorem handleImNewPopupSurface_ends (relay : Relay) (address : Nat) :
    Ends (fun relay' => relay'.textInputs = relay.textInputs ∧
        relay'.inputMethod = relay.inputMethod ∧
        (relay'.inputPopups ≠ [] → relay.inputPopups ≠ [] ∨ relay.inputMethod = true) ∧
        ∀ popup ∈ relay'.inputPopups, popup ∈ relay.inputPopups ∨
          PlacedOn relay.role (relayFocusedSurface relay) popup)
      (· = .danglingLink) (handleImNewPopupSurface relay address) := by
  unfold handleImNewPopupSurface
  cases hmethod : relay.inputMethod with
  | false => exact ⟨rfl, hmethod, fun h => Or.inl h, fun popup hp => Or.inl hp⟩
  | true =>
      simp only [if_true]
      refine ((inputPopupSetFocus_ends relay _ _).mono (fun _ h => h) fun _ h => h.focused).bind ?_
      intro popup hpopup
      refine Ends.pure ⟨rfl, rfl, fun _ => Or.inr trivial, fun popup' hp' => ?_⟩
      rcases List.mem_cons.1 hp' with rfl | hp'
      · exact Or.inr hpopup
      · exact Or.inl hp'

/-- Some popups are destroyed. -/
structure OnlyFewerPopups (relay relay' : Relay) (p : InputPopup → Bool) : Prop where
  inputMethod : relay'.inputMethod = relay.inputMethod
  textInputs : relay'.textInputs = relay.textInputs
  inputPopups : relay'.inputPopups = relay.inputPopups.filter fun popup => !p popup

theorem handleImPopupDestroy_ends (relay : Relay) (p : InputPopup → Bool) :
    Ends (fun relay' => OnlyFewerPopups relay relay' p) (· = .danglingLink)
      (handleImPopupDestroy relay p) := by
  unfold handleImPopupDestroy
  have hremove : ∀ popup : InputPopup, Ends (fun _ => True) (· = .danglingLink)
      (removeUnmapListener popup) := by
    intro popup
    unfold removeUnmapListener
    split_ifs
    · exact rfl
    · exact trivial
  refine (Ends.mapM fun popup _ => hremove popup).bind fun _ _ => ?_
  exact Ends.pure ⟨rfl, rfl, rfl⟩

/-! ## Text inputs -/

theorem relaySendImState_ends (relay : Relay) :
    Ends (fun relay' => OnlyPopups relay relay' ∧ (relay.inputMethod = true →
        ∀ popup ∈ relay'.inputPopups, PlacedOn relay.role (relayFocusedSurface relay) popup))
      (· = .danglingLink) (relaySendImState relay) := by
  unfold relaySendImState
  cases hmethod : relay.inputMethod with
  | false => exact ⟨OnlyPopups.refl relay, fun h => by cases h⟩
  | true =>
      refine (inputPopupsSetFocus_ends relay _).mono ?_ fun _ h => h.focused
      exact fun relay' h => ⟨h.1, fun _ => h.2⟩

theorem relayDisableTextInput_ends (relay : Relay) :
    Ends (fun relay' => OnlyPopups relay relay' ∧ (relay.inputMethod = true →
        ∀ popup ∈ relay'.inputPopups, PlacedOn relay.role (relayFocusedSurface relay) popup))
      (· = .danglingLink) (relayDisableTextInput relay) := by
  have hsend := relaySendImState_ends relay
  unfold relayDisableTextInput
  cases hmethod : relay.inputMethod with
  | false => exact ⟨OnlyPopups.refl relay, fun h => by cases h⟩
  | true =>
      rw [hmethod] at hsend
      exact hsend

theorem relaySendImState_refreshed (relay : Relay) :
    Ends (Refreshed relay) (· = .danglingLink) (relaySendImState relay) := by
  have hsend := relaySendImState_ends relay
  cases hmethod : relay.inputMethod with
  | false =>
      unfold relaySendImState
      rw [hmethod]
      exact Refreshed.refl relay
  | true =>
      refine hsend.mono ?_ fun _ h => h
      exact fun relay' h => ⟨h.1, fun popup hp => Or.inr (h.2 hmethod popup hp)⟩

theorem relayDisableTextInput_refreshed (relay : Relay) :
    Ends (Refreshed relay) (· = .danglingLink) (relayDisableTextInput relay) := by
  unfold relayDisableTextInput
  cases relay.inputMethod with
  | false => exact Refreshed.refl relay
  | true => exact relaySendImState_refreshed relay

theorem handleTextInputEnable_refreshed (relay : Relay) (t : TextInput) :
    Ends (Refreshed relay) (· = .danglingLink) (handleTextInputEnable relay t) := by
  unfold handleTextInputEnable
  split_ifs
  · exact Refreshed.refl relay
  · exact Refreshed.refl relay
  · exact relaySendImState_refreshed relay

theorem handleTextInputCommit_refreshed (relay : Relay) (t : TextInput) :
    Ends (Refreshed relay) (· = .danglingLink) (handleTextInputCommit relay t) := by
  unfold handleTextInputCommit
  split_ifs
  · exact Refreshed.refl relay
  · exact Refreshed.refl relay
  · exact Refreshed.refl relay
  · exact relaySendImState_refreshed relay

theorem handleTextInputDisable_refreshed (relay : Relay) (t : TextInput) :
    Ends (Refreshed relay) (· = .danglingLink) (handleTextInputDisable relay t) := by
  unfold handleTextInputDisable
  split_ifs
  · exact Refreshed.refl relay
  · exact relayDisableTextInput_refreshed relay

/-- A `commit` request sets the enabled flag of its text input, and refreshes the popups or not. -/
theorem textInputCommit_ends (relay : Relay) (address : Nat) (enabled : Bool) :
    Ends (Refreshed (relay.updateTextInput (fun t => decide (t.address = address))
        fun t => { t with currentEnabled := enabled })) (· = .danglingLink)
      (textInputCommit relay address enabled) := by
  unfold textInputCommit
  cases hfind : relay.textInput address with
  | none =>
      have hsame : relay.updateTextInput (fun t => decide (t.address = address))
          (fun t => { t with currentEnabled := enabled }) = relay := by
        unfold Relay.updateTextInput
        unfold Relay.textInput at hfind
        rw [List.replaceF_of_forall_none]
        intro t ht
        have hne := List.find?_eq_none.1 hfind t ht
        rw [if_neg hne]
      rw [hsame]
      exact Refreshed.refl relay
  | some t =>
      dsimp only
      split_ifs
      · exact handleTextInputEnable_refreshed _ _
      · exact handleTextInputDisable_refreshed _ _
      · exact handleTextInputCommit_refreshed _ _

end Swirl

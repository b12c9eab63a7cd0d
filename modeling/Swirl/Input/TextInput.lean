import Swirl.Lib.Faults
import Mathlib.Data.List.Basic

set_option autoImplicit false

/-! # The text input relay

A seat's relay connects the text inputs of the clients with the input method. Keyboard focus comes
in through `sway_input_method_relay_set_focus`; a text input of the focused client enters the
surface when there is an input method, and keeps it as pending otherwise. The popups of the input
method are put on the surface of the focused text input. What can go wrong is a fault: an assertion,
a popup that is placed for no text input, or a listener that is removed twice.
-/

namespace Swirl

/-- What `input_popup_set_focus` finds a surface to be. `data` says that the layer surface or the
lock surface has its sway counterpart. -/
inductive FocusRole
  | layer (data : Bool)
  | lock (data : Bool)
  | view
  | unsupported
  deriving DecidableEq

/-- `struct wlr_surface`, with its address and its client. -/
structure FocusSurface where
  address : Nat
  client : Nat
  deriving DecidableEq

/-- `struct sway_text_input` with its `wlr_text_input_v3` -/
structure TextInput where
  address : Nat
  client : Nat
  pendingFocusedSurface : Option FocusSurface
  focusedSurface : Option FocusSurface
  currentEnabled : Bool
  deriving DecidableEq

/-- `focused_surface_unmap`: an empty link, one in the list of a surface, or one that has been
removed and not initialised again. -/
inductive UnmapListener
  | idle
  | on (surface : FocusSurface)
  | removed
  deriving DecidableEq

/-- `struct sway_input_popup`. `desc.relative` is there when it is a node under some surface. -/
structure InputPopup where
  address : Nat
  relative : Option FocusSurface
  focusedSurfaceUnmap : UnmapListener
  deriving DecidableEq

/-- `struct sway_input_method_relay`, with the roles of the surfaces. -/
structure Relay where
  inputMethod : Bool
  textInputs : List TextInput
  inputPopups : List InputPopup
  role : FocusSurface → FocusRole

/-- `sway_input_method_relay_init` -/
def Relay.init (role : FocusSurface → FocusRole) : Relay := ⟨false, [], [], role⟩

/-- What stops the compositor. -/
inductive RelayFault
  /-- One of the assertions of `sway_input_method_relay_set_focus`. -/
  | assertion
  /-- `constrain_popup` reads the text input, and there is none. -/
  | noTextInput
  /-- `wl_list_remove` of a link that has been removed. -/
  | danglingLink
  deriving DecidableEq

/-! ## Text inputs -/

/-- `relay_get_focusable_text_input` -/
def relayGetFocusableTextInput (relay : Relay) : Option TextInput :=
  relay.textInputs.find? fun textInput => textInput.pendingFocusedSurface.isSome

/-- `relay_get_focused_text_input` -/
def relayGetFocusedTextInput (relay : Relay) : Option TextInput :=
  relay.textInputs.find? fun textInput => textInput.focusedSurface.isSome

/-- The surface of the focused text input, if there is one. -/
def relayFocusedSurface (relay : Relay) : Option FocusSurface :=
  (relayGetFocusedTextInput relay).bind fun textInput => textInput.focusedSurface

/-- `wlr_text_input_v3_send_enter` -/
def TextInput.sendEnter (textInput : TextInput) (surface : Option FocusSurface) : TextInput :=
  { textInput with focusedSurface := surface }

/-- `wlr_text_input_v3_send_leave` -/
def TextInput.sendLeave (textInput : TextInput) : TextInput :=
  { textInput with focusedSurface := none }

/-- `text_input_set_pending_focused_surface` -/
def TextInput.setPendingFocusedSurface (textInput : TextInput) (surface : Option FocusSurface) :
    TextInput :=
  { textInput with pendingFocusedSurface := surface }

/-- A change of the first text input that passes a test. -/
def Relay.updateTextInput (relay : Relay) (p : TextInput → Bool) (f : TextInput → TextInput) :
    Relay :=
  { relay with
    textInputs := relay.textInputs.replaceF fun textInput =>
      if p textInput then some (f textInput) else none }

/-! ## Popups -/

/-- `constrain_popup`, as far as the text input that it reads. -/
def constrainPopup (relay : Relay) (popup : InputPopup) : Except RelayFault Unit :=
  match popup.relative, relayGetFocusedTextInput relay with
  | some _, none => throw .noTextInput
  | _, _ => pure ()

/-- `wl_list_remove(&popup->focused_surface_unmap.link)` -/
def removeUnmapListener (popup : InputPopup) : Except RelayFault Unit :=
  if popup.focusedSurfaceUnmap = .removed then throw .danglingLink else pure ()

/-- The end of `input_popup_set_focus`, for a surface that a popup can be put on. -/
def inputPopupAttach (relay : Relay) (popup : InputPopup) (surface : FocusSurface) :
    Except RelayFault InputPopup := do
  let popup := { popup with relative := some surface, focusedSurfaceUnmap := .on surface }
  constrainPopup relay popup
  pure popup

/-- `input_popup_set_focus` -/
def inputPopupSetFocus (relay : Relay) (surface : Option FocusSurface) (popup : InputPopup) :
    Except RelayFault InputPopup := do
  removeUnmapListener popup
  let popup := { popup with relative := none }
  match surface with
  | none => pure { popup with focusedSurfaceUnmap := .idle }
  | some surface =>
      match relay.role surface with
      | .layer false | .lock false => pure { popup with focusedSurfaceUnmap := .on surface }
      -- the link is not initialised on this way out
      | .unsupported => pure { popup with focusedSurfaceUnmap := .removed }
      | .layer true | .lock true | .view => inputPopupAttach relay popup surface

/-- Every popup is put on the surface. -/
def inputPopupsSetFocus (relay : Relay) (surface : Option FocusSurface) :
    Except RelayFault Relay := do
  let inputPopups ← relay.inputPopups.mapM (inputPopupSetFocus relay surface)
  pure { relay with inputPopups := inputPopups }

/-- The popup at an address is handled. -/
def Relay.onPopup (relay : Relay) (address : Nat)
    (handle : InputPopup → Except RelayFault InputPopup) : Except RelayFault Relay := do
  let inputPopups ← relay.inputPopups.mapM fun popup =>
    if popup.address = address then handle popup else pure popup
  pure { relay with inputPopups := inputPopups }

/-- `handle_im_popup_surface_map` -/
def handleImPopupSurfaceMap (relay : Relay) (popup : InputPopup) : Except RelayFault InputPopup :=
  inputPopupSetFocus relay (relayFocusedSurface relay) popup

/-- `handle_im_popup_surface_unmap` -/
def handleImPopupSurfaceUnmap (relay : Relay) (popup : InputPopup) :
    Except RelayFault InputPopup :=
  inputPopupSetFocus relay none { popup with relative := none }

/-- `handle_im_popup_surface_commit` -/
def handleImPopupSurfaceCommit (relay : Relay) (popup : InputPopup) :
    Except RelayFault InputPopup := do
  constrainPopup relay popup
  pure popup

/-- `handle_im_focused_surface_unmap`, for the popups that listen to the surface. -/
def handleImFocusedSurfaceUnmap (relay : Relay) (surface : FocusSurface) (popup : InputPopup) :
    Except RelayFault InputPopup :=
  if popup.focusedSurfaceUnmap = .on surface then inputPopupSetFocus relay none popup
  else pure popup

/-- `handle_im_new_popup_surface`, which the input method's signal calls. -/
def handleImNewPopupSurface (relay : Relay) (address : Nat) : Except RelayFault Relay :=
  if relay.inputMethod then do
    let popup ← inputPopupSetFocus relay (relayFocusedSurface relay) ⟨address, none, .idle⟩
    pure { relay with inputPopups := popup :: relay.inputPopups }
  else pure relay

/-- `handle_im_popup_destroy`, for the popups that pass a test. -/
def handleImPopupDestroy (relay : Relay) (p : InputPopup → Bool) : Except RelayFault Relay := do
  let _ ← (relay.inputPopups.filter p).mapM removeUnmapListener
  pure { relay with inputPopups := relay.inputPopups.filter fun popup => !p popup }

/-! ## The events of text inputs -/

/-- `relay_send_im_state` -/
def relaySendImState (relay : Relay) : Except RelayFault Relay :=
  if relay.inputMethod then inputPopupsSetFocus relay (relayFocusedSurface relay) else pure relay

/-- `relay_disable_text_input` -/
def relayDisableTextInput (relay : Relay) : Except RelayFault Relay :=
  if relay.inputMethod then relaySendImState relay else pure relay

/-- `handle_text_input_enable` -/
def handleTextInputEnable (relay : Relay) (textInput : TextInput) : Except RelayFault Relay :=
  if textInput.focusedSurface = none then pure relay
  else if !relay.inputMethod then pure relay
  else relaySendImState relay

/-- `handle_text_input_commit` -/
def handleTextInputCommit (relay : Relay) (textInput : TextInput) : Except RelayFault Relay :=
  if textInput.focusedSurface = none then pure relay
  else if !textInput.currentEnabled then pure relay
  else if !relay.inputMethod then pure relay
  else relaySendImState relay

/-- `handle_text_input_disable` -/
def handleTextInputDisable (relay : Relay) (textInput : TextInput) : Except RelayFault Relay :=
  if textInput.focusedSurface = none then pure relay else relayDisableTextInput relay

/-- The text input at an address. -/
def Relay.textInput (relay : Relay) (address : Nat) : Option TextInput :=
  relay.textInputs.find? fun textInput => decide (textInput.address = address)

/-- The `commit` request of a text input, which has been enabled or disabled since the last one, and
the signal that it gives. -/
def textInputCommit (relay : Relay) (address : Nat) (enabled : Bool) : Except RelayFault Relay :=
  match relay.textInput address with
  | none => pure relay
  | some textInput =>
      let relay := relay.updateTextInput (fun t => decide (t.address = address))
        fun t => { t with currentEnabled := enabled }
      let oldEnabled := textInput.currentEnabled
      let textInput := { textInput with currentEnabled := enabled }
      if !oldEnabled && enabled then handleTextInputEnable relay textInput
      else if oldEnabled && !enabled then handleTextInputDisable relay textInput
      else handleTextInputCommit relay textInput

/-- `handle_text_input_destroy`. The text input still has its focused surface when it is called. -/
def handleTextInputDestroy (relay : Relay) (address : Nat) : Except RelayFault Relay :=
  match relay.textInput address with
  | none => pure relay
  | some textInput => do
      let relay ← if textInput.currentEnabled then relayDisableTextInput relay else pure relay
      pure { relay with
        textInputs := relay.textInputs.filter fun t => !decide (t.address = address) }

/-- `sway_text_input_create` -/
def swayTextInputCreate (relay : Relay) (address client : Nat) : Relay :=
  { relay with textInputs := ⟨address, client, none, none, false⟩ :: relay.textInputs }

/-! ## The events of the input method -/

/-- `text_input_send_enter`, for the text input that `p` finds first. -/
def textInputSendEnter (relay : Relay) (p : TextInput → Bool) (surface : Option FocusSurface) :
    Except RelayFault Relay :=
  inputPopupsSetFocus (relay.updateTextInput p fun t => t.sendEnter surface) surface

/-- `relay_handle_input_method` -/
def relayHandleInputMethod (relay : Relay) : Except RelayFault Relay :=
  if relay.inputMethod then pure relay
  else
    let relay := { relay with inputMethod := true }
    match relayGetFocusableTextInput relay with
    | none => pure relay
    | some textInput => do
        let focusable := fun t : TextInput => t.pendingFocusedSurface.isSome
        let relay ← textInputSendEnter relay focusable textInput.pendingFocusedSurface
        pure (relay.updateTextInput focusable fun t => t.setPendingFocusedSurface none)

/-- `handle_im_destroy`. The popups have been destroyed with the input method before it is called. -/
def handleImDestroy (relay : Relay) : Except RelayFault Relay :=
  if relay.inputMethod then do
    let relay ← handleImPopupDestroy relay fun _ => true
    pure (({ relay with inputMethod := false } : Relay).updateTextInput
      (fun t => t.focusedSurface.isSome)
      fun t => (t.setPendingFocusedSurface t.focusedSurface).sendLeave)
  else pure relay

/-! ## Keyboard focus -/

/-- The end of the loop in `sway_input_method_relay_set_focus`: a text input of the client of the
surface enters it, or keeps it until there is an input method. -/
def TextInput.enterOrPend (textInput : TextInput) (inputMethod : Bool)
    (surface : Option FocusSurface) : TextInput :=
  match surface with
  | none => textInput
  | some s =>
      if textInput.client = s.client then
        if inputMethod then textInput.sendEnter surface
        else textInput.setPendingFocusedSurface surface
      else textInput

/-- One turn of the loop in `sway_input_method_relay_set_focus`, for a text input between those that
have had theirs and those that have not. -/
def relaySetFocusTurn (surface : Option FocusSurface) (relay : Relay) (done : List TextInput)
    (textInput : TextInput) (rest : List TextInput) : Except RelayFault Relay :=
  let withTextInput := fun (relay : Relay) (t : TextInput) =>
    ({ relay with textInputs := done ++ t :: rest } : Relay)
  if textInput.pendingFocusedSurface.isSome then
    if textInput.focusedSurface.isSome then throw .assertion
    else
      let textInput :=
        if surface ≠ textInput.pendingFocusedSurface then textInput.setPendingFocusedSurface none
        else textInput
      pure (withTextInput relay (textInput.enterOrPend relay.inputMethod surface))
  else if textInput.focusedSurface.isSome then
    if surface ≠ textInput.focusedSurface then do
      let textInput := textInput.sendLeave
      let relay ← relayDisableTextInput (withTextInput relay textInput)
      pure (withTextInput relay (textInput.enterOrPend relay.inputMethod surface))
    else pure relay
  else pure (withTextInput relay (textInput.enterOrPend relay.inputMethod surface))

/-- The loop of `sway_input_method_relay_set_focus`: `n` text inputs have had their turn. -/
def relaySetFocusLoop (surface : Option FocusSurface) : Nat → Nat → Relay → Except RelayFault Relay
  | _, 0, relay => pure relay
  | n, left + 1, relay =>
      match relay.textInputs.drop n with
      | [] => pure relay
      | textInput :: rest => do
          let relay ← relaySetFocusTurn surface relay (relay.textInputs.take n) textInput rest
          relaySetFocusLoop surface (n + 1) left relay

/-- `sway_input_method_relay_set_focus` -/
def swayInputMethodRelaySetFocus (relay : Relay) (surface : Option FocusSurface) :
    Except RelayFault Relay :=
  relaySetFocusLoop surface 0 relay.textInputs.length relay

/-! ## Runs -/

/-- What happens to a relay. Addresses are those of text inputs and popups. -/
inductive RelayEvent
  | setFocus (surface : Option FocusSurface)
  | inputMethodNew
  | inputMethodDestroy
  | textInputNew (address client : Nat)
  | textInputCommit (address : Nat) (enabled : Bool)
  | textInputDestroy (address : Nat)
  | popupNew (address : Nat)
  | popupMap (address : Nat)
  | popupUnmap (address : Nat)
  | popupCommit (address : Nat)
  | popupDestroy (address : Nat)
  | surfaceUnmap (surface : FocusSurface)
  | surfaceDestroy (surface : FocusSurface)
  | surfaceRole (surface : FocusSurface) (role : FocusRole)
  deriving DecidableEq

/-- `handle_pending_focused_surface_destroy`, and what the text input itself does when its focused
surface is destroyed. -/
def TextInput.surfaceDestroyed (surface : FocusSurface) (textInput : TextInput) : TextInput :=
  let textInput := if textInput.pendingFocusedSurface = some surface then
    textInput.setPendingFocusedSurface none else textInput
  if textInput.focusedSurface = some surface then textInput.sendLeave else textInput

/-- What the relay does on an event. -/
def relayStep (relay : Relay) : RelayEvent → Except RelayFault Relay
  | .setFocus surface => swayInputMethodRelaySetFocus relay surface
  | .inputMethodNew => relayHandleInputMethod relay
  | .inputMethodDestroy => handleImDestroy relay
  | .textInputNew address client => pure (swayTextInputCreate relay address client)
  | .textInputCommit address enabled => textInputCommit relay address enabled
  | .textInputDestroy address => handleTextInputDestroy relay address
  | .popupNew address => handleImNewPopupSurface relay address
  | .popupMap address => relay.onPopup address (handleImPopupSurfaceMap relay)
  | .popupUnmap address => relay.onPopup address (handleImPopupSurfaceUnmap relay)
  | .popupCommit address => relay.onPopup address (handleImPopupSurfaceCommit relay)
  | .popupDestroy address => handleImPopupDestroy relay fun p => decide (p.address = address)
  | .surfaceUnmap surface => do
      let inputPopups ← relay.inputPopups.mapM (handleImFocusedSurfaceUnmap relay surface)
      pure { relay with inputPopups := inputPopups }
  | .surfaceDestroy surface =>
      pure { relay with textInputs := relay.textInputs.map (TextInput.surfaceDestroyed surface) }
  | .surfaceRole surface role =>
      pure { relay with role := fun s => if s = surface then role else relay.role s }

end Swirl

import Swirl.Commands.Bind

set_option autoImplicit false

/-! # Keyboards

The key events of `input/keyboard.c`: the states that record which keys are down, the search for
the binding they match, and `handle_key_event` from the overview to the client. What the handler
calls in the rest of the compositor, and what libxkbcommon says about a key, are given to it.
-/

namespace Swirl

/-- `SWAY_KEYBOARD_PRESSED_KEYS_CAP` -/
def pressedKeysCap : Nat := 32

/-- `struct sway_shortcut_state`: the pressed keys by ascending id, each with its keycode. -/
structure ShortcutState where
  pressed : List (Nat × Nat)
  lastKeycode : Nat
  lastRawModifiers : Nat
  currentKey : Nat
  deriving DecidableEq, Repr

def ShortcutState.empty : ShortcutState := ⟨[], 0, 0, 0⟩

/-- `struct sway_keyboard`: the bindings are kept by address. `grouped` tells whether the keyboard
is in a group. -/
structure Keyboard where
  seat : Nat
  identifier : String
  grouped : Bool
  repeatDelay : Int
  keysymsTranslated : ShortcutState
  keysymsRaw : ShortcutState
  keycodes : ShortcutState
  pressedSent : ShortcutState
  heldBinding : Option Addr
  repeatBinding : Option Addr
  deriving DecidableEq, Repr

/-- A key event, with what libxkbcommon and the seat say about it when it comes: the keysyms of
the key, the modifiers and the layout, whether the session is locked, whether the focused surface
inhibits shortcuts, whether there is one, and whether an input method grabs the keyboard. -/
structure KeyEvent where
  keycode : Nat
  pressed : Bool
  rawKeysyms : List Nat
  translatedKeysyms : List Nat
  modifiers : Nat
  translatedModifiers : Nat
  layout : Nat
  locked : Bool
  inhibited : Bool
  focused : Bool
  imGrab : Bool
  deriving DecidableEq, Repr

/-- What `handle_key_event` calls: the bindings of the configuration, the overview, which also
tells whether it has taken a key, the commands of bindings, and the keysyms that stand for the
pointer. -/
structure KeyHost (σ : Type) where
  bindings : σ → Bindings
  overviewIsActive : σ → Bool
  overviewHandleKey : σ → Nat → Bool × σ
  overviewHandleKeyRelease : σ → Nat → Bool × σ
  seatExecuteCommand : σ → Addr → σ
  pointerButton : Nat → Nat
  pointerMotion : Nat → Int × Int
  movePointer : σ → KeyEvent → σ

/-! ## Which keys are down -/

/-- `state_erase_key`: the state, and whether the keycode was there. -/
def stateEraseKey (state : ShortcutState) (keycode : Nat) : Bool × ShortcutState :=
  (state.pressed.any fun k => decide (k.2 = keycode),
    { state with pressed := state.pressed.filter fun k => decide (k.2 ≠ keycode), currentKey := 0 })

/-- `state_add_key` -/
def stateAddKey (state : ShortcutState) (keycode keyId : Nat) : ShortcutState :=
  if pressedKeysCap ≤ state.pressed.length then state
  else
    { state with
      pressed := (state.pressed.takeWhile fun k => decide (k.1 < keyId)) ++ (keyId, keycode) ::
        (state.pressed.dropWhile fun k => decide (k.1 < keyId))
      currentKey := keyId }

/-- `update_shortcut_state`: whether a released key was there, and the state. -/
def updateShortcutState (state : ShortcutState) (keycode : Nat) (pressed : Bool)
    (newKey rawModifiers : Nat) : Bool × ShortcutState :=
  let lastKeyWasAModifier := decide (rawModifiers ≠ state.lastRawModifiers)
  let state := { state with lastRawModifiers := rawModifiers }
  let state :=
    if lastKeyWasAModifier && decide (state.lastKeycode ≠ 0) then
      (stateEraseKey state state.lastKeycode).2
    else state
  if pressed then (false, { stateAddKey state keycode newKey with lastKeycode := keycode })
  else stateEraseKey state keycode

/-- Every keysym of a key goes into a state. -/
def updateKeysyms (state : ShortcutState) (e : KeyEvent) (keysyms : List Nat) : ShortcutState :=
  keysyms.foldl (fun state k => (updateShortcutState state e.keycode e.pressed k e.modifiers).2)
    state

/-- `update_keyboard_state`; the keycodes of libxkbcommon are those of evdev plus 8. -/
def updateKeyboardState (kb : Keyboard) (e : KeyEvent) : Keyboard :=
  { kb with
    keycodes := (updateShortcutState kb.keycodes e.keycode e.pressed (e.keycode + 8) e.modifiers).2
    keysymsRaw := updateKeysyms kb.keysymsRaw e e.rawKeysyms
    keysymsTranslated := updateKeysyms kb.keysymsTranslated e e.translatedKeysyms }

/-! ## The active binding -/

/-- What a binding is searched for with. -/
structure BindingQuery where
  modifiers : Nat
  release : Bool
  locked : Bool
  inhibited : Bool
  input : String
  exactInput : Bool
  group : Nat

/-- A binding is for the modifiers, the device and the state of the keyboard. -/
def BindingQuery.accepts (q : BindingQuery) (b : Binding) : Bool :=
  decide (q.modifiers = b.modifiers) && decide (q.release = b.flags.release) &&
    (!q.locked || b.flags.locked) && (!q.inhibited || b.flags.inhibited) &&
    (decide (b.group = none) || decide (b.group = some q.group)) &&
    (decide (b.input = q.input) || decide (b.input = "*") && !q.exactInput)

/-- The keys of a binding are those that are down, or its one key is the one just pressed. -/
def keysMatch (state : ShortcutState) (b : Binding) : Bool :=
  if state.pressed.length = b.keys.items.length then
    decide (state.pressed.map Prod.fst = b.keys.items)
  else
    match b.keys.items with
    | [key] => decide (state.currentKey = key)
    | _ => false

/-- The binding found so far is kept although another one matches. -/
def keepsCurrent (q : BindingQuery) (current b : Binding) : Bool :=
  let currentInput := decide (current.input = q.input)
  let bindingInput := decide (b.input = q.input)
  let sameGroupSet := current.group.isSome == b.group.isSome
  let sameLocked := current.flags.locked == b.flags.locked
  decide (current.loc = b.loc) ||
    (currentInput == bindingInput && sameLocked &&
      current.flags.inhibited == b.flags.inhibited && sameGroupSet) ||
    (currentInput && !bindingInput) ||
    (currentInput == bindingInput && decide (current.group = some q.group)) ||
    (currentInput == bindingInput && sameGroupSet && current.flags.locked == q.locked) ||
    (currentInput == bindingInput && sameGroupSet && sameLocked &&
      current.flags.inhibited == q.inhibited)

/-- A binding ends the search. The bits of the flags are compared with a truth value, which only a
bit that is not set can be equal to. -/
def perfectMatch (q : BindingQuery) (b : Binding) : Bool :=
  decide (b.input = q.input) && (!b.flags.locked && !q.locked) &&
    (!b.flags.inhibited && !q.inhibited) && decide (b.group = some q.group)

/-- `get_active_binding`, with the binding found so far. -/
def getActiveBinding (state : ShortcutState) (q : BindingQuery) :
    List Binding → Option Binding → Option Binding
  | [], current => current
  | b :: bindings, current =>
      if !(q.accepts b && keysMatch state b) then getActiveBinding state q bindings current
      else if current.any fun c => keepsCurrent q c b then
        getActiveBinding state q bindings current
      else if perfectMatch q b then some b
      else getActiveBinding state q bindings (some b)

section Handler

variable {σ : Type} (h : KeyHost σ)

/-- The binding a keyboard matches, of those for a release or a press: by its keycodes, then by its
keysyms. -/
def activeBinding (s : σ) (kb : Keyboard) (e : KeyEvent) (release : Bool) : Option Binding :=
  let q : BindingQuery :=
    { modifiers := e.modifiers, release, locked := e.locked, inhibited := e.inhibited
      input := kb.identifier, exactInput := kb.grouped, group := e.layout }
  let keysyms := (h.bindings s).current .keysym
  let found := getActiveBinding kb.keycodes q ((h.bindings s).current .keycode) none
  let found := getActiveBinding kb.keysymsRaw q keysyms found
  getActiveBinding kb.keysymsTranslated { q with modifiers := e.translatedModifiers } keysyms found

/-! ## One event -/

/-- What an event comes to; `forwarded` tells whether the client has got it. -/
structure KeyOutcome (σ : Type) where
  state : σ
  keyboard : Keyboard
  forwarded : Bool

/-- The overview gets the key first while it is open, and may take it. -/
def keyToOverview (s : σ) (kb : Keyboard) (e : KeyEvent) : Bool × σ :=
  match e.translatedKeysyms with
  | sym :: _ =>
      if h.overviewIsActive s && !kb.grouped then
        if e.pressed then h.overviewHandleKey s sym else h.overviewHandleKeyRelease s sym
      else (false, s)
  | [] => (false, s)

/-- The binding for releases that a keyboard holds after an event. -/
def holdBinding (kb : Keyboard) (e : KeyEvent) (released : Option Addr) : Option Addr :=
  if e.pressed && released.isSome then released
  else if released ≠ kb.heldBinding then none
  else kb.heldBinding

/-- The binding a keyboard repeats once it has matched one, or none. -/
def repeatBinding (kb : Keyboard) (binding : Option Binding) : Option Addr :=
  match binding with
  | some b => if !b.flags.noRepeat && decide (0 < kb.repeatDelay) then some b.loc else none
  | none => none

/-- A held binding is executed once it is no longer the active one. -/
def firesHeld (kb : Keyboard) (e : KeyEvent) (released : Option Addr) : Option Addr :=
  if released ≠ kb.heldBinding ∧ e.pressed = false then kb.heldBinding else none

/-- The bindings for releases, then those for presses: what has been executed, the keyboard, and
whether the event is handled. -/
def keyToBindings (s : σ) (kb : Keyboard) (e : KeyEvent) : σ × Keyboard × Bool :=
  let released := (activeBinding h s kb e true).map Binding.loc
  let held := firesHeld kb e released
  let s :=
    match held with
    | some a => h.seatExecuteCommand s a
    | none => s
  let kb := { kb with heldBinding := holdBinding kb e released }
  let binding := if e.pressed then activeBinding h s kb e false else none
  -- the timer is set first, since the binding may remove the keyboard
  let kb := { kb with repeatBinding := repeatBinding kb binding }
  match binding with
  | some b => (h.seatExecuteCommand s b.loc, kb, true)
  | none => (s, kb, held.isSome)

/-- `keyboard_execute_compositor_binding`: the keysyms that switch the terminal. -/
def keyboardExecuteCompositorBinding (keysyms : List Nat) : Bool :=
  keysyms.any fun k => decide (0x1008fe01 ≤ k ∧ k ≤ 0x1008fe0c)

/-- `keyboard_execute_pointer_keysyms` takes the keysyms. -/
def keyboardExecutePointerKeysyms (keysyms : List Nat) (pressed : Bool) : Bool :=
  keysyms.any fun k =>
    decide (h.pointerButton k ≠ 0) || pressed && decide (h.pointerMotion k ≠ (0, 0))

/-- What is left of an event that the compositor has handled or not: a released key goes to the
client that has got it pressed, a pressed one to the input method or to the client. -/
def keyToClient (s : σ) (kb : Keyboard) (e : KeyEvent) (handled : Bool) : KeyOutcome σ :=
  let r := updateShortcutState kb.pressedSent e.keycode e.pressed (e.keycode + 8) 0
  if e.pressed then
    if handled || e.imGrab then ⟨s, kb, false⟩
    else ⟨s, { kb with pressedSent := r.2 }, true⟩
  else ⟨s, { kb with pressedSent := r.2 }, r.1 && e.focused⟩

/-- `handle_key_event` -/
def handleKeyEvent (s : σ) (kb : Keyboard) (e : KeyEvent) : KeyOutcome σ :=
  let kb := updateKeyboardState kb e
  match keyToOverview h s kb e with
  | (true, s) => ⟨s, kb, false⟩
  | (false, s) =>
      let (s, kb, handled) := keyToBindings h s kb e
      -- only the bindings of the device are for a keyboard in a group
      if !handled && kb.grouped then ⟨s, kb, false⟩
      else
        let handled := handled ||
          e.pressed && (keyboardExecuteCompositorBinding e.translatedKeysyms ||
            keyboardExecuteCompositorBinding e.rawKeysyms)
        let pointer := !handled &&
          keyboardExecutePointerKeysyms h e.translatedKeysyms e.pressed
        keyToClient (if pointer then h.movePointer s e else s) kb e (handled || pointer)

/-- `handle_keyboard_repeat` -/
def handleKeyboardRepeat (s : σ) (kb : Keyboard) : σ :=
  match kb.repeatBinding with
  | some a => h.seatExecuteCommand s a
  | none => s

end Handler

end Swirl

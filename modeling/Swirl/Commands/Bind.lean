import Swirl.Common.Stringop
import Swirl.Lib.Upsert

set_option autoImplicit false

/-! # Key bindings

The commands of `commands/bind.c`, with the lists of bindings they keep and the translation of
keysyms by `config.c`. A binding, its lists of keys and its string for the device are allocations
of their own, since copies of a binding can share them; an address names each.
-/

namespace Swirl

open Lib

/-- An address of the heap. -/
abbrev Addr := Nat

/-- `enum binding_input_type`, without the two dummies. -/
inductive BindingType where
  | keycode | keysym | mousecode | mousesym
  deriving DecidableEq, Repr

/-- The bits of `enum binding_flags` that key and mouse bindings use. -/
structure BindingFlags where
  release : Bool
  locked : Bool
  border : Bool
  contents : Bool
  titlebar : Bool
  code : Bool
  inhibited : Bool
  noRepeat : Bool
  deriving DecidableEq, Repr

def BindingFlags.zero : BindingFlags :=
  ⟨false, false, false, false, false, false, false, false⟩

/-- `conflict_generating_flags` -/
def BindingFlags.conflictGenerating (f : BindingFlags) : BindingFlags :=
  { f with code := false, noRepeat := false }

/-- A `list_t` of key values. -/
structure KeyList where
  loc : Addr
  items : List Nat
  deriving DecidableEq, Repr

/-- `struct sway_binding`; a group that is not set is `none`. -/
structure Binding where
  loc : Addr
  type : BindingType
  order : Nat
  input : String
  inputLoc : Addr
  flags : BindingFlags
  keys : KeyList
  syms : Option KeyList
  modifiers : Nat
  group : Option Nat
  command : String
  deriving DecidableEq, Repr

/-- `struct sway_mode` -/
structure SwayMode where
  name : String
  keysymBindings : List Binding
  keycodeBindings : List Binding
  mouseBindings : List Binding
  deriving DecidableEq, Repr

/-- The keys of a keymap in order, each with the keysym it gives. -/
abbrev Keymap := List (Nat × Nat)

/-- What the configuration holds for the bindings: the modes with the index of the current one,
the keymap keysyms are translated with, `binding_order`, and the next address of the heap. -/
structure Bindings where
  modes : List SwayMode
  currentMode : Nat
  keymap : Option Keymap
  bindingOrder : Nat
  next : Addr
  deriving DecidableEq, Repr

/-- What the libraries provide: `xkb_keysym_from_name`, which gives 0 for an unknown name, and the
names of the events with their codes. -/
structure KeyNames where
  keysymFromName : String → Nat
  eventCodeFromName : String → Option Nat
  eventCodeGetName : Int → Option String

/-- `struct cmd_results` -/
inductive CmdResult where
  | success
  | failure (error : String)
  | invalid (error : String)
  deriving DecidableEq, Repr

/-! ## Comparing and listing -/

/-- `binding_key_compare` -/
def bindingKeyCompare (a b : Binding) : Bool :=
  decide (a.input = b.input) && decide (a.type = b.type) &&
    decide (a.flags.conflictGenerating = b.flags.conflictGenerating) &&
    decide (a.group = b.group) && decide (a.modifiers = b.modifiers) &&
    decide (a.keys.items = b.keys.items)

/-- `binding_upsert`: the list with the binding, and the binding it replaces. -/
def bindingUpsert (binding : Binding) (modeBindings : List Binding) :
    List Binding × Option Binding :=
  upsert bindingKeyCompare binding modeBindings

/-- The list of a mode for the bindings of a type. -/
def SwayMode.bindings (m : SwayMode) : BindingType → List Binding
  | .keycode => m.keycodeBindings
  | .keysym => m.keysymBindings
  | .mousecode | .mousesym => m.mouseBindings

/-- The mode with another list for the bindings of a type. -/
def SwayMode.setBindings (m : SwayMode) (type : BindingType) (l : List Binding) : SwayMode :=
  match type with
  | .keycode => { m with keycodeBindings := l }
  | .keysym => { m with keysymBindings := l }
  | .mousecode | .mousesym => { m with mouseBindings := l }

/-- The list of the current mode for the bindings of a type. -/
def Bindings.current (s : Bindings) (type : BindingType) : List Binding :=
  match s.modes[s.currentMode]? with
  | some m => m.bindings type
  | none => []

/-- The current mode gets another list for the bindings of a type. -/
def Bindings.setCurrent (s : Bindings) (type : BindingType) (l : List Binding) : Bindings :=
  { s with modes := s.modes.modify s.currentMode fun m => m.setBindings type l }

/-! ## Naming keys -/

/-- `modifiers` of `keyboard.c` -/
def modifierKeys : List (String × Nat) :=
  [("Shift", 1), ("Lock", 2), ("Control", 4), ("Ctrl", 4), ("Mod1", 8), ("Alt", 8), ("Mod2", 16),
    ("Mod3", 32), ("Mod4", 64), ("Super", 64), ("Mod5", 128)]

/-- `get_modifier_mask_by_name` -/
def getModifierMaskByName (name : String) : Nat :=
  match modifierKeys.find? fun m => sameIgnoringCase m.1 name with
  | some m => m.2
  | none => 0

/-- The buttons 1 to 9 of X11, the wheel included. -/
def x11Buttons : List Nat := [0x110, 0x112, 0x111, 0x300, 0x301, 0x302, 0x303, 0x113, 0x114]

variable (names : KeyNames)

/-- `get_mouse_bindsym`: 0 for a name that is not one of a button, and the message of an error. -/
def getMouseBindsym (name : String) : Except String Nat :=
  if sameIgnoringCase (String.ofList (name.toList.take 6)) "button" then
    match name.toList.drop 6 with
    | [c] =>
        if 49 ≤ c.toNat ∧ c.toNat ≤ 57 then .ok (x11Buttons.getD (c.toNat - 49) 0)
        else .error ("Only buttons 1-9 are supported. For other mouse " ++
          "buttons, use the name of the event code.")
    | _ =>
        .error ("Only buttons 1-9 are supported. For other mouse " ++
          "buttons, use the name of the event code.")
  else if hasPrefix name "BTN_" then
    match names.eventCodeFromName name with
    | some code => .ok code
    | none => .error ("Unknown event " ++ name)
  else .ok 0

/-- `get_mouse_bindcode` -/
def getMouseBindcode (name : String) : Except String Nat :=
  let n := strtol name.toList
  let code := toInt n.value
  if n.rest = name.toList ∧ code ≤ 0 then
    .error "Button event code must be a positive integer."
  else if n.range then .error "Button event code out of range."
  else
    let event := names.eventCodeGetName code
    if hasPrefix (event.getD "") "BTN_" then .ok (toUint32 code)
    else
      .error ("Event code " ++ toString code ++ " (" ++ event.getD "(null)" ++
        ") is not a button")

/-- `xkb_keycode_is_legal_ext` -/
def legalKeycode (key : Nat) : Bool := decide (key ≤ 0xffffffff - 1)

/-- The outcome of a look-up that takes 0 for no button. -/
def buttonOr (unknown : String) : Except String Nat → Except CmdResult Nat
  | .error message => .error (.invalid message)
  | .ok button => if button = 0 then .error (.invalid unknown) else .ok button

/-- `identify_key`: the value of the key and the type of the binding. -/
def identifyKey (name : String) (firstKey : Bool) :
    BindingType → Except CmdResult (Nat × BindingType)
  | .mousecode =>
      (buttonOr ("Unknown button code " ++ name) (getMouseBindcode names name)).map
        fun b => (b, .mousecode)
  | .mousesym =>
      (buttonOr ("Unknown button " ++ name) (getMouseBindsym names name)).map
        fun b => (b, .mousesym)
  | .keycode =>
      -- the message is dropped here: what is no button can still be a keycode
      let button := if firstKey then (getMouseBindcode names name).toOption.getD 0 else 0
      let keycode := toUint32 (strtol name.toList).value
      if button ≠ 0 then .ok (button, .mousecode)
      else if legalKeycode keycode then .ok (keycode, .keycode)
      else if firstKey then
        .error (.invalid ("Invalid keycode or button code '" ++ name ++ "'"))
      else .error (.invalid ("Invalid keycode '" ++ name ++ "'"))
  | .keysym =>
      let keysym := names.keysymFromName name
      let key : Except CmdResult (Nat × BindingType) :=
        if keysym ≠ 0 then .ok (keysym, .keysym)
        else if firstKey then .error (.invalid ("Unknown key or button '" ++ name ++ "'"))
        else .error (.invalid ("Unknown key '" ++ name ++ "'"))
      if firstKey then
        match getMouseBindsym names name with
        | .error message => .error (.invalid message)
        | .ok button => if button ≠ 0 then .ok (button, .mousesym) else key
      else key

/-! ## Translation -/

/-- `struct keycode_matches` -/
structure KeycodeMatches where
  keysym : Nat
  keycode : Nat
  count : Nat

/-- `find_keycode` -/
def findKeycode (found : KeycodeMatches) (key : Nat × Nat) : KeycodeMatches :=
  if key.2 = 0 then found
  else if found.keysym = key.2 then { found with keycode := key.1, count := found.count + 1 }
  else found

/-- `get_keycode_for_keysym` -/
def getKeycodeForKeysym (keymap : Keymap) (keysym : Nat) : KeycodeMatches :=
  keymap.foldl findKeycode ⟨keysym, 0xffffffff, 0⟩

/-- The keycode of a keysym that only one key gives. -/
def translateKey (keymap : Keymap) (keysym : Nat) : Option Nat :=
  let found := getKeycodeForKeysym keymap keysym
  if found.count = 1 then some found.keycode else none

/-- The keysyms of a binding get translated, and the binding becomes one of keycodes, or stays or
becomes one of keysyms if one of them cannot be translated. -/
def translateSyms (keymap : Keymap) (fresh : Addr) (b : Binding) (syms : KeyList) : Binding :=
  match syms.items.mapM (translateKey keymap) with
  | some codes =>
      { b with
        type := .keycode, syms := some syms, keys := ⟨fresh, codes.insertionSort (· ≤ ·)⟩ }
  | none => { b with type := .keysym, keys := syms, syms := none }

/-- `translate_binding`, with the address of the new list. A binding of keycodes with the flag has
its keysyms, see `Binding.Ordered`. Without a keymap the process ends here when there is a keysym
to translate; the model goes on as if no key gave it. -/
def translateBinding (keymap : Option Keymap) (fresh : Addr) (b : Binding) : Binding :=
  if b.flags.code then
    match b.type with
    | .keysym => translateSyms (keymap.getD []) fresh b b.keys
    | .keycode => translateSyms (keymap.getD []) fresh b (b.syms.getD ⟨fresh, []⟩)
    | .mousecode | .mousesym => b
  else b

/-- The lists a translation fills, and the next address. -/
structure Translated where
  bindsyms : List Binding
  bindcodes : List Binding
  next : Addr

/-- `binding_add_translated`; the binding that is replaced is freed. -/
def bindingAddTranslated (binding : Binding) (modeBindings : List Binding) : List Binding :=
  (bindingUpsert binding modeBindings).1

/-- One binding of `translate_binding_list`. -/
def translateInto (keymap : Option Keymap) (acc : Translated) (b : Binding) : Translated :=
  let b := translateBinding keymap acc.next b
  let acc := { acc with next := acc.next + 1 }
  match b.type with
  | .keysym => { acc with bindsyms := bindingAddTranslated b acc.bindsyms }
  | .keycode => { acc with bindcodes := bindingAddTranslated b acc.bindcodes }
  | .mousecode | .mousesym => acc

/-- `translate_binding_list` -/
def translateBindingList (keymap : Option Keymap) (acc : Translated) (bindings : List Binding) :
    Translated :=
  bindings.foldl (translateInto keymap) acc

/-- The modes of `translate_keysyms` from one on, with the next address. -/
def translateModes (keymap : Option Keymap) (next : Addr) : List SwayMode → List SwayMode × Addr
  | [] => ([], next)
  | m :: ms =>
      let acc := translateBindingList keymap ⟨[], [], next⟩ m.keysymBindings
      let acc := translateBindingList keymap acc m.keycodeBindings
      let rest := translateModes keymap acc.next ms
      ({ m with keysymBindings := acc.bindsyms, keycodeBindings := acc.bindcodes } :: rest.1,
        rest.2)

/-- `translate_keysyms`; no keymap may come out of the configuration of the device. -/
def translateKeysyms (s : Bindings) (keymap : Option Keymap) : Bindings :=
  match keymap with
  | none => { s with keymap := none }
  | some _ =>
      let r := translateModes keymap s.next s.modes
      { s with keymap, modes := r.1, next := r.2 }

/-! ## The commands -/

/-- A binding while its command is read. -/
structure Reading where
  binding : Binding
  excludeTitlebar : Bool
  warn : Bool

/-- The binding of a command before its arguments are read. -/
def startReading (s : Bindings) (bindcode : Bool) : Reading where
  binding :=
    { loc := s.next, type := if bindcode then .keycode else .keysym, order := 0, input := "*"
      inputLoc := s.next + 1, flags := BindingFlags.zero, keys := ⟨s.next + 2, []⟩, syms := none
      modifiers := 0, group := none, command := "" }
  excludeTitlebar := false
  warn := true

/-- An option of a bind command changes the flags. -/
def Reading.setFlags (r : Reading) (f : BindingFlags → BindingFlags) : Reading :=
  { r with binding := { r.binding with flags := f r.binding.flags } }

/-- One option of a bind command. -/
def readOption (bindcode : Bool) (r : Reading) (arg : String) : Option Reading :=
  if arg = "--release" then some (r.setFlags fun f => { f with release := true })
  else if arg = "--locked" then some (r.setFlags fun f => { f with locked := true })
  else if arg = "--inhibited" then some (r.setFlags fun f => { f with inhibited := true })
  else if arg = "--whole-window" then
    some (r.setFlags fun f => { f with border := true, contents := true, titlebar := true })
  else if arg = "--border" then some (r.setFlags fun f => { f with border := true })
  else if arg = "--to-code" then
    some (if bindcode then r else r.setFlags fun f => { f with code := true })
  else if arg = "--exclude-titlebar" then some { r with excludeTitlebar := true }
  else if hasPrefix arg "--input-device=" then
    some { r with
      binding := { r.binding with
        input := stripQuotes (String.ofList (arg.toList.drop "--input-device=".length)) } }
  else if arg = "--no-warn" then some { r with warn := false }
  else if arg = "--no-repeat" then some (r.setFlags fun f => { f with noRepeat := true })
  else none

/-- The options of a bind command, and the arguments after them. -/
def readOptions (bindcode : Bool) (r : Reading) : List String → Reading × List String
  | [] => (r, [])
  | arg :: argv =>
      match readOption bindcode r arg with
      | some r => readOptions bindcode r argv
      | none => (r, arg :: argv)

/-- An option for a region makes the binding one of the mouse. -/
def Reading.region (r : Reading) : Reading :=
  let f := r.binding.flags
  if f.border || f.contents || f.titlebar || r.excludeTitlebar then
    { r with
      binding := { r.binding with
        type := if r.binding.type = .keycode then .mousecode else .mousesym } }
  else r

/-- A group that a key combination names. -/
def readGroup (b : Binding) (name : String) : Except CmdResult Binding :=
  if b.group ≠ none then .error (.failure "Only one group can be specified")
  else
    let n := strtol (name.toList.drop "Group".length)
    let group := toInt n.value
    if group < 1 ∨ group > 4 ∨ n.rest ≠ [] then .error (.failure "Invalid group")
    else .ok { b with group := some (group - 1).toNat }

/-- A modifier or a key of a combination. -/
def readKey (b : Binding) (name : String) : Except CmdResult Binding :=
  let mod := getModifierMaskByName name
  if 0 < mod then .ok { b with modifiers := b.modifiers ||| mod }
  else
    (identifyKey names name b.keys.items.isEmpty b.type).map fun key =>
      { b with type := key.2, keys := { b.keys with items := b.keys.items ++ [key.1] } }

/-- One piece of a key combination. -/
def readPiece (b : Binding) (name : String) : Except CmdResult Binding :=
  if hasPrefix name "Group" then readGroup b name
  else if name = "Mode_switch" then
    if b.group ≠ none then .error (.failure "Only one group can be specified")
    -- the piece is read on: as a key, unless it names a modifier
    else readKey names { b with group := some 1 } name
  else readKey names b name

/-- The region of a binding of the mouse, once it is certain that it is one. -/
def Reading.refine (r : Reading) : Reading :=
  if r.excludeTitlebar then r.setFlags fun f => { f with titlebar := false }
  else if r.binding.type = .mousecode ∨ r.binding.type = .mousesym then
    r.setFlags fun f => { f with titlebar := true }
  else r

/-- The name of a bind command. -/
def bindtype (bindcode unbind : Bool) : String :=
  (if unbind then "un" else "") ++ if bindcode then "bindcode" else "bindsym"

/-- The number of arguments a bind command needs. -/
def minargs (unbind : Bool) : Nat := if unbind then 1 else 2

/-- `checkarg` with `EXPECTED_AT_LEAST` -/
def checkargAtLeast (argc : Nat) (name : String) (val : Nat) : Option CmdResult :=
  if argc < val then
    some (.invalid ("Invalid " ++ name ++ " command (expected at least " ++ toString val ++
      " argument" ++ (if val = 1 then "" else "s") ++ ", got " ++ toString argc ++ ")"))
  else none

/-- The binding a command describes, translated, with the combination and the words after it. -/
def readBinding (s : Bindings) (bindcode unbind : Bool) (argv : List String) :
    Except CmdResult (Binding × String × List String) :=
  match checkargAtLeast argv.length (bindtype bindcode unbind) (minargs unbind) with
  | some error => .error error
  | none =>
      let (r, argv) := readOptions bindcode (startReading s bindcode) argv
      let r := r.region
      match argv with
      | keycombo :: rest =>
          if rest.length + 1 < minargs unbind then
            .error (.failure ("Invalid " ++ bindtype bindcode unbind ++ " command " ++
              "(expected at least " ++ toString (minargs unbind) ++
              " non-option arguments, got " ++ toString (rest.length + 1) ++ ")"))
          else
            ((splitString keycombo '+').foldlM (readPiece names) r.binding).map fun b =>
              let b := ({ r with binding := b } : Reading).refine.binding
              let b := { b with
                keys := { b.keys with items := b.keys.items.insertionSort (· ≤ ·) } }
              (translateBinding s.keymap (s.next + 3) b, keycombo, rest)
      | [] =>
          .error (.failure ("Invalid " ++ bindtype bindcode unbind ++ " command " ++
            "(expected at least " ++ toString (minargs unbind) ++
            " non-option arguments, got 0)"))

/-- What a bind command comes to: its result, the bindings after it, and those it has freed. -/
structure BindOutcome where
  result : CmdResult
  state : Bindings
  freed : List Binding
  deriving DecidableEq, Repr

/-- `binding_add` -/
def bindingAdd (s : Bindings) (b : Binding) : BindOutcome :=
  let r := bindingUpsert b (s.current b.type)
  { result := .success, state := s.setCurrent b.type r.1, freed := r.2.toList }

/-- `binding_remove`; the binding that was read to be compared is freed too. -/
def bindingRemove (s : Bindings) (b : Binding) (keycombo : String) : BindOutcome :=
  match (s.current b.type).find? (bindingKeyCompare b) with
  | some configBinding =>
      { result := .success
        state := s.setCurrent b.type ((s.current b.type).eraseP (bindingKeyCompare b))
        freed := [configBinding, b] }
  | none =>
      { result := .failure ("Could not find binding " ++ String.singleton (Char.ofNat 96) ++
          keycombo ++ String.singleton (Char.ofNat 96) ++ " for the given flags")
        state := s
        freed := [b] }

/-- `cmd_bindsym_or_bindcode`; what it has allocated when it fails is freed, and nothing else has
seen it. -/
def cmdBindsymOrBindcode (s : Bindings) (bindcode unbind : Bool) (argv : List String) :
    BindOutcome :=
  match readBinding names s bindcode unbind argv with
  | .error e => ⟨e, s, []⟩
  | .ok (b, keycombo, rest) =>
      let s := { s with next := s.next + 4 }
      if unbind then bindingRemove s b keycombo
      else
        let b := { b with command := joinArgs rest, order := s.bindingOrder }
        bindingAdd { s with bindingOrder := s.bindingOrder + 1 } b

/-- The mode with a name, made if there is none and it is to have a binding. -/
def findMode (s : Bindings) (name : String) (create : Bool) : Option (Bindings × Nat) :=
  match s.modes.findIdx? fun m => decide (m.name = name) with
  | some i => some (s, i)
  | none =>
      if create then some ({ s with modes := s.modes ++ [⟨name, [], [], []⟩] }, s.modes.length)
      else none

/-- A command that binds or unbinds a key. -/
structure BindCommand where
  bindcode : Bool
  unbind : Bool
  argv : List String
  deriving DecidableEq, Repr

/-- `cmd_bindsym`, `cmd_bindcode`, `cmd_unbindsym` and `cmd_unbindcode` -/
def BindCommand.run (c : BindCommand) (s : Bindings) : BindOutcome :=
  cmdBindsymOrBindcode names s c.bindcode c.unbind c.argv

/-- `cmd_mode`, alone or with a bind command for the mode. -/
def cmdMode (s : Bindings) (name : String) (sub : Option BindCommand) : BindOutcome :=
  match findMode s (stripQuotes name) sub.isSome with
  | none =>
      ⟨.invalid ("Unknown mode " ++ String.singleton (Char.ofNat 96) ++ stripQuotes name ++ "'"),
        s, []⟩
  | some (s, i) =>
      match sub with
      | none => ⟨.success, { s with currentMode := i }, []⟩
      | some c =>
          let r := c.run names { s with currentMode := i }
          { r with state := { r.state with currentMode := s.currentMode } }

end Swirl

import Mathlib.Tactic
import Mathlib.Data.Rat.Floor

set_option autoImplicit false

/-! # Pointer gestures

Hold, pinch and swipe gestures of a pointer go to the seat operation of the seat. Only the default
one has handlers for them: at the begin of a gesture it looks for a binding, and either tracks the
gesture or sends the begin to the client that has the pointer focus; at updates and at the end it
asks its tracker. The tracker is part of the data of the seat operation, which is replaced whenever
another one begins. Numbers are exact.
-/

namespace Swirl

/-! ## Gestures -/

/-- `enum gesture_type`, without `GESTURE_TYPE_NONE`. -/
inductive GestureType
  | hold
  | pinch
  | swipe
  deriving DecidableEq

/-- `struct gesture` -/
structure Gesture where
  type : GestureType
  fingers : UInt8
  directions : UInt32
  deriving DecidableEq

/-- `GESTURE_FINGERS_ANY` -/
def gestureFingersAny : UInt8 := 0

/-- `gesture_check` -/
def gestureCheck (target : Gesture) (type : GestureType) (fingers : UInt8) : Bool :=
  if target.type ≠ type then false
  else if target.fingers ≠ gestureFingersAny ∧ target.fingers ≠ fingers then false
  else true

/-- `gesture_match` -/
def gestureMatch (target toMatch : Gesture) (exact : Bool) : Bool :=
  if !gestureCheck target toMatch.type toMatch.fingers then false
  else if exact && decide (target.directions ≠ toMatch.directions) then false
  else decide (target.directions &&& toMatch.directions = target.directions)

/-- `gesture_directions_count` -/
def gestureDirectionsCount (directions : UInt32) : Nat :=
  (List.range 32).countP fun i => directions.toNat.testBit i

/-- `gesture_compare` -/
def gestureCompare (a b : Gesture) : Int :=
  gestureDirectionsCount a.directions - gestureDirectionsCount b.directions

/-- `struct gesture_tracker`. No type is `GESTURE_TYPE_NONE`. -/
structure GestureTracker where
  type : Option GestureType
  fingers : UInt8
  dx : ℚ
  dy : ℚ
  scale : ℚ
  rotation : ℚ
  deriving DecidableEq

/-- The tracker of a seat operation that has just begun, which `calloc` clears. -/
def GestureTracker.init : GestureTracker := ⟨none, 0, 0, 0, 0, 0⟩

/-- `gesture_tracker_begin`, which leaves nothing of the tracker as it was. -/
def gestureTrackerBegin (type : GestureType) (fingers : UInt8) : GestureTracker :=
  ⟨some type, fingers, 0, 0, 1, 0⟩

/-- `gesture_tracker_check` -/
def gestureTrackerCheck (tracker : GestureTracker) (type : GestureType) : Bool :=
  decide (tracker.type = some type)

/-- What an update of a gesture says. A swipe has no scale and no rotation. -/
inductive GestureUpdate
  | pinch (dx dy scale rotation : ℚ)
  | swipe (dx dy : ℚ)
  deriving DecidableEq

/-- The gesture that an update is about. A hold is never updated. -/
def GestureUpdate.type : GestureUpdate → GestureType
  | .pinch .. => .pinch
  | .swipe .. => .swipe

/-- `gesture_tracker_update` of a tracker that tracks such a gesture -/
def gestureTrackerUpdate (tracker : GestureTracker) : GestureUpdate → GestureTracker
  | .pinch dx dy scale rotation =>
      { tracker with
        dx := tracker.dx + dx, dy := tracker.dy + dy, scale := scale
        rotation := tracker.rotation + rotation }
  | .swipe dx dy => { tracker with dx := tracker.dx + dx, dy := tracker.dy + dy }

/-- `gesture_tracker_cancel` -/
def gestureTrackerCancel (tracker : GestureTracker) : GestureTracker := { tracker with type := none }

/-- The directions of a pinch in `gesture_tracker_end`: clockwise, counterclockwise, outward and
inward. -/
def pinchDirections (tracker : GestureTracker) : UInt32 :=
  (if 5 < tracker.rotation then 64 else 0) ||| (if tracker.rotation < -5 then 128 else 0) |||
    (if 1 + 1 / 10 < tracker.scale then 32 else 0) ||| (if tracker.scale < 1 - 1 / 10 then 16 else 0)

/-- The direction of a movement in `gesture_tracker_end`: right, left, down or up. -/
def moveDirection (tracker : GestureTracker) : UInt32 :=
  if |tracker.dy| < |tracker.dx| then if 0 < tracker.dx then 8 else 4
  else if 0 < tracker.dy then 2 else 1

/-- `gesture_tracker_end` of a tracker that tracks a gesture of this type: the gesture, and the
tracker afterwards. -/
def gestureTrackerEnd (tracker : GestureTracker) (type : GestureType) : Gesture × GestureTracker :=
  let directions :=
    match type with
    | .pinch => pinchDirections tracker ||| moveDirection tracker
    | .swipe => moveDirection tracker
    | .hold => 0
  (⟨type, tracker.fingers, directions⟩, { tracker with type := none })

/-! ## Bindings -/

/-- `struct sway_gesture_binding`. Of the flags only `BINDING_EXACT` matters here. -/
structure GestureBinding where
  input : String
  exact : Bool
  gesture : Gesture
  command : String
  deriving DecidableEq

/-- `gesture_binding_check`. The input is the identifier of the device, or `*` without one. -/
def gestureBindingCheck (bindings : List GestureBinding) (type : GestureType) (fingers : UInt8)
    (input : String) : Bool :=
  bindings.any fun binding =>
    gestureCheck binding.gesture type fingers &&
      (decide (binding.input = "*") || decide (binding.input = input))

/-- The test in `gesture_binding_match` of a binding against the best one so far. -/
def gestureBindingIsWorse (current : Option GestureBinding) (binding : GestureBinding) : Bool :=
  match current with
  | none => false
  | some current =>
      if current.input = binding.input then
        -- do not override an exact binding, and ensure that direction matching is no worse
        (!binding.exact && current.exact) ||
          decide (0 < gestureCompare current.gesture binding.gesture)
      else decide (binding.input = "*")

/-- The loop of `gesture_binding_match` over the bindings. -/
def gestureBindingMatch (gesture : Gesture) (input : String) :
    List GestureBinding → Option GestureBinding → Option GestureBinding
  | [], current => current
  | binding :: bindings, current =>
      if !gestureMatch binding.gesture gesture binding.exact then
        gestureBindingMatch gesture input bindings current
      else if binding.input ≠ "*" ∧ binding.input ≠ input then
        gestureBindingMatch gesture input bindings current
      else if gestureBindingIsWorse current binding then
        gestureBindingMatch gesture input bindings current
      else if binding.input = input ∧ gestureCompare binding.gesture gesture = 0 then some binding
      else gestureBindingMatch gesture input bindings (some binding)

/-! ## The seat -/

/-- What is sent for a gesture. -/
inductive GestureMessage
  | begin (type : GestureType) (timeMsec fingers : UInt32)
  | update (timeMsec : UInt32) (update : GestureUpdate)
  | finish (type : GestureType) (timeMsec : UInt32) (cancelled : Bool)
  deriving DecidableEq

/-- What a handler does besides changing the seat: it sends a message to a client, or executes the
command of a binding. -/
inductive GestureOutput
  | send (client : Nat) (message : GestureMessage)
  | execute (command : String)
  deriving DecidableEq

/-- `struct sway_seatop_impl` with its data: the default seat operation, or one of the others. -/
inductive Seatop
  | default (gestures : GestureTracker)
  | other
  deriving DecidableEq

/-- `struct sway_seat`, as far as gestures go: its seat operation, the client that has the pointer
focus, and the gesture bindings of the current mode. -/
structure GestureSeat where
  seatop : Seatop
  focusedClient : Option Nat
  gestureBindings : List GestureBinding
  deriving DecidableEq

/-- `wlr_pointer_gestures_v1_send_swipe_begin` and the like, which send to the client that has the
pointer focus. -/
def GestureSeat.send (seat : GestureSeat) (message : GestureMessage) : List GestureOutput :=
  match seat.focusedClient with
  | some client => [.send client message]
  | none => []

/-- The begin of a gesture in the default seat operation. -/
def gestureBegin (type : GestureType) (seat : GestureSeat) (timeMsec fingers : UInt32)
    (input : String) : GestureSeat × List GestureOutput :=
  if gestureBindingCheck seat.gestureBindings type fingers.toUInt8 input then
    ({ seat with seatop := .default (gestureTrackerBegin type fingers.toUInt8) }, [])
  else (seat, seat.send (.begin type timeMsec fingers))

/-- The update of a gesture in the default seat operation. -/
def gestureUpdate (update : GestureUpdate) (seat : GestureSeat) (gestures : GestureTracker)
    (timeMsec : UInt32) : GestureSeat × List GestureOutput :=
  if gestureTrackerCheck gestures update.type then
    ({ seat with seatop := .default (gestureTrackerUpdate gestures update) }, [])
  else (seat, seat.send (.update timeMsec update))

/-- The end of a gesture in the default seat operation, with `gesture_tracker_end_and_match` and
`gesture_binding_execute`. -/
def gestureEnd (type : GestureType) (seat : GestureSeat) (gestures : GestureTracker)
    (timeMsec : UInt32) (cancelled : Bool) (input : String) : GestureSeat × List GestureOutput :=
  if !gestureTrackerCheck gestures type then (seat, seat.send (.finish type timeMsec cancelled))
  else if cancelled then ({ seat with seatop := .default (gestureTrackerCancel gestures) }, [])
  else
    let ended := gestureTrackerEnd gestures type
    ({ seat with seatop := .default ended.2 },
      match gestureBindingMatch ended.1 input seat.gestureBindings none with
      | some binding => [.execute binding.command]
      | none => [])

/-- `handle_hold_begin` -/
def handleHoldBegin := gestureBegin .hold

/-- `handle_hold_end` -/
def handleHoldEnd := gestureEnd .hold

/-- `handle_pinch_begin` -/
def handlePinchBegin := gestureBegin .pinch

/-- `handle_pinch_update` -/
def handlePinchUpdate (dx dy scale rotation : ℚ) := gestureUpdate (.pinch dx dy scale rotation)

/-- `handle_pinch_end` -/
def handlePinchEnd := gestureEnd .pinch

/-- `handle_swipe_begin` -/
def handleSwipeBegin := gestureBegin .swipe

/-- `handle_swipe_update` -/
def handleSwipeUpdate (dx dy : ℚ) := gestureUpdate (.swipe dx dy)

/-- `handle_swipe_end` -/
def handleSwipeEnd := gestureEnd .swipe

/-- `seatop_hold_begin`, `seatop_pinch_begin` and `seatop_swipe_begin`: an operation without a
handler drops the event. -/
def seatopGestureBegin (seat : GestureSeat) (type : GestureType) (timeMsec fingers : UInt32)
    (input : String) : GestureSeat × List GestureOutput :=
  match seat.seatop, type with
  | .other, _ => (seat, [])
  | .default _, .hold => handleHoldBegin seat timeMsec fingers input
  | .default _, .pinch => handlePinchBegin seat timeMsec fingers input
  | .default _, .swipe => handleSwipeBegin seat timeMsec fingers input

/-- `seatop_pinch_update` and `seatop_swipe_update` -/
def seatopGestureUpdate (seat : GestureSeat) (timeMsec : UInt32) (update : GestureUpdate) :
    GestureSeat × List GestureOutput :=
  match seat.seatop, update with
  | .other, _ => (seat, [])
  | .default gestures, .pinch dx dy scale rotation =>
      handlePinchUpdate dx dy scale rotation seat gestures timeMsec
  | .default gestures, .swipe dx dy => handleSwipeUpdate dx dy seat gestures timeMsec

/-- `seatop_hold_end`, `seatop_pinch_end` and `seatop_swipe_end` -/
def seatopGestureEnd (seat : GestureSeat) (type : GestureType) (timeMsec : UInt32)
    (cancelled : Bool) (input : String) : GestureSeat × List GestureOutput :=
  match seat.seatop, type with
  | .other, _ => (seat, [])
  | .default gestures, .hold => handleHoldEnd seat gestures timeMsec cancelled input
  | .default gestures, .pinch => handlePinchEnd seat gestures timeMsec cancelled input
  | .default gestures, .swipe => handleSwipeEnd seat gestures timeMsec cancelled input

/-- `seatop_begin_default`. It ends the operation before it, and its rebase leaves some client, or
none, with the pointer focus. -/
def seatopBeginDefault (seat : GestureSeat) (focusedClient : Option Nat) : GestureSeat :=
  { seat with seatop := .default GestureTracker.init, focusedClient := focusedClient }

/-- `seatop_begin_down`, `seatop_begin_move_floating` and the others. -/
def seatopBeginOther (seat : GestureSeat) (focusedClient : Option Nat) : GestureSeat :=
  { seat with seatop := .other, focusedClient := focusedClient }

/-! ## Runs -/

/-- What happens to a seat: the gestures of a pointer, seat operations that begin, the pointer focus
and the bindings that change. -/
inductive GestureEvent
  | begin (type : GestureType) (timeMsec fingers : UInt32) (input : String)
  | update (timeMsec : UInt32) (update : GestureUpdate)
  | finish (type : GestureType) (timeMsec : UInt32) (cancelled : Bool) (input : String)
  | beginDefault (focusedClient : Option Nat)
  | beginOther (focusedClient : Option Nat)
  | pointerFocus (focusedClient : Option Nat)
  | setBindings (bindings : List GestureBinding)
  deriving DecidableEq

/-- What the seat does on an event. -/
def gestureSeatStep (seat : GestureSeat) : GestureEvent → GestureSeat × List GestureOutput
  | .begin type timeMsec fingers input => seatopGestureBegin seat type timeMsec fingers input
  | .update timeMsec update => seatopGestureUpdate seat timeMsec update
  | .finish type timeMsec cancelled input => seatopGestureEnd seat type timeMsec cancelled input
  | .beginDefault focusedClient => (seatopBeginDefault seat focusedClient, [])
  | .beginOther focusedClient => (seatopBeginOther seat focusedClient, [])
  | .pointerFocus focusedClient => ({ seat with focusedClient := focusedClient }, [])
  | .setBindings bindings => ({ seat with gestureBindings := bindings }, [])

end Swirl

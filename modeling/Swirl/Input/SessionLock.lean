import Swirl.Lib.Runs
import Swirl.Tree.Types

set_option autoImplicit false

/-! # The session lock and the keyboard

The keyboard focus of the seats while a client locks the session: `lock.c`, the focus functions of
`input/seat.c` as far as they touch the keyboard, and the handlers of `desktop/xwayland.c` for
surfaces that no container holds. What the functions for the tree call on their way is an argument
of the event, in any order (`TreeCall`).

`seat_set_focus` and `seat_set_focus_raw` end by giving the keyboard back to the lock,
`seat_send_focus` asks whether the surface is one of the lock, and `seat_set_focus_layer` gives up.
Two paths go past all of these. The handlers for override-redirect surfaces call
`seat_set_focus_surface` themselves. And when the session is locked, `seat_unfocus_unless_client`
takes the focus from views only, so the keyboard stays with an override-redirect surface, or with a
layer surface over an empty workspace.
-/

namespace Swirl

open Lib

abbrev SurfaceId := Nat
abbrev ClientId := Nat

/-- What the head of a focus stack is to the keyboard: a view with its surface and the process of
its client, or any other node. -/
inductive FocusHead where
  | view (surface : SurfaceId) (pid : Nat)
  | other
  deriving DecidableEq

/-- What a seat holds for the keyboard. `grabbed` tells whether a drag or a popup grabs the
keyboard. -/
structure SeatKeys where
  focusedSurface : Option SurfaceId
  grabbed : Bool
  hasFocus : Bool
  head : Option FocusHead
  focusedLayer : Option SurfaceId
  hasExclusiveLayer : Bool
  deriving DecidableEq

/-- `struct sway_session_lock_output` -/
structure LockOutput where
  output : OutId
  surface : Option SurfaceId
  deriving DecidableEq

/-- `struct sway_session_lock`, with its client. -/
structure SessionLock where
  client : ClientId
  outputs : List LockOutput
  focused : Option SurfaceId
  abandoned : Bool
  deriving DecidableEq

/-- The seats, the lock of the session, and which surfaces are mapped. -/
structure LockState where
  seats : List SeatId
  seat : SeatId → SeatKeys
  currentSeat : SeatId
  lock : Option SessionLock
  mapped : SurfaceId → Bool

def LockState.modSeat (s : LockState) (k : SeatId) (f : SeatKeys → SeatKeys) : LockState :=
  { s with seat := Function.update s.seat k (f (s.seat k)) }

def LockState.modLock (s : LockState) (f : SessionLock → SessionLock) : LockState :=
  { s with lock := s.lock.map f }

/-! ## The keyboard of a seat -/

/-- `seat_keyboard_notify_enter`; wlroots leaves the focus alone during a grab. -/
def seatKeyboardNotifyEnter (e : SeatKeys) (surface : SurfaceId) : SeatKeys :=
  if e.grabbed then e else { e with focusedSurface := some surface }

/-- `wlr_seat_keyboard_notify_clear_focus` -/
def wlrSeatKeyboardNotifyClearFocus (e : SeatKeys) : SeatKeys :=
  if e.grabbed then e else { e with focusedSurface := none }

/-- `seat_get_focus` -/
def SeatKeys.getFocus (e : SeatKeys) : Option FocusHead := if e.hasFocus then e.head else none

/-- `seat_set_focus_surface` -/
def seatSetFocusSurface (s : LockState) (k : SeatId) (surface : Option SurfaceId) (unfocus : Bool) :
    LockState :=
  s.modSeat k fun e =>
    let e :=
      if e.hasFocus && unfocus then
        { wlrSeatKeyboardNotifyClearFocus e with hasFocus := false }
      else e
    match surface with
    | some surface => seatKeyboardNotifyEnter e surface
    | none => wlrSeatKeyboardNotifyClearFocus e

/-- `sway_session_lock_has_surface` -/
def sessionLockHasSurface (lock : SessionLock) (surface : SurfaceId) : Bool :=
  lock.outputs.any fun o => decide (o.surface = some surface)

/-- `seat_is_input_allowed` -/
def seatIsInputAllowed (s : LockState) (surface : SurfaceId) : Bool :=
  match s.lock with
  | some lock => sessionLockHasSurface lock surface
  | none => true

/-- `seat_send_focus` -/
def seatSendFocus (s : LockState) (k : SeatId) : FocusHead → LockState
  | .view surface _ =>
      if seatIsInputAllowed s surface then
        s.modSeat k fun e => seatKeyboardNotifyEnter e surface
      else s
  | .other => s

/-- `seat_set_workspace_focus` without a node. -/
def seatUnfocus (s : LockState) (k : SeatId) : LockState :=
  s.modSeat k fun e =>
    if e.getFocus.isSome then { wlrSeatKeyboardNotifyClearFocus e with hasFocus := false }
    else { e with hasFocus := false }

/-- The last lines of `seat_set_focus` and `seat_set_focus_raw`: the lock has the keyboard. -/
def lockFocus (s : LockState) (k : SeatId) : LockState :=
  match s.lock with
  | some lock => seatSetFocusSurface s k lock.focused false
  | none => s

/-- `seat_set_focus_layer` with a layer surface; `exclusive` tells whether it is for one that takes
the keyboard for itself. -/
def seatFocusLayer (s : LockState) (k : SeatId) (layer : SurfaceId) (exclusive : Bool) :
    LockState :=
  if s.lock.isSome then s
  else
    let s := if exclusive then s.modSeat k fun e => { e with hasExclusiveLayer := true } else s
    if (s.seat k).focusedLayer = some layer then s
    else (seatSetFocusSurface s k (some layer) true).modSeat k fun e =>
      { e with focusedLayer := some layer }

/-- What the functions for the tree call: `seat_send_unfocus`, `seat_send_focus`, the head of the
stack and `has_focus` change, a node loses the focus, the end of a `seat_set_focus`, the start of
one, which drops the layer, and a layer that gets its focus back. -/
inductive TreeCall where
  | sendUnfocus (k : SeatId)
  | sendFocus (k : SeatId) (head : FocusHead)
  | settle (k : SeatId) (hasFocus : Bool) (head : Option FocusHead)
  | unfocus (k : SeatId)
  | lockFocus (k : SeatId)
  | dropLayer (k : SeatId)
  | focusLayer (k : SeatId) (layer : SurfaceId) (exclusive : Bool)

/-- One of these calls. -/
def treeCall (s : LockState) : TreeCall → LockState
  | .sendUnfocus k => s.modSeat k wlrSeatKeyboardNotifyClearFocus
  | .sendFocus k head => seatSendFocus s k head
  | .settle k hasFocus head => s.modSeat k fun e => { e with hasFocus, head }
  | .unfocus k => seatUnfocus s k
  | .lockFocus k => lockFocus s k
  | .dropLayer k => s.modSeat k fun e => { e with focusedLayer := none }
  | .focusLayer k layer exclusive => seatFocusLayer s k layer exclusive

def treeCalls (s : LockState) (calls : List TreeCall) : LockState := calls.foldl treeCall s

/-- `seat_set_focus_layer` without a layer surface; `previous` is what the tree calls when it gets
the focus back, if the seat has a node to focus. -/
def seatUnfocusLayer (s : LockState) (k : SeatId) (previous : Option (List TreeCall)) :
    LockState :=
  if (s.seat k).focusedLayer.isSome then
    let s := s.modSeat k fun e => { e with focusedLayer := none }
    match previous with
    | some calls => lockFocus (treeCalls (lockFocus (seatUnfocus s k) k) calls) k
    | none => s
  else s

/-- `seat_set_focus`, with what the tree calls for its node. -/
def seatSetFocusKeys (s : LockState) (k : SeatId) (previous : Option (List TreeCall))
    (calls : List TreeCall) : LockState :=
  let layer := (s.seat k).focusedLayer
  let exclusive := (s.seat k).hasExclusiveLayer
  let s := treeCalls (seatUnfocusLayer s k previous) calls
  let s :=
    match layer with
    | some layer => if exclusive then seatFocusLayer s k layer true else s
    | none => s
  lockFocus s k

/-! ## The lock -/

/-- `focus_surface` -/
def focusSurface (s : LockState) (focused : Option SurfaceId) : LockState :=
  s.seats.foldl (fun s k => seatSetFocusSurface s k focused false)
    (s.modLock fun l => { l with focused })

/-- The surface that gets the focus when an output is left. -/
def nextFocused (s : LockState) (lock : SessionLock) (output : OutId) : Option SurfaceId :=
  lock.outputs.findSome? fun o =>
    if o.output = output then none else o.surface.filter s.mapped

/-- `refocus_output`, for the surface of an output. -/
def refocusOutput (s : LockState) (lock : SessionLock) (output : OutId) (surface : SurfaceId) :
    LockState :=
  if lock.focused = some surface then focusSurface s (nextFocused s lock output) else s

/-- The surface of an output of the lock changes. -/
def setLockSurface (s : LockState) (output : OutId) (surface : Option SurfaceId) : LockState :=
  s.modLock fun l =>
    { l with
      outputs := l.outputs.map fun o => if o.output = output then { o with surface } else o }

/-- The surface an output of the lock has. -/
def lockSurface (lock : SessionLock) (output : OutId) : Option SurfaceId :=
  (lock.outputs.find? fun o => decide (o.output = output)).bind LockOutput.surface

/-- wlroots takes the keyboard from a surface that is destroyed. -/
def surfaceGone (s : LockState) (surface : SurfaceId) : LockState :=
  s.seats.foldl
    (fun s k => s.modSeat k fun e =>
      if e.focusedSurface = some surface then { e with focusedSurface := none } else e) s

/-- `handle_surface_map` of `lock.c` -/
def handleLockSurfaceMap (s : LockState) (lock : SessionLock) (output : OutId) : LockState :=
  match lockSurface lock output with
  | some surface =>
      let s := { s with mapped := Function.update s.mapped surface true }
      if lock.focused = none then focusSurface s (some surface) else s
  | none => s

/-- `handle_surface_destroy` of `lock.c` -/
def handleLockSurfaceDestroy (s : LockState) (lock : SessionLock) (output : OutId) : LockState :=
  match lockSurface lock output with
  | some surface =>
      surfaceGone (setLockSurface (refocusOutput s lock output surface) output none) surface
  | none => s

/-- `sway_session_lock_output_destroy` -/
def lockOutputDestroy (s : LockState) (lock : SessionLock) (output : OutId) : LockState :=
  let s :=
    match lockSurface lock output with
    | some surface => refocusOutput s lock output surface
    | none => s
  s.modLock fun l => { l with outputs := l.outputs.filter fun o => decide (o.output ≠ output) }

/-- An output of the lock is destroyed, if there is a lock. -/
def destroyLockOutput (s : LockState) (output : OutId) : LockState :=
  match s.lock with
  | some lock => lockOutputDestroy s lock output
  | none => s

/-- `sway_session_lock_destroy` -/
def sessionLockDestroy (s : LockState) (lock : SessionLock) : LockState :=
  { (lock.outputs.map LockOutput.output).foldl destroyLockOutput s with lock := none }

variable (clientOf : SurfaceId → ClientId)

/-- What the tree calls when a seat gets its focus back: the node is focused, or it is denied. -/
def refocusCalls (k : SeatId) : Option FocusHead → List TreeCall
  | some head => [.settle k true (some head), .sendFocus k head]
  | none => []

/-- `seat_unfocus_unless_client`; `previous` is the node the seat would focus, if there is one, and
whether it can. -/
def seatUnfocusUnlessClient (client : ClientId) (previous : SeatId → Option (Option FocusHead))
    (s : LockState) (k : SeatId) : LockState :=
  let calls := (previous k).map (refocusCalls k)
  let s :=
    match (s.seat k).focusedLayer with
    | some layer => if clientOf layer ≠ client then seatUnfocusLayer s k calls else s
    | none => s
  match (s.seat k).getFocus with
  | some (.view surface _) =>
      if clientOf surface ≠ client then seatSetFocusKeys s k calls [.unfocus k] else s
  | _ => s

/-- A lock that its client has abandoned makes way for a new one. -/
def dropAbandoned (s : LockState) : LockState :=
  match s.lock with
  | some lock => if lock.abandoned then sessionLockDestroy s lock else s
  | none => s

/-- `handle_session_lock`, with the outputs there are. -/
def handleSessionLock (s : LockState) (client : ClientId) (outputs : List OutId)
    (previous : SeatId → Option (Option FocusHead)) : LockState :=
  let s := dropAbandoned s
  if s.lock.isSome then s
  else
    let s := s.seats.foldl (seatUnfocusUnlessClient clientOf client previous) s
    { s with
      lock := some { client, outputs := outputs.map fun o => ⟨o, none⟩, focused := none
                     abandoned := false } }

/-! ## Override-redirect surfaces and drags -/

/-- `unmanaged_handle_map` -/
def unmanagedHandleMap (s : LockState) (surface : SurfaceId) (wantsFocus : Bool) : LockState :=
  if wantsFocus then seatSetFocusSurface s s.currentSeat (some surface) false else s

/-- `unmanaged_handle_unmap`; `parent` is the surface of a parent that wants the focus. -/
def unmanagedHandleUnmap (s : LockState) (surface : SurfaceId) (parent : Option SurfaceId)
    (previous : Option (List TreeCall)) : LockState :=
  let k := s.currentSeat
  if (s.seat k).focusedSurface = some surface then
    match parent, previous with
    | some parent, _ => seatSetFocusSurface s k (some parent) false
    | none, some calls =>
        seatSetFocusKeys (seatSetFocusKeys s k previous [.unfocus k]) k previous calls
    | none, none => s
  else s

/-- A request to activate is granted: no view of another process has the focus. -/
def activates (s : LockState) (pid : Nat) : Bool :=
  match (s.seat s.currentSeat).getFocus with
  | some (.view _ p) => decide (p = pid)
  | _ => true

/-- `unmanaged_handle_request_activate` -/
def unmanagedHandleRequestActivate (s : LockState) (surface : SurfaceId) (pid : Nat) : LockState :=
  if s.mapped surface && activates s pid then
    seatSetFocusSurface s s.currentSeat (some surface) false
  else s

/-- `drag_handle_destroy`, after the grab has ended. -/
def dragHandleDestroy (s : LockState) (k : SeatId) (previous : Option (List TreeCall))
    (calls : List TreeCall) (exclusive : Bool) : LockState :=
  let s := s.modSeat k fun e => { e with grabbed := false }
  match (s.seat k).getFocus, (s.seat k).focusedLayer with
  | some _, _ => seatSetFocusKeys (seatSetFocusKeys s k previous [.unfocus k]) k previous calls
  | none, some layer => seatFocusLayer (seatUnfocusLayer s k previous) k layer exclusive
  | none, none =>
      let unmanaged := (s.seat k).focusedSurface
      seatSetFocusSurface (seatSetFocusSurface s k none false) k unmanaged false

/-! ## Events -/

/-- What happens to the focus: the session is locked, unlocked, or its lock abandoned; surfaces and
outputs of the lock come and go; the tree calls for windows, commands and seats; a seat is asked to
focus a node, a layer surface, or none; override-redirect surfaces; drags, popups that grab, and
surfaces that are destroyed. -/
inductive LockEvent where
  | lock (client : ClientId) (outputs : List OutId) (previous : SeatId → Option (Option FocusHead))
  | unlock (calls : List TreeCall)
  | abandon
  | newLockSurface (output : OutId) (surface : SurfaceId)
  | lockSurfaceMap (output : OutId)
  | lockSurfaceDestroy (output : OutId)
  | newOutput (output : OutId)
  | outputDestroy (output : OutId) (calls : List TreeCall)
  | tree (calls : List TreeCall)
  | focus (k : SeatId) (previous : Option (List TreeCall)) (calls : List TreeCall)
  | focusLayer (k : SeatId) (layer : SurfaceId) (exclusive : Bool)
  | unfocusLayer (k : SeatId) (previous : Option (List TreeCall))
  | unmanagedMap (surface : SurfaceId) (wantsFocus : Bool)
  | unmanagedUnmap (surface : SurfaceId) (parent : Option SurfaceId)
      (previous : Option (List TreeCall))
  | unmanagedActivate (surface : SurfaceId) (pid : Nat)
  | startDrag (k : SeatId)
  | endDrag (k : SeatId) (previous : Option (List TreeCall)) (calls : List TreeCall)
      (exclusive : Bool)
  | popupGrab (k : SeatId) (grabbed : Bool)
  | surfaceDestroy (surface : SurfaceId)

/-- One event. A client makes lock surfaces for its own lock only, and one for each output; the
keyboard focus is cleared when a drag starts. -/
def lockStep (s : LockState) : LockEvent → LockState
  | .lock client outputs previous => handleSessionLock clientOf s client outputs previous
  | .unlock calls =>
      match s.lock with
      | some lock => treeCalls (sessionLockDestroy s lock) calls
      | none => s
  | .abandon => s.modLock fun l => { l with abandoned := true }
  | .newLockSurface output surface =>
      match s.lock with
      | some lock =>
          if clientOf surface = lock.client ∧ lockSurface lock output = none then
            setLockSurface s output (some surface)
          else s
      | none => s
  | .lockSurfaceMap output =>
      match s.lock with
      | some lock => handleLockSurfaceMap s lock output
      | none => s
  | .lockSurfaceDestroy output =>
      match s.lock with
      | some lock => handleLockSurfaceDestroy s lock output
      | none => s
  | .newOutput output => s.modLock fun l => { l with outputs := ⟨output, none⟩ :: l.outputs }
  | .outputDestroy output calls => treeCalls (destroyLockOutput s output) calls
  | .tree calls => treeCalls s calls
  | .focus k previous calls => seatSetFocusKeys s k previous calls
  | .focusLayer k layer exclusive => seatFocusLayer s k layer exclusive
  | .unfocusLayer k previous => seatUnfocusLayer s k previous
  | .unmanagedMap surface wantsFocus =>
      unmanagedHandleMap { s with mapped := Function.update s.mapped surface true } surface
        wantsFocus
  | .unmanagedUnmap surface parent previous =>
      unmanagedHandleUnmap { s with mapped := Function.update s.mapped surface false } surface
        parent previous
  | .unmanagedActivate surface pid => unmanagedHandleRequestActivate s surface pid
  | .startDrag k => s.modSeat k fun e => { e with focusedSurface := none, grabbed := true }
  | .endDrag k previous calls exclusive => dragHandleDestroy s k previous calls exclusive
  | .popupGrab k grabbed => s.modSeat k fun e => { e with grabbed }
  | .surfaceDestroy surface => surfaceGone s surface

end Swirl

import Swirl.Input.SessionLock

set_option autoImplicit false

/-! # A lock confines the keyboard

While the session is locked, every function of `seat.c` leaves the keyboard of every seat where it
is, takes it from everyone, or gives it to a surface of the lock. This carries over any sequence of
the calls the tree makes. What is left are the handlers that go past these functions, and the
moment the session is locked: both get a condition.
-/

namespace Swirl

open Lib

variable {clientOf : SurfaceId → ClientId}

/-! ## The claim and its condition -/

variable (clientOf) in
/-- A surface, if any, is one of the client. -/
def Held (client : ClientId) (surface : Option SurfaceId) : Prop :=
  ∀ x, surface = some x → clientOf x = client

variable (clientOf) in
/-- **The lock confines the keyboard**: no seat has it on a surface of another client. -/
def Confined (s : LockState) : Prop :=
  ∀ lock, s.lock = some lock → ∀ k ∈ s.seats, Held clientOf lock.client (s.seat k).focusedSurface

variable (clientOf) in
/-- A view of another client has the focus. -/
def foreignView (client : ClientId) (e : SeatKeys) : Prop :=
  ∃ x pid, e.getFocus = some (.view x pid) ∧ clientOf x ≠ client

variable (clientOf) in
/-- A layer surface of another client has the focus. -/
def foreignLayer (client : ClientId) (e : SeatKeys) : Prop :=
  ∃ layer, e.focusedLayer = some layer ∧ clientOf layer ≠ client

variable (clientOf) in
/-- A seat that is about to be locked: the keyboard is with the client already, or it gets taken
away with the focus of a view. That is the view that has the focus, or the one that gets it back
when a layer surface loses it; over an empty workspace, something must have had the focus. -/
def Releases (client : ClientId) (e : SeatKeys) (previous : Option (Option FocusHead)) : Prop :=
  Held clientOf client e.focusedSurface ∨
    e.grabbed = false ∧
      (foreignLayer clientOf client e ∧
          ((∃ x pid, previous = some (some (.view x pid))) ∨
            previous.isSome = true ∧ e.getFocus.isSome = true ∨
            previous = none ∧ foreignView clientOf client e) ∨
        ¬ foreignLayer clientOf client e ∧ foreignView clientOf client e)

variable (clientOf) in
/-- A surface may have the keyboard of the current seat, or a grab keeps it from getting it. -/
def MayFocus (client : ClientId) (s : LockState) (surface : SurfaceId) : Prop :=
  (s.seat s.currentSeat).grabbed = true ∨ clientOf surface = client

variable (clientOf) in
/-- The condition: when the session is locked, every seat releases the keyboard; and while it is
locked, no handler of an override-redirect surface gives the keyboard to another client. -/
def Confining (s : LockState) : LockEvent → Prop
  | .lock client _ previous =>
      (dropAbandoned s).lock = none →
        ∀ k ∈ (dropAbandoned s).seats,
          Releases clientOf client ((dropAbandoned s).seat k) (previous k)
  | .unmanagedMap surface wantsFocus =>
      ∀ lock, s.lock = some lock → wantsFocus = true → MayFocus clientOf lock.client s surface
  | .unmanagedUnmap surface parent _ =>
      ∀ lock, s.lock = some lock → (s.seat s.currentSeat).focusedSurface = some surface →
        ∀ x, parent = some x → MayFocus clientOf lock.client s x
  | .unmanagedActivate surface pid =>
      ∀ lock, s.lock = some lock → s.mapped surface = true → activates s pid = true →
        MayFocus clientOf lock.client s surface
  | _ => True

/-! ## While the session is locked -/

theorem held_none {client : ClientId} : Held clientOf client none := by
  intro x hx
  cases hx

theorem held_enter {client : ClientId} {e : SeatKeys} {x : SurfaceId}
    (h : Held clientOf client e.focusedSurface) (hx : clientOf x = client) :
    Held clientOf client (seatKeyboardNotifyEnter e x).focusedSurface := by
  unfold seatKeyboardNotifyEnter
  split
  · exact h
  · intro y hy
    obtain rfl := Option.some.inj hy
    exact hx

theorem held_clear {client : ClientId} {e : SeatKeys}
    (h : Held clientOf client e.focusedSurface) :
    Held clientOf client (wlrSeatKeyboardNotifyClearFocus e).focusedSurface := by
  unfold wlrSeatKeyboardNotifyClearFocus
  split
  · exact h
  · exact held_none

variable (clientOf) in
/-- The surfaces of a lock are those of its client. -/
structure LockOwns (lock : SessionLock) : Prop where
  surfaces : ∀ o ∈ lock.outputs, Held clientOf lock.client o.surface
  focused : Held clientOf lock.client lock.focused

variable (clientOf) in
/-- A state that is locked by a client, with the keyboards confined. -/
structure LockedBy (client : ClientId) (s : LockState) : Prop where
  lock : ∃ lock, s.lock = some lock ∧ lock.client = client ∧ LockOwns clientOf lock
  seats : ∀ k ∈ s.seats, Held clientOf client (s.seat k).focusedSurface

section Locked

variable {client : ClientId} {s : LockState}

/-- A change of one seat that keeps the keyboard confined. -/
theorem LockedBy.modSeat (h : LockedBy clientOf client s) (k : SeatId) {f : SeatKeys → SeatKeys}
    (hf : ∀ e, Held clientOf client e.focusedSurface →
      Held clientOf client (f e).focusedSurface) :
    LockedBy clientOf client (s.modSeat k f) := by
  constructor
  · exact h.lock
  · intro j hj
    by_cases hjk : j = k
    · subst hjk
      show Held clientOf client (Function.update s.seat j (f (s.seat j)) j).focusedSurface
      rw [Function.update_self]
      exact hf _ (h.seats j hj)
    · show Held clientOf client (Function.update s.seat k (f (s.seat k)) j).focusedSurface
      rw [Function.update_of_ne hjk]
      exact h.seats j hj

theorem LockedBy.setFocusSurface (h : LockedBy clientOf client s) (k : SeatId)
    {surface : Option SurfaceId} (hs : Held clientOf client surface) (unfocus : Bool) :
    LockedBy clientOf client (seatSetFocusSurface s k surface unfocus) := by
  apply h.modSeat k
  intro e he
  -- first the focus of the tree goes, then the surface gets the keyboard
  have hfirst : Held clientOf client (if e.hasFocus && unfocus then
      { wlrSeatKeyboardNotifyClearFocus e with hasFocus := false } else e).focusedSurface := by
    split
    · exact held_clear he
    · exact he
  cases surface with
  | none => exact held_clear hfirst
  | some x => exact held_enter hfirst (hs x rfl)

/-- The surface a handler of an override-redirect surface focuses may have the keyboard. -/
theorem LockedBy.focusUnmanaged (h : LockedBy clientOf client s) {surface : SurfaceId}
    (hs : MayFocus clientOf client s surface) :
    LockedBy clientOf client (seatSetFocusSurface s s.currentSeat (some surface) false) := by
  obtain hgrab | hs := hs
  · -- during a grab nothing changes
    have hself : seatSetFocusSurface s s.currentSeat (some surface) false = s := by
      unfold seatSetFocusSurface LockState.modSeat seatKeyboardNotifyEnter
      simp [hgrab]
    rw [hself]
    exact h
  · apply h.setFocusSurface
    intro x hx
    obtain rfl := Option.some.inj hx
    exact hs

theorem LockedBy.lockFocus (h : LockedBy clientOf client s) (k : SeatId) :
    LockedBy clientOf client (lockFocus s k) := by
  obtain ⟨lock, hlock, hclient, howns⟩ := h.lock
  unfold Swirl.lockFocus
  rw [hlock]
  apply h.setFocusSurface
  rw [← hclient]
  exact howns.focused

theorem LockedBy.sendFocus (h : LockedBy clientOf client s) (k : SeatId) (head : FocusHead) :
    LockedBy clientOf client (seatSendFocus s k head) := by
  cases head with
  | other => exact h
  | view x pid =>
      obtain ⟨lock, hlock, hclient, howns⟩ := h.lock
      unfold seatSendFocus seatIsInputAllowed
      rw [hlock]
      dsimp only
      split
      · next hhas =>
        -- the surface is one of the lock
        obtain ⟨o, ho, hox⟩ := List.any_eq_true.1 hhas
        have hx : clientOf x = client := by
          rw [← hclient]
          exact howns.surfaces o ho x (of_decide_eq_true hox)
        exact h.modSeat k fun e he => held_enter he hx
      · exact h

theorem LockedBy.unfocus (h : LockedBy clientOf client s) (k : SeatId) :
    LockedBy clientOf client (seatUnfocus s k) := by
  apply h.modSeat k
  intro e he
  dsimp only
  split
  · exact held_clear he
  · exact he

theorem LockedBy.focusLayer (h : LockedBy clientOf client s) (k : SeatId) (layer : SurfaceId)
    (exclusive : Bool) : LockedBy clientOf client (seatFocusLayer s k layer exclusive) := by
  obtain ⟨lock, hlock, -, -⟩ := h.lock
  unfold seatFocusLayer
  rw [hlock]
  exact h

/-- **No call of the tree gives the keyboard away.** -/
theorem LockedBy.treeCall (h : LockedBy clientOf client s) (c : TreeCall) :
    LockedBy clientOf client (treeCall s c) := by
  cases c with
  | sendUnfocus k => exact h.modSeat k fun e he => held_clear he
  | sendFocus k head => exact h.sendFocus k head
  | settle k hasFocus head =>
      exact h.modSeat k (f := fun e => { e with hasFocus, head }) fun _ he => he
  | unfocus k => exact h.unfocus k
  | lockFocus k => exact h.lockFocus k
  | dropLayer k => exact h.modSeat k (f := fun e => { e with focusedLayer := none }) fun _ he => he
  | focusLayer k layer exclusive => exact h.focusLayer k layer exclusive

theorem LockedBy.treeCalls (h : LockedBy clientOf client s) (calls : List TreeCall) :
    LockedBy clientOf client (treeCalls s calls) :=
  foldl_invariant (I := LockedBy clientOf client) _ calls (fun _ c _ h => h.treeCall c) h

theorem LockedBy.unfocusLayer (h : LockedBy clientOf client s) (k : SeatId)
    (previous : Option (List TreeCall)) :
    LockedBy clientOf client (seatUnfocusLayer s k previous) := by
  have hdrop : LockedBy clientOf client (s.modSeat k fun e => { e with focusedLayer := none }) :=
    h.modSeat k fun e he => he
  unfold seatUnfocusLayer
  split
  · cases previous with
    | none => exact hdrop
    | some calls => exact (((hdrop.unfocus k).lockFocus k).treeCalls calls).lockFocus k
  · exact h

theorem LockedBy.setFocusKeys (h : LockedBy clientOf client s) (k : SeatId)
    (previous : Option (List TreeCall)) (calls : List TreeCall) :
    LockedBy clientOf client (seatSetFocusKeys s k previous calls) := by
  have htree := (h.unfocusLayer k previous).treeCalls calls
  unfold seatSetFocusKeys
  dsimp only
  split
  · split
    · exact (htree.focusLayer k _ true).lockFocus k
    · exact htree.lockFocus k
  · exact htree.lockFocus k

/-- The lock focuses one of its surfaces, or none. -/
theorem LockedBy.focusSurface (h : LockedBy clientOf client s) {surface : Option SurfaceId}
    (hs : Held clientOf client surface) : LockedBy clientOf client (focusSurface s surface) := by
  have hlock : LockedBy clientOf client (s.modLock fun l => { l with focused := surface }) := by
    constructor
    · obtain ⟨lock, hlock, hclient, howns⟩ := h.lock
      refine ⟨{ lock with focused := surface }, by simp [LockState.modLock, hlock], hclient, ?_⟩
      constructor
      · exact howns.surfaces
      · rw [← hclient] at hs
        exact hs
    · exact h.seats
  exact foldl_invariant (I := LockedBy clientOf client) _ _
    (fun _ k _ h => h.setFocusSurface k hs false) hlock

theorem LockedBy.refocusOutput (h : LockedBy clientOf client s) {lock : SessionLock}
    (hlock : s.lock = some lock) (output : OutId) (surface : SurfaceId) :
    LockedBy clientOf client (refocusOutput s lock output surface) := by
  obtain ⟨lock', hlock', hclient, howns⟩ := h.lock
  obtain rfl : lock = lock' := Option.some.inj (hlock.symm.trans hlock')
  unfold Swirl.refocusOutput
  split
  · apply h.focusSurface
    intro x hx
    -- the next surface is that of another output
    obtain ⟨o, ho, hox⟩ := List.exists_of_findSome?_eq_some hx
    split at hox
    · cases hox
    · rw [← hclient]
      exact howns.surfaces o ho x (Option.filter_eq_some_iff.1 hox).1
  · exact h

/-- Only the outputs of the lock change, and their surfaces stay those of the client. -/
theorem LockedBy.modOutputs (h : LockedBy clientOf client s) (f : List LockOutput → List LockOutput)
    (hf : ∀ l, (∀ o ∈ l, Held clientOf client o.surface) →
      ∀ o ∈ f l, Held clientOf client o.surface) :
    LockedBy clientOf client (s.modLock fun l => { l with outputs := f l.outputs }) := by
  constructor
  · obtain ⟨lock, hlock, hclient, howns⟩ := h.lock
    refine ⟨{ lock with outputs := f lock.outputs }, by simp [LockState.modLock, hlock], hclient, ?_⟩
    subst hclient
    exact ⟨hf _ howns.surfaces, howns.focused⟩
  · exact h.seats

theorem LockedBy.setLockSurface (h : LockedBy clientOf client s) (output : OutId)
    {surface : Option SurfaceId} (hs : Held clientOf client surface) :
    LockedBy clientOf client (setLockSurface s output surface) := by
  apply h.modOutputs (fun l => l.map fun o => if o.output = output then { o with surface } else o)
  intro l hl o ho
  obtain ⟨o', ho', rfl⟩ := List.mem_map.1 ho
  split
  · exact hs
  · exact hl o' ho'

theorem LockedBy.surfaceGone (h : LockedBy clientOf client s) (surface : SurfaceId) :
    LockedBy clientOf client (surfaceGone s surface) := by
  apply foldl_invariant (I := LockedBy clientOf client) _ _ ?_ h
  intro s k _ h
  apply h.modSeat k
  intro e he
  split
  · exact held_none
  · exact he

theorem LockedBy.lockOutputDestroy (h : LockedBy clientOf client s) {lock : SessionLock}
    (hlock : s.lock = some lock) (output : OutId) :
    LockedBy clientOf client (lockOutputDestroy s lock output) := by
  unfold Swirl.lockOutputDestroy
  refine LockedBy.modOutputs ?_ (fun l => l.filter fun o => decide (o.output ≠ output)) ?_
  · cases lockSurface lock output with
    | none => exact h
    | some surface => exact h.refocusOutput hlock output surface
  · intro l hl o ho
    exact hl o (List.mem_filter.1 ho).1

theorem LockedBy.destroyLockOutput (h : LockedBy clientOf client s) (output : OutId) :
    LockedBy clientOf client (destroyLockOutput s output) := by
  obtain ⟨lock, hlock, -, -⟩ := h.lock
  unfold Swirl.destroyLockOutput
  rw [hlock]
  exact h.lockOutputDestroy hlock output

theorem held_lockSurface {lock : SessionLock} (h : LockOwns clientOf lock) {output : OutId}
    {x : SurfaceId} (hx : lockSurface lock output = some x) : clientOf x = lock.client := by
  obtain ⟨o, ho, hox⟩ := Option.bind_eq_some_iff.1 hx
  exact h.surfaces o (List.mem_of_find?_eq_some ho) x hox

end Locked

/-! ## While it is not -/

theorem lock_treeCall (s : LockState) (c : TreeCall) : (treeCall s c).lock = s.lock := by
  cases c with
  | sendUnfocus k => rfl
  | sendFocus k head =>
      cases head with
      | other => rfl
      | view x pid =>
          show (if seatIsInputAllowed s x then _ else s).lock = s.lock
          split <;> rfl
  | settle k hasFocus head => rfl
  | unfocus k => rfl
  | lockFocus k =>
      show (lockFocus s k).lock = s.lock
      unfold lockFocus
      split <;> rfl
  | dropLayer k => rfl
  | focusLayer k layer exclusive =>
      show (seatFocusLayer s k layer exclusive).lock = s.lock
      unfold seatFocusLayer
      dsimp only
      split_ifs <;> rfl

theorem lock_treeCalls (s : LockState) (calls : List TreeCall) :
    (treeCalls s calls).lock = s.lock := by
  apply foldl_invariant (I := fun t : LockState => t.lock = s.lock) _ calls ?_ rfl
  intro t c _ ht
  exact (lock_treeCall t c).trans ht

theorem lock_seatUnfocusLayer (s : LockState) (k : SeatId) (previous : Option (List TreeCall)) :
    (seatUnfocusLayer s k previous).lock = s.lock := by
  unfold seatUnfocusLayer
  split
  · cases previous with
    | none => rfl
    | some calls =>
        dsimp only
        exact (lock_treeCall _ (.lockFocus k)).trans
          ((lock_treeCalls _ calls).trans (lock_treeCall _ (.lockFocus k)))
  · rfl

theorem lock_seatSetFocusKeys (s : LockState) (k : SeatId) (previous : Option (List TreeCall))
    (calls : List TreeCall) : (seatSetFocusKeys s k previous calls).lock = s.lock := by
  have htree : (treeCalls (seatUnfocusLayer s k previous) calls).lock = s.lock :=
    (lock_treeCalls _ calls).trans (lock_seatUnfocusLayer s k previous)
  unfold seatSetFocusKeys
  dsimp only
  refine (lock_treeCall _ (.lockFocus k)).trans ?_
  split
  · split
    · exact (lock_treeCall _ (.focusLayer k _ true)).trans htree
    · exact htree
  · exact htree

end Swirl

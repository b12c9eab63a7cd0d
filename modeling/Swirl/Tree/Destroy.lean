import Swirl.Input.SeatFocus

set_option autoImplicit false

/-! # Destroying containers

`container_begin_destroy`, and `container_reap_empty`, which destroys a container that has become
empty with the parents this leaves empty, and then the workspace.
-/

namespace Swirl

variable (fo : FocusOps)

/-- `root_scratchpad_remove_container`, when the container is in the scratchpad. -/
def leaveScratchpad (s : State) (c : ConId) : State :=
  if (s.tree.con c).scratchpad then rootScratchpadRemoveContainer s c else s

/-- The beginning of `container_begin_destroy`: the fullscreen pointers are cleared, so that the
seats find a new focus. -/
def endFullscreen (s : State) (c : ConId) : State :=
  let s :=
    match (s.tree.con c).workspace with
    | some w => if s.full.mode c = .workspace then s.setWsFullscreen w none else s
    | none => s
  if (s.tree.con c).scratchpad ∧ s.full.mode c = .global then containerFullscreenDisable fo s c
  else s

/-- `node.destroying = true` -/
def markDestroying (s : State) (c : ConId) : State :=
  s.modTree fun t => t.modCon c fun k => { k with destroying := true }

/-- `container_begin_destroy` -/
def containerBeginDestroy (s : State) (c : ConId) : State :=
  let s := emitNodeDestroy fo (endFullscreen fo s c) (.container c)
  let s := unpark (leaveScratchpad (markDestroying s c) c) c
  let s := if s.full.mode c = .global then containerFullscreenDisable fo s c else s
  if (s.tree.con c).parent.isSome ∨ (s.tree.con c).workspace.isSome then containerDetach s c else s

/-- The loop of `container_reap_empty`, cut after a number of steps. -/
def reapEmpty (w : Option WsId) : Nat → State → Option ConId → State
  | _, s, none => considerDestroy fo s w
  | 0, s, some _ => s
  | n + 1, s, some c =>
      if (s.tree.con c).children = [] then
        reapEmpty w n (containerBeginDestroy fo s c) (s.tree.con c).parent
      else s

/-- `container_reap_empty` -/
def containerReapEmpty (s : State) (c : ConId) : State :=
  if (s.tree.con c).view.isSome then s
  else reapEmpty fo (s.tree.con c).workspace (s.tree.nextCon + 1) s (some c)

/-! ## Who lives -/

/-- A container that was created and is not destroyed. -/
def Live (s : State) (c : ConId) : Prop :=
  c < s.tree.nextCon ∧ (s.tree.con c).destroying = false

instance (s : State) (c : ConId) : Decidable (Live s c) := inferInstanceAs (Decidable (_ ∧ _))

/-- No container name goes out of use, and no destroyed container comes back to life. -/
def KeepsLife (s s' : State) : Prop :=
  s.tree.nextCon ≤ s'.tree.nextCon ∧
    ∀ c, c < s.tree.nextCon → (s.tree.con c).destroying = true →
      (s'.tree.con c).destroying = true

instance (s s' : State) : Decidable (KeepsLife s s') := inferInstanceAs (Decidable (_ ∧ _))

end Swirl

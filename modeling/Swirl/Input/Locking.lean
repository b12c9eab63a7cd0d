import Swirl.Input.LockConfines

set_option autoImplicit false

/-! # Locking the session

The moment the session is locked: `seat_unfocus_unless_client` changes its own seat only, and what
it does there is a function of what the seat holds. From that, a seat that releases the keyboard
ends with no surface of another client. Together with the events under a lock this gives the runs.
-/

namespace Swirl

open Lib

variable {clientOf : SurfaceId → ClientId}

/-! ## One seat -/

namespace LockState

variable (s : LockState) (k : SeatId) (f g : SeatKeys → SeatKeys)

@[simp] theorem modSeat_lock : (s.modSeat k f).lock = s.lock := rfl

@[simp] theorem modSeat_seats : (s.modSeat k f).seats = s.seats := rfl

@[simp] theorem modSeat_self : (s.modSeat k f).seat k = f (s.seat k) := by
  unfold modSeat
  exact Function.update_self k _ s.seat

theorem modSeat_ne {j : SeatId} (h : j ≠ k) : (s.modSeat k f).seat j = s.seat j := by
  unfold modSeat
  exact Function.update_of_ne h _ s.seat

@[simp] theorem modSeat_modSeat : (s.modSeat k f).modSeat k g = s.modSeat k fun e => g (f e) := by
  unfold modSeat
  simp only [Function.update_self, Function.update_idem]

theorem modSeat_id : (s.modSeat k fun e => e) = s := by
  unfold modSeat
  rw [Function.update_eq_self]

/-- A change of a seat depends only on what it gives there. -/
theorem modSeat_congr {f g : SeatKeys → SeatKeys} (h : f (s.seat k) = g (s.seat k)) :
    s.modSeat k f = s.modSeat k g := by
  unfold modSeat
  rw [h]

end LockState

/-- What `seatUnfocus` does to its seat. -/
def SeatKeys.unfocused (e : SeatKeys) : SeatKeys :=
  if e.getFocus.isSome then { wlrSeatKeyboardNotifyClearFocus e with hasFocus := false }
  else { e with hasFocus := false }

/-- What `refocusCalls` do to their seat while there is no lock. -/
def SeatKeys.refocused (e : SeatKeys) : Option FocusHead → SeatKeys
  | some (.view x pid) =>
      seatKeyboardNotifyEnter { e with hasFocus := true, head := some (.view x pid) } x
  | some .other => { e with hasFocus := true, head := some .other }
  | none => e

/-- What `seatUnfocusLayer` does to its seat while there is no lock. -/
def SeatKeys.unlayered (e : SeatKeys) (previous : Option (Option FocusHead)) : SeatKeys :=
  if e.focusedLayer.isSome then
    match previous with
    | some head => (SeatKeys.unfocused { e with focusedLayer := none }).refocused head
    | none => { e with focusedLayer := none }
  else e

/-- What `seatFocusLayer` does for an exclusive layer while there is no lock. -/
def SeatKeys.layered (e : SeatKeys) (layer : SurfaceId) : SeatKeys :=
  if e.focusedLayer = some layer then { e with hasExclusiveLayer := true }
  else
    { seatKeyboardNotifyEnter
        (if e.hasFocus then
          { wlrSeatKeyboardNotifyClearFocus { e with hasExclusiveLayer := true } with
            hasFocus := false }
         else { e with hasExclusiveLayer := true }) layer with
      focusedLayer := some layer }

/-- What `seatSetFocusKeys` does to its seat when the node loses the focus, without a lock. -/
def SeatKeys.dropped (e : SeatKeys) (previous : Option (Option FocusHead)) : SeatKeys :=
  match e.focusedLayer with
  | some layer =>
      if e.hasExclusiveLayer then ((e.unlayered previous).unfocused).layered layer
      else (e.unlayered previous).unfocused
  | none => (e.unlayered previous).unfocused

section Unlocked

variable {s : LockState} (hs : s.lock = none) (k : SeatId)

include hs

theorem lockFocus_unlocked : lockFocus s k = s := by
  unfold lockFocus
  rw [hs]

theorem treeCalls_refocusCalls (head : Option FocusHead) :
    treeCalls s (refocusCalls k head) = s.modSeat k fun e => e.refocused head := by
  cases head with
  | none => exact (s.modSeat_id k).symm
  | some head =>
      cases head with
      | other =>
          -- the keyboard only follows views
          rfl
      | view x pid =>
          show seatSendFocus (s.modSeat k _) k (.view x pid) = _
          have hallowed : ∀ f, seatIsInputAllowed (s.modSeat k f) x = true := by
            intro f
            unfold seatIsInputAllowed
            rw [LockState.modSeat_lock, hs]
          unfold seatSendFocus
          dsimp only
          rw [if_pos (hallowed _), LockState.modSeat_modSeat]
          rfl

theorem seatUnfocusLayer_unlocked (previous : Option (Option FocusHead)) :
    seatUnfocusLayer s k (previous.map (refocusCalls k)) =
      s.modSeat k fun e => e.unlayered previous := by
  unfold seatUnfocusLayer
  split
  · next hlayer =>
    cases previous with
    | none =>
        apply s.modSeat_congr k
        simp [SeatKeys.unlayered, hlayer]
    | some head =>
        -- there is no lock to give the keyboard back to
        have h₁ : (s.modSeat k fun e => { e with focusedLayer := none }).lock = none := hs
        have h₂ : (seatUnfocus (s.modSeat k fun e => { e with focusedLayer := none }) k).lock =
          none := hs
        dsimp only [Option.map_some]
        rw [lockFocus_unlocked h₂, treeCalls_refocusCalls h₂, lockFocus_unlocked (by exact hs)]
        unfold seatUnfocus
        rw [LockState.modSeat_modSeat, LockState.modSeat_modSeat]
        apply s.modSeat_congr k
        simp only [SeatKeys.unlayered, hlayer, if_true]
        rfl
  · next hlayer =>
    symm
    refine (s.modSeat_congr k (g := fun e => e) ?_).trans (s.modSeat_id k)
    simp [SeatKeys.unlayered, hlayer]

theorem seatFocusLayer_unlocked (layer : SurfaceId) :
    seatFocusLayer s k layer true = s.modSeat k fun e => e.layered layer := by
  unfold seatFocusLayer seatSetFocusSurface
  simp only [hs, Option.isSome_none, Bool.false_eq_true, if_false, if_true,
    LockState.modSeat_self, LockState.modSeat_modSeat]
  split
  · next h =>
    apply s.modSeat_congr k
    simp [SeatKeys.layered, h]
  · next h =>
    apply s.modSeat_congr k
    simp [SeatKeys.layered, h]

theorem seatSetFocusKeys_unlocked (previous : Option (Option FocusHead)) :
    seatSetFocusKeys s k (previous.map (refocusCalls k)) [.unfocus k] =
      s.modSeat k fun e => e.dropped previous := by
  have hunfocus : treeCalls (seatUnfocusLayer s k (previous.map (refocusCalls k))) [.unfocus k] =
      s.modSeat k fun e => (e.unlayered previous).unfocused := by
    rw [seatUnfocusLayer_unlocked hs]
    show seatUnfocus _ k = _
    unfold seatUnfocus
    rw [LockState.modSeat_modSeat]
    rfl
  unfold seatSetFocusKeys
  dsimp only
  rw [hunfocus]
  cases hl : (s.seat k).focusedLayer with
  | none =>
      rw [lockFocus_unlocked (by exact hs)]
      apply s.modSeat_congr k
      simp [SeatKeys.dropped, hl]
  | some layer =>
      dsimp only
      split
      · next hx =>
        rw [seatFocusLayer_unlocked (by exact hs), lockFocus_unlocked (by exact hs),
          LockState.modSeat_modSeat]
        apply s.modSeat_congr k
        simp [SeatKeys.dropped, hl, hx]
      · next hx =>
        rw [lockFocus_unlocked (by exact hs)]
        apply s.modSeat_congr k
        simp [SeatKeys.dropped, hl, hx]

end Unlocked

variable (clientOf) in
/-- What `seatUnfocusUnlessClient` does to its seat while there is no lock: first a layer of another
client loses the focus. -/
def SeatKeys.ownLayer (e : SeatKeys) (client : ClientId) (previous : Option (Option FocusHead)) :
    SeatKeys :=
  match e.focusedLayer with
  | some layer => if clientOf layer ≠ client then e.unlayered previous else e
  | none => e

variable (clientOf) in
/-- Then a view of another client does. -/
def SeatKeys.ownView (e : SeatKeys) (client : ClientId) (previous : Option (Option FocusHead)) :
    SeatKeys :=
  match e.getFocus with
  | some (.view surface _) => if clientOf surface ≠ client then e.dropped previous else e
  | _ => e

theorem seatUnfocusUnlessClient_unlocked {s : LockState} (hs : s.lock = none) (client : ClientId)
    (previous : SeatId → Option (Option FocusHead)) (k : SeatId) :
    seatUnfocusUnlessClient clientOf client previous s k =
      s.modSeat k fun e =>
        (e.ownLayer clientOf client (previous k)).ownView clientOf client (previous k) := by
  have hlayer : (match (s.seat k).focusedLayer with
      | some layer =>
          if clientOf layer ≠ client then
            seatUnfocusLayer s k ((previous k).map (refocusCalls k))
          else s
      | none => s) = s.modSeat k fun e => e.ownLayer clientOf client (previous k) := by
    cases hl : (s.seat k).focusedLayer with
    | none =>
        symm
        refine (s.modSeat_congr k (g := fun e => e) ?_).trans (s.modSeat_id k)
        simp [SeatKeys.ownLayer, hl]
    | some layer =>
        dsimp only
        split
        · next hx =>
          rw [seatUnfocusLayer_unlocked hs]
          apply s.modSeat_congr k
          simp [SeatKeys.ownLayer, hl, hx]
        · next hx =>
          symm
          refine (s.modSeat_congr k (g := fun e => e) ?_).trans (s.modSeat_id k)
          simp [SeatKeys.ownLayer, hl, hx]
  have hview : ∀ t : LockState, t.lock = none →
      (match (t.seat k).getFocus with
        | some (.view surface _) =>
            if clientOf surface ≠ client then
              seatSetFocusKeys t k ((previous k).map (refocusCalls k)) [.unfocus k]
            else t
        | _ => t) = t.modSeat k fun e => e.ownView clientOf client (previous k) := by
    intro t ht
    rw [seatSetFocusKeys_unlocked ht]
    have hid : (t.seat k).ownView clientOf client (previous k) = t.seat k →
        t = t.modSeat k fun e => e.ownView clientOf client (previous k) := fun h =>
      ((t.modSeat_congr k (g := fun e => e) h).trans (t.modSeat_id k)).symm
    split
    · next x pid hx =>
      split
      · next hne =>
        apply t.modSeat_congr k
        simp [SeatKeys.ownView, hx, hne]
      · next hne =>
        apply hid
        simp [SeatKeys.ownView, hx, hne]
    · next hx =>
      apply hid
      unfold SeatKeys.ownView
      split
      · next x pid hv => exact absurd hv (hx x pid)
      · rfl
  refine Eq.trans ?_ (s.modSeat_modSeat k (fun e => e.ownLayer clientOf client (previous k))
    (fun e => e.ownView clientOf client (previous k)))
  rw [← hview _ (by exact hs), ← hlayer]
  rfl

/-! ## The keyboard is released -/

section Release

variable {client : ClientId} {e : SeatKeys}

theorem held_unfocused (h : Held clientOf client e.focusedSurface) :
    Held clientOf client e.unfocused.focusedSurface := by
  unfold SeatKeys.unfocused
  split
  · exact held_clear h
  · exact h

/-- A seat that has a focus to lose loses the keyboard with it, outside a grab. -/
theorem held_unfocused_of_getFocus (h : Held clientOf client e.focusedSurface ∨ e.grabbed = false)
    (hfocus : e.getFocus.isSome = true) :
    Held clientOf client e.unfocused.focusedSurface := by
  obtain h | h := h
  · exact held_unfocused h
  · unfold SeatKeys.unfocused wlrSeatKeyboardNotifyClearFocus
    rw [if_pos hfocus, h]
    exact held_none

theorem grabbed_clear (e : SeatKeys) :
    (wlrSeatKeyboardNotifyClearFocus e).grabbed = e.grabbed := by
  unfold wlrSeatKeyboardNotifyClearFocus
  split <;> rfl

theorem grabbed_enter (e : SeatKeys) (x : SurfaceId) :
    (seatKeyboardNotifyEnter e x).grabbed = e.grabbed := by
  unfold seatKeyboardNotifyEnter
  split <;> rfl

theorem grabbed_unfocused (e : SeatKeys) : e.unfocused.grabbed = e.grabbed := by
  unfold SeatKeys.unfocused
  split
  · exact grabbed_clear e
  · rfl

theorem focusedLayer_unfocused (e : SeatKeys) : e.unfocused.focusedLayer = e.focusedLayer := by
  unfold SeatKeys.unfocused wlrSeatKeyboardNotifyClearFocus
  split_ifs <;> rfl

theorem grabbed_refocused (e : SeatKeys) (head : Option FocusHead) :
    (e.refocused head).grabbed = e.grabbed := by
  rcases head with - | - | -
  · rfl
  · exact grabbed_enter _ _
  · rfl

theorem focusedLayer_refocused (e : SeatKeys) (head : Option FocusHead) :
    (e.refocused head).focusedLayer = e.focusedLayer := by
  rcases head with - | ⟨x, pid⟩ | -
  · rfl
  · show (seatKeyboardNotifyEnter _ x).focusedLayer = _
    unfold seatKeyboardNotifyEnter
    split <;> rfl
  · rfl

/-- A layer of the client that takes the keyboard for itself gets it. -/
theorem held_layered (h : Held clientOf client e.focusedSurface) {layer : SurfaceId}
    (hl : clientOf layer = client) : Held clientOf client (e.layered layer).focusedSurface := by
  unfold SeatKeys.layered
  split
  · exact h
  · show Held clientOf client (seatKeyboardNotifyEnter _ layer).focusedSurface
    refine held_enter ?_ hl
    split
    · exact held_clear (e := { e with hasExclusiveLayer := true }) h
    · exact h

/-- A view that loses the focus takes the keyboard with it, whatever gets the focus back on the
way, if the layer over it is not of another client. -/
theorem held_dropped (h : Held clientOf client e.focusedSurface ∨ e.grabbed = false)
    (hfocus : e.getFocus.isSome = true)
    (hlayer : ∀ layer, e.focusedLayer = some layer → clientOf layer = client)
    (previous : Option (Option FocusHead)) :
    Held clientOf client (e.dropped previous).focusedSurface := by
  have hdrop : Held clientOf client (e.unlayered previous).unfocused.focusedSurface := by
    unfold SeatKeys.unlayered
    split
    · cases previous with
      | none => exact held_unfocused_of_getFocus (e := { e with focusedLayer := none }) h hfocus
      | some head =>
          have h' : Held clientOf client
              (SeatKeys.unfocused { e with focusedLayer := none }).focusedSurface :=
            held_unfocused_of_getFocus (e := { e with focusedLayer := none }) h hfocus
          rcases head with - | ⟨x, pid⟩ | -
          · exact held_unfocused h'
          · -- the view has the focus now, and loses it again
            refine held_unfocused_of_getFocus ?_ ?_
            · unfold SeatKeys.refocused seatKeyboardNotifyEnter
              dsimp only
              split
              · exact Or.inl h'
              · next hg =>
                right
                simpa using hg
            · unfold SeatKeys.refocused seatKeyboardNotifyEnter
              dsimp only
              split <;> rfl
          · exact held_unfocused h'
    · exact held_unfocused_of_getFocus h hfocus
  unfold SeatKeys.dropped
  split
  · next layer hl =>
    split
    · exact held_layered hdrop (hlayer layer hl)
    · exact hdrop
  · exact hdrop

theorem held_ownView
    (h : Held clientOf client e.focusedSurface ∨
      e.grabbed = false ∧ foreignView clientOf client e)
    (hlayer : ∀ layer, e.focusedLayer = some layer → clientOf layer = client)
    (previous : Option (Option FocusHead)) :
    Held clientOf client (e.ownView clientOf client previous).focusedSurface := by
  unfold SeatKeys.ownView
  split
  · next x pid hx =>
    split
    · exact held_dropped (h.imp_right And.left) (by rw [hx]; rfl) hlayer previous
    · next hown =>
      obtain h | ⟨-, y, q, hy, hne⟩ := h
      · exact h
      · -- the view with the focus is the client's, so it is not a foreign one
        obtain ⟨rfl, -⟩ : x = y ∧ pid = q := by simpa [hx] using hy
        exact absurd hne hown
  · next hx =>
    obtain h | ⟨-, y, q, hy, -⟩ := h
    · exact h
    · exact absurd hy (hx y q)

/-- A view that gets the focus back keeps the keyboard only if it is the client's. -/
theorem held_ownView_refocused {head : Option FocusHead}
    (h : Held clientOf client e.focusedSurface ∨
      e.grabbed = false ∧ ∃ x pid, head = some (.view x pid))
    (hlayer : e.focusedLayer = none) (previous : Option (Option FocusHead)) :
    Held clientOf client ((e.refocused head).ownView clientOf client previous).focusedSurface := by
  have hlayer' : ∀ layer, (e.refocused head).focusedLayer = some layer →
      clientOf layer = client := by
    intro layer hl
    rw [focusedLayer_refocused, hlayer] at hl
    cases hl
  apply held_ownView ?_ hlayer' previous
  rcases head with - | ⟨x, pid⟩ | -
  · obtain h | ⟨-, x, pid, hx⟩ := h
    · exact Or.inl h
    · cases hx
  · show Held clientOf client (seatKeyboardNotifyEnter _ x).focusedSurface ∨ _
    cases hg : e.grabbed with
    | true =>
        -- the grab keeps the keyboard where it is
        obtain h | ⟨hg', -⟩ := h
        · left
          unfold seatKeyboardNotifyEnter
          simpa [hg] using h
        · rw [hg] at hg'
          cases hg'
    | false =>
        by_cases hx : clientOf x = client
        · left
          unfold seatKeyboardNotifyEnter
          rw [if_neg (by simp)]
          intro y hy
          obtain rfl := Option.some.inj hy
          exact hx
        · right
          refine ⟨(grabbed_refocused e _).trans hg, x, pid, ?_, hx⟩
          unfold SeatKeys.refocused seatKeyboardNotifyEnter
          dsimp only
          split <;> rfl
  · obtain h | ⟨-, x, pid, hx⟩ := h
    · exact Or.inl h
    · cases hx

/-- **A seat that releases the keyboard ends with no surface of another client.** -/
theorem held_of_releases {previous : Option (Option FocusHead)}
    (h : Releases clientOf client e previous) :
    Held clientOf client
      ((e.ownLayer clientOf client previous).ownView clientOf client previous).focusedSurface := by
  by_cases hforeign : foreignLayer clientOf client e
  · obtain ⟨layer, hl, hne⟩ := hforeign
    have hown : e.ownLayer clientOf client previous = e.unlayered previous := by
      simp [SeatKeys.ownLayer, hl, hne]
    have hsome : e.focusedLayer.isSome = true := by
      rw [hl]
      rfl
    rw [hown]
    unfold SeatKeys.unlayered
    rw [if_pos hsome]
    -- what the second disjunct says where the layer is foreign
    have h' : Held clientOf client e.focusedSurface ∨ e.grabbed = false ∧
        ((∃ x pid, previous = some (some (.view x pid))) ∨
          previous.isSome = true ∧ e.getFocus.isSome = true ∨
          previous = none ∧ foreignView clientOf client e) := by
      obtain h | ⟨hg, ⟨-, h⟩ | ⟨hnot, -⟩⟩ := h
      · exact Or.inl h
      · exact Or.inr ⟨hg, h⟩
      · exact absurd ⟨layer, hl, hne⟩ hnot
    cases previous with
    | none =>
        refine held_ownView (e := { e with focusedLayer := none }) ?_ (by simp) none
        obtain h | ⟨hg, ⟨x, pid, hx⟩ | ⟨hp, -⟩ | ⟨-, hv⟩⟩ := h'
        · exact Or.inl h
        · cases hx
        · cases hp
        · exact Or.inr ⟨hg, hv⟩
    | some head =>
        refine held_ownView_refocused ?_ (focusedLayer_unfocused _) (some head)
        obtain h | ⟨hg, ⟨x, pid, hx⟩ | ⟨-, hf⟩ | ⟨hp, -⟩⟩ := h'
        · exact Or.inl (held_unfocused (e := { e with focusedLayer := none }) h)
        · exact Or.inr ⟨(grabbed_unfocused _).trans hg, x, pid, Option.some.inj hx⟩
        · exact Or.inl
            (held_unfocused_of_getFocus (e := { e with focusedLayer := none }) (Or.inr hg) hf)
        · cases hp
  · have hlayer : ∀ layer, e.focusedLayer = some layer → clientOf layer = client := by
      intro layer hl
      by_contra hne
      exact hforeign ⟨layer, hl, hne⟩
    have hown : e.ownLayer clientOf client previous = e := by
      unfold SeatKeys.ownLayer
      split
      · next layer hl => exact if_neg (not_not.2 (hlayer layer hl))
      · rfl
    rw [hown]
    apply held_ownView ?_ hlayer
    obtain h | ⟨hg, ⟨hl, -⟩ | ⟨-, hv⟩⟩ := h
    · exact Or.inl h
    · exact absurd hl hforeign
    · exact Or.inr ⟨hg, hv⟩

end Release

theorem unlocked_unfocusUnlessClient {s : LockState} (hs : s.lock = none) (client : ClientId)
    (previous : SeatId → Option (Option FocusHead)) (k : SeatId) :
    (seatUnfocusUnlessClient clientOf client previous s k).lock = none ∧
      (seatUnfocusUnlessClient clientOf client previous s k).seats = s.seats := by
  rw [seatUnfocusUnlessClient_unlocked hs]
  exact ⟨hs, rfl⟩

/-- Every seat of a list releases the keyboard: afterwards they hold no surface of another client,
and a seat that held none before still does not. -/
theorem held_unfocusUnlessClients {client : ClientId}
    {previous : SeatId → Option (Option FocusHead)} (ks : List SeatId) :
    ∀ {s : LockState}, s.lock = none →
      (∀ k ∈ ks, Releases clientOf client (s.seat k) (previous k)) →
      let t := ks.foldl (seatUnfocusUnlessClient clientOf client previous) s
      t.lock = none ∧ t.seats = s.seats ∧
        ∀ j, j ∈ ks ∨ Held clientOf client (s.seat j).focusedSurface →
          Held clientOf client (t.seat j).focusedSurface := by
  induction ks with
  | nil =>
      intro s hs _
      refine ⟨hs, rfl, ?_⟩
      intro j hj
      exact hj.resolve_left List.not_mem_nil
  | cons k ks ih =>
      intro s hs hrel
      have hkeep : (seatUnfocusUnlessClient clientOf client previous s k).lock = none ∧
          (seatUnfocusUnlessClient clientOf client previous s k).seats = s.seats :=
        unlocked_unfocusUnlessClient hs client previous k
      obtain ⟨hlock, hseats⟩ := hkeep
      have hself : Held clientOf client
          ((seatUnfocusUnlessClient clientOf client previous s k).seat k).focusedSurface := by
        rw [seatUnfocusUnlessClient_unlocked hs, LockState.modSeat_self]
        exact held_of_releases (hrel k List.mem_cons_self)
      have hne : ∀ j, j ≠ k →
          (seatUnfocusUnlessClient clientOf client previous s k).seat j = s.seat j := by
        intro j hj
        rw [seatUnfocusUnlessClient_unlocked hs]
        exact s.modSeat_ne k _ hj
      have hrest : ∀ j ∈ ks, Releases clientOf client
          ((seatUnfocusUnlessClient clientOf client previous s k).seat j) (previous j) := by
        intro j hj
        by_cases hjk : j = k
        · subst hjk
          exact Or.inl hself
        · rw [hne j hjk]
          exact hrel j (List.mem_cons_of_mem k hj)
      obtain ⟨htlock, htseats, hheld⟩ := ih hlock hrest
      refine ⟨htlock, htseats.trans hseats, ?_⟩
      intro j hj
      apply hheld j
      by_cases hjk : j = k
      · subst hjk
        exact Or.inr hself
      · rw [hne j hjk]
        refine hj.imp_left fun hmem => ?_
        exact (List.mem_cons.1 hmem).resolve_left hjk

/-! ## Events -/

variable (clientOf) in
/-- The invariant: nobody holds a lock, or the one who does confines the keyboards. -/
def Locking (s : LockState) : Prop := s.lock = none ∨ ∃ client, LockedBy clientOf client s

theorem Locking.confined {s : LockState} (h : Locking clientOf s) : Confined clientOf s := by
  intro lock hlock k hk
  obtain h | ⟨client, h⟩ := h
  · rw [h] at hlock
    cases hlock
  · obtain ⟨lock', hlock', hclient, -⟩ := h.lock
    obtain rfl : lock = lock' := Option.some.inj (hlock.symm.trans hlock')
    rw [hclient]
    exact h.seats k hk

/-- A new lock, with the seats released. -/
theorem locking_handleSessionLock {s : LockState} (h : Locking clientOf s) {client : ClientId}
    {outputs : List OutId} {previous : SeatId → Option (Option FocusHead)}
    (hc : Confining clientOf s (.lock client outputs previous)) :
    Locking clientOf (handleSessionLock clientOf s client outputs previous) := by
  unfold handleSessionLock
  dsimp only
  cases hd : (dropAbandoned s).lock with
  | some lock =>
      rw [if_pos (show (some lock).isSome = true from rfl)]
      -- the old lock is not abandoned, and nothing has changed
      right
      obtain h | ⟨client', h⟩ := h
      · unfold dropAbandoned at hd
        rw [h] at hd
        dsimp only at hd
        rw [h] at hd
        cases hd
      · obtain ⟨lock', hlock', -, -⟩ := h.lock
        refine ⟨client', ?_⟩
        unfold dropAbandoned at hd ⊢
        rw [hlock'] at hd ⊢
        dsimp only at hd ⊢
        split at hd
        · cases hd
        · next hab =>
          rw [if_neg hab]
          exact h
  | none =>
      rw [if_neg (show ¬ (none : Option SessionLock).isSome = true from Bool.false_ne_true)]
      right
      refine ⟨client, ⟨_, rfl, rfl, ?_⟩, ?_⟩
      · constructor
        · intro o ho
          obtain ⟨output, -, rfl⟩ := List.mem_map.1 ho
          exact held_none
        · exact held_none
      · obtain ⟨-, hseats, hheld⟩ := held_unfocusUnlessClients _ hd (hc hd)
        intro k hk
        apply hheld k (Or.inl _)
        rw [← hseats]
        exact hk

/-- An event that finds no lock leaves none, unless it locks the session. -/
theorem lock_lockStep {s : LockState} (hs : s.lock = none) (e : LockEvent)
    (he : ∀ client outputs previous, e ≠ .lock client outputs previous) :
    (lockStep clientOf s e).lock = none := by
  have hmod : ∀ f, (s.modLock f).lock = none := by
    intro f
    unfold LockState.modLock
    rw [hs]
    rfl
  have hkeys : ∀ (t : LockState) k previous calls, t.lock = none →
      (seatSetFocusKeys t k previous calls).lock = none := fun t k previous calls ht =>
    (lock_seatSetFocusKeys t k previous calls).trans ht
  cases e with
  | lock client outputs previous => exact absurd rfl (he client outputs previous)
  | unlock calls =>
      unfold lockStep
      dsimp only
      rw [hs]
      exact hs
  | abandon => exact hmod _
  | newLockSurface output surface =>
      unfold lockStep
      dsimp only
      rw [hs]
      exact hs
  | lockSurfaceMap output =>
      unfold lockStep
      dsimp only
      rw [hs]
      exact hs
  | lockSurfaceDestroy output =>
      unfold lockStep
      dsimp only
      rw [hs]
      exact hs
  | newOutput output => exact hmod _
  | outputDestroy output calls =>
      refine (lock_treeCalls _ calls).trans ?_
      unfold destroyLockOutput
      rw [hs]
      exact hs
  | tree calls => exact (lock_treeCalls s calls).trans hs
  | focus k previous calls => exact hkeys s k previous calls hs
  | focusLayer k layer exclusive => exact (lock_treeCall s (.focusLayer k layer exclusive)).trans hs
  | unfocusLayer k previous => exact (lock_seatUnfocusLayer s k previous).trans hs
  | unmanagedMap surface wantsFocus =>
      show (unmanagedHandleMap _ surface wantsFocus).lock = none
      unfold unmanagedHandleMap
      split <;> exact hs
  | unmanagedUnmap surface parent previous =>
      show (unmanagedHandleUnmap _ surface parent previous).lock = none
      unfold unmanagedHandleUnmap
      dsimp only
      split
      · split
        · exact hs
        · exact hkeys _ _ _ _ (hkeys _ _ _ _ hs)
        · exact hs
      · exact hs
  | unmanagedActivate surface pid =>
      show (unmanagedHandleRequestActivate s surface pid).lock = none
      unfold unmanagedHandleRequestActivate
      split <;> exact hs
  | startDrag k => exact hs
  | endDrag k previous calls exclusive =>
      show (dragHandleDestroy s k previous calls exclusive).lock = none
      unfold dragHandleDestroy
      dsimp only
      split
      · exact hkeys _ _ _ _ (hkeys _ _ _ _ hs)
      · exact (lock_treeCall _ (.focusLayer k _ exclusive)).trans
          ((lock_seatUnfocusLayer _ k previous).trans hs)
      · exact hs
  | popupGrab k grabbed => exact hs
  | surfaceDestroy surface =>
      show (surfaceGone s surface).lock = none
      unfold surfaceGone
      apply foldl_invariant (I := fun t : LockState => t.lock = none) _ s.seats ?_ hs
      intro t k _ ht
      exact ht

section Locked

variable {client : ClientId} {s : LockState}

/-- Which surfaces are mapped does not matter. -/
theorem LockedBy.mapped (h : LockedBy clientOf client s) (mapped : SurfaceId → Bool) :
    LockedBy clientOf client { s with mapped } := ⟨h.lock, h.seats⟩

theorem LockedBy.surfaceMap (h : LockedBy clientOf client s) {lock : SessionLock}
    (hlock : s.lock = some lock) (output : OutId) :
    LockedBy clientOf client (handleLockSurfaceMap s lock output) := by
  obtain ⟨lock', hlock', hclient, howns⟩ := h.lock
  obtain rfl : lock = lock' := Option.some.inj (hlock.symm.trans hlock')
  unfold handleLockSurfaceMap
  split
  · next x hx =>
    dsimp only
    split
    · apply (h.mapped _).focusSurface
      intro y hy
      obtain rfl := Option.some.inj hy
      rw [← hclient]
      exact held_lockSurface howns hx
    · exact h.mapped _
  · exact h

theorem LockedBy.surfaceDestroy (h : LockedBy clientOf client s) {lock : SessionLock}
    (hlock : s.lock = some lock) (output : OutId) :
    LockedBy clientOf client (handleLockSurfaceDestroy s lock output) := by
  unfold handleLockSurfaceDestroy
  split
  · next x hx =>
    exact ((h.refocusOutput hlock output x).setLockSurface output held_none).surfaceGone x
  · exact h

/-- A seat that is not one of the state's does not matter either. -/
theorem LockedBy.modSeat_of_notMem (h : LockedBy clientOf client s) {k : SeatId}
    (hk : k ∉ s.seats) (f : SeatKeys → SeatKeys) : LockedBy clientOf client (s.modSeat k f) := by
  refine ⟨h.lock, ?_⟩
  intro j hj
  rw [s.modSeat_ne k f (fun hjk => hk (hjk ▸ hj))]
  exact h.seats j hj

/-- The end of a drag gives the keyboard back to the surface that has it. -/
theorem LockedBy.dragEnd (h : LockedBy clientOf client s) (k : SeatId)
    (previous : Option (List TreeCall)) (calls : List TreeCall) (exclusive : Bool) :
    LockedBy clientOf client (dragHandleDestroy s k previous calls exclusive) := by
  have hfree : LockedBy clientOf client (s.modSeat k fun e => { e with grabbed := false }) :=
    h.modSeat k (f := fun e => { e with grabbed := false }) fun _ he => he
  unfold dragHandleDestroy
  dsimp only
  split
  · exact (hfree.setFocusKeys k previous _).setFocusKeys k previous calls
  · exact (hfree.unfocusLayer k previous).focusLayer k _ exclusive
  · by_cases hk : k ∈ s.seats
    · exact (hfree.setFocusSurface k held_none false).setFocusSurface k (hfree.seats k hk) false
    · exact (hfree.modSeat_of_notMem hk _).modSeat_of_notMem hk _

theorem LockedBy.unmanagedUnmap (h : LockedBy clientOf client s) (surface : SurfaceId)
    {parent : Option SurfaceId} (previous : Option (List TreeCall))
    (hparent : (s.seat s.currentSeat).focusedSurface = some surface →
      ∀ x, parent = some x → MayFocus clientOf client s x) :
    LockedBy clientOf client (unmanagedHandleUnmap s surface parent previous) := by
  unfold unmanagedHandleUnmap
  dsimp only
  split
  · next hx =>
    cases parent with
    | some parent => exact h.focusUnmanaged (hparent hx parent rfl)
    | none =>
        cases previous with
        | some calls =>
            exact (h.setFocusKeys s.currentSeat (some calls) _).setFocusKeys s.currentSeat
              (some calls) calls
        | none => exact h
  · exact h

/-- **Every event under a lock leaves a lock that confines the keyboards, or none.** -/
theorem LockedBy.step (h : LockedBy clientOf client s) {e : LockEvent}
    (he : Confining clientOf s e) : Locking clientOf (lockStep clientOf s e) := by
  obtain ⟨lock, hlock, hclient, howns⟩ := h.lock
  -- an event that keeps the lock
  have keeps : ∀ {t : LockState}, LockedBy clientOf client t → Locking clientOf t := fun ht =>
    Or.inr ⟨client, ht⟩
  cases e with
  | lock client' outputs previous => exact locking_handleSessionLock (keeps h) he
  | unlock calls =>
      left
      unfold lockStep
      dsimp only
      rw [hlock]
      exact lock_treeCalls _ calls
  | abandon =>
      refine keeps ⟨⟨{ lock with abandoned := true }, ?_, hclient, howns.surfaces, howns.focused⟩,
        h.seats⟩
      unfold lockStep LockState.modLock
      dsimp only
      rw [hlock]
      rfl
  | newLockSurface output surface =>
      unfold lockStep
      dsimp only
      rw [hlock]
      dsimp only
      split
      · next hown =>
        -- a client makes surfaces for its own lock
        refine keeps (h.setLockSurface output ?_)
        intro x hx
        obtain rfl := Option.some.inj hx
        exact hown.1.trans hclient
      · exact keeps h
  | lockSurfaceMap output =>
      unfold lockStep
      dsimp only
      rw [hlock]
      exact keeps (h.surfaceMap hlock output)
  | lockSurfaceDestroy output =>
      unfold lockStep
      dsimp only
      rw [hlock]
      exact keeps (h.surfaceDestroy hlock output)
  | newOutput output =>
      refine keeps (h.modOutputs (fun l => ⟨output, none⟩ :: l) ?_)
      intro l hl o ho
      obtain rfl | ho := List.mem_cons.1 ho
      · exact held_none
      · exact hl o ho
  | outputDestroy output calls => exact keeps ((h.destroyLockOutput output).treeCalls calls)
  | tree calls => exact keeps (h.treeCalls calls)
  | focus k previous calls => exact keeps (h.setFocusKeys k previous calls)
  | focusLayer k layer exclusive => exact keeps (h.focusLayer k layer exclusive)
  | unfocusLayer k previous => exact keeps (h.unfocusLayer k previous)
  | unmanagedMap surface wantsFocus =>
      show Locking clientOf (unmanagedHandleMap _ surface wantsFocus)
      unfold unmanagedHandleMap
      split
      · next hw => exact keeps ((h.mapped _).focusUnmanaged (hclient ▸ he lock hlock hw))
      · exact keeps (h.mapped _)
  | unmanagedUnmap surface parent previous =>
      refine keeps ((h.mapped _).unmanagedUnmap surface previous ?_)
      rw [← hclient]
      exact he lock hlock
  | unmanagedActivate surface pid =>
      show Locking clientOf (unmanagedHandleRequestActivate s surface pid)
      unfold unmanagedHandleRequestActivate
      split
      · next hgranted =>
        obtain ⟨hmapped, hactivates⟩ := Bool.and_eq_true_iff.1 hgranted
        exact keeps (h.focusUnmanaged (hclient ▸ he lock hlock hmapped hactivates))
      · exact keeps h
  | startDrag k =>
      exact keeps (h.modSeat k (f := fun e => { e with focusedSurface := none, grabbed := true })
        fun _ _ => held_none)
  | endDrag k previous calls exclusive => exact keeps (h.dragEnd k previous calls exclusive)
  | popupGrab k grabbed =>
      exact keeps (h.modSeat k (f := fun e => { e with grabbed }) fun _ he => he)
  | surfaceDestroy surface => exact keeps (h.surfaceGone surface)

end Locked

theorem Locking.step {s : LockState} (h : Locking clientOf s) {e : LockEvent}
    (he : Confining clientOf s e) : Locking clientOf (lockStep clientOf s e) := by
  obtain hnone | ⟨client, hlocked⟩ := h
  · by_cases hlock : ∃ client outputs previous, e = .lock client outputs previous
    · obtain ⟨client, outputs, previous, rfl⟩ := hlock
      exact locking_handleSessionLock (Or.inl hnone) he
    · left
      apply lock_lockStep hnone
      intro client outputs previous heq
      exact hlock ⟨client, outputs, previous, heq⟩
  · exact hlocked.step he

/-- **The session lock confines the keyboard**: from a session that nobody has locked, whatever
happens, no seat has the keyboard on a surface of another client while the session is locked, as
long as the seats release it when the session is locked and no override-redirect surface of another
client takes it afterwards. -/
theorem confined_of_run {s t : LockState} (hs : s.lock = none)
    (h : Run (lockStep clientOf) (Confining clientOf) s t) : Confined clientOf t := by
  have hlocking : Locking clientOf t := by
    refine h.invariant ?_ (Or.inl hs)
    intro s e hI he
    exact hI.step he
  exact hlocking.confined

/-- A session with one seat, whose keyboard is on a view of client 2. -/
def LockState.start : LockState where
  seats := [0]
  seat _ :=
    { focusedSurface := some 2, grabbed := false, hasFocus := true, head := some (.view 2 20)
      focusedLayer := none, hasExclusiveLayer := false }
  currentSeat := 0
  lock := none
  mapped _ := false

/-- Client 1 locks the session, which takes the keyboard from the view, and maps its surface; then
an override-redirect surface that does not ask for the keyboard is mapped. -/
theorem confined_locked :
    Confined id ([LockEvent.lock 1 [0] fun _ => some (some (.view 2 20)), .newLockSurface 0 1,
      .lockSurfaceMap 0, .unmanagedMap 3 false].foldl (lockStep id) LockState.start) := by
  refine confined_of_run rfl (Run.foldl ⟨?_, trivial, trivial, ?_, trivial⟩)
  · intro _ k hk
    obtain rfl : k = 0 := List.mem_singleton.1 hk
    right
    refine ⟨rfl, Or.inr ⟨?_, 2, 20, rfl, by decide⟩⟩
    rintro ⟨layer, hl, -⟩
    cases hl
  · intro lock _ hw
    cases hw

/-- Client 1 locks the session; then an override-redirect surface of client 2 is mapped, which gets
the keyboard. -/
theorem confined_fails_unmanagedMap :
    ¬ Confined id ([LockEvent.lock 1 [0] fun _ => some (some (.view 2 20)), .newLockSurface 0 1,
      .lockSurfaceMap 0, .unmanagedMap 2 true].foldl (lockStep id) LockState.start) := by
  intro h
  have hheld := h _ rfl 0 (List.mem_singleton_self 0) 2 rfl
  exact absurd hheld (by decide)

/-- A layer surface of client 2 over an empty workspace keeps the keyboard when client 1 locks the
session: nothing had the focus that it could lose. -/
example :
    ((lockStep id
      { LockState.start with
        seat := fun _ =>
          { focusedSurface := some 2, grabbed := false, hasFocus := false, head := none
            focusedLayer := some 2, hasExclusiveLayer := false } }
      (.lock 1 [0] fun _ => some (some .other))).seat 0).focusedSurface = some 2 := by decide

end Swirl

import Swirl.Input.Gestures
import Swirl.Lib.Runs

set_option autoImplicit false

/-! # Begins and ends of gestures

What a client gets of a gesture: the begin goes by the bindings and the seat operation at that time,
and the end by the tracker of the seat operation that is there then. They fit together only as long
as the seat operation and the pointer focus do.
-/

namespace Swirl

open Swirl.Lib

/-- The gesture that a pointer is in the middle of: its type, whether its begin was captured for a
binding, and the client that its begin was sent to. -/
structure UnderwayGesture where
  type : GestureType
  captured : Bool
  begunBy : Option Nat
  deriving DecidableEq

/-- A seat, and the gesture that is under way. -/
structure GestureRun where
  seat : GestureSeat
  underway : Option UnderwayGesture
  deriving DecidableEq

/-- A seat without a gesture, in a new default seat operation. -/
def GestureRun.init (bindings : List GestureBinding) (focusedClient : Option Nat) : GestureRun :=
  ⟨⟨.default GestureTracker.init, focusedClient, bindings⟩, none⟩

/-- The clients that something is sent to. -/
def receivers (outputs : List GestureOutput) : List Nat :=
  outputs.filterMap fun output =>
    match output with
    | .send client _ => some client
    | .execute _ => none

/-- The begin of a gesture is captured for a binding. -/
def gestureCaptured (seat : GestureSeat) (type : GestureType) (fingers : UInt32)
    (input : String) : Bool :=
  match seat.seatop with
  | .default _ => gestureBindingCheck seat.gestureBindings type fingers.toUInt8 input
  | .other => false

/-- A step of the seat, with the gesture that is under way afterwards. -/
def gestureRunStep (r : GestureRun) (e : GestureEvent) : GestureRun where
  seat := (gestureSeatStep r.seat e).1
  underway :=
    match e with
    | .begin type _ fingers input =>
        some ⟨type, gestureCaptured r.seat type fingers input,
          (receivers (gestureSeatStep r.seat e).2).head?⟩
    | .finish .. => none
    | _ => r.underway

/-- The pointer ends each gesture before it begins the next one, and updates only the one that is
under way. -/
def Bracketed (r : GestureRun) : GestureEvent → Prop
  | .begin .. => r.underway = none
  | .update _ update => r.underway.map UnderwayGesture.type = some update.type
  | .finish type .. => r.underway.map UnderwayGesture.type = some type
  | _ => True

instance : (r : GestureRun) → (e : GestureEvent) → Decidable (Bracketed r e)
  | r, .begin .. => inferInstanceAs (Decidable (r.underway = none))
  | r, .update _ update =>
      inferInstanceAs (Decidable (r.underway.map UnderwayGesture.type = some update.type))
  | r, .finish type .. =>
      inferInstanceAs (Decidable (r.underway.map UnderwayGesture.type = some type))
  | _, .beginDefault _ | _, .beginOther _ | _, .pointerFocus _ | _, .setBindings _ =>
      instDecidableTrue

/-- The clients that get the end of a gesture are those that got its begin, and nothing is sent for
a captured one. -/
def Paired (r : GestureRun) (e : GestureEvent) : Prop :=
  match e, r.underway with
  | .begin type _ fingers input, _ =>
      gestureCaptured r.seat type fingers input = true →
        receivers (gestureSeatStep r.seat e).2 = []
  | .update .., some gesture =>
      gesture.captured = true → receivers (gestureSeatStep r.seat e).2 = []
  | .finish .., some gesture =>
      (∀ client, client ∈ receivers (gestureSeatStep r.seat e).2 ↔
        gesture.begunBy = some client) ∧
      (gesture.captured = true → receivers (gestureSeatStep r.seat e).2 = [])
  | _, _ => True

/-- The seat operation is one that sends gestures on. -/
def Seatop.sends : Seatop → Bool
  | .default _ => true
  | .other => false

/-- The seat operation tracks a gesture of this type. -/
def Seatop.tracks (type : GestureType) : Seatop → Bool
  | .default gestures => gestureTrackerCheck gestures type
  | .other => false

/-- What is sent for a gesture of this type goes to no client: the seat operation drops it or tracks
it, or no client has the pointer focus. -/
def GoesNowhere (seat : GestureSeat) (type : GestureType) : Prop :=
  seat.seatop.sends = false ∨ seat.seatop.tracks type = true ∨ seat.focusedClient = none

/-- At its end a gesture that was sent to a client finds the default seat operation and that client
with the pointer focus, and another one goes nowhere; and so do the updates of a captured one. -/
def KeepsPair (r : GestureRun) (e : GestureEvent) : Prop :=
  match e, r.underway with
  | .update _ update, some gesture =>
      gesture.captured = true → GoesNowhere r.seat update.type
  | .finish type .., some gesture =>
      match gesture.begunBy with
      | some client => r.seat.seatop.sends = true ∧ r.seat.focusedClient = some client
      | none => GoesNowhere r.seat type
  | _, _ => True

/-! ## One step -/

section Step

variable {seat : GestureSeat} {type : GestureType}

theorem receivers_send (message : GestureMessage) :
    receivers (seat.send message) = seat.focusedClient.toList := by
  unfold GestureSeat.send
  cases seat.focusedClient <;> rfl

/-- A begin is dropped, captured, or sent on. -/
theorem seatopGestureBegin_eq (timeMsec fingers : UInt32) (input : String) :
    seatopGestureBegin seat type timeMsec fingers input =
      if seat.seatop.sends then gestureBegin type seat timeMsec fingers input else (seat, []) := by
  unfold seatopGestureBegin
  cases seat.seatop <;> cases type <;> rfl

variable (seat type) in
theorem receivers_begin (timeMsec fingers : UInt32) (input : String) :
    receivers (seatopGestureBegin seat type timeMsec fingers input).2 =
      if seat.seatop.sends && !gestureCaptured seat type fingers input then
        seat.focusedClient.toList
      else [] := by
  rw [seatopGestureBegin_eq]
  unfold gestureCaptured gestureBegin
  cases hseatop : seat.seatop with
  | other => rfl
  | default gestures =>
      simp only [Seatop.sends, if_true, Bool.true_and]
      cases gestureBindingCheck seat.gestureBindings type fingers.toUInt8 input with
      | true => rfl
      | false => exact receivers_send _

/-- The clients that get an update or an end. -/
theorem receivers_update (timeMsec : UInt32) (update : GestureUpdate) :
    receivers (seatopGestureUpdate seat timeMsec update).2 =
      if seat.seatop.sends && !seat.seatop.tracks update.type then seat.focusedClient.toList
      else [] := by
  have hdefault : ∀ gestures, seat.seatop = .default gestures →
      seatopGestureUpdate seat timeMsec update = gestureUpdate update seat gestures timeMsec := by
    intro gestures hseatop
    unfold seatopGestureUpdate
    rw [hseatop]
    cases update <;> rfl
  cases hseatop : seat.seatop with
  | other =>
      unfold seatopGestureUpdate
      rw [hseatop]
      rfl
  | default gestures =>
      rw [hdefault gestures hseatop]
      unfold gestureUpdate
      simp only [Seatop.sends, Seatop.tracks, Bool.true_and]
      cases gestureTrackerCheck gestures update.type with
      | true => rfl
      | false => exact receivers_send _

/-- An end in the default seat operation. -/
theorem seatopGestureEnd_default {gestures : GestureTracker} (hseatop : seat.seatop = .default gestures)
    (timeMsec : UInt32) (cancelled : Bool) (input : String) :
    seatopGestureEnd seat type timeMsec cancelled input =
      gestureEnd type seat gestures timeMsec cancelled input := by
  unfold seatopGestureEnd
  rw [hseatop]
  cases type <;> rfl

theorem receivers_end (timeMsec : UInt32) (cancelled : Bool) (input : String) :
    receivers (seatopGestureEnd seat type timeMsec cancelled input).2 =
      if seat.seatop.sends && !seat.seatop.tracks type then seat.focusedClient.toList else [] := by
  cases hseatop : seat.seatop with
  | other =>
      unfold seatopGestureEnd
      rw [hseatop]
      rfl
  | default gestures =>
      rw [seatopGestureEnd_default hseatop]
      unfold gestureEnd
      simp only [Seatop.sends, Seatop.tracks, Bool.true_and]
      cases gestureTrackerCheck gestures type with
      | false => exact receivers_send _
      | true =>
          cases cancelled with
          | true => rfl
          | false =>
              -- the command of the binding goes to no client
              cases gestureBindingMatch (gestureTrackerEnd gestures type).1 input
                seat.gestureBindings none <;> rfl

variable (seat type) in
/-- Nothing is sent exactly when it goes nowhere. -/
theorem sentTo_eq_nil_iff :
    (if seat.seatop.sends && !seat.seatop.tracks type then seat.focusedClient.toList else []) = [] ↔
      GoesNowhere seat type := by
  unfold GoesNowhere
  cases seat.seatop.sends <;> cases seat.seatop.tracks type <;> cases seat.focusedClient <;> simp

end Step

/-! ## The tracker and the gesture under way -/

/-- The tracker of the default seat operation tracks only a gesture that is under way and was
captured, and a captured gesture has no client. -/
structure TrackerFits (r : GestureRun) : Prop where
  tracked : ∀ type, r.seat.seatop.tracks type = true →
    ∃ gesture, r.underway = some gesture ∧ gesture.captured = true ∧ gesture.type = type
  captured : ∀ gesture, r.underway = some gesture → gesture.captured = true →
    gesture.begunBy = none

theorem tracks_default_iff {gestures : GestureTracker} {type : GestureType} :
    (Seatop.default gestures).tracks type = true ↔ gestures.type = some type := by
  unfold Seatop.tracks gestureTrackerCheck
  exact decide_eq_true_iff

theorem trackerFits_init (bindings : List GestureBinding) (focusedClient : Option Nat) :
    TrackerFits (GestureRun.init bindings focusedClient) where
  tracked type h := by
    rw [GestureRun.init, tracks_default_iff] at h
    cases h
  captured gesture h := by cases h

/-- A begin, which comes when no gesture is under way. -/
theorem trackerFits_begin {r : GestureRun} (h : TrackerFits r) (hnone : r.underway = none)
    (type : GestureType) (timeMsec fingers : UInt32) (input : String) :
    TrackerFits (gestureRunStep r (.begin type timeMsec fingers input)) := by
  have hidle : ∀ type', r.seat.seatop.tracks type' = false := by
    intro type'
    by_contra htracks
    obtain ⟨gesture, hgesture, -⟩ := h.tracked type' (Bool.not_eq_false _ ▸ htracks)
    rw [hnone] at hgesture
    cases hgesture
  refine ⟨fun type' htracks => ?_, fun gesture hgesture hcaptured => ?_⟩
  · refine ⟨_, rfl, ?_⟩
    have hseat : (gestureRunStep r (.begin type timeMsec fingers input)).seat =
        (seatopGestureBegin r.seat type timeMsec fingers input).1 := rfl
    rw [hseat, seatopGestureBegin_eq] at htracks
    cases hseatop : r.seat.seatop with
    | other =>
        rw [hseatop] at htracks
        simp [Seatop.sends, hseatop, Seatop.tracks] at htracks
    | default gestures =>
        have hcap : gestureCaptured r.seat type fingers input =
            gestureBindingCheck r.seat.gestureBindings type fingers.toUInt8 input := by
          unfold gestureCaptured
          rw [hseatop]
        rw [hseatop] at htracks
        simp only [Seatop.sends, if_true] at htracks
        unfold gestureBegin at htracks
        cases hcheck : gestureBindingCheck r.seat.gestureBindings type fingers.toUInt8 input with
        | true =>
            rw [hcheck] at htracks
            simp only [if_true, tracks_default_iff, gestureTrackerBegin] at htracks
            exact ⟨hcap.trans hcheck, Option.some.inj htracks⟩
        | false =>
            rw [hcheck] at htracks
            simp only [Bool.false_eq_true, if_false, hidle] at htracks
  · obtain rfl := Option.some.inj hgesture
    have hsent := receivers_begin r.seat type timeMsec fingers input
    dsimp only at hcaptured
    rw [hcaptured] at hsent
    simp only [Bool.not_true, Bool.and_false, Bool.false_eq_true, if_false] at hsent
    show (receivers (seatopGestureBegin r.seat type timeMsec fingers input).2).head? = none
    rw [hsent]
    rfl

/-- An update leaves what is tracked. -/
theorem tracks_update (seat : GestureSeat) (timeMsec : UInt32) (update : GestureUpdate)
    (type : GestureType) :
    (seatopGestureUpdate seat timeMsec update).1.seatop.tracks type = seat.seatop.tracks type := by
  cases hseatop : seat.seatop with
  | other =>
      unfold seatopGestureUpdate
      rw [hseatop]
      exact congrArg (Seatop.tracks type) hseatop
  | default gestures =>
      have hupdate : seatopGestureUpdate seat timeMsec update =
          gestureUpdate update seat gestures timeMsec := by
        unfold seatopGestureUpdate
        rw [hseatop]
        cases update <;> rfl
      rw [hupdate]
      unfold gestureUpdate
      split_ifs
      · cases update <;> rfl
      · exact congrArg (Seatop.tracks type) hseatop

/-- After the end of a gesture the tracker that tracked it tracks nothing. -/
theorem tracks_end {seat : GestureSeat} {type type' : GestureType} (timeMsec : UInt32)
    (cancelled : Bool) (input : String)
    (htracks : (seatopGestureEnd seat type timeMsec cancelled input).1.seatop.tracks type' = true) :
    seat.seatop.tracks type' = true ∧ type' ≠ type := by
  cases hseatop : seat.seatop with
  | other =>
      unfold seatopGestureEnd at htracks
      rw [hseatop] at htracks
      simp [hseatop, Seatop.tracks] at htracks
  | default gestures =>
      rw [seatopGestureEnd_default hseatop] at htracks
      unfold gestureEnd at htracks
      cases hcheck : gestureTrackerCheck gestures type with
      | false =>
          rw [hcheck] at htracks
          simp only [Bool.not_false, if_true, hseatop] at htracks
          refine ⟨htracks, ?_⟩
          rintro rfl
          have hcheck' : (Seatop.default gestures).tracks type' = false := hcheck
          rw [htracks] at hcheck'
          cases hcheck'
      | true =>
          rw [hcheck] at htracks
          cases cancelled with
          | true =>
              simp [Seatop.tracks, gestureTrackerCheck, gestureTrackerCancel] at htracks
          | false =>
              simp [Seatop.tracks, gestureTrackerCheck, gestureTrackerEnd] at htracks

theorem trackerFits_step {r : GestureRun} {e : GestureEvent} (h : TrackerFits r)
    (hbr : Bracketed r e) : TrackerFits (gestureRunStep r e) := by
  cases e with
  | begin type timeMsec fingers input => exact trackerFits_begin h hbr type timeMsec fingers input
  | update timeMsec update =>
      refine ⟨fun type htracks => h.tracked type ?_, h.captured⟩
      rw [← tracks_update r.seat timeMsec update type]
      exact htracks
  | finish type timeMsec cancelled input =>
      refine ⟨fun type' htracks => ?_, fun gesture hgesture => by cases hgesture⟩
      -- only the gesture that ends could have been tracked
      obtain ⟨hbefore, hne⟩ := tracks_end timeMsec cancelled input htracks
      obtain ⟨gesture, hgesture, -, htype⟩ := h.tracked type' hbefore
      have hunderway : r.underway.map UnderwayGesture.type = some type := hbr
      rw [hgesture] at hunderway
      exact absurd (htype.symm.trans (Option.some.inj hunderway)) hne
  | beginDefault focusedClient =>
      refine ⟨fun type htracks => ?_, h.captured⟩
      have hnone := tracks_default_iff.1 htracks
      cases hnone
  | beginOther focusedClient =>
      refine ⟨fun type htracks => ?_, h.captured⟩
      cases htracks
  | pointerFocus focusedClient => exact ⟨h.tracked, h.captured⟩
  | setBindings bindings => exact ⟨h.tracked, h.captured⟩

/-! ## Pairing -/

/-- A gesture whose begin went to a client is not tracked. -/
theorem TrackerFits.not_tracks {r : GestureRun} (h : TrackerFits r) {gesture : UnderwayGesture}
    (hgesture : r.underway = some gesture) {client : Nat} (hbegun : gesture.begunBy = some client)
    (type : GestureType) : r.seat.seatop.tracks type = false := by
  by_contra htracks
  obtain ⟨gesture', hgesture', hcaptured, -⟩ := h.tracked type (Bool.not_eq_false _ ▸ htracks)
  have hnone := h.captured gesture' hgesture' hcaptured
  rw [hgesture] at hgesture'
  obtain rfl := Option.some.inj hgesture'
  rw [hbegun] at hnone
  cases hnone

/-- One step pairs begins and ends exactly when the seat operation and the pointer focus fit. -/
theorem paired_iff_keepsPair {r : GestureRun} {e : GestureEvent} (h : TrackerFits r)
    (hbr : Bracketed r e) : Paired r e ↔ KeepsPair r e := by
  cases e with
  | begin type timeMsec fingers input =>
      refine iff_of_true (fun hcaptured => ?_) trivial
      show receivers (seatopGestureBegin r.seat type timeMsec fingers input).2 = []
      rw [receivers_begin, hcaptured]
      simp
  | update timeMsec update =>
      unfold Paired KeepsPair
      cases hgesture : r.underway with
      | none => exact Iff.rfl
      | some gesture =>
          refine imp_congr_right fun _ => ?_
          show receivers (seatopGestureUpdate r.seat timeMsec update).2 = [] ↔ _
          rw [receivers_update]
          exact sentTo_eq_nil_iff r.seat update.type
  | finish type timeMsec cancelled input =>
      unfold Paired KeepsPair
      cases hgesture : r.underway with
      | none => exact Iff.rfl
      | some gesture =>
          have hends : receivers (gestureSeatStep r.seat (.finish type timeMsec cancelled input)).2 =
              if r.seat.seatop.sends && !r.seat.seatop.tracks type then
                r.seat.focusedClient.toList
              else [] := receivers_end timeMsec cancelled input
          have hnowhere := sentTo_eq_nil_iff r.seat type
          rw [← hends] at hnowhere
          dsimp only
          cases hbegun : gesture.begunBy with
          | none =>
              rw [← hnowhere]
              constructor
              · rintro ⟨hall, -⟩
                exact List.eq_nil_iff_forall_not_mem.2 fun client hclient => by
                  cases (hall client).1 hclient
              · intro hnil
                rw [hnil]
                exact ⟨fun client => by simp, fun _ => rfl⟩
          | some client =>
              have hfree : gesture.captured ≠ true := by
                intro hcaptured
                rw [h.captured gesture hgesture hcaptured] at hbegun
                cases hbegun
              rw [hends, h.not_tracks hgesture hbegun type]
              cases r.seat.seatop.sends with
              | false => simp [hfree]
              | true =>
                  cases r.seat.focusedClient with
                  | none => simp [hfree]
                  | some focused => simp [hfree, eq_comm]
  | beginDefault focusedClient => exact Iff.rfl
  | beginOther focusedClient => exact Iff.rfl
  | pointerFocus focusedClient => exact Iff.rfl
  | setBindings bindings => exact Iff.rfl

/-- In a run of a seat in which the pointer ends each gesture before it begins the next one, the
clients that get ends are those that got the begins, and captured gestures are sent nowhere, exactly
when at the end of each gesture that was sent to a client the default seat operation is there and
that client has the pointer focus, and the others, and the updates of captured ones, go nowhere. -/
theorem gestures_paired_iff (bindings : List GestureBinding) (focusedClient : Option Nat)
    (events : List GestureEvent)
    (h : Allowed gestureRunStep Bracketed (GestureRun.init bindings focusedClient) events) :
    Allowed gestureRunStep Paired (GestureRun.init bindings focusedClient) events ↔
      Allowed gestureRunStep KeepsPair (GestureRun.init bindings focusedClient) events :=
  Allowed.congr (fun _ _ hr hbr => trackerFits_step hr hbr)
    (fun _ _ hr hbr => paired_iff_keepsPair hr hbr) (trackerFits_init bindings focusedClient) h

/-- A swipe with three fingers over a client, during which a seat operation begins. -/
def swipeThenDrag : List GestureEvent :=
  [.begin .swipe 0 3 "*", .update 10 (.swipe 5 0), .beginOther (some 7), .finish .swipe 20 false "*"]

theorem gestures_paired_iff_swipeThenDrag :
    Allowed gestureRunStep Paired (GestureRun.init [] (some 7)) swipeThenDrag ↔
      Allowed gestureRunStep KeepsPair (GestureRun.init [] (some 7)) swipeThenDrag :=
  gestures_paired_iff [] (some 7) swipeThenDrag (by decide)

/-- The client gets the begin of the swipe, and no end. -/
theorem swipeThenDrag_not_paired :
    Allowed gestureRunStep Bracketed (GestureRun.init [] (some 7)) swipeThenDrag ∧
      ¬ Allowed gestureRunStep Paired (GestureRun.init [] (some 7)) swipeThenDrag := by
  refine ⟨by decide, fun h => ?_⟩
  -- the fourth event is the end
  have hends := (h.2.2.2.1.1 7).2 rfl
  have hnone : receivers (gestureSeatStep
      (([.begin .swipe 0 3 "*", .update 10 (.swipe 5 0), .beginOther (some 7)] :
        List GestureEvent).foldl gestureRunStep (GestureRun.init [] (some 7))).seat
      (.finish .swipe 20 false "*")).2 = [] := by
    decide
  exact absurd (hnone ▸ hends) (by simp)

end Swirl

import Swirl.Desktop.Overview

set_option autoImplicit false

/-! # The numbers of the overview

A thumbnail gets its number when it is drawn, on a badge; the digit keys count the places in the
list of thumbnails. The two agree as long as the list holds the thumbnails `1` to `n` in order.
Closing a thumbnail with the middle button does not draw the badges anew, so a close that is not
that of the last thumbnail separates them, and so does a thumbnail that is lost after its number
was given.
-/

namespace Swirl

open Lib

/-- What came of drawing a thumbnail: nothing could be drawn, what was drawn could not be put into
the scene, or it is shown, with a badge unless there was no buffer for one. -/
inductive Drawn where
  | failed
  | lost
  | shown (badge : Bool)
  deriving DecidableEq, Repr

/-- The overview with the numbers on the badges of its thumbnails. -/
structure Numbered where
  desk : Desk
  badges : List (Option Nat)

/-- The counter of `overview_collect`, over the containers that are drawn: the number is counted
even if the thumbnail is lost in `overview_thumbnail_finalize`. -/
def numberThumbnails : List (Thumbnail × Drawn) → Nat → List (Thumbnail × Option Nat)
  | [], _ => []
  | (t, drawn) :: ts, idx =>
      match drawn with
      | .failed => numberThumbnails ts idx
      | .lost => numberThumbnails ts (idx + 1)
      | .shown badge =>
          (t, if badge then some (idx + 1) else none) :: numberThumbnails ts (idx + 1)

variable (fo : FocusOps) (env : OverviewEnv)

/-- What is drawn when the overview opens, with the outcomes. -/
def drawnThumbnails (draw : Nat → Drawn) (d : Desk) (w : WsId) : List (Thumbnail × Drawn) :=
  (overviewThumbnails d w).zipIdx.map fun t => (t.1, draw t.2)

/-- `overview_toggle`, opening the overview on an output that can be drawn on. -/
def openNumbered (draw : Nat → Drawn) (d : Desk) (o : OutId) (w : WsId) : Numbered :=
  let d := overviewSetup env d
  let ts := numberThumbnails (drawnThumbnails draw d w) 0
  { desk :=
      overviewLayoutGrid env
        { d with overview := { d.overview with thumbnails := ts.map Prod.fst } } o
    badges := ts.map Prod.snd }

/-- The place of the thumbnail that an event closes. -/
def closedPlace (d : Desk) : OverviewEvent → Option Nat
  | .button k b =>
      match buttonPick d k b with
      | some _ => none
      | none => (buttonClose env d k b).map Prod.fst
  | _ => none

/-- One event while the overview is open; a closed thumbnail takes its badge along. -/
def numberedStep (n : Numbered) (e : OverviewEvent) : Numbered where
  desk := overviewStep fo env n.desk e
  badges :=
    match closedPlace env n.desk e with
    | some i => n.badges.eraseIdx i
    | none => n.badges

/-- An event of a session: the overview is open before it and after it. -/
def StaysOpen (n : Numbered) (e : OverviewEvent) : Prop :=
  n.desk.overview.active = true ∧ (overviewStep fo env n.desk e).overview.active = true

/-- Only the last thumbnail is closed. -/
def ClosesLast (n : Numbered) (e : OverviewEvent) : Prop :=
  ∀ i, closedPlace env n.desk e = some i → i + 1 = n.badges.length

/-! ## Typing a number -/

/-- `numberedThumbnail`, as a place. -/
def numberedPlace (o : Overview) (idx : Nat) : Option Nat :=
  if 1 ≤ idx ∧ idx ≤ o.thumbnails.length then some (idx - 1) else none

theorem numberedThumbnail_eq (o : Overview) (idx : Nat) :
    numberedThumbnail o idx = (numberedPlace o idx).bind fun i => o.thumbnails[i]? := by
  unfold numberedThumbnail numberedPlace
  by_cases hpos : 1 ≤ idx
  · rw [if_pos hpos]
    by_cases hle : idx ≤ o.thumbnails.length
    · rw [if_pos ⟨hpos, hle⟩]
      rfl
    · rw [if_neg fun h => hle h.2]
      exact List.getElem?_eq_none (by omega)
  · rw [if_neg hpos, if_neg fun h => hpos h.1]
    rfl

/-- The two digits of a number. -/
def tens (x : Nat) : Fin 10 := ⟨x / 10 % 10, Nat.mod_lt _ (by decide)⟩
def units (x : Nat) : Fin 10 := ⟨x % 10, Nat.mod_lt _ (by decide)⟩

/-- Typing the two digits of a number runs the action of the thumbnail at a place, or of none. -/
structure Types (o : Overview) (x : Nat) (place : Option Nat) : Prop where
  first : keyPick o (.digit (tens x)) = none
  second : (typedNumber (keyTyped o (.digit (tens x))) (units x)).map
    (numberedPlace (keyTyped o (.digit (tens x)))) = some place

/-- **The numbers are right**: the number on a badge picks the thumbnail that has it, and a number
on no badge picks none. -/
structure NumbersRight (n : Numbered) : Prop where
  badge : ∀ (i x : Nat), n.badges[i]? = some (some x) → x ≤ 99 →
    Types n.desk.overview x (some i)
  other : ∀ x, x ≤ 99 → some x ∉ n.badges → Types n.desk.overview x none

/-- At most one digit is pending, and without one nothing is left of an earlier entry. -/
def DigitsOk (o : Overview) : Prop :=
  o.digitCount = 0 ∧ o.digitBuf = 0 ∨ o.digitCount = 1 ∧ o.digitBuf < 10

/-- The badges count from one. -/
def CountsUp (l : List (Option Nat)) : Prop := l = (List.range' 1 l.length).map some

section Types

variable {o : Overview} {x : Nat}

/-- With nothing typed, two digits pick what their number says. -/
theorem types_iff (hcount : o.digitCount = 0) (hbuf : o.digitBuf = 0) (hx : x ≤ 99)
    (place : Option Nat) : Types o x place ↔ numberedPlace o x = place := by
  have hfirst : typedNumber o (tens x) = none := by
    unfold typedNumber
    rw [hcount, if_neg (by omega)]
  have htyped : keyTyped o (.digit (tens x)) =
      { o with digitBuf := x / 10 % 10, digitCount := 1 } := by
    show (match typedNumber o (tens x) with
      | some _ => { o with digitBuf := 0, digitCount := 0 }
      | none => { o with
          digitBuf := o.digitBuf * 10 + tens x
          digitCount := o.digitCount + 1 } : Overview) = _
    rw [hfirst]
    dsimp only
    rw [hbuf, hcount]
    simp [tens]
  have hsecond : typedNumber (keyTyped o (.digit (tens x))) (units x) = some x := by
    rw [htyped]
    unfold typedNumber
    dsimp only
    rw [if_pos (by omega)]
    simp only [units, Option.some.injEq]
    omega
  have hplace : numberedPlace (keyTyped o (.digit (tens x))) = numberedPlace o := by
    rw [htyped]
    rfl
  constructor
  · intro h
    have hs := h.second
    rw [hsecond, hplace] at hs
    exact Option.some.inj hs
  · rintro rfl
    refine ⟨?_, ?_⟩
    · show (typedNumber o (tens x)).map _ = none
      rw [hfirst]
      rfl
    · rw [hsecond, hplace]
      rfl

/-- The first digit of a number picks nothing only when no digit is pending. -/
theorem digitCount_of_types {place : Option Nat} (h : Types o x place) : o.digitCount = 0 := by
  have hfirst : (typedNumber o (tens x)).map (numberedThumbnail o) = none := h.first
  rw [Option.map_eq_none_iff] at hfirst
  unfold typedNumber at hfirst
  split at hfirst
  · cases hfirst
  · omega

/-- **The numbers are right exactly when no digit is pending and the badges count from one.** -/
theorem numbersRight_iff {n : Numbered} (hlen : n.badges.length = n.desk.overview.thumbnails.length)
    (hdigits : DigitsOk n.desk.overview) (hmany : n.desk.overview.thumbnails.length ≤ 99) :
    NumbersRight n ↔ n.desk.overview.digitCount = 0 ∧ CountsUp n.badges := by
  have htypes : n.desk.overview.digitCount = 0 → ∀ y place, y ≤ 99 →
      (Types n.desk.overview y place ↔ numberedPlace n.desk.overview y = place) := by
    intro hcount y place hy
    refine types_iff hcount ?_ hy place
    rcases hdigits with hd | hd <;> omega
  have hplace : ∀ i, i < n.badges.length → numberedPlace n.desk.overview (i + 1) = some i := by
    intro i hi
    unfold numberedPlace
    rw [if_pos (by omega)]
    rfl
  constructor
  · intro h
    have hcount : n.desk.overview.digitCount = 0 := by
      by_cases hzero : some 0 ∈ n.badges
      · obtain ⟨i, hi⟩ := List.mem_iff_getElem?.mp hzero
        exact digitCount_of_types (h.badge i 0 hi (by omega))
      · exact digitCount_of_types (h.other 0 (by omega) hzero)
    refine ⟨hcount, List.ext_getElem? fun i => ?_⟩
    by_cases hi : i < n.badges.length
    · have hget : ((List.range' 1 n.badges.length).map some)[i]? = some (some (i + 1)) := by
        rw [List.getElem?_map, List.getElem?_range' hi]
        simp [Nat.add_comm]
      rw [hget]
      -- the number of the place is on some badge, and it picks this place
      have hshown : some (i + 1) ∈ n.badges := by
        by_contra hno
        have hnone := (htypes hcount (i + 1) none (by omega)).mp (h.other (i + 1) (by omega) hno)
        rw [hplace i hi] at hnone
        cases hnone
      obtain ⟨j, hj⟩ := List.mem_iff_getElem?.mp hshown
      have hpick := (htypes hcount (i + 1) (some j) (by omega)).mp (h.badge j (i + 1) hj (by omega))
      rw [hplace i hi] at hpick
      obtain rfl := Option.some.inj hpick
      exact hj
    · rw [List.getElem?_eq_none (by omega), List.getElem?_eq_none (by simp; omega)]
  · rintro ⟨hcount, hup⟩
    have hbadge : ∀ i, i < n.badges.length → n.badges[i]? = some (some (i + 1)) := by
      intro i hi
      rw [hup, List.getElem?_map, List.getElem?_range' hi]
      simp [Nat.add_comm]
    refine ⟨fun i x hi hx => (htypes hcount x (some i) hx).mpr ?_,
      fun x hx hno => (htypes hcount x none hx).mpr ?_⟩
    · have hlt : i < n.badges.length := (List.getElem?_eq_some_iff.mp hi).1
      rw [hbadge i hlt] at hi
      obtain rfl : i + 1 = x := by simpa using hi
      exact hplace i hlt
    · unfold numberedPlace
      refine if_neg fun hin => hno ?_
      have hmem := List.mem_of_getElem? (hbadge (x - 1) (by omega))
      rwa [Nat.sub_add_cancel hin.1] at hmem

/-- What is typed is what the key handler runs. -/
theorem Types.handle {fo : FocusOps} {env : OverviewEnv} {d : Desk} {place : Option Nat}
    (h : Types d.overview x place) (hact : d.overview.active = true) :
    overviewHandleKey fo env (overviewHandleKey fo env d (.digit (tens x))) (.digit (units x)) =
      let o := keyTyped d.overview (.digit (tens x))
      pickThumbnail fo env { d with overview := keyTyped o (.digit (units x)) }
        (place.bind fun i => o.thumbnails[i]?) := by
  have hone : overviewHandleKey fo env d (.digit (tens x)) =
      { d with overview := keyTyped d.overview (.digit (tens x)) } := by
    unfold overviewHandleKey
    rw [if_pos hact]
    dsimp only
    rw [h.first]
  have hstill : (keyTyped d.overview (.digit (tens x))).active = true :=
    (SameNames.keyTyped d.overview _).active.trans hact
  obtain ⟨y, hy, hplace⟩ := Option.map_eq_some_iff.mp h.second
  have hpick : keyPick (keyTyped d.overview (.digit (tens x))) (.digit (units x)) =
      some (place.bind fun i => (keyTyped d.overview (.digit (tens x))).thumbnails[i]?) := by
    show (typedNumber _ (units x)).map (numberedThumbnail _) = _
    rw [hy, Option.map_some, numberedThumbnail_eq, hplace]
  rw [hone]
  unfold overviewHandleKey
  dsimp only
  rw [if_pos hstill, hpick]

end Types

/-! ## Sessions -/

/-- Every thumbnail has its entry in the list of badges. -/
structure SessionInv (n : Numbered) : Prop where
  length : n.badges.length = n.desk.overview.thumbnails.length
  digits : DigitsOk n.desk.overview

section Sessions

variable {fo : FocusOps} {env : OverviewEnv} {d : Desk} {n : Numbered}

theorem digits_setHover (o : Overview) (i : Nat) :
    (overviewSetHover o i).digitCount = o.digitCount ∧
      (overviewSetHover o i).digitBuf = o.digitBuf := by
  unfold overviewSetHover
  split
  · split <;> exact ⟨rfl, rfl⟩
  · exact ⟨rfl, rfl⟩

theorem digits_cycleHover (o : Overview) (reverse : Bool) :
    (overviewCycleHover o reverse).digitCount = o.digitCount ∧
      (overviewCycleHover o reverse).digitBuf = o.digitBuf := by
  unfold overviewCycleHover
  dsimp only
  split
  · exact ⟨rfl, rfl⟩
  · exact digits_setHover o _

theorem digitsOk_of_eq {o o' : Overview} (h : DigitsOk o)
    (heq : o'.digitCount = o.digitCount ∧ o'.digitBuf = o.digitBuf) : DigitsOk o' := by
  unfold DigitsOk at h ⊢
  rw [heq.1, heq.2]
  exact h

theorem digitsOk_keyTyped {o : Overview} (h : DigitsOk o) (sym : Keysym) :
    DigitsOk (keyTyped o sym) := by
  cases sym with
  | tab => exact digitsOk_of_eq h (digits_cycleHover o false)
  | isoLeftTab => exact digitsOk_of_eq h (digits_cycleHover o true)
  | digit k =>
      unfold keyTyped typedNumber
      rcases h with ⟨hcount, hbuf⟩ | ⟨hcount, hbuf⟩
      · rw [hcount, if_neg (by omega)]
        refine Or.inr ⟨rfl, ?_⟩
        show o.digitBuf * 10 + k < 10
        rw [hbuf]
        omega
      · rw [hcount, if_pos (by omega)]
        exact Or.inl ⟨rfl, rfl⟩
  | backSpace =>
      unfold keyTyped
      dsimp only
      split
      · rcases h with ⟨hcount, -⟩ | ⟨hcount, hbuf⟩
        · omega
        · refine Or.inl ⟨?_, ?_⟩
          · show o.digitCount - 1 = 0
            omega
          · show o.digitBuf / 10 = 0
            omega
      · exact Or.inl ⟨rfl, rfl⟩
  | enter => exact h
  | escape => exact h
  | modifier m => exact Or.inl ⟨rfl, rfl⟩
  | other => exact Or.inl ⟨rfl, rfl⟩

theorem overviewToggle_open (hact : d.overview.active = true)
    (hstill : (overviewToggle env d).overview.active = true) : overviewToggle env d = d := by
  rw [overviewToggle_active hact] at hstill ⊢
  split at hstill
  next => cases hstill
  next hno => rw [if_neg hno]

/-- A pick that leaves the overview open leaves it as it is. -/
theorem pickThumbnail_open (hact : d.overview.active = true) (t : Option Thumbnail)
    (hopen : (pickThumbnail fo env d t).overview.active = true) :
    (pickThumbnail fo env d t).overview = d.overview := by
  unfold pickThumbnail at hopen ⊢
  cases t with
  | none => exact congrArg Desk.overview (overviewToggle_open hact hopen)
  | some u =>
      have hsame := congrArg Desk.overview
        (overviewToggle_open (d := { d with state := dispatchThumbnail fo env d u }) hact hopen)
      exact hsame

theorem closedPlace_button (k : SeatId) (b : Button) : closedPlace env d (.button k b) =
    match buttonPick d k b with
    | some _ => none
    | none => (buttonClose env d k b).map Prod.fst := rfl

/-- The place of a closed thumbnail is one of the list. -/
theorem closedPlace_lt {e : OverviewEvent} {i : Nat} (h : closedPlace env d e = some i) :
    i < d.overview.thumbnails.length := by
  unfold closedPlace at h
  split at h
  next k b =>
    split at h
    next => cases h
    next =>
      obtain ⟨r, hr, rfl⟩ := Option.map_eq_some_iff.mp h
      cases b with
      | middle =>
          unfold buttonClose at hr
          dsimp only at hr
          split at hr
          next j o hj _ =>
            obtain rfl := Option.some.inj hr
            exact (List.findIdx?_eq_some_iff_findIdx_eq.mp hj).1
          next => cases hr
      | left => cases hr
      | right => cases hr
      | other => cases hr
  next => cases h

theorem length_layoutGrid (d : Desk) (o : OutId) :
    (overviewLayoutGrid env d o).overview.thumbnails.length = d.overview.thumbnails.length := by
  have h := congrArg List.length (overviewLayoutGrid_cons env d o)
  rwa [List.length_map, List.length_map] at h

/-! ### What the events do while the overview stays open -/

theorem overviewStep_command_open (scope : OverviewScope) (action : OverviewAction)
    (content : OverviewContent) (hact : d.overview.active = true)
    (hstill : (overviewStep fo env d (.command scope action content)).overview.active = true) :
    overviewStep fo env d (.command scope action content) =
      overviewSetParams d scope action content :=
  overviewToggle_open (d := overviewSetParams d scope action content) hact hstill

theorem overviewStep_key_open (sym : Keysym) (hact : d.overview.active = true)
    (hstill : (overviewStep fo env d (.key sym)).overview.active = true) :
    (overviewStep fo env d (.key sym)).overview = keyTyped d.overview sym := by
  have hstill' : (overviewHandleKey fo env d sym).overview.active = true := hstill
  show (overviewHandleKey fo env d sym).overview = _
  unfold overviewHandleKey at hstill' ⊢
  rw [if_pos hact] at hstill' ⊢
  dsimp only at hstill' ⊢
  split at hstill'
  next t hpick =>
    exact pickThumbnail_open (d := { d with overview := keyTyped d.overview sym })
      ((SameNames.keyTyped d.overview sym).active.trans hact) t hstill'
  next => rfl

theorem overviewStep_keyRelease_open (sym : Keysym) (hact : d.overview.active = true)
    (hstill : (overviewStep fo env d (.keyRelease sym)).overview.active = true) :
    (overviewStep fo env d (.keyRelease sym)).overview = d.overview := by
  have hstill' : (overviewHandleKeyRelease fo env d sym).overview.active = true := hstill
  show (overviewHandleKeyRelease fo env d sym).overview = _
  unfold overviewHandleKeyRelease at hstill' ⊢
  rw [if_pos hact] at hstill' ⊢
  split at hstill'
  next t hpick => exact pickThumbnail_open hact t hstill'
  next => rfl

/-- A button that closes no thumbnail leaves the overview as it is. -/
theorem overviewStep_button_open (k : SeatId) (b : Button) (hact : d.overview.active = true)
    (hstill : (overviewStep fo env d (.button k b)).overview.active = true)
    (hnone : closedPlace env d (.button k b) = none) :
    (overviewStep fo env d (.button k b)).overview = d.overview := by
  have hstill' : (overviewHandleButton fo env d k b).overview.active = true := hstill
  show (overviewHandleButton fo env d k b).overview = _
  rw [closedPlace_button] at hnone
  unfold overviewHandleButton at hstill' ⊢
  rw [if_pos hact] at hstill' ⊢
  cases hpick : buttonPick d k b with
  | some t =>
      rw [hpick] at hstill'
      exact pickThumbnail_open hact t hstill'
  | none =>
      rw [hpick] at hnone
      rw [Option.map_eq_none_iff.mp hnone]

theorem overviewStep_button_close {k : SeatId} {b : Button} {i : Nat}
    (hact : d.overview.active = true) (h : closedPlace env d (.button k b) = some i) :
    ∃ o, overviewStep fo env d (.button k b) = overviewCloseThumbnail env d i o := by
  rw [closedPlace_button] at h
  cases hpick : buttonPick d k b with
  | some t =>
      rw [hpick] at h
      cases h
  | none =>
      rw [hpick] at h
      obtain ⟨⟨j, o⟩, hclose, rfl⟩ := Option.map_eq_some_iff.mp h
      refine ⟨o, ?_⟩
      show overviewHandleButton fo env d k b = _
      unfold overviewHandleButton
      rw [if_pos hact, hpick, hclose]

/-! ### The invariant -/

/-- An event that closes no thumbnail and leaves the list of them alone. -/
theorem SessionInv.keep (h : SessionInv n) {e : OverviewEvent}
    (hnone : closedPlace env n.desk e = none)
    (hsame : (overviewStep fo env n.desk e).overview.thumbnails = n.desk.overview.thumbnails)
    (hdigits : DigitsOk (overviewStep fo env n.desk e).overview) :
    SessionInv (numberedStep fo env n e) where
  length := by
    unfold numberedStep
    dsimp only
    rw [hnone, hsame]
    exact h.length
  digits := hdigits

/-- A thumbnail goes, and its badge with it. -/
theorem SessionInv.close (h : SessionInv n) {e : OverviewEvent} {i : Nat} {o : OutId}
    (hsome : closedPlace env n.desk e = some i)
    (hstep : overviewStep fo env n.desk e = overviewCloseThumbnail env n.desk i o) :
    SessionInv (numberedStep fo env n e) := by
  have hlt := closedPlace_lt hsome
  have hlt' : i < n.badges.length := h.length ▸ hlt
  have hlength : (overviewCloseThumbnail env n.desk i o).overview.thumbnails.length =
      (n.desk.overview.thumbnails.eraseIdx i).length := length_layoutGrid _ o
  unfold numberedStep
  rw [hsome, hstep]
  refine ⟨?_, h.digits⟩
  show (n.badges.eraseIdx i).length = _
  rw [hlength, List.length_eraseIdx_of_lt hlt, List.length_eraseIdx_of_lt hlt', h.length]

/-- **The step lemma**: an event of a session keeps a badge for every thumbnail. -/
theorem sessionInv_step (h : SessionInv n) (e : OverviewEvent) (hopen : StaysOpen fo env n e) :
    SessionInv (numberedStep fo env n e) := by
  obtain ⟨hact, hstill⟩ := hopen
  cases e with
  | world state scene => exact h.keep rfl rfl h.digits
  | mods held => exact h.keep rfl rfl h.digits
  | command scope action content =>
      have hstep := overviewStep_command_open scope action content hact hstill
      refine h.keep rfl ?_ ?_
      · rw [hstep]
        rfl
      · rw [hstep]
        exact h.digits
  | motion k p =>
      refine h.keep rfl ?_ ?_ <;> unfold overviewStep overviewHandleMotion <;> dsimp only
      · split
        · split
          · exact (SameNames.setHover _ _).thumbnails
          · rfl
        · rfl
      · split
        · split
          · exact digitsOk_of_eq h.digits (digits_setHover _ _)
          · exact h.digits
        · exact h.digits
  | key sym =>
      have hstep := overviewStep_key_open sym hact hstill
      refine h.keep rfl ?_ ?_
      · rw [hstep, (SameNames.keyTyped n.desk.overview sym).thumbnails]
      · rw [hstep]
        exact digitsOk_keyTyped h.digits sym
  | keyRelease sym =>
      have hstep := overviewStep_keyRelease_open sym hact hstill
      refine h.keep rfl ?_ ?_
      · rw [hstep]
      · rw [hstep]
        exact h.digits
  | button k b =>
      cases hplace : closedPlace env n.desk (.button k b) with
      | none =>
          have hstep := overviewStep_button_open k b hact hstill hplace
          refine h.keep hplace ?_ ?_
          · rw [hstep]
          · rw [hstep]
            exact h.digits
      | some i =>
          obtain ⟨o, hclose⟩ := overviewStep_button_close hact hplace
          exact h.close hplace hclose

theorem sessionInv_openNumbered (draw : Nat → Drawn) (d : Desk) (o : OutId) (w : WsId) :
    SessionInv (openNumbered env draw d o w) := by
  refine ⟨?_, Or.inl ⟨rfl, rfl⟩⟩
  unfold openNumbered
  dsimp only
  rw [length_layoutGrid, List.length_map, List.length_map]

/-! ## Numbers that stay right -/

/-- When every drawing that counts is shown with a badge, the numbers have no gap. -/
theorem badges_numberThumbnails {l : List (Thumbnail × Drawn)}
    (hclean : ∀ r ∈ l, r.2 = .failed ∨ r.2 = .shown true) (idx : Nat) :
    (numberThumbnails l idx).map Prod.snd =
      (List.range' (idx + 1) (numberThumbnails l idx).length).map some := by
  induction l generalizing idx with
  | nil => rfl
  | cons r l ih =>
      have hrest := ih fun q hq => hclean q (List.mem_cons_of_mem r hq)
      obtain ⟨t, drawn⟩ := r
      rcases hclean (t, drawn) List.mem_cons_self with rfl | rfl
      · exact hrest idx
      · show some (idx + 1) :: (numberThumbnails l (idx + 1)).map Prod.snd =
          (List.range' (idx + 1) ((numberThumbnails l (idx + 1)).length + 1)).map some
        rw [hrest, List.range'_succ, List.map_cons]

theorem countsUp_openNumbered {draw : Nat → Drawn}
    (hclean : ∀ i, draw i = .failed ∨ draw i = .shown true) (d : Desk) (o : OutId) (w : WsId) :
    CountsUp (openNumbered env draw d o w).badges := by
  show (numberThumbnails _ 0).map Prod.snd =
    (List.range' 1 ((numberThumbnails _ 0).map _).length).map some
  rw [List.length_map]
  refine badges_numberThumbnails ?_ 0
  intro r hr
  obtain ⟨t, -, rfl⟩ := List.mem_map.mp hr
  exact hclean t.2

/-- Without the last one, badges that count from one still do. -/
theorem CountsUp.dropLast {l : List (Option Nat)} (h : CountsUp l) {i : Nat}
    (hi : i + 1 = l.length) : CountsUp (l.eraseIdx i) := by
  have herase : l.eraseIdx i = l.take i := by
    rw [List.eraseIdx_eq_take_drop_succ, hi, List.drop_length, List.append_nil]
  have htake : l.take i = (List.range' 1 i).map some := by
    rw [h, ← hi, List.range'_1_concat, List.map_append, List.take_left']
    simp
  unfold CountsUp
  rw [herase, htake, List.length_map, List.length_range']

theorem countsUp_step (h : CountsUp n.badges) (e : OverviewEvent) (hlast : ClosesLast env n e) :
    CountsUp (numberedStep fo env n e).badges := by
  show CountsUp (match closedPlace env n.desk e with
    | some i => n.badges.eraseIdx i
    | none => n.badges)
  cases hclose : closedPlace env n.desk e with
  | none => exact h
  | some i => exact h.dropLast (hlast i hclose)

/-- Where all thumbnails are shown with their badges, the overview opens as in `overviewOpen`. -/
theorem openNumbered_desk {o : OutId} (hformat : env.hasFormat o = true) (d : Desk) (w : WsId) :
    (openNumbered env (fun _ => .shown true) d o w).desk = overviewOpen env d o w := by
  have hall : ∀ (l : List Thumbnail) (idx : Nat),
      (numberThumbnails (l.map fun t => (t, .shown true)) idx).map Prod.fst = l := by
    intro l
    induction l with
    | nil => intro idx; rfl
    | cons t l ih =>
        intro idx
        exact congrArg (t :: ·) (ih (idx + 1))
  have hdrawn : drawnThumbnails (fun _ => .shown true) (overviewSetup env d) w =
      (overviewThumbnails (overviewSetup env d) w).map fun t => (t, .shown true) := by
    unfold drawnThumbnails
    conv_rhs => rw [← List.zipIdx_map_fst 0 (overviewThumbnails (overviewSetup env d) w)]
    rw [List.map_map]
    rfl
  unfold openNumbered overviewOpen
  dsimp only
  rw [if_pos hformat, hdrawn, hall]

end Sessions

/-- **In every state of a session the numbers are right exactly when no digit is pending and the
badges count from one**; and they do when the drawing lost no thumbnail or badge and only last
thumbnails were closed. -/
theorem overview_numbersRight_iff (fo : FocusOps) (env : OverviewEnv) (draw : Nat → Drawn) (d : Desk)
    (o : OutId) (w : WsId) :
    (∀ n, Run (numberedStep fo env) (StaysOpen fo env) (openNumbered env draw d o w) n →
      n.desk.overview.thumbnails.length ≤ 99 →
      (NumbersRight n ↔ n.desk.overview.digitCount = 0 ∧ CountsUp n.badges)) ∧
    ((∀ i, draw i = .failed ∨ draw i = .shown true) →
      ∀ n, Run (numberedStep fo env) (fun n e => StaysOpen fo env n e ∧ ClosesLast env n e)
        (openNumbered env draw d o w) n → CountsUp n.badges) := by
  refine ⟨fun n hrun hmany => ?_, fun hclean n hrun => ?_⟩
  · have hinv : SessionInv n :=
      hrun.invariant (fun _ e hi hok => sessionInv_step hi e hok)
        (sessionInv_openNumbered draw d o w)
    exact numbersRight_iff hinv.length hinv.digits hmany
  · exact hrun.invariant (I := fun m => CountsUp m.badges)
      (fun _ e hi hok => countsUp_step hi e hok.2) (countsUp_openNumbered hclean d o w)

/-! ## Two windows -/

/-- Two windows are open, the overview is not. -/
def twoWindowsDesk : Desk where
  state := secondOpened
  scene := Scene.settled secondOpened
  pointer _ := ⟨0, 0⟩
  mods := []
  overview := { Overview.closed with scope := .all, content := ⟨true, true, true⟩ }

/-- The overview of the two windows. -/
def twoNumbered : Numbered := openNumbered singleOutput (fun _ => .shown true) twoWindowsDesk 1 0

/-- Right after the overview has opened, the numbers are right. -/
theorem overview_numbersRight_opened : NumbersRight twoNumbered := by
  have hall := overview_numbersRight_iff (focusOps 3) singleOutput (fun _ => .shown true)
    twoWindowsDesk 1 0
  refine (hall.1 twoNumbered Run.refl (by decide +kernel)).mpr ⟨by decide +kernel, ?_⟩
  exact hall.2 (fun _ => Or.inr rfl) twoNumbered Run.refl

/-- The middle button closes the first of two thumbnails, and the second one keeps the number
`02`, which picks nothing any more. -/
theorem overview_numbers_closedFirst :
    Run (numberedStep (focusOps 3) singleOutput) (StaysOpen (focusOps 3) singleOutput) twoNumbered
        (numberedStep (focusOps 3) singleOutput twoNumbered (.button 0 .middle)) ∧
      ¬ NumbersRight (numberedStep (focusOps 3) singleOutput twoNumbered (.button 0 .middle)) := by
  refine ⟨Run.single ⟨by decide +kernel, by decide +kernel⟩, fun h => ?_⟩
  have htwo := h.badge 0 2 (by decide +kernel) (by decide)
  exact absurd htwo.second (by decide +kernel)

end Swirl

import Swirl.Desktop.OverviewNumbers
import Swirl.Input.Keyboard

set_option autoImplicit false

/-! # Presses and releases

A client that gets a key pressed is to get it released. `state_pressed_sent` records the keycodes
the client has got pressed, and the last part of `handle_key_event` sends the release of those and
of no others.

Two things break the pairing. The overview takes the release of a modifier after a cycle with Tab,
whether the client has got the press or not. And the record holds 32 keycodes, but a key that is
pressed when it is full is sent all the same. As long as neither happens, every release follows
its press; the invariant is that the record and the log of what was sent agree, key by key.
-/

namespace Swirl

open Lib

/-! ## The keyboard among the rest -/

/-- The parts of the compositor that key events depend on. -/
structure KeyWorld where
  desk : Desk
  bindings : Bindings

/-- What a keysym is to the overview. -/
def overviewKeysym (sym : Nat) : Keysym :=
  if sym = 0xff09 then .tab
  else if sym = 0xfe20 then .isoLeftTab
  else if sym = 0xff0d ∨ sym = 0xff8d then .enter
  else if sym = 0xff1b then .escape
  else if sym = 0xff08 then .backSpace
  else if 0x30 ≤ sym ∧ sym ≤ 0x39 then .digit (Fin.ofNat 10 (sym - 0x30))
  else if 0xffb0 ≤ sym ∧ sym ≤ 0xffb9 then .digit (Fin.ofNat 10 (sym - 0xffb0))
  -- Super and Meta, Alt, Control, Shift, Hyper, each left and right
  else if sym = 0xffeb ∨ sym = 0xffec ∨ sym = 0xffe7 ∨ sym = 0xffe8 then .modifier .logo
  else if sym = 0xffe9 ∨ sym = 0xffea then .modifier .alt
  else if sym = 0xffe3 ∨ sym = 0xffe4 then .modifier .ctrl
  else if sym = 0xffe1 ∨ sym = 0xffe2 then .modifier .shift
  else if sym = 0xffed ∨ sym = 0xffee then .modifier .mod3
  else .other

/-- `overview_handle_key` takes a key that is pressed. -/
def overviewTakesKey (o : Overview) : Keysym → Bool
  | .tab | .isoLeftTab | .enter | .escape | .digit _ => o.active
  | .backSpace => o.active && decide (0 < o.digitCount)
  | .modifier _ | .other => false

/-- `overview_handle_key_release` takes a key that is released. -/
def overviewTakesRelease (o : Overview) (sym : Keysym) : Bool :=
  o.active && (releasePick o sym).isSome

/-- What lies outside the keyboard: what the commands of bindings do, what wlroots says about the
keysyms for the pointer, and what the pointer does then. -/
structure KeyOutside where
  execute : KeyWorld → Addr → KeyWorld
  pointerButton : Nat → Nat
  pointerMotion : Nat → Int × Int
  movePointer : KeyWorld → KeyEvent → KeyWorld

variable (fo : FocusOps) (env : OverviewEnv) (out : KeyOutside)

/-- The compositor as `handle_key_event` sees it. -/
def keyHost : KeyHost KeyWorld where
  bindings w := w.bindings
  overviewIsActive w := w.desk.overview.active
  overviewHandleKey w sym :=
    (overviewTakesKey w.desk.overview (overviewKeysym sym),
      { w with desk := overviewHandleKey fo env w.desk (overviewKeysym sym) })
  overviewHandleKeyRelease w sym :=
    (overviewTakesRelease w.desk.overview (overviewKeysym sym),
      { w with desk := overviewHandleKeyRelease fo env w.desk (overviewKeysym sym) })
  seatExecuteCommand := out.execute
  pointerButton := out.pointerButton
  pointerMotion := out.pointerMotion
  movePointer := out.movePointer

/-- A key event, and whether the client has got it. -/
structure KeyRecord where
  keycode : Nat
  pressed : Bool
  forwarded : Bool
  deriving DecidableEq

/-- The compositor, a keyboard, and the events it has had, the last one first. -/
structure Typing where
  world : KeyWorld
  keyboard : Keyboard
  log : List KeyRecord

/-- A key event, or any other change: the overview is opened and closed, windows and bindings come
and go. -/
inductive TypingEvent where
  | world (w : KeyWorld)
  | key (e : KeyEvent)

/-- One event. -/
def typingStep (s : Typing) : TypingEvent → Typing
  | .world w => { s with world := w }
  | .key e =>
      let r := handleKeyEvent (keyHost fo env out) s.world s.keyboard e
      { world := r.state, keyboard := r.keyboard
        log := ⟨e.keycode, e.pressed, r.forwarded⟩ :: s.log }

/-- Whether a key is down. -/
def keyDown (log : List KeyRecord) (keycode : Nat) : Bool :=
  (log.find? fun r => decide (r.keycode = keycode)).any KeyRecord.pressed

/-- Keys are pressed and released in turn, while a client has the focus and no input method grabs
the keyboard. -/
def Typable (s : Typing) : TypingEvent → Prop
  | .world _ => True
  | .key e => e.focused = true ∧ e.imGrab = false ∧ e.pressed = !keyDown s.log e.keycode

instance (s : Typing) (e : TypingEvent) : Decidable (Typable s e) := by
  cases e with
  | world w => exact instDecidableTrue
  | key e => exact inferInstanceAs (Decidable (_ ∧ _))

/-! ## Pairing -/

/-- Whether the client has got the last press of a key. -/
def lastPressForwarded (log : List KeyRecord) (keycode : Nat) : Bool :=
  (log.find? fun r => decide (r.keycode = keycode) && r.pressed).any KeyRecord.forwarded

/-- The keys the client has got pressed and not yet released. -/
def forwardedDown (log : List KeyRecord) (keycode : Nat) : Bool :=
  (log.find? fun r => decide (r.keycode = keycode)).any fun r => r.pressed && r.forwarded

/-- Every release in the log was forwarded exactly when the last press before it was. -/
def ReleasesFollow : List KeyRecord → Prop
  | [] => True
  | r :: log =>
      (r.pressed = false → r.forwarded = lastPressForwarded log r.keycode) ∧ ReleasesFollow log

/-- The keycodes `state_pressed_sent` holds. -/
def sentKeycodes (kb : Keyboard) : List Nat := kb.pressedSent.pressed.map Prod.snd

/-- **The keys are paired**: every release was forwarded exactly when the last press of its key
was, and `state_pressed_sent` holds, once each, the keys that were forwarded and not released. -/
structure KeysPaired (s : Typing) : Prop where
  releases : ReleasesFollow s.log
  sent : ∀ k, k ∈ sentKeycodes s.keyboard ↔ forwardedDown s.log k = true
  once : (sentKeycodes s.keyboard).Nodup

/-- The overview gets an event and takes it. -/
def overviewTakes (s : Typing) (e : KeyEvent) : Bool :=
  match e.translatedKeysyms with
  | sym :: _ =>
      !s.keyboard.grouped &&
        if e.pressed then overviewTakesKey s.world.desk.overview (overviewKeysym sym)
        else overviewTakesRelease s.world.desk.overview (overviewKeysym sym)
  | [] => false

/-- The compositor has a use of its own for a key that is pressed: a binding, another terminal, or
the pointer. -/
def compositorTakes (s : Typing) (e : KeyEvent) : Bool :=
  let host := keyHost fo env out
  (activeBinding host s.world (updateKeyboardState s.keyboard e) e false).isSome ||
    keyboardExecuteCompositorBinding e.translatedKeysyms ||
    keyboardExecuteCompositorBinding e.rawKeysyms ||
    keyboardExecutePointerKeysyms host e.translatedKeysyms true

/-- The condition: the overview takes the release of no key that the client has got pressed, and
there is room in the record for a key the client is to get. -/
def KeepsPairs (s : Typing) : TypingEvent → Prop
  | .world _ => True
  | .key e =>
      (e.pressed = false → overviewTakes s e = true → e.keycode ∉ sentKeycodes s.keyboard) ∧
        (e.pressed = true →
          (sentKeycodes s.keyboard).length < pressedKeysCap ∨
            overviewTakes s e = true ∨ compositorTakes fo env out s e = true)

/-! ## The record -/

section Record

variable {st : ShortcutState}

theorem stateAddKey_pressed (hroom : st.pressed.length < pressedKeysCap) (keycode keyId : Nat) :
    ((stateAddKey st keycode keyId).pressed.map Prod.snd).Perm
      (keycode :: st.pressed.map Prod.snd) := by
  unfold stateAddKey
  rw [if_neg (Nat.not_le.2 hroom), List.map_append, List.map_cons]
  refine List.perm_middle.trans (List.Perm.cons keycode ?_)
  rw [← List.map_append, List.takeWhile_append_dropWhile]

theorem mem_stateEraseKey {keycode k : Nat} :
    k ∈ (stateEraseKey st keycode).2.pressed.map Prod.snd ↔
      k ∈ st.pressed.map Prod.snd ∧ k ≠ keycode := by
  simp only [stateEraseKey, List.mem_map, List.mem_filter, decide_eq_true_eq]
  constructor
  · rintro ⟨p, ⟨hp, hne⟩, rfl⟩
    exact ⟨⟨p, hp, rfl⟩, hne⟩
  · rintro ⟨⟨p, hp, rfl⟩, hne⟩
    exact ⟨p, ⟨hp, hne⟩, rfl⟩

theorem stateEraseKey_found {keycode : Nat} :
    (stateEraseKey st keycode).1 = true ↔ keycode ∈ st.pressed.map Prod.snd := by
  simp [stateEraseKey]

/-- The record is always updated without modifiers, so it never drops the key before. -/
theorem updateShortcutState_sent (hraw : st.lastRawModifiers = 0) (keycode newKey : Nat)
    (pressed : Bool) :
    updateShortcutState st keycode pressed newKey 0 =
      if pressed then (false, { stateAddKey st keycode newKey with lastKeycode := keycode })
      else stateEraseKey st keycode := by
  have hst : { st with lastRawModifiers := 0 } = st := by rw [← hraw]
  simp [updateShortcutState, hraw, hst]

end Record

/-! ## What one event does to the record -/

section Event

theorem keyToOverview_fst (s : Typing) (kb : Keyboard) (hg : kb.grouped = s.keyboard.grouped)
    (e : KeyEvent) :
    (keyToOverview (keyHost fo env out) s.world kb e).1 = overviewTakes s e := by
  unfold keyToOverview overviewTakes
  cases e.translatedKeysyms with
  | nil => rfl
  | cons sym syms =>
      dsimp only
      rw [hg]
      cases hact : s.world.desk.overview.active with
      | true => cases s.keyboard.grouped <;> cases e.pressed <;> simp [keyHost, hact]
      | false =>
          -- a closed overview takes nothing
          have hkey : overviewTakesKey s.world.desk.overview (overviewKeysym sym) = false := by
            cases overviewKeysym sym <;> simp [overviewTakesKey, hact]
          have hrel : overviewTakesRelease s.world.desk.overview (overviewKeysym sym) = false := by
            simp [overviewTakesRelease, hact]
          cases e.pressed <;> simp [keyHost, hact, hkey, hrel]

/-- The bindings are those of before, whatever the overview has done. -/
theorem keyToOverview_bindings (s : KeyWorld) (kb : Keyboard) (e : KeyEvent) :
    (keyToOverview (keyHost fo env out) s kb e).2.bindings = s.bindings := by
  unfold keyToOverview
  split
  · split_ifs <;> rfl
  · rfl

/-- The bindings, executed or not, leave the record alone. -/
theorem keyToBindings_record {σ : Type} (h : KeyHost σ) (s : σ) (kb : Keyboard) (e : KeyEvent) :
    (keyToBindings h s kb e).2.1.pressedSent = kb.pressedSent ∧
      (keyToBindings h s kb e).2.1.grouped = kb.grouped := by
  unfold keyToBindings
  dsimp only
  split <;> exact ⟨rfl, rfl⟩

/-- The binding for a press is searched for before anything is executed. -/
theorem keyToBindings_handled {σ : Type} (h : KeyHost σ) (s : σ) (kb : Keyboard) {e : KeyEvent}
    (hp : e.pressed = true) :
    (keyToBindings h s kb e).2.2 = (activeBinding h s kb e false).isSome := by
  have hheld : firesHeld kb e ((activeBinding h s kb e true).map Binding.loc) = none := by
    simp [firesHeld, hp]
  -- the search does not look at what is held
  have hsame : ∀ held, activeBinding h s { kb with heldBinding := held } e false =
      activeBinding h s kb e false := fun _ => rfl
  unfold keyToBindings
  simp only [hheld, hp, if_true, hsame]
  cases activeBinding h s kb e false <;> rfl

/-- What an event does to the record and whether it is forwarded, when the overview does not take
it: a release is looked up in the record, a press goes there when the client gets it. -/
theorem handleKeyEvent_record (s : Typing) {e : KeyEvent} (hg : s.keyboard.grouped = false)
    (hgrab : e.imGrab = false) (hov : overviewTakes s e = false) :
    let r := handleKeyEvent (keyHost fo env out) s.world s.keyboard e
    let sent := updateShortcutState s.keyboard.pressedSent e.keycode e.pressed (e.keycode + 8) 0
    (e.pressed = false → r.keyboard.pressedSent = sent.2 ∧ r.forwarded = (sent.1 && e.focused)) ∧
      (e.pressed = true →
        if compositorTakes fo env out s e then
          r.keyboard.pressedSent = s.keyboard.pressedSent ∧ r.forwarded = false
        else r.keyboard.pressedSent = sent.2 ∧ r.forwarded = true) := by
  intro r sent
  have hfst := keyToOverview_fst fo env out s
    (updateKeyboardState s.keyboard e) rfl e
  have hbind := keyToOverview_bindings fo env out s.world
    (updateKeyboardState s.keyboard e) e
  have hr : r = handleKeyEvent (keyHost fo env out) s.world s.keyboard e := rfl
  unfold handleKeyEvent at hr
  dsimp only at hr
  rcases hk : keyToOverview (keyHost fo env out) s.world (updateKeyboardState s.keyboard e) e with
    ⟨taken, w⟩
  rw [hk] at hfst hbind hr
  obtain rfl : taken = false := hfst.trans hov
  dsimp only at hr hbind
  rcases hb : keyToBindings (keyHost fo env out) w (updateKeyboardState s.keyboard e) e with
    ⟨w', kb', handled⟩
  rw [hb] at hr
  have hkeeps := keyToBindings_record (keyHost fo env out) w (updateKeyboardState s.keyboard e) e
  rw [hb] at hkeeps
  have hgrouped : kb'.grouped = false := hkeeps.2.trans hg
  have hsent : kb'.pressedSent = s.keyboard.pressedSent := hkeeps.1
  simp only [hgrouped, Bool.and_false, Bool.false_eq_true, if_false] at hr
  refine ⟨fun hp => ?_, fun hp => ?_⟩
  · rw [hr]
    simp only [keyToClient, hp, Bool.false_eq_true, if_false, hsent]
    exact ⟨by simp only [sent, hp], by simp only [sent, hp]⟩
  · have hhandled := keyToBindings_handled (keyHost fo env out) w
      (updateKeyboardState s.keyboard e) hp
    rw [hb] at hhandled
    have hactive : activeBinding (keyHost fo env out) w (updateKeyboardState s.keyboard e) e false =
        activeBinding (keyHost fo env out) s.world (updateKeyboardState s.keyboard e) e false := by
      unfold activeBinding
      rw [show (keyHost fo env out).bindings w = (keyHost fo env out).bindings s.world from hbind]
    rw [hactive] at hhandled
    dsimp only at hhandled
    have htakes : compositorTakes fo env out s e =
        (handled || keyboardExecuteCompositorBinding e.translatedKeysyms ||
          keyboardExecuteCompositorBinding e.rawKeysyms ||
          keyboardExecutePointerKeysyms (keyHost fo env out) e.translatedKeysyms true) := by
      rw [hhandled]
      rfl
    rw [hr, htakes]
    simp only [keyToClient, hp, hgrab, Bool.or_false, if_true, Bool.true_and]
    generalize keyboardExecuteCompositorBinding e.translatedKeysyms = v₁
    generalize keyboardExecuteCompositorBinding e.rawKeysyms = v₂
    generalize keyboardExecutePointerKeysyms (keyHost fo env out) e.translatedKeysyms true = v₃
    cases handled <;> cases v₁ <;> cases v₂ <;> cases v₃ <;> simp [hsent, sent, hp]

/-- An event the overview takes goes no further. -/
theorem handleKeyEvent_taken (s : Typing) {e : KeyEvent} (hov : overviewTakes s e = true) :
    let r := handleKeyEvent (keyHost fo env out) s.world s.keyboard e
    r.keyboard.pressedSent = s.keyboard.pressedSent ∧ r.forwarded = false := by
  intro r
  have hfst := keyToOverview_fst fo env out s
    (updateKeyboardState s.keyboard e) rfl e
  have hr : r = handleKeyEvent (keyHost fo env out) s.world s.keyboard e := rfl
  unfold handleKeyEvent at hr
  dsimp only at hr
  rcases hk : keyToOverview (keyHost fo env out) s.world (updateKeyboardState s.keyboard e) e with
    ⟨taken, w⟩
  rw [hk] at hfst hr
  obtain rfl : taken = true := hfst.trans hov
  rw [hr]
  exact ⟨rfl, rfl⟩

theorem handleKeyEvent_grouped {σ : Type} (h : KeyHost σ) (s : σ) (kb : Keyboard) (e : KeyEvent) :
    (handleKeyEvent h s kb e).keyboard.grouped = kb.grouped := by
  unfold handleKeyEvent
  dsimp only
  rcases keyToOverview h s (updateKeyboardState kb e) e with ⟨taken, w⟩
  cases taken with
  | true => rfl
  | false =>
      have hgrouped := (keyToBindings_record h w (updateKeyboardState kb e) e).2
      dsimp only
      rcases hb : keyToBindings h w (updateKeyboardState kb e) e with ⟨w', kb', handled⟩
      rw [hb] at hgrouped
      dsimp only
      unfold keyToClient
      split_ifs <;> exact hgrouped

end Event

/-! ## The log -/

section Log

variable {log : List KeyRecord}

theorem lastPressForwarded_eq_of_down {k : Nat} (h : keyDown log k = true) :
    lastPressForwarded log k = forwardedDown log k := by
  induction log with
  | nil => rfl
  | cons r log ih =>
      by_cases hk : r.keycode = k
      · -- the last event of the key is its press
        have hr : r.pressed = true := by simpa [keyDown, hk] using h
        simp [lastPressForwarded, forwardedDown, hk, hr]
      · have hlog : keyDown log k = true := by simpa [keyDown, hk] using h
        simpa [lastPressForwarded, forwardedDown, hk] using ih hlog

theorem forwardedDown_cons (r : KeyRecord) (k : Nat) :
    forwardedDown (r :: log) k =
      if r.keycode = k then r.pressed && r.forwarded else forwardedDown log k := by
  unfold forwardedDown
  by_cases hk : r.keycode = k
  · simp [hk]
  · simp [hk]

theorem not_forwardedDown_of_up {k : Nat} (h : keyDown log k = false) :
    forwardedDown log k = false := by
  unfold keyDown at h
  unfold forwardedDown
  cases hf : log.find? fun r => decide (r.keycode = k) with
  | none => rfl
  | some r =>
      rw [hf] at h
      have hr : r.pressed = false := h
      simp [hr]

end Log

/-! ## Runs -/

/-- The invariant: the keys are paired, by a record that is updated without modifiers, on a
keyboard that is in no group. -/
structure TypingInv (s : Typing) : Prop where
  paired : KeysPaired s
  alone : s.keyboard.grouped = false
  raw : s.keyboard.pressedSent.lastRawModifiers = 0

variable {fo env out}

/-- A press that nothing takes is recorded and sent; any other is neither. -/
theorem typingInv_press {s : Typing} (h : TypingInv s) {e : KeyEvent}
    (hok : Typable s (.key e)) (hcond : KeepsPairs fo env out s (.key e)) (hp : e.pressed = true) :
    KeysPaired (typingStep fo env out s (.key e)) := by
  obtain ⟨-, hgrab, hturn⟩ := hok
  have hup : keyDown s.log e.keycode = false := by simpa [hp] using hturn
  have hnew : e.keycode ∉ sentKeycodes s.keyboard := by
    rw [h.paired.sent, not_forwardedDown_of_up hup]
    exact Bool.false_ne_true
  set r := handleKeyEvent (keyHost fo env out) s.world s.keyboard e with hr
  have hlog : (typingStep fo env out s (.key e)).log = ⟨e.keycode, e.pressed, r.forwarded⟩ :: s.log :=
    rfl
  -- neither recorded nor sent
  have hdropped : r.keyboard.pressedSent = s.keyboard.pressedSent ∧ r.forwarded = false →
      KeysPaired (typingStep fo env out s (.key e)) := by
    rintro ⟨hsent, hfwd⟩
    have hcodes : sentKeycodes (typingStep fo env out s (.key e)).keyboard =
        sentKeycodes s.keyboard := congrArg (fun st => st.pressed.map Prod.snd) hsent
    refine { releases := ?_, sent := fun k => ?_, once := hcodes ▸ h.paired.once }
    · rw [hlog]
      exact ⟨fun hrel => absurd (hp.symm.trans hrel) Bool.true_eq_false_eq_False, h.paired.releases⟩
    · rw [hcodes, hlog, forwardedDown_cons]
      by_cases hk : e.keycode = k
      · subst hk
        simp [hfwd, hnew]
      · simpa [hk] using h.paired.sent k
  cases hov : overviewTakes s e with
  | true => exact hdropped (handleKeyEvent_taken fo env out s hov)
  | false =>
      have hrec := (handleKeyEvent_record fo env out s h.alone hgrab
        hov).2 hp
      split at hrec
      · exact hdropped hrec
      · next htakes =>
        -- nothing has taken the key, so there is room for it
        have hroom : (sentKeycodes s.keyboard).length < pressedKeysCap := by
          rcases hcond.2 hp with hroom | htaken | htaken
          · exact hroom
          · rw [hov] at htaken
            exact absurd htaken Bool.false_ne_true
          · exact absurd htaken htakes
        obtain ⟨hsent, hfwd⟩ := hrec
        have hfwd : r.forwarded = true := hfwd
        rw [updateShortcutState_sent h.raw, hp, if_pos rfl] at hsent
        have hperm : (sentKeycodes (typingStep fo env out s (.key e)).keyboard).Perm
            (e.keycode :: sentKeycodes s.keyboard) := by
          have hpressed : (typingStep fo env out s (.key e)).keyboard.pressedSent =
              r.keyboard.pressedSent := rfl
          unfold sentKeycodes
          rw [hpressed, hsent]
          exact stateAddKey_pressed (by simpa [sentKeycodes] using hroom) e.keycode (e.keycode + 8)
        refine { releases := ?_, sent := fun k => ?_, once := ?_ }
        · rw [hlog]
          exact ⟨fun hrel => absurd (hp.symm.trans hrel) Bool.true_eq_false_eq_False,
            h.paired.releases⟩
        · rw [hperm.mem_iff, List.mem_cons, h.paired.sent, hlog, forwardedDown_cons]
          by_cases hk : e.keycode = k
          · simp [hk, hp, hfwd]
          · simp [hk, Ne.symm hk]
        · exact hperm.nodup_iff.2 (List.nodup_cons.2 ⟨hnew, h.paired.once⟩)

/-- A release takes its key out of the record, and is sent when it was there. -/
theorem typingInv_release {s : Typing} (h : TypingInv s) {e : KeyEvent}
    (hok : Typable s (.key e)) (hcond : KeepsPairs fo env out s (.key e)) (hp : e.pressed = false) :
    KeysPaired (typingStep fo env out s (.key e)) := by
  obtain ⟨hfocus, hgrab, hturn⟩ := hok
  have hdown : keyDown s.log e.keycode = true := by simpa [hp] using hturn
  set r := handleKeyEvent (keyHost fo env out) s.world s.keyboard e with hr
  have hlog : (typingStep fo env out s (.key e)).log = ⟨e.keycode, e.pressed, r.forwarded⟩ :: s.log :=
    rfl
  have hlast : lastPressForwarded s.log e.keycode = forwardedDown s.log e.keycode :=
    lastPressForwarded_eq_of_down hdown
  -- what is to be shown of the record and of the event
  have hgoal : (∀ k, k ∈ sentKeycodes r.keyboard ↔ k ∈ sentKeycodes s.keyboard ∧ k ≠ e.keycode) →
      (sentKeycodes r.keyboard).Nodup →
      (r.forwarded = true ↔ e.keycode ∈ sentKeycodes s.keyboard) →
      KeysPaired (typingStep fo env out s (.key e)) := by
    intro hmem hnodup hfwd
    refine { releases := ?_, sent := fun k => ?_, once := hnodup }
    · rw [hlog]
      refine ⟨fun _ => ?_, h.paired.releases⟩
      show r.forwarded = lastPressForwarded s.log e.keycode
      rw [hlast, Bool.eq_iff_iff, hfwd, h.paired.sent]
    · show k ∈ sentKeycodes r.keyboard ↔ _
      rw [hmem, h.paired.sent, hlog, forwardedDown_cons]
      by_cases hk : e.keycode = k
      · simp [hk, hp]
      · simp [hk, Ne.symm hk]
  cases hov : overviewTakes s e with
  | true =>
      -- the client has not got the press, so there is nothing to release
      have hnot := hcond.1 hp hov
      obtain ⟨hsent, hfwd⟩ := handleKeyEvent_taken fo env out s hov
      have hcodes : sentKeycodes r.keyboard = sentKeycodes s.keyboard :=
        congrArg (fun st => st.pressed.map Prod.snd) hsent
      refine hgoal (fun k => ?_) (hcodes ▸ h.paired.once) ?_
      · rw [hcodes]
        exact ⟨fun hk => ⟨hk, fun he => hnot (he ▸ hk)⟩, fun hk => hk.1⟩
      · rw [hr, hfwd]
        exact ⟨fun hf => absurd hf Bool.false_ne_true, fun hk => absurd hk hnot⟩
  | false =>
      obtain ⟨hsent, hfwd⟩ := (handleKeyEvent_record fo env out s h.alone
        hgrab hov).1 hp
      rw [updateShortcutState_sent h.raw, hp] at hsent hfwd
      simp only [Bool.false_eq_true, if_false, hfocus, Bool.and_true] at hsent hfwd
      refine hgoal (fun k => ?_) ?_ ?_
      · show k ∈ r.keyboard.pressedSent.pressed.map Prod.snd ↔ _
        rw [hsent]
        exact mem_stateEraseKey
      · show (r.keyboard.pressedSent.pressed.map Prod.snd).Nodup
        rw [hsent]
        exact (List.filter_sublist.map Prod.snd).nodup h.paired.once
      · rw [hr, hfwd]
        exact stateEraseKey_found

/-- The record is never given any modifiers. -/
theorem handleKeyEvent_raw {s : Typing} (h : TypingInv s) {e : KeyEvent}
    (hok : Typable s (.key e)) :
    (typingStep fo env out s (.key e)).keyboard.pressedSent.lastRawModifiers = 0 := by
  obtain ⟨-, hgrab, -⟩ := hok
  have hsame : ∀ kb : Keyboard, kb.pressedSent = s.keyboard.pressedSent →
      kb.pressedSent.lastRawModifiers = 0 := fun kb hkb => hkb ▸ h.raw
  have hsent : (updateShortcutState s.keyboard.pressedSent e.keycode e.pressed (e.keycode + 8)
      0).2.lastRawModifiers = 0 := by
    rw [updateShortcutState_sent h.raw]
    split
    · show (stateAddKey s.keyboard.pressedSent e.keycode (e.keycode + 8)).lastRawModifiers = 0
      unfold stateAddKey
      split_ifs <;> exact h.raw
    · exact h.raw
  cases hov : overviewTakes s e with
  | true => exact hsame _ (handleKeyEvent_taken fo env out s hov).1
  | false =>
      have hrec := handleKeyEvent_record fo env out s h.alone hgrab hov
      cases hp : e.pressed with
      | false =>
          show (handleKeyEvent (keyHost fo env out) s.world
            s.keyboard e).keyboard.pressedSent.lastRawModifiers = 0
          rw [(hrec.1 hp).1]
          exact hsent
      | true =>
          have hpress := hrec.2 hp
          split at hpress
          · exact hsame _ hpress.1
          · show (handleKeyEvent (keyHost fo env out) s.world
              s.keyboard e).keyboard.pressedSent.lastRawModifiers = 0
            rw [hpress.1]
            exact hsent

theorem typingInv_step {s : Typing} (h : TypingInv s) (e : TypingEvent) (hok : Typable s e)
    (hcond : KeepsPairs fo env out s e) : TypingInv (typingStep fo env out s e) := by
  cases e with
  | world w => exact ⟨⟨h.paired.releases, h.paired.sent, h.paired.once⟩, h.alone, h.raw⟩
  | key e =>
      have hpaired : KeysPaired (typingStep fo env out s (.key e)) := by
        cases hp : e.pressed with
        | true => exact typingInv_press h hok hcond hp
        | false => exact typingInv_release h hok hcond hp
      refine ⟨hpaired, ?_, ?_⟩
      · exact (handleKeyEvent_grouped (keyHost fo env out) s.world s.keyboard e).trans h.alone
      · exact handleKeyEvent_raw h hok

/-! ## Every run -/

variable (fo env out)

/-- A keyboard on its own, before its first event. -/
def Typing.start (w : KeyWorld) (seat : Nat) (identifier : String) (repeatDelay : Int) : Typing where
  world := w
  keyboard :=
    { seat, identifier, grouped := false, repeatDelay
      keysymsTranslated := .empty, keysymsRaw := .empty, keycodes := .empty, pressedSent := .empty
      heldBinding := none, repeatBinding := none }
  log := []

theorem typingInv_start (w : KeyWorld) (seat : Nat) (identifier : String) (repeatDelay : Int) :
    TypingInv (.start w seat identifier repeatDelay) where
  paired :=
    { releases := trivial, once := List.nodup_nil
      sent := fun k => by simp [Typing.start, sentKeycodes, ShortcutState.empty, forwardedDown] }
  alone := rfl
  raw := rfl

/-- **Presses and releases are paired** in every run in which the overview takes the release of no
key the client has got pressed, and the client gets no key pressed while the record is full. -/
theorem keysPaired_of_run (w : KeyWorld) (seat : Nat) (identifier : String) (repeatDelay : Int)
    {s : Typing}
    (hrun : Run (typingStep fo env out)
      (fun s e => Typable s e ∧ KeepsPairs fo env out s e)
      (.start w seat identifier repeatDelay) s) :
    KeysPaired s := by
  have hinv : TypingInv s :=
    hrun.invariant (fun _ e hi hok => typingInv_step hi e hok.1 hok.2)
      (typingInv_start w seat identifier repeatDelay)
  exact hinv.paired

/-! ## Super and Tab -/

/-- The names of the keys that are used. -/
def superNames : KeyNames where
  keysymFromName name := if name = "w" then 0x77 else 0
  eventCodeFromName _ := none
  eventCodeGetName _ := none

/-- Two windows, and Super+w bound to the overview. -/
def superWorld : KeyWorld where
  desk := twoWindowsDesk
  bindings :=
    ((⟨false, false, ["Mod4+w", "overview"]⟩ : BindCommand).run superNames
      ⟨[⟨"default", [], [], []⟩], 0, none, 0, 0⟩).state

/-- The binding opens the overview. -/
def superOutside : KeyOutside where
  execute w _ :=
    { w with
      desk := overviewStep (focusOps 3) singleOutput w.desk
        (.command .all .focus ⟨true, true, true⟩) }
  pointerButton _ := 0
  pointerMotion _ := (0, 0)
  movePointer w _ := w

/-- A key with one keysym, and the modifiers that are held. -/
def plainKey (keycode : Nat) (pressed : Bool) (keysym modifiers : Nat) : KeyEvent :=
  { keycode, pressed, rawKeysyms := [keysym], translatedKeysyms := [keysym], modifiers
    translatedModifiers := modifiers, layout := 0, locked := false, inhibited := false
    focused := true, imGrab := false }

/-- Super goes down, and the client gets it. -/
def superPressed : Typing :=
  typingStep (focusOps 3) singleOutput superOutside (.start superWorld 0 "kbd" 0)
    (.key (plainKey 125 true 0xffeb 0))

/-- Then Super+w opens the overview, and Tab cycles through it. -/
def superTab : List TypingEvent :=
  [.world { superWorld with desk := { twoWindowsDesk with mods := [.logo] } },
    .key (plainKey 17 true 0x77 64), .key (plainKey 17 false 0x77 64),
    .key (plainKey 15 true 0xff09 64), .key (plainKey 15 false 0xff09 64)]

/-- The keyboard after all of that, with Super still down. -/
def superTabbed : Typing :=
  superTab.foldl (typingStep (focusOps 3) singleOutput superOutside) superPressed

/-- A key that is pressed and released with nothing in between is paired. -/
theorem keysPaired_superReleased :
    KeysPaired (typingStep (focusOps 3) singleOutput superOutside superPressed
      (.key (plainKey 125 false 0xffeb 64))) := by
  apply keysPaired_of_run (focusOps 3) singleOutput superOutside superWorld 0 "kbd" 0
  refine Run.step _ (Run.single ⟨?_, ?_⟩) ⟨?_, ?_⟩
  · decide +kernel
  · exact ⟨fun h => absurd h (by decide), fun _ => Or.inl (by decide +kernel)⟩
  · decide +kernel
  · exact ⟨fun _ h => absurd h (by decide +kernel), fun h => absurd h (by decide)⟩

/-- Super is released over the overview that has been cycled: the release picks the window, and
never reaches the client, which keeps Super down; `state_pressed_sent` keeps it as well. -/
theorem keysPaired_fails_superTab :
    Run (typingStep (focusOps 3) singleOutput superOutside) Typable
        (.start superWorld 0 "kbd" 0) superTabbed ∧
      Typable superTabbed (.key (plainKey 125 false 0xffeb 64)) ∧
      ¬ KeysPaired (typingStep (focusOps 3) singleOutput superOutside superTabbed
        (.key (plainKey 125 false 0xffeb 64))) := by
  refine ⟨?_, by decide +kernel, fun h => ?_⟩
  · -- every event is one the keyboard can send
    refine (Run.single ?_).trans (Run.foldl ?_)
    · decide +kernel
    · decide +kernel
  · have hfollows := h.releases.1 (by decide)
    exact absurd hfollows (by decide +kernel)

end Swirl

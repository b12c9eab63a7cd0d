import Swirl.Lib.Runs
import Swirl.Commands.BindMemory
import Swirl.Input.Keyboard

set_option autoImplicit false

/-! # Bindings that are kept

A keyboard keeps the address of a binding for releases from the press on, and the address of the
binding it repeats, and `seat_execute_command` keeps its argument over the commands it runs. All
the while any command can free bindings.

Three things go wrong. A command can free the binding that is executed, which is read once more. It
can free a binding that a keyboard holds or repeats, which is executed later. And a binding that is
executed before the configuration is active is copied with the lists and the string of the
original, which both of them free. As long as nothing of this happens, every address that is kept
is that of a live binding; this is the invariant.
-/

namespace Swirl

open Lib

/-- The bindings and the keyboards. -/
structure BindSystem where
  world : BindWorld
  keyboards : Nat → Keyboard

/-- What can happen: a list of commands from the configuration or from IPC, a key event, which the
overview may take, the timer of a keyboard, a binding of the mouse, the configuration becoming
active, and IPC clients that listen to binding events or not. Where bindings are executed, `parse`
is what their strings of commands stand for. -/
inductive BindSystemEvent where
  | commands (cs : List Command)
  | key (k : Nat) (e : KeyEvent) (overview : Bool) (parse : String → List Command)
  | keyRepeat (k : Nat) (parse : String → List Command)
  | mouse (seat : Nat) (loc : Addr) (parse : String → List Command)
  | activate (parse : String → List Command)
  | listen (listeners : Bool)

variable (names : KeyNames)

/-- What `handle_key_event` calls, where only the bindings count: the overview takes a key or not,
and what the pointer does is left out. -/
def bindHost (parse : String → List Command) (seat : Nat) (overview : Bool) : KeyHost BindWorld where
  bindings w := w.bindings
  overviewIsActive _ := overview
  overviewHandleKey w _ := (overview, w)
  overviewHandleKeyRelease w _ := (overview, w)
  seatExecuteCommand w a := seatExecuteCommand names parse seat w a
  pointerButton _ := 0
  pointerMotion _ := (0, 0)
  movePointer w _ := w

/-- A binding of the mouse is in the list of the current mode when it is executed. -/
def isMouseBinding (s : BindWorld) (a : Addr) : Bool :=
  (s.bindings.current .mousesym).any fun b => decide (b.loc = a)

/-- One event. -/
def bindSystemStep (s : BindSystem) : BindSystemEvent → BindSystem
  | .commands cs => { s with world := (executeCommand names s.world cs).2 }
  | .key k e overview parse =>
      let kb := s.keyboards k
      let r := handleKeyEvent (bindHost names parse kb.seat overview) s.world kb e
      { world := r.state, keyboards := Function.update s.keyboards k r.keyboard }
  | .keyRepeat k parse =>
      let kb := s.keyboards k
      { s with world := handleKeyboardRepeat (bindHost names parse kb.seat false) s.world kb }
  | .mouse seat a parse =>
      if isMouseBinding s.world a then
        { s with world := seatExecuteCommand names parse seat s.world a }
      else s
  | .activate parse => { s with world := runDeferredBindings names parse s.world }
  | .listen listeners => { s with world := { s.world with listeners } }

/-! ## The condition -/

/-- A keyboard keeps the address of a binding. -/
def Keyboard.keeps (kb : Keyboard) (a : Addr) : Prop :=
  kb.heldBinding = some a ∨ kb.repeatBinding = some a

/-- A keyboard keeps the address of a binding. -/
def Keeps (keyboards : Nat → Keyboard) (a : Addr) : Prop := ∃ k, (keyboards k).keeps a

/-- The binding for releases a keyboard matches once a key event has been recorded. -/
def releasedBinding (s : BindSystem) (k : Nat) (e : KeyEvent) : Option Addr :=
  (activeBinding (bindHost names (fun _ => []) 0 false) s.world
    (updateKeyboardState (s.keyboards k) e) e true).map Binding.loc

/-- The binding for presses it matches then. -/
def pressedBinding (s : BindSystem) (k : Nat) (e : KeyEvent) : Option Binding :=
  if e.pressed then
    activeBinding (bindHost names (fun _ => []) 0 false) s.world
      (updateKeyboardState (s.keyboards k) e) e false
  else none

/-- The binding a key event executes. -/
def firedBinding (s : BindSystem) (k : Nat) (e : KeyEvent) : Option Addr :=
  match pressedBinding names s k e with
  | some b => some b.loc
  | none => firesHeld (s.keyboards k) e (releasedBinding names s k e)

/-- The keyboard with the bindings it keeps from a key event on. -/
def armedKeyboard (s : BindSystem) (k : Nat) (e : KeyEvent) : Keyboard :=
  { s.keyboards k with
    heldBinding := holdBinding (s.keyboards k) e (releasedBinding names s k e)
    repeatBinding := repeatBinding (s.keyboards k) (pressedBinding names s k e) }

/-- The condition: no command frees a binding that a keyboard keeps, nor the one that is executed
if that is read again, and no binding is executed before the configuration is active. -/
def SparesKept (s : BindSystem) : BindSystemEvent → Prop
  | .commands cs => CommandsSpare names (Keeps s.keyboards) s.world.bindings cs
  | .key k e overview parse =>
      overview = true ∧ e.translatedKeysyms ≠ [] ∧ (s.keyboards k).grouped = false ∨
        ∀ a, firedBinding names s k e = some a →
          ExecutesSpare names parse
            (Keeps (Function.update s.keyboards k (armedKeyboard names s k e))) s.world a
  | .keyRepeat k parse =>
      ∀ a, (s.keyboards k).repeatBinding = some a →
        ExecutesSpare names parse (Keeps s.keyboards) s.world a
  | .mouse _ a parse =>
      isMouseBinding s.world a = true → ExecutesSpare names parse (Keeps s.keyboards) s.world a
  | .activate _ => True
  | .listen _ => True

/-- The invariant: nothing has gone wrong, and what is kept is live. -/
structure SystemInv (s : BindSystem) : Prop where
  sound : s.world.Sound
  kept : ∀ a, Keeps s.keyboards a → a ∈ s.world.bindings.owned.map Binding.loc

variable {names}

/-! ## What a search finds -/

theorem mem_of_getActiveBinding {state : ShortcutState} {q : BindingQuery} {l : List Binding}
    {current : Option Binding} {b : Binding} (h : getActiveBinding state q l current = some b) :
    b ∈ l ∨ current = some b := by
  induction l generalizing current with
  | nil => exact Or.inr h
  | cons c l ih =>
      unfold getActiveBinding at h
      split at h
      · exact (ih h).imp_left (List.mem_cons_of_mem c)
      · split at h
        · exact (ih h).imp_left (List.mem_cons_of_mem c)
        · split at h
          · obtain rfl := Option.some.inj h
            exact Or.inl List.mem_cons_self
          · rcases ih h with hb | hb
            · exact Or.inl (List.mem_cons_of_mem c hb)
            · obtain rfl := Option.some.inj hb
              exact Or.inl List.mem_cons_self

theorem current_subset_owned (s : Bindings) (t : BindingType) : ∀ b ∈ s.current t, b ∈ s.owned := by
  intro b hb
  unfold Bindings.current at hb
  split at hb
  · next m hm =>
    refine List.mem_flatMap.2 ⟨m, List.mem_of_getElem? hm, ?_⟩
    cases t <;> simp [SwayMode.bindings] at hb <;> simp [SwayMode.all, hb]
  · exact absurd hb List.not_mem_nil

/-- A binding that matches is one of a mode. -/
theorem mem_of_activeBinding {σ : Type} {h : KeyHost σ} {s : σ} {kb : Keyboard} {e : KeyEvent}
    {release : Bool} {b : Binding} (hb : activeBinding h s kb e release = some b) :
    b ∈ (h.bindings s).owned := by
  unfold activeBinding at hb
  rcases mem_of_getActiveBinding hb with hb | hb
  · exact current_subset_owned _ _ b hb
  · rcases mem_of_getActiveBinding hb with hb | hb
    · exact current_subset_owned _ _ b hb
    · rcases mem_of_getActiveBinding hb with hb | hb
      · exact current_subset_owned _ _ b hb
      · cases hb

/-! ## What a key event executes and keeps -/

/-- What is left of an event after the bindings changes none of them. -/
theorem handleKeyEvent_bindings (names : KeyNames) (parse : String → List Command) (overview : Bool)
    (s : BindSystem) (k : Nat) (e : KeyEvent)
    (hov : ¬ (overview = true ∧ e.translatedKeysyms ≠ [] ∧ (s.keyboards k).grouped = false)) :
    let host := bindHost names parse (s.keyboards k).seat overview
    let r := handleKeyEvent host s.world (s.keyboards k) e
    let r' := keyToBindings host s.world (updateKeyboardState (s.keyboards k) e) e
    r.state = r'.1 ∧ r.keyboard.heldBinding = r'.2.1.heldBinding ∧
      r.keyboard.repeatBinding = r'.2.1.repeatBinding := by
  intro host r r'
  have hto : keyToOverview host s.world (updateKeyboardState (s.keyboards k) e) e =
      (false, s.world) := by
    unfold keyToOverview
    cases hsyms : e.translatedKeysyms with
    | nil => rfl
    | cons sym syms =>
        cases overview with
        | false => rfl
        | true =>
            have hgrouped : (s.keyboards k).grouped = true := by
              cases hg : (s.keyboards k).grouped with
              | true => rfl
              | false => exact absurd ⟨rfl, by simp [hsyms], hg⟩ hov
            have hg : (updateKeyboardState (s.keyboards k) e).grouped = true := hgrouped
            simp [hg]
  have hr : r = handleKeyEvent host s.world (s.keyboards k) e := rfl
  unfold handleKeyEvent at hr
  dsimp only at hr
  rw [hto] at hr
  dsimp only at hr
  rcases hb : keyToBindings host s.world (updateKeyboardState (s.keyboards k) e) e with
    ⟨w, kb, handled⟩
  have hr' : r' = (w, kb, handled) := hb
  rw [hb] at hr
  rw [hr, hr']
  dsimp only
  split
  · exact ⟨rfl, rfl, rfl⟩
  · have hpointer : ∀ p : Bool, (if p then host.movePointer w e else w) = w := fun p => by
      cases p <;> rfl
    rw [hpointer]
    unfold keyToClient
    split_ifs <;> exact ⟨rfl, rfl, rfl⟩

/-- What a key event executes and what the keyboard keeps, read off the state before it. -/
theorem keyToBindings_fired (names : KeyNames) (parse : String → List Command) (overview : Bool) (s : BindSystem)
    (k : Nat) (e : KeyEvent) :
    let host := bindHost names parse (s.keyboards k).seat overview
    let r := keyToBindings host s.world (updateKeyboardState (s.keyboards k) e) e
    r.1 = (match firedBinding names s k e with
      | some a => seatExecuteCommand names parse (s.keyboards k).seat s.world a
      | none => s.world) ∧
      r.2.1.heldBinding = (armedKeyboard names s k e).heldBinding ∧
      r.2.1.repeatBinding = (armedKeyboard names s k e).repeatBinding := by
  intro host r
  have hreleased : (activeBinding host s.world (updateKeyboardState (s.keyboards k) e) e true).map
      Binding.loc = releasedBinding names s k e := rfl
  cases hp : e.pressed with
  | true =>
      -- nothing held is executed by a press
      have hheld : firesHeld (s.keyboards k) e (releasedBinding names s k e) = none := by
        simp [firesHeld, hp]
      have hpressed : pressedBinding names s k e =
          activeBinding host s.world (updateKeyboardState (s.keyboards k) e) e false := by
        simp only [pressedBinding, hp, if_true]
        rfl
      have hsame : ∀ held, activeBinding host s.world
          { updateKeyboardState (s.keyboards k) e with heldBinding := held } e false =
          pressedBinding names s k e := fun _ => hpressed.symm
      have hheld' : firesHeld (updateKeyboardState (s.keyboards k) e) e
          (releasedBinding names s k e) = none := hheld
      simp only [r, keyToBindings, hreleased, hheld', hp, if_true, hsame]
      unfold firedBinding armedKeyboard
      rw [hheld]
      cases pressedBinding names s k e <;> exact ⟨rfl, rfl, rfl⟩
  | false =>
      have hpressed : pressedBinding names s k e = none := by simp [pressedBinding, hp]
      simp only [r, keyToBindings, hreleased, hp, Bool.false_eq_true, if_false]
      unfold firedBinding armedKeyboard
      rw [hpressed]
      exact ⟨rfl, rfl, rfl⟩

/-- A keyboard keeps what it has kept or what it matches. -/
theorem keeps_armedKeyboard {s : BindSystem} (h : SystemInv s) {k : Nat} {e : KeyEvent} {a : Addr}
    (ha : (armedKeyboard names s k e).keeps a) : a ∈ s.world.bindings.owned.map Binding.loc := by
  have hreleased : releasedBinding names s k e = some a →
      a ∈ s.world.bindings.owned.map Binding.loc := by
    intro hr
    obtain ⟨b, hb, rfl⟩ := Option.map_eq_some_iff.1 hr
    exact List.mem_map_of_mem (mem_of_activeBinding hb)
  rcases ha with ha | ha
  · have ha : holdBinding (s.keyboards k) e (releasedBinding names s k e) = some a := ha
    unfold holdBinding at ha
    split_ifs at ha
    · exact hreleased ha
    · exact h.kept a ⟨k, Or.inl ha⟩
  · have ha : repeatBinding (s.keyboards k) (pressedBinding names s k e) = some a := ha
    unfold repeatBinding at ha
    split at ha
    · next b hb =>
      split_ifs at ha
      obtain rfl := Option.some.inj ha
      unfold pressedBinding at hb
      split_ifs at hb
      exact List.mem_map_of_mem (mem_of_activeBinding hb)
    · cases ha

/-- What a key event executes is live before it. -/
theorem firedBinding_live {s : BindSystem} (h : SystemInv s) {k : Nat} {e : KeyEvent} {a : Addr}
    (ha : firedBinding names s k e = some a) : a ∈ s.world.bindings.owned.map Binding.loc := by
  unfold firedBinding at ha
  split at ha
  · next b hb =>
    obtain rfl := Option.some.inj ha
    unfold pressedBinding at hb
    split_ifs at hb
    exact List.mem_map_of_mem (mem_of_activeBinding hb)
  · unfold firesHeld at ha
    split_ifs at ha
    exact h.kept a ⟨k, Or.inl ha⟩

/-! ## Every step -/

theorem systemInv_key {s : BindSystem} (h : SystemInv s) (k : Nat) (e : KeyEvent) (overview : Bool)
    (parse : String → List Command) (hok : SparesKept names s (.key k e overview parse)) :
    SystemInv (bindSystemStep names s (.key k e overview parse)) := by
  by_cases hov : overview = true ∧ e.translatedKeysyms ≠ [] ∧ (s.keyboards k).grouped = false
  · -- the overview takes the event, and the keyboard keeps what it has
    obtain ⟨rfl, hsyms, hgrouped⟩ := hov
    obtain ⟨sym, syms, hcons⟩ := List.exists_cons_of_ne_nil hsyms
    have hto : keyToOverview (bindHost names parse (s.keyboards k).seat true) s.world
        (updateKeyboardState (s.keyboards k) e) e = (true, s.world) := by
      have hg : (updateKeyboardState (s.keyboards k) e).grouped = false := hgrouped
      unfold keyToOverview
      rw [hcons]
      cases hp : e.pressed <;> simp [bindHost, hg]
    have hstep : bindSystemStep names s (.key k e true parse) =
        { s with
          keyboards := Function.update s.keyboards k (updateKeyboardState (s.keyboards k) e) } := by
      unfold bindSystemStep handleKeyEvent
      dsimp only
      rw [hto]
    rw [hstep]
    refine ⟨h.sound, ?_⟩
    rintro a ⟨k', ha⟩
    dsimp only at ha
    by_cases hk : k' = k
    · subst hk
      rw [Function.update_self] at ha
      exact h.kept a ⟨k', ha⟩
    · rw [Function.update_of_ne hk] at ha
      exact h.kept a ⟨k', ha⟩
  · have hspare := hok.resolve_left hov
    obtain ⟨hstate, hheld, hrepeat⟩ :=
      handleKeyEvent_bindings names parse overview s k e hov
    obtain ⟨hfired, hheld', hrepeat'⟩ :=
      keyToBindings_fired names parse overview s k e
    set armed := Function.update s.keyboards k (armedKeyboard names s k e) with harmed
    -- what the keyboards keep from now on is live before the commands run
    have hkept : ∀ a, Keeps armed a → a ∈ s.world.bindings.owned.map Binding.loc := by
      rintro a ⟨k', ha⟩
      by_cases hk : k' = k
      · subst hk
        rw [harmed, Function.update_self] at ha
        exact keeps_armedKeyboard h ha
      · rw [harmed, Function.update_of_ne hk] at ha
        exact h.kept a ⟨k', ha⟩
    have hkeeps : ∀ a, Keeps (bindSystemStep names s (.key k e overview parse)).keyboards a →
        Keeps armed a := by
      rintro a ⟨k', ha⟩
      refine ⟨k', ?_⟩
      by_cases hk : k' = k
      · subst hk
        unfold bindSystemStep at ha
        dsimp only at ha
        rw [Function.update_self] at ha
        rw [harmed, Function.update_self]
        unfold Keyboard.keeps at ha ⊢
        rw [hheld, hrepeat, hheld', hrepeat'] at ha
        exact ha
      · unfold bindSystemStep at ha
        dsimp only at ha
        rw [Function.update_of_ne hk] at ha
        rw [harmed, Function.update_of_ne hk]
        exact ha
    have hworld : (bindSystemStep names s (.key k e overview parse)).world =
        match firedBinding names s k e with
        | some a => seatExecuteCommand names parse (s.keyboards k).seat s.world a
        | none => s.world := hstate.trans hfired
    cases hf : firedBinding names s k e with
    | none =>
        rw [hf] at hworld
        constructor
        · rw [hworld]
          exact h.sound
        · intro a ha
          rw [hworld]
          exact hkept a (hkeeps a ha)
    | some a =>
        rw [hf] at hworld
        obtain ⟨hsound, hlive⟩ := sound_seatExecuteCommand (s.keyboards k).seat h.sound
          hkept (firedBinding_live h hf) (hspare a hf)
        constructor
        · rw [hworld]
          exact hsound
        · intro b hb
          rw [hworld]
          exact hlive b (hkeeps b hb)

/-- Nothing has been put off, so nothing is run when the configuration becomes active. -/
theorem runDeferredBindings_eq {s : BindWorld} (h : s.deferred.flatten = [])
    (parse : String → List Command) :
    runDeferredBindings names parse s = { s with active := true } := by
  unfold runDeferredBindings
  have hnone : ∀ seat : Nat, (s.deferred.getD seat []).length = 0 := by
    intro seat
    rw [List.flatten_eq_nil_iff] at h
    cases hs : s.deferred[seat]? with
    | none => simp [List.getD, hs]
    | some l => simp [List.getD, hs, h l (List.mem_of_getElem? hs)]
  refine foldl_invariant (I := fun w => w = { s with active := true }) _ _ ?_ ?_
  · rintro w seat - rfl
    have hlen : ((({ s with active := true } : BindWorld).deferred).getD seat []).length = 0 :=
      hnone seat
    rw [hlen]
    rfl
  · rfl

theorem systemInv_step {s : BindSystem} (h : SystemInv s) (ev : BindSystemEvent)
    (hok : SparesKept names s ev) : SystemInv (bindSystemStep names s ev) := by
  cases ev with
  | commands cs =>
      obtain ⟨hsound, hlive, -, -⟩ := sound_executeCommand h.sound h.kept hok
      exact ⟨hsound, hlive⟩
  | key k e overview parse => exact systemInv_key h k e overview parse hok
  | keyRepeat k parse =>
      cases hr : (s.keyboards k).repeatBinding with
      | none =>
          have hstep : bindSystemStep names s (.keyRepeat k parse) = s := by
            simp [bindSystemStep, handleKeyboardRepeat, hr]
          rw [hstep]
          exact h
      | some a =>
          have hstep : bindSystemStep names s (.keyRepeat k parse) =
              { s with
                world := seatExecuteCommand names parse (s.keyboards k).seat s.world a } := by
            simp [bindSystemStep, handleKeyboardRepeat, hr, bindHost]
          rw [hstep]
          obtain ⟨hsound, hlive⟩ := sound_seatExecuteCommand (s.keyboards k).seat h.sound
            h.kept (h.kept a ⟨k, Or.inr hr⟩) (hok a hr)
          exact ⟨hsound, hlive⟩
  | mouse seat a parse =>
      unfold bindSystemStep
      dsimp only
      split
      · next hmouse =>
        obtain ⟨b, hb, hloc⟩ := List.any_eq_true.1 hmouse
        have hlive : a ∈ s.world.bindings.owned.map Binding.loc :=
          List.mem_map.2 ⟨b, current_subset_owned _ _ b hb, of_decide_eq_true hloc⟩
        obtain ⟨hsound, hkept⟩ := sound_seatExecuteCommand seat h.sound h.kept hlive
          (hok hmouse)
        exact ⟨hsound, hkept⟩
      · exact h
  | activate parse =>
      have hstep : bindSystemStep names s (.activate parse) =
          { s with world := { s.world with active := true } } := by
        unfold bindSystemStep
        dsimp only
        rw [runDeferredBindings_eq h.sound.deferred]
      rw [hstep]
      exact ⟨⟨h.sound.apart, h.sound.deferred, h.sound.faults⟩, h.kept⟩
  | listen listeners => exact ⟨⟨h.sound.apart, h.sound.deferred, h.sound.faults⟩, h.kept⟩

/-! ## Every run -/

/-- A keyboard before its first event. -/
def Keyboard.start (seat : Nat) (identifier : String) (repeatDelay : Int) : Keyboard :=
  { seat, identifier, grouped := false, repeatDelay
    keysymsTranslated := .empty, keysymsRaw := .empty, keycodes := .empty, pressedSent := .empty
    heldBinding := none, repeatBinding := none }

/-- The system before anything is bound: some seats, and keyboards that keep no binding. -/
def BindSystem.start (keymap : Option Keymap) (seats : Nat) (keyboards : Nat → Keyboard) :
    BindSystem where
  world :=
    { bindings := { modes := [⟨"default", [], [], []⟩], currentMode := 0, keymap, bindingOrder := 0
                    next := 0 }
      deferred := List.replicate seats [], active := false, listeners := false, faults := [] }
  keyboards k := { keyboards k with heldBinding := none, repeatBinding := none }

theorem systemInv_start (keymap : Option Keymap) (seats : Nat) (keyboards : Nat → Keyboard) :
    SystemInv (.start keymap seats keyboards) where
  sound :=
    { apart :=
        { nodup := by simp [BindSystem.start, Bindings.owned, SwayMode.all]
          fresh := by simp [BindSystem.start, Bindings.owned, SwayMode.all]
          current := Nat.zero_lt_one }
      deferred := by simp [BindSystem.start]
      faults := rfl }
  kept := by
    rintro a ⟨k, ha | ha⟩
    · cases ha
    · cases ha

/-- **No binding is read after it has been freed, and nothing is freed that another binding refers
to**, in every run that spares the bindings that are kept and executes none before the
configuration is active. -/
theorem faults_eq_nil_of_run (names : KeyNames) (keymap : Option Keymap) (seats : Nat)
    (keyboards : Nat → Keyboard) {s : BindSystem}
    (hrun : Run (bindSystemStep names) (SparesKept names) (.start keymap seats keyboards) s) :
    s.world.faults = [] := by
  have hinv : SystemInv s :=
    hrun.invariant (fun _ e hi hok => systemInv_step hi e hok)
      (systemInv_start keymap seats keyboards)
  exact hinv.sound.faults

/-! ## A binding that unbinds itself -/

/-- The one key that is used. -/
def keyA : KeyNames where
  keysymFromName name := if name = "a" then 0x61 else 0
  eventCodeFromName _ := none
  eventCodeGetName _ := none

/-- The key goes down or up. -/
def keyAEvent (pressed : Bool) : KeyEvent :=
  { keycode := 30, pressed, rawKeysyms := [0x61], translatedKeysyms := [0x61], modifiers := 0
    translatedModifiers := 0, layout := 0, locked := false, inhibited := false, focused := true
    imGrab := false }

/-- The commands that bindings stand for here: to unbind the key, and anything else. -/
def parseA (command : String) : List Command :=
  if command = "unbindsym a" then [.bind ⟨false, true, ["a"]⟩] else [.other .success]

/-- The key is bound to a command, the configuration becomes active, and a client listens. -/
def boundA (command : String) : List BindSystemEvent :=
  [.commands [.bind ⟨false, false, ["a", command]⟩], .activate parseA, .listen true]

def systemA (events : List BindSystemEvent) : BindSystem :=
  events.foldl (bindSystemStep keyA) (.start none 1 fun _ => .start 0 "kbd" 600)

/-- A binding that leaves the bindings alone is executed without fault. -/
theorem faults_eq_nil_nop :
    (bindSystemStep keyA (systemA (boundA "nop")) (.key 0 (keyAEvent true) false parseA)).world.faults
      = [] := by
  apply faults_eq_nil_of_run keyA none 1 fun _ => .start 0 "kbd" 600
  refine Run.step _ (Run.foldl ⟨⟨?_, fun _ => trivial⟩, trivial, trivial, trivial⟩) (Or.inr ?_)
  · -- there is no binding yet that the new one could replace
    intro b hb
    have hnone : (Command.bind ⟨false, false, ["a", "nop"]⟩).target keyA
        (BindSystem.start none 1 fun _ => .start 0 "kbd" 600).world.bindings = none := by
      decide +kernel
    exact absurd (hnone.symm.trans hb) (by simp)
  · intro a _
    refine ⟨by decide +kernel, fun b hb _ => ?_⟩
    have hparse : ∀ b ∈ (systemA (boundA "nop")).world.bindings.owned,
        b.command = "nop" := by decide +kernel
    have hother : parseA b.command = [.other .success] := by
      rw [hparse b hb]
      rfl
    dsimp only
    rw [hother]
    exact ⟨fun c hc => by simp [Command.target] at hc, fun _ => trivial⟩

/-- A key is bound to the command that unbinds it. When it is pressed, the binding is freed by its
own command, and read again for the event. -/
theorem faults_unbindsItself :
    (bindSystemStep keyA (systemA (boundA "unbindsym a"))
      (.key 0 (keyAEvent true) false parseA)).world.faults = [.read 0] := by
  decide +kernel

/-- Before the configuration is active a binding is copied, and then both the copy and the original
are freed with their list of keys. -/
example :
    (systemA [.commands [.bind ⟨false, false, ["a", "nop"]⟩], .key 0 (keyAEvent true) false parseA,
      .activate parseA]).world.faults = [.shared 4] := by
  decide +kernel

end Swirl

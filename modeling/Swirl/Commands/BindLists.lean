import Swirl.Lib.Runs
import Swirl.Commands.BindReading

set_option autoImplicit false

/-! # The lists of bindings

Whatever is bound and unbound, in any mode and with any keymap, no list of a mode holds two
bindings that count as the same, the lists for keysyms and keycodes hold only bindings of their
own kind, and the keys of every binding are in ascending order.

A translation changes the type and the keys of a binding, so two bindings that were different can
become the same. What carries the proof is that every binding enters a list through
`binding_upsert`, and that a binding keeps its keysyms, in order, for as long as it can be
translated again.
-/

namespace Swirl

open Lib

variable (names : KeyNames)

/-! ## What is kept -/

/-- **The lists are right**: distinct, of one kind, and with the keys in order. -/
structure ModeRight (m : SwayMode) : Prop where
  distinct : ∀ t, Distinct bindingKeyCompare (m.bindings t)
  keysyms : ∀ b ∈ m.keysymBindings, b.type = .keysym
  keycodes : ∀ b ∈ m.keycodeBindings, b.type = .keycode
  ascending : ∀ t, ∀ b ∈ m.bindings t, b.keys.items.Pairwise (· ≤ ·)

/-- The lists of every mode are right. -/
def BindingsRight (s : Bindings) : Prop := ∀ m ∈ s.modes, ModeRight m

/-- A binding has its keys in order and, when it can be translated again, its keysyms, in order
too. -/
structure Binding.Ordered (b : Binding) : Prop where
  keys : b.keys.items.Pairwise (· ≤ ·)
  syms : ∀ l ∈ b.syms, l.items.Pairwise (· ≤ ·)
  kept : b.flags.code = true → b.type = .keycode → b.syms.isSome

/-- The invariant: the lists are right, and every binding can be translated. -/
structure ModeInv (m : SwayMode) : Prop where
  right : ModeRight m
  ordered : ∀ t, ∀ b ∈ m.bindings t, b.Ordered

/-! ## Comparing -/

/-- What two bindings are compared by. -/
def Binding.compared (b : Binding) :
    String × BindingType × BindingFlags × Option Nat × Nat × List Nat :=
  (b.input, b.type, b.flags.conflictGenerating, b.group, b.modifiers, b.keys.items)

theorem bindingKeyCompare_iff {a b : Binding} :
    bindingKeyCompare a b = true ↔ a.compared = b.compared := by
  simp only [bindingKeyCompare, Binding.compared, Bool.and_eq_true, decide_eq_true_eq,
    Prod.mk.injEq, and_assoc]

theorem bindingKeyCompare_equiv : SameEquiv bindingKeyCompare where
  symm a b := by
    rw [Bool.eq_iff_iff, bindingKeyCompare_iff, bindingKeyCompare_iff]
    exact eq_comm
  trans a b c hab hbc := by
    rw [bindingKeyCompare_iff] at hab hbc ⊢
    exact hab.trans hbc

variable {names}

/-! ## Translating -/

theorem ordered_translateSyms (keymap : Keymap) (fresh : Addr) {b : Binding} {syms : KeyList}
    (h : syms.items.Pairwise (· ≤ ·)) : (translateSyms keymap fresh b syms).Ordered := by
  unfold translateSyms
  split
  · next codes _ =>
    exact
      { keys := List.pairwise_insertionSort (· ≤ ·) codes
        syms := fun l hl => by
          obtain rfl : syms = l := by simpa using hl
          exact h
        kept := fun _ _ => rfl }
  · exact { keys := h, syms := fun l hl => by simp at hl, kept := fun _ ht => by simp at ht }

/-- A translation keeps a binding in order, whatever the keymap. -/
theorem ordered_translateBinding (keymap : Option Keymap) (fresh : Addr) {b : Binding}
    (h : b.Ordered) : (translateBinding keymap fresh b).Ordered := by
  unfold translateBinding
  split
  · next hcode =>
    cases ht : b.type with
    | keysym => exact ordered_translateSyms _ _ h.keys
    | keycode =>
        -- the keysyms are there, since the binding came from a translation
        obtain ⟨l, hl⟩ := Option.isSome_iff_exists.1 (h.kept hcode ht)
        rw [hl]
        exact ordered_translateSyms _ _ (h.syms l hl)
    | mousecode => exact h
    | mousesym => exact h
  · exact h

/-- What a command reads is in order. -/
theorem ordered_readBinding {s : Bindings} {bindcode unbind : Bool} {argv rest : List String}
    {b : Binding} {keycombo : String}
    (h : readBinding names s bindcode unbind argv = .ok (b, keycombo, rest)) : b.Ordered := by
  obtain ⟨b₀, h₀, hsorted, rfl⟩ := readBinding_spec h
  apply ordered_translateBinding
  constructor
  · exact hsorted
  · intro l hl
    exact absurd (h₀.syms.symm.trans hl) (by simp)
  · -- a bindcode is not translated, and a bindsym is not one of keycodes
    intro hcode ht
    cases hb : bindcode with
    | false => exact absurd ht (h₀.type hb)
    | true => exact absurd (hcode.symm.trans (h₀.code hb)) (by simp)

/-! ## The lists of a mode -/

@[simp] theorem bindings_setBindings (m : SwayMode) (t : BindingType) (l : List Binding) :
    (m.setBindings t l).bindings t = l := by
  cases t <;> rfl

/-- Another list stays, unless it is the list the two kinds of mouse bindings share. -/
theorem bindings_setBindings_cases (m : SwayMode) (t t' : BindingType) (l : List Binding) :
    (m.setBindings t l).bindings t' = l ∧ m.bindings t' = m.bindings t ∨
      (m.setBindings t l).bindings t' = m.bindings t' ∧ t' ≠ t := by
  cases t <;> cases t' <;> simp [SwayMode.setBindings, SwayMode.bindings]

theorem modeInv_empty (name : String) : ModeInv ⟨name, [], [], []⟩ where
  right :=
    { distinct := fun t => by cases t <;> exact distinct_nil
      keysyms := fun b hb => by cases hb
      keycodes := fun b hb => by cases hb
      ascending := fun t b hb => by cases t <;> cases hb }
  ordered t b hb := by cases t <;> cases hb

/-- A list changes to a distinct one of bindings that were in it or are new, in order and of its
kind. -/
theorem ModeInv.setBindings {m : SwayMode} (h : ModeInv m) {t : BindingType} {l : List Binding}
    (hd : Distinct bindingKeyCompare l)
    (hl : ∀ b ∈ l, b ∈ m.bindings t ∨ b.type = t ∧ b.Ordered) : ModeInv (m.setBindings t l) := by
  have hord : ∀ b ∈ l, b.Ordered := fun b hb => (hl b hb).elim (h.ordered t b) fun h => h.2
  refine { right := ⟨fun t' => ?_, fun b hb => ?_, fun b hb => ?_, fun t' b hb => ?_⟩
           ordered := fun t' b hb => ?_ }
  · rcases bindings_setBindings_cases m t t' l with ⟨he, _⟩ | ⟨he, _⟩
    · rw [he]
      exact hd
    · rw [he]
      exact h.right.distinct t'
  · cases t with
    | keysym => exact (hl b hb).elim (h.right.keysyms b) fun h => h.1
    | keycode => exact h.right.keysyms b hb
    | mousecode => exact h.right.keysyms b hb
    | mousesym => exact h.right.keysyms b hb
  · cases t with
    | keycode => exact (hl b hb).elim (h.right.keycodes b) fun h => h.1
    | keysym => exact h.right.keycodes b hb
    | mousecode => exact h.right.keycodes b hb
    | mousesym => exact h.right.keycodes b hb
  · rcases bindings_setBindings_cases m t t' l with ⟨he, _⟩ | ⟨he, _⟩
    · rw [he] at hb
      exact (hord b hb).keys
    · rw [he] at hb
      exact h.right.ascending t' b hb
  · rcases bindings_setBindings_cases m t t' l with ⟨he, _⟩ | ⟨he, _⟩
    · rw [he] at hb
      exact hord b hb
    · rw [he] at hb
      exact h.ordered t' b hb

/-- **A binding that is put into the list of its type leaves the mode right.** -/
theorem ModeInv.upsert {m : SwayMode} (h : ModeInv m) {b : Binding} (hb : b.Ordered) :
    ModeInv (m.setBindings b.type (bindingUpsert b (m.bindings b.type)).1) := by
  refine h.setBindings (distinct_upsert bindingKeyCompare_equiv b (h.right.distinct b.type)) ?_
  intro c hc
  rcases mem_of_mem_upsert hc with rfl | hc
  · exact Or.inr ⟨rfl, hb⟩
  · exact Or.inl hc

/-- A list from which a binding is taken stays right. -/
theorem ModeInv.erase {m : SwayMode} (h : ModeInv m) (t : BindingType) (p : Binding → Bool) :
    ModeInv (m.setBindings t ((m.bindings t).eraseP p)) :=
  h.setBindings (distinct_eraseP p (h.right.distinct t))
    fun _ hc => Or.inl (List.mem_of_mem_eraseP hc)

/-! ## Translating the lists -/

/-- The mode whose lists a translation has filled so far. -/
def Translated.mode (acc : Translated) (m : SwayMode) : SwayMode :=
  { m with keysymBindings := acc.bindsyms, keycodeBindings := acc.bindcodes }

theorem modeInv_translateInto {m : SwayMode} (keymap : Option Keymap) {acc : Translated}
    (h : ModeInv (acc.mode m)) {b : Binding} (hb : b.Ordered) :
    ModeInv ((translateInto keymap acc b).mode m) := by
  have hb' := ordered_translateBinding keymap acc.next hb
  unfold translateInto
  dsimp only
  generalize translateBinding keymap acc.next b = c at hb'
  cases ht : c.type with
  | keysym =>
      have hup := h.upsert hb'
      rw [ht] at hup
      exact hup
  | keycode =>
      have hup := h.upsert hb'
      rw [ht] at hup
      exact hup
  | mousecode => exact h
  | mousesym => exact h

theorem modeInv_translateBindingList {m : SwayMode} (keymap : Option Keymap) {acc : Translated}
    (h : ModeInv (acc.mode m)) {l : List Binding} (hl : ∀ b ∈ l, b.Ordered) :
    ModeInv ((translateBindingList keymap acc l).mode m) :=
  foldl_invariant (I := fun acc => ModeInv (Translated.mode acc m)) _ l
    (fun _ b hb h => modeInv_translateInto keymap h (hl b hb)) h

/-- New lists start empty. -/
theorem modeInv_start {m : SwayMode} (h : ModeInv m) (next : Addr) :
    ModeInv ((⟨[], [], next⟩ : Translated).mode m) := by
  have h₁ : ModeInv (m.setBindings .keysym []) :=
    h.setBindings distinct_nil fun _ hb => absurd hb List.not_mem_nil
  exact h₁.setBindings (t := .keycode) distinct_nil fun _ hb => absurd hb List.not_mem_nil

theorem modeInv_translateModes (keymap : Option Keymap) (next : Addr) {ms : List SwayMode}
    (h : ∀ m ∈ ms, ModeInv m) : ∀ m ∈ (translateModes keymap next ms).1, ModeInv m := by
  induction ms generalizing next with
  | nil => exact fun m hm => absurd hm List.not_mem_nil
  | cons m₀ ms ih =>
      have hm₀ := h m₀ List.mem_cons_self
      intro m hm
      rcases List.mem_cons.1 hm with rfl | hm
      · -- first the bindings of keysyms, then those of keycodes, go into the new lists
        exact modeInv_translateBindingList keymap
          (modeInv_translateBindingList keymap (modeInv_start hm₀ next) (hm₀.ordered .keysym))
          (hm₀.ordered .keycode)
      · exact ih _ (fun m hm => h m (List.mem_cons_of_mem m₀ hm)) m hm

/-! ## Runs -/

/-- What changes the bindings: a bind or unbind command, a mode with or without one, and another
keymap. -/
inductive BindEvent where
  | bind (c : BindCommand)
  | mode (name : String) (sub : Option BindCommand)
  | translateKeysyms (keymap : Option Keymap)
  deriving DecidableEq

variable (names)

/-- One event. -/
def bindStep (s : Bindings) : BindEvent → Bindings
  | .bind c => (c.run names s).state
  | .mode name sub => (cmdMode names s name sub).state
  | .translateKeysyms keymap => translateKeysyms s keymap

/-- The configuration starts with the mode `default`, without bindings. -/
def startBindings (keymap : Option Keymap) : Bindings :=
  { modes := [⟨"default", [], [], []⟩], currentMode := 0, keymap, bindingOrder := 0, next := 0 }

variable {names}

/-- The lists of every mode are right, and every binding can be translated. -/
def BindingsInv (s : Bindings) : Prop := ∀ m ∈ s.modes, ModeInv m

/-- The current mode is changed to one that is right. -/
theorem bindingsInv_setCurrent {s : Bindings} (h : BindingsInv s) {t : BindingType}
    {l : List Binding} (hm : ∀ m, s.modes[s.currentMode]? = some m → ModeInv (m.setBindings t l)) :
    BindingsInv (s.setCurrent t l) := by
  intro m hmem
  obtain ⟨i, hi⟩ := List.mem_iff_getElem?.1 hmem
  simp only [Bindings.setCurrent, List.getElem?_modify] at hi
  cases hs : s.modes[i]? with
  | none => simp [hs] at hi
  | some m₀ =>
      by_cases hcur : s.currentMode = i
      · simp only [hs, hcur, if_true, Option.map_eq_map, Option.map_some, Option.some.injEq] at hi
        subst hi
        exact hm m₀ (by rw [hcur]; exact hs)
      · simp only [hs, hcur, if_false, Option.map_eq_map, Option.map_some, Option.some.injEq] at hi
        subst hi
        exact h m₀ (List.mem_of_getElem? hs)

theorem bindingsInv_bindingAdd {s : Bindings} (h : BindingsInv s) {b : Binding} (hb : b.Ordered) :
    BindingsInv (bindingAdd s b).state := by
  refine bindingsInv_setCurrent h fun m hm => ?_
  have hcur : s.current b.type = m.bindings b.type := by simp [Bindings.current, hm]
  rw [hcur]
  exact (h m (List.mem_of_getElem? hm)).upsert hb

theorem bindingsInv_bindingRemove {s : Bindings} (h : BindingsInv s) (b : Binding)
    (keycombo : String) : BindingsInv (bindingRemove s b keycombo).state := by
  unfold bindingRemove
  split
  · refine bindingsInv_setCurrent h fun m hm => ?_
    have hcur : s.current b.type = m.bindings b.type := by simp [Bindings.current, hm]
    rw [hcur]
    exact (h m (List.mem_of_getElem? hm)).erase b.type _
  · exact h

theorem bindingsInv_run {s : Bindings} (h : BindingsInv s) (c : BindCommand) :
    BindingsInv (c.run names s).state := by
  unfold BindCommand.run cmdBindsymOrBindcode
  cases hr : readBinding names s c.bindcode c.unbind c.argv with
  | error e => exact h
  | ok r =>
      obtain ⟨b, keycombo, rest⟩ := r
      have hb := ordered_readBinding hr
      dsimp only
      split
      · exact bindingsInv_bindingRemove (s := { s with next := s.next + 4 }) h b keycombo
      · -- the command and the order of a binding do not count
        exact bindingsInv_bindingAdd (s := { s with
          next := s.next + 4, bindingOrder := s.bindingOrder + 1 }) h ⟨hb.keys, hb.syms, hb.kept⟩

theorem bindingsInv_findMode {s s' : Bindings} (h : BindingsInv s) {name : String} {create : Bool}
    {i : Nat} (hf : findMode s name create = some (s', i)) : BindingsInv s' := by
  unfold findMode at hf
  repeat' split at hf
  · obtain ⟨rfl, _⟩ := Prod.mk.inj (Option.some.inj hf)
    exact h
  · obtain ⟨rfl, _⟩ := Prod.mk.inj (Option.some.inj hf)
    intro m hm
    rcases List.mem_append.1 hm with hm | hm
    · exact h m hm
    · rw [List.mem_singleton.1 hm]
      exact modeInv_empty name
  · cases hf

theorem bindingsInv_cmdMode {s : Bindings} (h : BindingsInv s) (name : String)
    (sub : Option BindCommand) : BindingsInv (cmdMode names s name sub).state := by
  unfold cmdMode
  cases hf : findMode s (stripQuotes name) sub.isSome with
  | none => exact h
  | some r =>
      obtain ⟨s', i⟩ := r
      have h' := bindingsInv_findMode h hf
      cases sub with
      | none => exact h'
      | some c => exact bindingsInv_run (s := { s' with currentMode := i }) h' c

theorem bindingsInv_translateKeysyms {s : Bindings} (h : BindingsInv s) (keymap : Option Keymap) :
    BindingsInv (translateKeysyms s keymap) := by
  cases keymap with
  | none => exact h
  | some km => exact modeInv_translateModes (some km) s.next h

theorem bindingsInv_step {s : Bindings} (h : BindingsInv s) (e : BindEvent) :
    BindingsInv (bindStep names s e) := by
  cases e with
  | bind c => exact bindingsInv_run h c
  | mode name sub => exact bindingsInv_cmdMode h name sub
  | translateKeysyms keymap => exact bindingsInv_translateKeysyms h keymap

variable (names)

/-- **The lists of bindings are right in every state**, whatever is bound and unbound in whichever
mode, and whatever the keymaps are. -/
theorem bindingsRight_of_events (keymap : Option Keymap) (events : List BindEvent) :
    BindingsRight (events.foldl (bindStep names) (startBindings keymap)) := by
  have hstart : BindingsInv (startBindings keymap) := by
    intro m hm
    rw [List.mem_singleton.1 hm]
    exact modeInv_empty "default"
  have hrun : BindingsInv (events.foldl (bindStep names) (startBindings keymap)) :=
    foldl_invariant (I := BindingsInv) _ events (fun _ e _ h => bindingsInv_step h e) hstart
  exact fun m hm => (hrun m hm).right

end Swirl

import Swirl.Commands.Bind

set_option autoImplicit false

/-! # Reading a bind command

What `cmd_bindsym_or_bindcode` makes of its arguments, before it touches a list: a binding in fresh
memory, with its keys in order, that is translated when everything has been read. A bindcode is
never one to translate, and a bindsym never gets the type of a binding of keycodes by reading.
-/

namespace Swirl

variable (names : KeyNames)

/-- A binding that has not been translated yet, allocated from an address on. -/
structure Binding.Untranslated (b : Binding) (bindcode : Bool) (n : Addr) : Prop where
  placed : b.loc = n ∧ b.inputLoc = n + 1 ∧ b.keys.loc = n + 2
  syms : b.syms = none
  code : bindcode = true → b.flags.code = false
  type : bindcode = false → b.type ≠ .keycode

theorem untranslated_startReading (s : Bindings) (bindcode : Bool) :
    (startReading s bindcode).binding.Untranslated bindcode s.next where
  placed := ⟨rfl, rfl, rfl⟩
  syms := rfl
  code _ := rfl
  type h := by
    subst h
    simp [startReading]

variable {names}

/-- Flags may change as long as a bindcode gets no flag for a translation. -/
theorem untranslated_setFlags {r : Reading} {n : Addr} {bindcode : Bool} (f : BindingFlags → BindingFlags)
    (h : r.binding.Untranslated bindcode n)
    (hf : bindcode = true → (f r.binding.flags).code = r.binding.flags.code) :
    (r.setFlags f).binding.Untranslated bindcode n where
  placed := h.placed
  syms := h.syms
  code hb := (hf hb).trans (h.code hb)
  type := h.type

theorem untranslated_readOption {bindcode : Bool} {r r' : Reading} {n : Addr} {arg : String}
    (h : r.binding.Untranslated bindcode n) (hr : readOption bindcode r arg = some r') :
    r'.binding.Untranslated bindcode n := by
  unfold readOption at hr
  -- one goal an option, and the last for what is no option
  repeat' split at hr
  all_goals cases hr
  · exact untranslated_setFlags _ h fun _ => rfl
  · exact untranslated_setFlags _ h fun _ => rfl
  · exact untranslated_setFlags _ h fun _ => rfl
  · exact untranslated_setFlags _ h fun _ => rfl
  · exact untranslated_setFlags _ h fun _ => rfl
  · exact h
  next hb => exact untranslated_setFlags _ h fun hcode => absurd hcode hb
  · exact h
  · exact ⟨h.placed, h.syms, h.code, h.type⟩
  · exact h
  · exact untranslated_setFlags _ h fun _ => rfl

theorem untranslated_readOptions {bindcode : Bool} {r : Reading} {n : Addr} {argv : List String}
    (h : r.binding.Untranslated bindcode n) :
    (readOptions bindcode r argv).1.binding.Untranslated bindcode n := by
  induction argv generalizing r with
  | nil => exact h
  | cons arg argv ih =>
      unfold readOptions
      cases hr : readOption bindcode r arg with
      | none => exact h
      | some r' => exact ih (untranslated_readOption h hr)

theorem untranslated_region {bindcode : Bool} {r : Reading} {n : Addr}
    (h : r.binding.Untranslated bindcode n) : r.region.binding.Untranslated bindcode n := by
  unfold Reading.region
  dsimp only
  split
  · refine ⟨h.placed, h.syms, h.code, ?_⟩
    intro _
    dsimp only
    split <;> simp
  · exact h

theorem untranslated_refine {bindcode : Bool} {r : Reading} {n : Addr}
    (h : r.binding.Untranslated bindcode n) : r.refine.binding.Untranslated bindcode n := by
  unfold Reading.refine
  split_ifs
  · exact untranslated_setFlags _ h fun _ => rfl
  · exact untranslated_setFlags _ h fun _ => rfl
  · exact h

/-- The type of a binding changes only to that of its kind for the mouse. -/
theorem identifyKey_type {name : String} {first : Bool} {t : BindingType} {key : Nat × BindingType}
    (h : identifyKey names name first t = .ok key) : t ≠ .keycode → key.2 ≠ .keycode := by
  intro ht
  cases t with
  | keycode => exact absurd rfl ht
  | mousecode =>
      unfold identifyKey at h
      cases hb : buttonOr ("Unknown button code " ++ name) (getMouseBindcode names name) with
      | error e => simp [hb, Except.map] at h
      | ok b =>
          simp only [hb, Except.map, Except.ok.injEq] at h
          simp [← h]
  | mousesym =>
      unfold identifyKey at h
      cases hb : buttonOr ("Unknown button " ++ name) (getMouseBindsym names name) with
      | error e => simp [hb, Except.map] at h
      | ok b =>
          simp only [hb, Except.map, Except.ok.injEq] at h
          simp [← h]
  | keysym =>
      unfold identifyKey at h
      dsimp only at h
      repeat' split at h
      all_goals first
        | (obtain rfl := Except.ok.inj h; simp)
        | cases h

theorem untranslated_readKey {bindcode : Bool} {b b' : Binding} {n : Addr} {name : String}
    (h : b.Untranslated bindcode n) (hr : readKey names b name = .ok b') :
    b'.Untranslated bindcode n := by
  unfold readKey at hr
  dsimp only at hr
  split at hr
  · -- a modifier
    obtain rfl := Except.ok.inj hr
    exact ⟨h.placed, h.syms, h.code, h.type⟩
  · cases hk : identifyKey names name b.keys.items.isEmpty b.type with
    | error e => simp [hk, Except.map] at hr
    | ok key =>
        simp only [hk, Except.map, Except.ok.injEq] at hr
        subst hr
        exact ⟨h.placed, h.syms, h.code, fun hb => identifyKey_type hk (h.type hb)⟩

theorem untranslated_readPiece {bindcode : Bool} {b b' : Binding} {n : Addr} {name : String}
    (h : b.Untranslated bindcode n) (hr : readPiece names b name = .ok b') :
    b'.Untranslated bindcode n := by
  unfold readPiece at hr
  split_ifs at hr with hg hm hgroup
  · -- a group
    unfold readGroup at hr
    dsimp only at hr
    split_ifs at hr
    obtain rfl := Except.ok.inj hr
    exact ⟨h.placed, h.syms, h.code, h.type⟩
  · -- Mode_switch
    have hset : ({ b with group := some 1 } : Binding).Untranslated bindcode n :=
      ⟨h.placed, h.syms, h.code, h.type⟩
    exact untranslated_readKey hset hr
  · exact untranslated_readKey h hr

theorem untranslated_readPieces {bindcode : Bool} {pieces : List String} {b b' : Binding} {n : Addr}
    (h : b.Untranslated bindcode n) (hr : pieces.foldlM (readPiece names) b = .ok b') :
    b'.Untranslated bindcode n := by
  induction pieces generalizing b with
  | nil =>
      obtain rfl := Except.ok.inj hr
      exact h
  | cons name pieces ih =>
      rw [List.foldlM_cons] at hr
      cases hp : readPiece names b name with
      | error e =>
          rw [hp] at hr
          cases hr
      | ok b₁ =>
          rw [hp] at hr
          exact ih (untranslated_readPiece h hp) hr

/-- **What a command reads**: a binding in fresh memory with its keys in order, translated. -/
theorem readBinding_spec {s : Bindings} {bindcode unbind : Bool} {argv rest : List String}
    {b : Binding} {keycombo : String}
    (h : readBinding names s bindcode unbind argv = .ok (b, keycombo, rest)) :
    ∃ b₀ : Binding, b₀.Untranslated bindcode s.next ∧ b₀.keys.items.Pairwise (· ≤ ·) ∧
      b = translateBinding s.keymap (s.next + 3) b₀ := by
  unfold readBinding at h
  dsimp only at h
  have hstart : (readOptions bindcode (startReading s bindcode) argv).1.region.binding.Untranslated
      bindcode s.next :=
    untranslated_region (untranslated_readOptions (untranslated_startReading s bindcode))
  repeat' split at h
  · cases h
  · cases h
  · next combo words _ _ =>
    cases hp : (splitString combo '+').foldlM (readPiece names)
        (readOptions bindcode (startReading s bindcode) argv).1.region.binding with
    | error e => simp [hp, Except.map] at h
    | ok b₁ =>
        simp only [hp, Except.map, Except.ok.injEq, Prod.mk.injEq] at h
        obtain ⟨rfl, _⟩ := h
        have h₁ := untranslated_readPieces hstart hp
        have h₂ := untranslated_refine (r :=
          { (readOptions bindcode (startReading s bindcode) argv).1.region with binding := b₁ }) h₁
        refine ⟨_, ?_, ?_, rfl⟩
        · exact ⟨h₂.placed, h₂.syms, h₂.code, h₂.type⟩
        · exact List.pairwise_insertionSort (· ≤ ·) _
  · cases h

end Swirl

import Swirl.Input.Keyboard
import Swirl.Lib.Choice

set_option autoImplicit false

/-! # Which key binding is chosen

`get_active_binding` keeps one of the bindings that match the pressed keys. A binding with more
keys is better than one with fewer, then one for the device than one for all devices, then one for
a group than one for all groups, then one with the flag for the lock as it is, then one with the
flag for the inhibitor as it is. The scan follows the same order without the keys, and it does not
look at the flags where a group is set, nor at the inhibitor where the lock decides.
-/

namespace Swirl

section Choice

variable (state : ShortcutState) (q : BindingQuery)

/-- The binding matches the pressed keys. -/
def Binding.Matches (b : Binding) : Prop := q.accepts b = true ∧ keysMatch state b = true

instance Binding.decidableMatches (b : Binding) : Decidable (b.Matches state q) :=
  inferInstanceAs (Decidable (_ ∧ _))

/-- The first binding is better, by its flags. -/
def Binding.FlagsBeat (a b : Binding) : Prop :=
  (a.flags.locked = q.locked ∧ b.flags.locked ≠ q.locked) ∨
    a.flags.locked = b.flags.locked ∧
      (a.flags.inhibited = q.inhibited ∧ b.flags.inhibited ≠ q.inhibited)

/-- The first binding is better: by the keys, by the device, by the group, by the flags. -/
def Binding.Beats (a b : Binding) : Prop :=
  b.keys.items.length < a.keys.items.length ∨
    a.keys.items.length = b.keys.items.length ∧ ((a.input = q.input ∧ b.input ≠ q.input) ∨
      (a.input = q.input ↔ b.input = q.input) ∧ ((a.group.isSome ∧ ¬ b.group.isSome) ∨
        (a.group.isSome ↔ b.group.isSome) ∧ a.FlagsBeat q b))

/-- Nothing is chosen if no binding matches, or else a matching one that no matching one beats. -/
def ChoosesBinding (bindings : List Binding) : Option Binding → Prop
  | none => ∀ b ∈ bindings, ¬ b.Matches state q
  | some b => b ∈ bindings ∧ b.Matches state q ∧
      ∀ c ∈ bindings, c.Matches state q → ¬ c.Beats q b

/-- The order of the scan, without the device: a binding for a group comes first, then one with the
flag for the lock as it is, then one with the flag for the inhibitor as it is. -/
def Binding.fit (b : Binding) : Nat :=
  if b.group.isSome then 3
  else if b.flags.locked = q.locked then 2
  else if b.flags.inhibited = q.inhibited then 1
  else 0

/-- The order of the scan. -/
def Binding.preference (b : Binding) : Nat :=
  (if b.input = q.input then 4 else 0) + b.fit q

/-! ## The rule -/

variable {state q} {a b c : Binding}

theorem fit_le (b : Binding) : b.fit q ≤ 3 := by
  unfold Binding.fit
  split
  · exact le_rfl
  · split
    · omega
    · split <;> omega

theorem Binding.Matches.group (h : b.Matches state q) :
    b.group = none ∨ b.group = some q.group := by
  have haccepts := h.1
  unfold BindingQuery.accepts at haccepts
  simp only [Bool.and_eq_true, Bool.or_eq_true, decide_eq_true_eq] at haccepts
  exact haccepts.1.2

/-- A binding is for the group of the keyboard, where it is for a group. -/
theorem Binding.Matches.decide_group (h : b.Matches state q) :
    decide (b.group = some q.group) = b.group.isSome := by
  rcases h.group with hg | hg
  · rw [hg]
    rfl
  · rw [hg]
    exact decide_eq_true rfl

/-- Among bindings for one device the first one is kept if it fits as well. -/
theorem keeps_iff_fit : ∀ ag bg al bl ai bi ql qi : Bool,
    (al == bl && ai == bi && ag == bg || ag || ag == bg && al == ql ||
      ag == bg && al == bl && ai == qi) = true ↔
      (if bg then 3 else if bl = ql then 2 else if bi = qi then 1 else 0) ≤
        if ag then 3 else if al = ql then 2 else if ai = qi then 1 else 0 := by
  decide

/-- The rule of `get_active_binding` for two bindings that match. -/
theorem keepsCurrent_iff (hloc : a.loc = b.loc → a = b) (ha : a.Matches state q) :
    keepsCurrent q a b = true ↔ b.preference q ≤ a.preference q := by
  by_cases hsame : a.loc = b.loc
  · rw [hloc hsame]
    exact iff_of_true (by simp [keepsCurrent]) le_rfl
  have hfita := fit_le (q := q) a
  have hfitb := fit_le (q := q) b
  unfold keepsCurrent Binding.preference
  rw [decide_eq_false hsame, ha.decide_group]
  by_cases hai : a.input = q.input
  · by_cases hbi : b.input = q.input
    · rw [if_pos hai, if_pos hbi, decide_eq_true hai, decide_eq_true hbi, Nat.add_le_add_iff_left]
      simpa [Binding.fit] using keeps_iff_fit a.group.isSome b.group.isSome a.flags.locked
        b.flags.locked a.flags.inhibited b.flags.inhibited q.locked q.inhibited
    · -- the first one is for the device
      rw [if_pos hai, if_neg hbi, decide_eq_true hai, decide_eq_false hbi]
      exact iff_of_true (by simp) (by omega)
  · by_cases hbi : b.input = q.input
    · -- the second one is for the device
      rw [if_neg hai, if_pos hbi, decide_eq_false hai, decide_eq_true hbi]
      exact iff_of_false (by simp) (by omega)
    · rw [if_neg hai, if_neg hbi, decide_eq_false hai, decide_eq_false hbi,
        Nat.add_le_add_iff_left]
      simpa [Binding.fit] using keeps_iff_fit a.group.isSome b.group.isSome a.flags.locked
        b.flags.locked a.flags.inhibited b.flags.inhibited q.locked q.inhibited

/-- A binding that ends the scan is one of those that come first. -/
theorem preference_of_perfectMatch (h : perfectMatch q b = true) (a : Binding) :
    a.preference q ≤ b.preference q := by
  unfold perfectMatch at h
  simp only [Bool.and_eq_true, decide_eq_true_eq] at h
  have hfit : b.fit q = 3 := by
    unfold Binding.fit
    rw [h.2, if_pos (show (some q.group).isSome = true from rfl)]
  have hfita := fit_le (q := q) a
  unfold Binding.preference
  rw [if_pos h.1.1.1, hfit]
  split <;> omega

/-- The loop chooses among the bindings that match. -/
theorem getActiveBinding_eq (bindings : List Binding) (current : Option Binding) :
    getActiveBinding state q bindings current =
      Lib.choose (fun c b => !keepsCurrent q c b) (perfectMatch q)
        (bindings.filter fun b => b.Matches state q) current := by
  induction bindings generalizing current with
  | nil => rfl
  | cons b bindings ih =>
      rw [getActiveBinding]
      by_cases hmatch : b.Matches state q
      · rw [List.filter_cons_of_pos (by simpa using hmatch), Lib.choose, hmatch.1, hmatch.2,
          if_neg (by decide)]
        have hall : (current.all fun c => !keepsCurrent q c b) =
            !current.any fun c => keepsCurrent q c b := by
          cases current <;> rfl
        rw [hall]
        cases current.any fun c => keepsCurrent q c b with
        | true => exact ih current
        | false =>
            rw [if_neg Bool.false_ne_true, if_pos (show (!false) = true from rfl)]
            split
            · rfl
            · exact ih (some b)
      · have hno : (!(q.accepts b && keysMatch state b)) = true := by
          rw [Bool.not_eq_true', Bool.and_eq_false_iff]
          by_contra hboth
          push Not at hboth
          exact hmatch ⟨by simpa using hboth.1, by simpa using hboth.2⟩
        rw [if_pos hno, List.filter_cons_of_neg (by simpa using hmatch)]
        exact ih current

theorem mem_matchingKeys {bindings : List Binding} :
    b ∈ bindings.filter (fun b => b.Matches state q) ↔ b ∈ bindings ∧ b.Matches state q := by
  rw [List.mem_filter, decide_eq_true_iff]

/-- The first matching binding of the greatest preference is found. -/
theorem getActiveBinding_eq_argmax {bindings : List Binding}
    (hloc : ∀ a ∈ bindings, ∀ b ∈ bindings, a.loc = b.loc → a = b) :
    getActiveBinding state q bindings none =
      (bindings.filter fun b => b.Matches state q).argmax (Binding.preference q) := by
  rw [getActiveBinding_eq]
  refine Lib.choose_eq_argmax ?_ fun c _ hperfect d _ => preference_of_perfectMatch hperfect d
  refine List.pairwise_of_forall_mem_list fun c hc d hd => ?_
  obtain ⟨hcmem, hcmatch⟩ := mem_matchingKeys.mp hc
  have hkeeps := keepsCurrent_iff (hloc c hcmem d (mem_matchingKeys.mp hd).1) hcmatch
  rw [Bool.not_eq_true', ← Bool.not_eq_true, hkeeps, not_le]

/-! ## The order -/

theorem preference_eq_iff : a.preference q = b.preference q ↔
    (a.input = q.input ↔ b.input = q.input) ∧ a.fit q = b.fit q := by
  have hfita := fit_le (q := q) a
  have hfitb := fit_le (q := q) b
  unfold Binding.preference
  by_cases hai : a.input = q.input <;> by_cases hbi : b.input = q.input <;>
    simp [hai, hbi] <;> omega

/-- Where the scan prefers none of two bindings, they are both for a group or both for none. -/
theorem group_of_fit_eq (h : a.fit q = b.fit q) : a.group.isSome ↔ b.group.isSome := by
  have hset : ∀ c : Binding, c.group.isSome ↔ c.fit q = 3 := by
    intro c
    unfold Binding.fit
    split
    · exact iff_of_true ‹_› rfl
    · refine iff_of_false ‹_› ?_
      split
      · omega
      · split <;> omega
  rw [hset a, hset b, h]

/-- A binding that fits no better is better by its flags only if it fits as well. -/
theorem fit_eq_of_flagsBeat (hgroup : a.group.isSome ↔ b.group.isSome) (hfit : a.fit q ≤ b.fit q)
    (hflags : a.FlagsBeat q b) : a.fit q = b.fit q := by
  unfold Binding.fit at hfit ⊢
  by_cases hset : b.group.isSome
  · rw [if_pos hset, if_pos (hgroup.mpr hset)]
  · rw [if_neg hset, if_neg fun h => hset (hgroup.mp h)] at hfit ⊢
    rcases hflags with ⟨hal, hbl⟩ | ⟨hlocked, hai, hbi⟩
    · -- the lock decides
      rw [if_pos hal, if_neg hbl] at hfit
      split at hfit <;> omega
    · rw [hlocked, if_pos hai, if_neg hbi] at hfit ⊢
      split
      · rfl
      · rw [if_neg ‹_›, if_neg ‹_›] at hfit
        omega

/-- Among bindings that the scan does not prefer, a better one has more keys, or as many and better
flags. -/
theorem beats_iff (h : a.preference q ≤ b.preference q) : a.Beats q b ↔
    b.keys.items.length < a.keys.items.length ∨
      a.keys.items.length = b.keys.items.length ∧ a.preference q = b.preference q ∧
        a.FlagsBeat q b := by
  refine or_congr_right (and_congr_right fun _ => ?_)
  have hfita := fit_le (q := q) a
  have hfitb := fit_le (q := q) b
  constructor
  · rintro (⟨hai, hbi⟩ | ⟨hinput, hrest⟩)
    · unfold Binding.preference at h
      rw [if_pos hai, if_neg hbi] at h
      omega
    · have hfit : a.fit q ≤ b.fit q := by
        unfold Binding.preference at h
        by_cases hbi : b.input = q.input
        · rw [if_pos hbi, if_pos (hinput.mpr hbi)] at h
          omega
        · rw [if_neg hbi, if_neg fun hai => hbi (hinput.mp hai)] at h
          omega
      rcases hrest with ⟨hag, hbg⟩ | ⟨hgroup, hflags⟩
      · unfold Binding.fit at hfit
        rw [if_pos hag, if_neg hbg] at hfit
        split at hfit
        · omega
        · split at hfit <;> omega
      · exact ⟨preference_eq_iff.mpr ⟨hinput, fit_eq_of_flagsBeat hgroup hfit hflags⟩, hflags⟩
  · rintro ⟨hpref, hflags⟩
    obtain ⟨hinput, hfit⟩ := preference_eq_iff.mp hpref
    exact Or.inr ⟨hinput, Or.inr ⟨group_of_fit_eq hfit, hflags⟩⟩

/-- **The choice of a key binding** is right if and only if the first matching binding in the order
of the scan has as many keys as any matching one, and no matching one that comes equal to it, with
as many keys, has better flags. -/
theorem getActiveBinding_chooses_iff {bindings : List Binding}
    (hloc : ∀ a ∈ bindings, ∀ b ∈ bindings, a.loc = b.loc → a = b) :
    ChoosesBinding state q bindings (getActiveBinding state q bindings none) ↔
      ∀ b, (bindings.filter fun b => b.Matches state q).argmax (Binding.preference q) = some b →
        ∀ c ∈ bindings, c.Matches state q → c.keys.items.length ≤ b.keys.items.length ∧
          (c.keys.items.length = b.keys.items.length → c.preference q = b.preference q →
            ¬ c.FlagsBeat q b) := by
  rw [getActiveBinding_eq_argmax hloc]
  cases hmax : (bindings.filter fun b => b.Matches state q).argmax (Binding.preference q) with
  | none =>
      refine iff_of_true (fun b hb hmatch => ?_) fun b hb => nomatch hb
      have hmem := mem_matchingKeys.mpr ⟨hb, hmatch⟩
      rw [List.argmax_eq_none.mp hmax] at hmem
      cases hmem
  | some b =>
      have hb := mem_matchingKeys.mp (List.argmax_mem hmax)
      have hle : ∀ c ∈ bindings, c.Matches state q → c.preference q ≤ b.preference q :=
        fun c hc hmatch => List.le_of_mem_argmax (mem_matchingKeys.mpr ⟨hc, hmatch⟩) hmax
      constructor
      · rintro ⟨-, -, hbest⟩ b' hb' c hc hmatch
        obtain rfl := Option.some.inj hb'
        have hnot := hbest c hc hmatch
        rw [beats_iff (hle c hc hmatch), not_or] at hnot
        exact ⟨not_lt.mp hnot.1, fun hkeys hpref hflags => hnot.2 ⟨hkeys, hpref, hflags⟩⟩
      · refine fun h => ⟨hb.1, hb.2, fun c hc hmatch hbeats => ?_⟩
        obtain ⟨hkeys, hflags⟩ := h b rfl c hc hmatch
        rcases (beats_iff (hle c hc hmatch)).mp hbeats with hmore | ⟨heq, hpref, hf⟩
        · exact absurd hmore (not_lt.mpr hkeys)
        · exact hflags heq hpref hf

end Choice

/-- The keys a and b are down, b the last one. -/
def twoKeysDown : ShortcutState := ⟨[(97, 38), (98, 56)], 56, 0, 98⟩

/-- The keyboard of the layout 0, neither locked nor inhibited. -/
def pressQuery : BindingQuery := ⟨0, false, false, false, "keyboard", false, 0⟩

/-- A binding for b comes before one for a and b. -/
def chordBindings : List Binding :=
  [⟨10, .keysym, 0, "*", 11, .zero, ⟨12, [98]⟩, none, 0, none, "focus left"⟩,
    ⟨20, .keysym, 1, "*", 21, .zero, ⟨22, [97, 98]⟩, none, 0, none, "kill"⟩]

theorem getActiveBinding_chooses_iff_chord :
    (∀ a ∈ chordBindings, ∀ b ∈ chordBindings, a.loc = b.loc → a = b) ∧
      (ChoosesBinding twoKeysDown pressQuery chordBindings
          (getActiveBinding twoKeysDown pressQuery chordBindings none) ↔
        ∀ b, (chordBindings.filter fun b => b.Matches twoKeysDown pressQuery).argmax
            (Binding.preference pressQuery) = some b →
          ∀ c ∈ chordBindings, c.Matches twoKeysDown pressQuery →
            c.keys.items.length ≤ b.keys.items.length ∧
              (c.keys.items.length = b.keys.items.length →
                c.preference pressQuery = b.preference pressQuery → ¬ c.FlagsBeat pressQuery b)) :=
  ⟨by decide, getActiveBinding_chooses_iff (by decide)⟩

/-- The binding for b is chosen, although both keys of the other one are down. -/
theorem getActiveBinding_oneKey :
    (chordBindings.Pairwise fun a b => bindingKeyCompare a b = false) ∧
      ¬ ChoosesBinding twoKeysDown pressQuery chordBindings
        (getActiveBinding twoKeysDown pressQuery chordBindings none) := by
  refine ⟨by decide, fun h => ?_⟩
  have hchosen : getActiveBinding twoKeysDown pressQuery chordBindings none =
      some ⟨10, .keysym, 0, "*", 11, .zero, ⟨12, [98]⟩, none, 0, none, "focus left"⟩ := by decide
  rw [hchosen] at h
  exact h.2.2 ⟨20, .keysym, 1, "*", 21, .zero, ⟨22, [97, 98]⟩, none, 0, none, "kill"⟩ (by decide)
    (by decide) (Or.inl (by decide))

end Swirl

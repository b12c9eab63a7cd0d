import Swirl.Commands.BindReading

set_option autoImplicit false

/-! # The memory of the bindings

`seat_execute_command` of `commands/bind.c`, with the commands it runs, and the bindings that are
put off until the configuration is active. The lists of the modes and those of the seats own their
bindings; a binding that no list owns has been freed. What reads a freed binding, or frees what
another binding still refers to, is recorded as a fault.

A command of a list adds at most one binding, in fresh memory, and frees at most one that is in a
list (`effect_outcome`).
-/

namespace Swirl

open Lib

/-- What goes wrong with the memory of a binding: it is read after it has been freed, or freed
while another one refers to its lists or to its string. -/
inductive BindFault where
  | read (loc : Addr)
  | shared (loc : Addr)
  deriving DecidableEq, Repr

/-- The bindings with what is executed of them: the deferred ones of each seat, whether the
configuration is active, whether an IPC client listens to binding events, and the faults. -/
structure BindWorld where
  bindings : Bindings
  deferred : List (List Binding)
  active : Bool
  listeners : Bool
  faults : List BindFault

/-- A command of a list: one that binds or unbinds, `mode`, or any other, with its result. -/
inductive Command where
  | bind (c : BindCommand)
  | mode (name : String) (sub : Option BindCommand)
  | other (result : CmdResult)

/-! ## Owning and freeing -/

/-- The bindings of a mode. -/
def SwayMode.all (m : SwayMode) : List Binding :=
  m.keysymBindings ++ m.keycodeBindings ++ m.mouseBindings

/-- The bindings of all modes. -/
def Bindings.owned (s : Bindings) : List Binding := s.modes.flatMap SwayMode.all

/-- The bindings that have not been freed. -/
def BindWorld.live (s : BindWorld) : List Binding := s.bindings.owned ++ s.deferred.flatten

/-- What a binding refers to: the string for the device, and the lists of keys. -/
def Binding.refers (b : Binding) : List Addr :=
  b.inputLoc :: b.keys.loc :: (b.syms.map KeyList.loc).toList

/-- The memory a binding takes. -/
def Binding.locs (b : Binding) : List Addr := b.loc :: b.refers

def BindWorld.fault (s : BindWorld) (f : BindFault) : BindWorld := { s with faults := s.faults ++ [f] }

/-- Another live binding refers to something of a binding. -/
def BindWorld.shares (s : BindWorld) (b : Binding) : Bool :=
  s.live.any fun c => decide (c.loc ≠ b.loc) && c.refers.any fun x => decide (x ∈ b.refers)

/-- `free_sway_binding`, for a binding that has left its list. -/
def freeSwayBinding (s : BindWorld) (b : Binding) : BindWorld :=
  if s.shares b then s.fault (.shared b.loc) else s

/-! ## Executing -/

variable (names : KeyNames)

/-- What a command comes to. -/
def Command.outcome (c : Command) (s : Bindings) : BindOutcome :=
  match c with
  | .bind c => c.run names s
  | .mode name sub => cmdMode names s name sub
  | .other result => ⟨result, s, []⟩

/-- The bindings after a command, and what it has freed. -/
def applyOutcome (s : BindWorld) (r : BindOutcome) : BindWorld :=
  r.freed.foldl freeSwayBinding { s with bindings := r.state }

/-- `execute_command`, from the commands on: one that is invalid ends the list. -/
def executeCommand : BindWorld → List Command → List CmdResult × BindWorld
  | s, [] => ([], s)
  | s, c :: cs =>
      let r := c.outcome names s.bindings
      let s := applyOutcome s r
      match r.result with
      | .invalid error => ([.invalid error], s)
      | result =>
          let rest := executeCommand s cs
          (result :: rest.1, rest.2)

/-- A binding is put off: the copy has a command of its own, and shares all else. -/
def deferBinding (s : BindWorld) (seat : Nat) (b : Binding) : BindWorld :=
  { s with
    bindings := { s.bindings with next := s.bindings.next + 1 }
    deferred := s.deferred.modify seat fun l => l ++ [{ b with loc := s.bindings.next }] }

/-- A list of commands has not succeeded. -/
def someFailure (results : List CmdResult) : Bool := results.any fun r => decide (r ≠ .success)

/-- `seat_execute_command`; `parse` is what its string of commands stands for. The binding is read
again for the log when a command has failed, and for the event when a client listens. -/
def seatExecuteCommand (parse : String → List Command) (seat : Nat) (s : BindWorld) (a : Addr) :
    BindWorld :=
  match s.live.find? fun b => decide (b.loc = a) with
  | none => s.fault (.read a)
  | some b =>
      if s.active then
        let r := executeCommand names s (parse b.command)
        if (someFailure r.1 || r.2.listeners) && !(r.2.live.any fun c => decide (c.loc = a)) then
          r.2.fault (.read a)
        else r.2
      else deferBinding s seat b

/-- The loop of `run_deferred_bindings` over the bindings of a seat; there are as many rounds as
bindings, since an active configuration puts nothing off. -/
def runDeferred (parse : String → List Command) (seat : Nat) : Nat → BindWorld → BindWorld
  | 0, s => s
  | n + 1, s =>
      match s.deferred[seat]? with
      | some (b :: _) =>
          let s := seatExecuteCommand names parse seat s b.loc
          let s := { s with deferred := s.deferred.modify seat List.tail }
          runDeferred parse seat n (freeSwayBinding s b)
      | _ => s

/-- `run_deferred_bindings`, once the configuration has become active. -/
def runDeferredBindings (parse : String → List Command) (s : BindWorld) : BindWorld :=
  (List.range s.deferred.length).foldl
    (fun s seat => runDeferred names parse seat (s.deferred.getD seat []).length s)
    { s with active := true }

/-! ## What a command frees -/

/-- The binding a bind command finds in its list: the one it replaces or removes. -/
def BindCommand.target (c : BindCommand) (s : Bindings) : Option Binding :=
  match readBinding names s c.bindcode c.unbind c.argv with
  | .ok (b, _, _) => (s.current b.type).find? (bindingKeyCompare b)
  | .error _ => none

/-- The binding a command finds, in the mode it is for. -/
def Command.target (c : Command) (s : Bindings) : Option Binding :=
  match c with
  | .bind c => c.target names s
  | .mode name (some c) =>
      (findMode s (stripQuotes name) true).bind fun r =>
        c.target names { r.1 with currentMode := r.2 }
  | .mode _ none | .other _ => none

/-- No two bindings share memory, all of it has been allocated, and there is a current mode. -/
structure Bindings.Apart (s : Bindings) : Prop where
  nodup : (s.owned.flatMap Binding.locs).Nodup
  fresh : ∀ x ∈ s.owned.flatMap Binding.locs, x < s.next
  current : s.currentMode < s.modes.length

/-- What a command does to bindings that are apart: they stay apart, only its target goes, and
what it frees shares nothing with what is left. -/
structure BindEffect (s : Bindings) (target : Option Binding) (r : BindOutcome) : Prop where
  apart : r.state.Apart
  kept : ∀ b ∈ s.owned, b ∈ r.state.owned ∨ target = some b
  freed : ∀ f ∈ r.freed, ∀ c ∈ r.state.owned, ∀ x ∈ c.refers, x ∉ f.refers

variable {names}

/-- A binding that is read takes fresh memory. -/
theorem readBinding_locs {s : Bindings} {bindcode unbind : Bool} {argv rest : List String}
    {b : Binding} {keycombo : String}
    (h : readBinding names s bindcode unbind argv = .ok (b, keycombo, rest)) :
    b.locs.Nodup ∧ ∀ x ∈ b.locs, s.next ≤ x ∧ x < s.next + 4 := by
  obtain ⟨b₀, h₀, -, rfl⟩ := readBinding_spec h
  obtain ⟨hloc, hinput, hkeys⟩ := h₀.placed
  have hsyms := h₀.syms
  have hplain : b₀.locs = [s.next, s.next + 1, s.next + 2] := by
    simp [Binding.locs, Binding.refers, hloc, hinput, hkeys, hsyms]
  have hthree : b₀.locs.Nodup ∧ ∀ x ∈ b₀.locs, s.next ≤ x ∧ x < s.next + 4 := by
    rw [hplain]
    constructor
    · simp
    · intro x hx
      simp only [List.mem_cons, List.not_mem_nil, or_false] at hx
      rcases hx with rfl | rfl | rfl <;> simp
  unfold translateBinding
  split
  · next hcode =>
    cases ht : b₀.type with
    | mousecode => exact hthree
    | mousesym => exact hthree
    | keycode =>
        -- a bindcode has no flag for a translation, and a bindsym no keycodes yet
        cases hb : bindcode with
        | false => exact absurd ht (h₀.type hb)
        | true => exact absurd (hcode.symm.trans (h₀.code hb)) (by simp)
    | keysym =>
        dsimp only
        unfold translateSyms
        split
        · -- the list of keysyms is kept beside the new one
          simp only [Binding.locs, Binding.refers, hloc, hinput, hkeys, Option.map_some,
            Option.toList_some]
          constructor
          · simp
          · intro x hx
            simp only [List.mem_cons, List.not_mem_nil, or_false] at hx
            rcases hx with rfl | rfl | rfl | rfl <;> simp
        · simp only [Binding.locs, Binding.refers, hloc, hinput, hkeys, Option.map_none,
            Option.toList_none]
          constructor
          · simp
          · intro x hx
            simp only [List.mem_cons, List.not_mem_nil, or_false] at hx
            rcases hx with rfl | rfl | rfl <;> simp
  · exact hthree

/-! ## One list changes -/

/-- The bindings of a mode are those of the list for a type, and others. -/
theorem all_setBindings (m : SwayMode) (t : BindingType) :
    ∃ others : List Binding, ∀ l : List Binding, (m.setBindings t l).all.Perm (l ++ others) := by
  cases t with
  | keysym => exact ⟨m.keycodeBindings ++ m.mouseBindings, fun l => by
      simp [SwayMode.all, SwayMode.setBindings]⟩
  | keycode => exact ⟨m.keysymBindings ++ m.mouseBindings, fun l => by
      simp only [SwayMode.all, SwayMode.setBindings, ← List.append_assoc]
      exact List.perm_append_comm.append_right _⟩
  | mousecode => exact ⟨m.keysymBindings ++ m.keycodeBindings, fun l => List.perm_append_comm⟩
  | mousesym => exact ⟨m.keysymBindings ++ m.keycodeBindings, fun l => List.perm_append_comm⟩

theorem setBindings_bindings (m : SwayMode) (t : BindingType) :
    m.setBindings t (m.bindings t) = m := by
  cases t <;> rfl

/-- The bindings of all modes are those of the current mode's list for a type, and others. -/
theorem owned_setCurrent {s : Bindings} (hcur : s.currentMode < s.modes.length) (t : BindingType) :
    ∃ others : List Binding, s.owned.Perm (s.current t ++ others) ∧
      ∀ l : List Binding, (s.setCurrent t l).owned.Perm (l ++ others) := by
  set m := s.modes[s.currentMode] with hm
  obtain ⟨others, hall⟩ := all_setBindings m t
  have hsplit : s.modes = s.modes.take s.currentMode ++ m :: s.modes.drop (s.currentMode + 1) := by
    rw [hm, ← List.drop_eq_getElem_cons hcur, List.take_append_drop]
  have hcurrent : s.current t = m.bindings t := by
    simp [Bindings.current, List.getElem?_eq_getElem hcur, hm]
  have hset : ∀ l, (s.setCurrent t l).modes =
      s.modes.take s.currentMode ++ m.setBindings t l :: s.modes.drop (s.currentMode + 1) := by
    intro l
    rw [hm]
    exact List.modify_eq_take_cons_drop hcur
  -- the modes before and after the current one
  set before := (s.modes.take s.currentMode).flatMap SwayMode.all
  set after := (s.modes.drop (s.currentMode + 1)).flatMap SwayMode.all
  have hperm : ∀ l, (before ++ ((m.setBindings t l).all ++ after)).Perm
      (l ++ (others ++ (before ++ after))) := by
    intro l
    have hcomm : (before ++ ((m.setBindings t l).all ++ after)).Perm
        ((m.setBindings t l).all ++ (before ++ after)) := by
      rw [← List.append_assoc, ← List.append_assoc]
      exact List.perm_append_comm.append_right after
    refine hcomm.trans ?_
    rw [← List.append_assoc l others]
    exact (hall l).append_right _
  refine ⟨others ++ (before ++ after), ?_, fun l => ?_⟩
  · have howned : s.owned = before ++ ((m.setBindings t (m.bindings t)).all ++ after) := by
      rw [setBindings_bindings]
      unfold Bindings.owned
      conv_lhs => rw [hsplit]
      rw [List.flatMap_append, List.flatMap_cons]
    rw [howned, hcurrent]
    exact hperm _
  · have howned : (s.setCurrent t l).owned = before ++ ((m.setBindings t l).all ++ after) := by
      unfold Bindings.owned
      rw [hset, List.flatMap_append, List.flatMap_cons]
    rw [howned]
    exact hperm l

/-! ## What a command does -/

/-- Bindings stay apart when one in fresh memory comes and one goes, and what goes shares nothing
with what is left. -/
theorem apart_of_perm {s s' : Bindings} (h : s.Apart) {removed added : Option Binding}
    (hperm : (removed.toList ++ s'.owned).Perm (added.toList ++ s.owned))
    (hadded : ∀ b ∈ added, b.locs.Nodup ∧ ∀ x ∈ b.locs, s.next ≤ x ∧ x < s'.next)
    (hnext : s.next ≤ s'.next) (hcur : s'.currentMode < s'.modes.length) :
    s'.Apart ∧ (∀ b ∈ s.owned, b ∈ s'.owned ∨ removed = some b) ∧
      ∀ f ∈ removed, ∀ c ∈ s'.owned, ∀ x ∈ c.refers, x ∉ f.refers := by
  -- the new memory is apart from the old
  have hbefore : ((added.toList ++ s.owned).flatMap Binding.locs).Nodup := by
    rw [List.flatMap_append]
    cases added with
    | none => exact h.nodup
    | some b =>
        obtain ⟨hb, hfresh⟩ := hadded b rfl
        have hlocs : ([b].flatMap Binding.locs) = b.locs := by simp
        rw [Option.toList_some, hlocs]
        refine List.nodup_append.2 ⟨hb, h.nodup, ?_⟩
        intro x hx y hy hxy
        have hlt : y < s.next := h.fresh y hy
        exact absurd (hxy ▸ hlt) (Nat.not_lt.2 (hfresh x hx).1)
  have hlocs := hperm.flatMap_right Binding.locs
  have hafter : ((removed.toList ++ s'.owned).flatMap Binding.locs).Nodup :=
    hlocs.nodup_iff.2 hbefore
  rw [List.flatMap_append] at hafter
  obtain ⟨-, hnodup, hapart⟩ := List.nodup_append.1 hafter
  refine ⟨⟨hnodup, ?_, hcur⟩, ?_, ?_⟩
  · intro x hx
    have hmem : x ∈ (added.toList ++ s.owned).flatMap Binding.locs := by
      apply hlocs.subset
      rw [List.flatMap_append]
      exact List.mem_append_right _ hx
    rw [List.flatMap_append, List.mem_append] at hmem
    rcases hmem with hmem | hmem
    · obtain ⟨b, hb, hxb⟩ := List.mem_flatMap.1 hmem
      exact ((hadded b (by simpa using hb)).2 x hxb).2
    · exact Nat.lt_of_lt_of_le (h.fresh x hmem) hnext
  · intro b hb
    have hmem : b ∈ removed.toList ++ s'.owned :=
      hperm.symm.subset (List.mem_append_right _ hb)
    rcases List.mem_append.1 hmem with hmem | hmem
    · exact Or.inr (by simpa using hmem)
    · exact Or.inl hmem
  · intro f hf c hc x hxc hxf
    have hf' : x ∈ removed.toList.flatMap Binding.locs :=
      List.mem_flatMap.2 ⟨f, by simpa using hf, List.mem_cons_of_mem _ hxf⟩
    have hc' : x ∈ s'.owned.flatMap Binding.locs :=
      List.mem_flatMap.2 ⟨c, hc, List.mem_cons_of_mem _ hxc⟩
    exact hapart x hf' x hc' rfl

/-- **What a bind command does.** -/
theorem effect_run {s : Bindings} (h : s.Apart) (c : BindCommand) :
    BindEffect s (c.target names s) (c.run names s) := by
  unfold BindCommand.run BindCommand.target cmdBindsymOrBindcode
  cases hr : readBinding names s c.bindcode c.unbind c.argv with
  | error e =>
      exact ⟨h, fun b hb => Or.inl hb, fun f hf => absurd hf List.not_mem_nil⟩
  | ok r =>
      obtain ⟨b, keycombo, rest⟩ := r
      obtain ⟨hb, hfresh⟩ := readBinding_locs hr
      have hnext : s.next ≤ s.next + 4 := Nat.le_add_right _ _
      have hold : ∀ c ∈ s.owned, ∀ x ∈ c.refers, x ∉ b.refers := by
        intro c hc x hxc hxb
        have hlt : x < s.next :=
          h.fresh x (List.mem_flatMap.2 ⟨c, hc, List.mem_cons_of_mem _ hxc⟩)
        exact absurd hlt (Nat.not_lt.2 (hfresh x (List.mem_cons_of_mem _ hxb)).1)
      dsimp only
      split
      · -- unbound: the binding that was found goes, and the one that was read
        obtain ⟨others, howned, hset⟩ := owned_setCurrent
          (s := { s with next := s.next + 4 }) h.current b.type
        unfold bindingRemove
        have hcurrent : ({ s with next := s.next + 4 } : Bindings).current b.type =
            s.current b.type := rfl
        rw [hcurrent] at howned ⊢
        cases hf : (s.current b.type).find? (bindingKeyCompare b) with
        | none =>
            refine ⟨⟨h.nodup, fun x hx => Nat.lt_of_lt_of_le (h.fresh x hx) hnext, h.current⟩,
              fun c hc => Or.inl hc, ?_⟩
            intro f hf c hc x hxc
            obtain rfl : f = b := List.mem_singleton.1 hf
            exact hold c hc x hxc
        | some found =>
            have hperm : ((some found).toList ++ (({ s with next := s.next + 4 } :
                Bindings).setCurrent b.type ((s.current b.type).eraseP
                (bindingKeyCompare b))).owned).Perm ((none : Option Binding).toList ++ s.owned) := by
              have hfound := (perm_cons_eraseP hf).append_right others
              exact ((hset _).cons found).trans (hfound.trans howned.symm)
            obtain ⟨hapart, hkept, hfreed⟩ := apart_of_perm h hperm
              (fun b hb => absurd hb (by simp)) hnext (by
                simp [Bindings.setCurrent, h.current])
            refine ⟨hapart, hkept, ?_⟩
            intro f hf c hc x hxc
            simp only [List.mem_cons, List.not_mem_nil, or_false] at hf
            rcases hf with rfl | rfl
            · exact hfreed f rfl c hc x hxc
            · -- the one that was read is in fresh memory
              have hcs : c ∈ s.owned := by
                have hmem := hperm.subset (List.mem_append_right _ hc)
                simpa using hmem
              exact hold c hcs x hxc
      · -- bound: the new binding comes, and the one it replaces goes
        set b' : Binding := { b with command := joinArgs rest, order := s.bindingOrder } with hb'
        set s₁ : Bindings := { s with next := s.next + 4, bindingOrder := s.bindingOrder + 1 }
        obtain ⟨others, howned, hset⟩ := owned_setCurrent (s := s₁) h.current b.type
        have hcompare : bindingKeyCompare b' = bindingKeyCompare b := rfl
        have hreplaced : (bindingUpsert b' (s.current b.type)).2 =
            (s.current b.type).find? (bindingKeyCompare b) :=
          (upsert_replaces b' _).trans (by rw [hcompare])
        have hperm : ((bindingUpsert b' (s.current b.type)).2.toList ++
            (s₁.setCurrent b.type (bindingUpsert b' (s.current b.type)).1).owned).Perm
            ((some b').toList ++ s.owned) := by
          have hup := (show ((bindingUpsert b' (s.current b.type)).2.toList ++
            (bindingUpsert b' (s.current b.type)).1).Perm (b' :: s.current b.type) from
            upsert_perm b' _).append_right others
          rw [List.append_assoc] at hup
          exact ((hset _).append_left _).trans (hup.trans (howned.symm.cons b'))
        obtain ⟨hapart, hkept, hfreed⟩ := apart_of_perm h hperm
          (fun c hc => by
            obtain rfl : b' = c := by simpa using hc
            exact ⟨hb, hfresh⟩) hnext (by
              simp [Bindings.setCurrent, s₁, h.current])
        refine ⟨hapart, fun c hc => ?_, ?_⟩
        · rcases hkept c hc with hc | hc
          · exact Or.inl hc
          · exact Or.inr (hreplaced.symm.trans hc)
        · intro f hf c hc x hxc
          have hf' : f ∈ (bindingUpsert b' (s.current b.type)).2.toList := hf
          exact hfreed f (by simpa using hf') c hc x hxc

/-- A new mode has no bindings. -/
theorem apart_findMode {s s' : Bindings} (h : s.Apart) {name : String} {create : Bool} {i : Nat}
    (hf : findMode s name create = some (s', i)) :
    s'.Apart ∧ s'.owned = s.owned ∧ s'.next = s.next ∧ i < s'.modes.length := by
  unfold findMode at hf
  split at hf
  · next j hj =>
    obtain ⟨rfl, rfl⟩ := Prod.mk.inj (Option.some.inj hf)
    exact ⟨h, rfl, rfl, (List.findIdx?_eq_some_iff_findIdx_eq.1 hj).1⟩
  · split at hf
    · obtain ⟨rfl, rfl⟩ := Prod.mk.inj (Option.some.inj hf)
      have howned : ({ s with modes := s.modes ++ [⟨name, [], [], []⟩] } : Bindings).owned =
          s.owned := by
        simp [Bindings.owned, SwayMode.all]
      refine ⟨⟨?_, ?_, ?_⟩, howned, rfl, by simp⟩
      · rw [howned]
        exact h.nodup
      · rw [howned]
        exact h.fresh
      · simp only [List.length_append, List.length_singleton]
        exact Nat.lt_succ_of_lt h.current
    · cases hf

/-- The number of modes does not change by a bind command. -/
theorem run_modes (s : Bindings) (c : BindCommand) :
    (c.run names s).state.modes.length = s.modes.length := by
  unfold BindCommand.run cmdBindsymOrBindcode
  split
  · rfl
  · dsimp only
    split
    · unfold bindingRemove
      split
      · simp [Bindings.setCurrent]
      · rfl
    · simp [bindingAdd, Bindings.setCurrent]

/-- **What a command of a list does.** -/
theorem effect_outcome {s : Bindings} (h : s.Apart) (c : Command) :
    BindEffect s (c.target names s) (c.outcome names s) := by
  cases c with
  | bind c => exact effect_run h c
  | other result => exact ⟨h, fun b hb => Or.inl hb, fun f hf => absurd hf List.not_mem_nil⟩
  | mode name sub =>
      show BindEffect s _ (cmdMode names s name sub)
      unfold cmdMode
      cases sub with
      | none =>
          cases hf : findMode s (stripQuotes name) (none : Option BindCommand).isSome with
          | none => exact ⟨h, fun b hb => Or.inl hb, fun f hf => absurd hf List.not_mem_nil⟩
          | some r =>
              obtain ⟨s', i⟩ := r
              obtain ⟨h', howned, -, hi⟩ := apart_findMode h hf
              refine ⟨⟨h'.nodup, h'.fresh, hi⟩, ?_, fun f hf => absurd hf List.not_mem_nil⟩
              intro b hb
              exact Or.inl (howned.symm ▸ hb)
      | some c =>
          have hsub : (some c).isSome = true := rfl
          cases hf : findMode s (stripQuotes name) (some c).isSome with
          | none =>
              exact ⟨h, fun b hb => Or.inl hb, fun f hf => absurd hf List.not_mem_nil⟩
          | some r =>
              obtain ⟨s', i⟩ := r
              obtain ⟨h', howned, -, hi⟩ := apart_findMode h hf
              -- the command runs in the mode, and the current mode comes back
              have heff : BindEffect { s' with currentMode := i } _
                  (c.run names { s' with currentMode := i }) :=
                effect_run (s := { s' with currentMode := i }) ⟨h'.nodup, h'.fresh, hi⟩ c
              have htarget : (Command.mode name (some c)).target names s =
                  c.target names { s' with currentMode := i } := by
                show (findMode s (stripQuotes name) true).bind _ = _
                rw [← hsub, hf]
                rfl
              rw [htarget]
              refine ⟨⟨heff.apart.nodup, heff.apart.fresh, ?_⟩, ?_, heff.freed⟩
              · show s'.currentMode < (c.run names { s' with currentMode := i }).state.modes.length
                rw [run_modes]
                exact h'.current
              · intro b hb
                exact heff.kept b (howned.symm ▸ hb)

/-! ## What a list of commands does -/

/-- Nothing has gone wrong so far: the bindings are apart, nothing is put off, and there is no
fault. -/
structure BindWorld.Sound (s : BindWorld) : Prop where
  apart : s.bindings.Apart
  deferred : s.deferred.flatten = []
  faults : s.faults = []

theorem BindWorld.Sound.live {s : BindWorld} (h : s.Sound) : s.live = s.bindings.owned := by
  rw [BindWorld.live, h.deferred, List.append_nil]

/-- What is freed without being shared changes nothing. -/
theorem applyOutcome_eq {s : BindWorld} (hd : s.deferred.flatten = []) {r : BindOutcome}
    (hfreed : ∀ f ∈ r.freed, ∀ c ∈ r.state.owned, ∀ x ∈ c.refers, x ∉ f.refers) :
    applyOutcome s r = { s with bindings := r.state } := by
  unfold applyOutcome
  have hone : ∀ f ∈ r.freed,
      freeSwayBinding { s with bindings := r.state } f = { s with bindings := r.state } := by
    intro f hf
    have hshares : ({ s with bindings := r.state } : BindWorld).shares f = false := by
      unfold BindWorld.shares
      rw [List.any_eq_false]
      intro c hc
      have hc' : c ∈ r.state.owned := by
        simpa [BindWorld.live, hd] using hc
      simp only [Bool.and_eq_true, List.any_eq_true, decide_eq_true_eq, not_and, not_exists]
      intro _ x hx
      exact hfreed f hf c hc' x hx
    simp [freeSwayBinding, hshares]
  generalize hw : ({ s with bindings := r.state } : BindWorld) = w at hone ⊢
  clear hfreed
  revert hone
  induction r.freed with
  | nil => intro _; rfl
  | cons f fs ih =>
      intro hone
      rw [List.foldl_cons, hone f List.mem_cons_self]
      exact ih fun g hg => hone g (List.mem_cons_of_mem f hg)

variable (names)

/-- No command of a list frees a binding that is pinned. -/
def CommandsSpare (pinned : Addr → Prop) : Bindings → List Command → Prop
  | _, [] => True
  | s, c :: cs =>
      (∀ b, c.target names s = some b → ¬ pinned b.loc) ∧
        ((∀ error, (c.outcome names s).result ≠ .invalid error) →
          CommandsSpare pinned (c.outcome names s).state cs)

variable {names}

/-- A list of commands that spares what is pinned leaves it live, and nothing goes wrong. -/
theorem sound_executeCommand {pinned : Addr → Prop} {cs : List Command} {s : BindWorld}
    (h : s.Sound) (hpin : ∀ a, pinned a → a ∈ s.bindings.owned.map Binding.loc)
    (hspare : CommandsSpare names pinned s.bindings cs) :
    (executeCommand names s cs).2.Sound ∧
      (∀ a, pinned a → a ∈ (executeCommand names s cs).2.bindings.owned.map Binding.loc) ∧
      (executeCommand names s cs).2.active = s.active ∧
      (executeCommand names s cs).2.listeners = s.listeners := by
  induction cs generalizing s with
  | nil => exact ⟨h, hpin, rfl, rfl⟩
  | cons c cs ih =>
      obtain ⟨htarget, hrest⟩ := hspare
      have heff : BindEffect s.bindings _ (c.outcome names s.bindings) := effect_outcome h.apart c
      have happly := applyOutcome_eq h.deferred heff.freed
      -- the state after the first command
      set w : BindWorld := { s with bindings := (c.outcome names s.bindings).state } with hw
      have hsound : w.Sound := ⟨heff.apart, h.deferred, h.faults⟩
      have hpinned : ∀ a, pinned a → a ∈ w.bindings.owned.map Binding.loc := by
        intro a ha
        obtain ⟨b, hb, rfl⟩ := List.mem_map.1 (hpin a ha)
        rcases heff.kept b hb with hb | hb
        · exact List.mem_map_of_mem hb
        · exact absurd ha (htarget b hb)
      unfold executeCommand
      dsimp only
      rw [happly]
      cases hresult : (c.outcome names s.bindings).result with
      | invalid error => exact ⟨hsound, hpinned, rfl, rfl⟩
      | success =>
          exact ih hsound hpinned (hrest fun error => by rw [hresult]; simp)
      | failure error =>
          exact ih hsound hpinned (hrest fun error => by rw [hresult]; simp)

variable (names)

/-- The execution of a binding is sound for the bindings that are pinned: the configuration is
active, and its commands free neither a pinned binding nor, if it is read again, itself. -/
def ExecutesSpare (parse : String → List Command) (pinned : Addr → Prop) (s : BindWorld)
    (a : Addr) : Prop :=
  s.active = true ∧ ∀ b ∈ s.bindings.owned, b.loc = a →
    let again := someFailure (executeCommand names s (parse b.command)).1 || s.listeners
    CommandsSpare names (fun x => pinned x ∨ x = a ∧ again = true) s.bindings (parse b.command)

variable {names}

/-- **A binding that is executed leaves what is pinned live.** -/
theorem sound_seatExecuteCommand {parse : String → List Command} (seat : Nat) {a : Addr}
    {pinned : Addr → Prop} {s : BindWorld} (h : s.Sound)
    (hpin : ∀ x, pinned x → x ∈ s.bindings.owned.map Binding.loc)
    (ha : a ∈ s.bindings.owned.map Binding.loc) (hspare : ExecutesSpare names parse pinned s a) :
    (seatExecuteCommand names parse seat s a).Sound ∧
      ∀ x, pinned x → x ∈ (seatExecuteCommand names parse seat s a).bindings.owned.map
        Binding.loc := by
  obtain ⟨hactive, hcommands⟩ := hspare
  unfold seatExecuteCommand
  rw [h.live]
  cases hf : s.bindings.owned.find? fun b => decide (b.loc = a) with
  | none =>
      obtain ⟨b, hb, hloc⟩ := List.mem_map.1 ha
      have hnot := List.find?_eq_none.1 hf b hb
      exact absurd (decide_eq_true hloc) hnot
  | some b =>
      have hb : b ∈ s.bindings.owned := List.mem_of_find?_eq_some hf
      have hloc : b.loc = a := by simpa using List.find?_some hf
      have hcs := hcommands b hb hloc
      dsimp only at hcs ⊢
      obtain ⟨hsound, hpinned, -, hlisten⟩ := sound_executeCommand h (fun x hx => by
        rcases hx with hx | ⟨rfl, -⟩
        · exact hpin x hx
        · exact ha) hcs
      rw [if_pos hactive, hlisten]
      split
      · next hread =>
        -- it is read again, so it was spared as well
        rw [Bool.and_eq_true] at hread
        obtain ⟨hagain, hgone⟩ := hread
        have hstill := hpinned a (Or.inr ⟨rfl, hagain⟩)
        obtain ⟨c, hc, hcloc⟩ := List.mem_map.1 hstill
        have hany : ((executeCommand names s (parse b.command)).2.live.any
            fun c => decide (c.loc = a)) = true := by
          rw [hsound.live]
          exact List.any_eq_true.2 ⟨c, hc, decide_eq_true hcloc⟩
        rw [hany] at hgone
        exact absurd hgone (by simp)
      · exact ⟨hsound, fun x hx => hpinned x (Or.inl hx)⟩

end Swirl

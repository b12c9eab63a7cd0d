import Swirl.Tree.Housing

set_option autoImplicit false

/-! # Outputs that come and go keep every workspace housed

Each event of a `SwayRoot` keeps the invariant of `Tree/Housing.lean`. For the two loops of
`output_evacuate` and `restore_workspaces` one round is described first: where the workspace goes
whose turn it is, and that all others stay.
-/

namespace Swirl

namespace SwayRoot

/-! ## Creating a workspace -/

/-- A workspace is new on an output; nothing else changes. -/
structure Creates (s t : SwayRoot) (o : OutId) (name : String) : Prop where
  outputs : t.outputs = s.outputs
  fallbackOutput : t.fallbackOutput = s.fallbackOutput
  label : t.label = s.label
  config : t.config = s.config
  isSticky : t.isSticky = s.isSticky
  nextWs : t.nextWs = s.nextWs + 1
  ws : ∀ v, v ≠ s.nextWs → t.ws v = s.ws v
  name : (t.ws s.nextWs).name = name
  output : (t.ws s.nextWs).output = some o

section Create

variable {s : SwayRoot} {x : Option OutId}

/-- A record for a bare workspace that is in no list yet. -/
theorem Linked.newRecord (h : Linked s none) {k : SwayWorkspace} (hout : k.output = none)
    (htiling : k.tiling = []) (hfloating : k.floating = []) (hminimized : k.minimized = []) :
    Linked { s.modWs s.nextWs fun _ => k with nextWs := s.nextWs + 1 } none := by
  set t : SwayRoot := { s.modWs s.nextWs fun _ => k with nextWs := s.nextWs + 1 } with ht
  have hws : ∀ v, t.ws v = if v = s.nextWs then k else s.ws v := s.modWs_ws s.nextWs fun _ => k
  constructor
  · intro p w
    rw [hws]
    show w ∈ s.workspaces p ↔ _
    rw [h.mem_iff]
    split
    · next hw => rw [hw, (h.fresh _ (Nat.le_refl _)).1, hout]
    · rfl
  · exact h.nodup
  · intro w hw _
    by_cases hwn : w = s.nextWs
    · simp [workspaceBare, hws, hwn, htiling, hfloating, hminimized]
    · rw [hws, if_neg hwn] at hw
      rw [workspaceBare_congr (s := s) (by rw [hws, if_neg hwn]) (by rw [hws, if_neg hwn])
        (by rw [hws, if_neg hwn])]
      exact h.bare w hw (Option.some_ne_none w)
  · intro w hw
    have hwn : s.nextWs + 1 ≤ w := hw
    have hne : w ≠ s.nextWs := by
      intro heq
      rw [heq] at hwn
      exact Nat.not_succ_le_self _ hwn
    rw [hws, if_neg hne]
    exact h.fresh w (Nat.le_of_succ_le hwn)

theorem workspaceCreate_spec (h : Linked s none) (output : Option OutId) (name : String)
    {o : OutId} (ho : output.getD (s.workspaceGetInitialOutput name) = o) :
    Creates s (s.workspaceCreate output name) o name ∧
      Linked (s.workspaceCreate output name) none := by
  -- the record of the workspace, in no list yet
  obtain ⟨priority, hcreate⟩ : ∃ priority, s.workspaceCreate output name =
      (({ s.modWs s.nextWs fun _ =>
            { name, output := none, priority, tiling := [], floating := [], minimized := [] } with
          nextWs := s.nextWs + 1 }.workspaceOutputAddPriority s.nextWs o).outputAddWorkspace o
        s.nextWs).outputSortWorkspaces o := by
    subst ho
    exact ⟨_, rfl⟩
  set k : SwayWorkspace :=
    { name, output := none, priority, tiling := [], floating := [], minimized := [] } with hk
  set s₁ : SwayRoot := { s.modWs s.nextWs fun _ => k with nextWs := s.nextWs + 1 } with hs₁
  have hws₁ : ∀ v, s₁.ws v = if v = s.nextWs then k else s.ws v := s.modWs_ws s.nextWs fun _ => k
  have hlinked₁ : Linked s₁ none := h.newRecord rfl rfl rfl rfl
  set s₂ := s₁.workspaceOutputAddPriority s.nextWs o with hs₂
  have hsetting : SameSetting s₁ s₂ := SameSetting.addPriority s₁ s.nextWs o
  have hws₂ : ∀ v, v ≠ s.nextWs → s₂.ws v = s.ws v := by
    intro v hv
    rw [hs₂]
    unfold workspaceOutputAddPriority
    split
    · rw [modWs_ws, if_neg hv, hws₁, if_neg hv]
    · rw [hws₁, if_neg hv]
  have hnew₂ : (s₂.ws s.nextWs).name = name := by
    rw [hs₂]
    unfold workspaceOutputAddPriority
    split
    · rw [modWs_ws, if_pos rfl, hws₁, if_pos rfl]
    · rw [hws₁, if_pos rfl]
  have hlinked₂ : Linked s₂ none := hlinked₁.addPriority _ _
  have hlt : s.nextWs < s₂.nextWs := by
    rw [hsetting.nextWs]
    exact Nat.lt_succ_self _
  have hadd := SameSetting.add s₂ o s.nextWs
  rw [hcreate]
  refine ⟨?_, (hlinked₂.add o s.nextWs hlt (Or.inr rfl)).sort o⟩
  constructor
  · exact hadd.outputs.trans hsetting.outputs
  · exact hadd.fallbackOutput.trans hsetting.fallbackOutput
  · exact hadd.label.trans hsetting.label
  · exact hadd.config.trans hsetting.config
  · exact hadd.isSticky.trans hsetting.isSticky
  · exact hadd.nextWs.trans hsetting.nextWs
  · intro v hv
    show (s₂.outputAddWorkspace o s.nextWs).ws v = s.ws v
    rw [outputAddWorkspace_ws, if_neg hv, ← hws₂ v hv]
  · show ((s₂.outputAddWorkspace o s.nextWs).ws s.nextWs).name = name
    rw [outputAddWorkspace_ws]
    exact hnew₂
  · show ((s₂.outputAddWorkspace o s.nextWs).ws s.nextWs).output = some o
    rw [outputAddWorkspace_ws, if_pos rfl]

/-- The new workspace is on its output, all others are where they were. -/
theorem Creates.mem_iff {t : SwayRoot} {o : OutId} {name : String} (hc : Creates s t o name)
    (h : Linked s none) (ht : Linked t none) (p : OutId) (v : WsId) :
    v ∈ t.workspaces p ↔ v ∈ s.workspaces p ∨ v = s.nextWs ∧ p = o := by
  rw [ht.mem_iff, h.mem_iff]
  by_cases hv : v = s.nextWs
  · rw [hv, hc.output, (h.fresh _ (Nat.le_refl _)).1]
    simp [eq_comm]
  · rw [hc.ws v hv]
    simp [hv]

theorem Creates.housed {t : SwayRoot} {o : OutId} {name : String} (hc : Creates s t o name)
    (h : Linked s none) (ht : Linked t none) (hh : Housed s x)
    (hallowed : o ∈ s.outputs ∨ some o = x ∨ o = s.fallbackOutput ∧ ∀ p ∈ s.outputs, some p = x) :
    Housed t x := by
  have hself : t.workspaces o ≠ [] :=
    List.ne_nil_of_mem ((hc.mem_iff h ht o s.nextWs).2 (Or.inr ⟨rfl, rfl⟩))
  have hother : ∀ p, p ≠ o → (t.workspaces p = [] ↔ s.workspaces p = []) := by
    intro p hp
    rw [List.eq_nil_iff_forall_not_mem, List.eq_nil_iff_forall_not_mem]
    apply forall_congr'
    intro v
    rw [hc.mem_iff h ht]
    simp [hp]
  constructor
  · rw [hc.outputs]
    exact hh.nodup
  · rw [hc.outputs, hc.fallbackOutput]
    exact hh.fallback
  · rw [hc.fallbackOutput]
    exact hh.fallback_ne_spare
  · intro p hp
    rw [hc.outputs, hc.fallbackOutput]
    by_cases hpo : p = o
    · rw [hpo]
      obtain ho | ho | ⟨ho, -⟩ := hallowed
      · exact Or.inl ho
      · exact Or.inr (Or.inr ho)
      · exact Or.inr (Or.inl ho)
    · exact hh.known p fun heq => hp ((hother p hpo).2 heq)
  · intro p hp hne
    rw [hc.outputs] at hp
    by_cases hpo : p = o
    · rw [hpo]
      exact hself
    · intro heq
      exact hh.shown p hp hne ((hother p hpo).1 heq)
  · intro p hp hne
    rw [hc.outputs] at hp
    rw [hc.fallbackOutput, hother]
    · exact hh.saved p hp hne
    · intro heq
      obtain ho | ho | ⟨-, ho⟩ := hallowed
      · exact hh.fallback (heq ▸ ho)
      · exact hh.fallback_ne_spare (heq ▸ ho)
      · exact hne (ho p hp)

theorem mem_outputs_of_outputByNameOrId {name : String} {o : OutId}
    (h : s.outputByNameOrId name = some o) : o ∈ s.outputs := List.mem_of_find?_eq_some h

/-- A workspace on an output is on an enabled one, or on the fallback output while there is none. -/
theorem Good.output_mem (h : Good s) {w : WsId} {o : OutId} (hw : (s.ws w).output = some o) :
    o ∈ s.outputs ∨ o = s.fallbackOutput ∧ s.outputs = [] := by
  have hne : s.workspaces o ≠ [] := by
    intro hnil
    have hmem := (h.linked.mem_iff o w).2 hw
    rw [hnil] at hmem
    cases hmem
  obtain ho | ho | ho := h.housed.known o hne
  · exact Or.inl ho
  · refine Or.inr ⟨ho, ?_⟩
    by_contra hout
    obtain ⟨p, hp⟩ := List.exists_mem_of_ne_nil _ hout
    rw [ho] at hne
    exact hne (h.housed.saved p hp (Option.some_ne_none p))
  · cases ho

theorem Good.initialOutput (h : Good s) (name : String) :
    s.workspaceGetInitialOutput name ∈ s.outputs ∨
      s.workspaceGetInitialOutput name = s.fallbackOutput ∧ s.outputs = [] := by
  unfold workspaceGetInitialOutput
  split
  · next o ho =>
    obtain ⟨wsc, -, hwsc⟩ := Option.bind_eq_some_iff.1 ho
    obtain ⟨n, -, hn⟩ := List.exists_of_findSome?_eq_some hwsc
    exact Or.inl (mem_outputs_of_outputByNameOrId hn)
  · split
    · next o ho =>
      obtain ⟨w, -, hw⟩ := Option.bind_eq_some_iff.1 ho
      exact h.output_mem hw
    · cases hout : s.outputs with
      | nil => exact Or.inr ⟨rfl, rfl⟩
      | cons o os =>
          left
          exact List.mem_cons_self

/-- A new workspace, on an enabled output or where its name asks for. -/
theorem Good.create (h : Good s) {output : Option OutId} (name : String)
    (houtput : ∀ o, output = some o → o ∈ s.outputs) :
    Good (s.workspaceCreate output name) ∧
      ∃ o, Creates s (s.workspaceCreate output name) o name := by
  have hallowed : output.getD (s.workspaceGetInitialOutput name) ∈ s.outputs ∨
      output.getD (s.workspaceGetInitialOutput name) = s.fallbackOutput ∧ s.outputs = [] := by
    cases output with
    | none => exact h.initialOutput name
    | some o => exact Or.inl (houtput o rfl)
  obtain ⟨hcreates, hlinked⟩ := workspaceCreate_spec h.linked output name rfl
  refine ⟨⟨hlinked, hcreates.housed h.linked hlinked h.housed ?_⟩, _, hcreates⟩
  obtain ho | ⟨ho, hnil⟩ := hallowed
  · exact Or.inl ho
  · refine Or.inr (Or.inr ⟨ho, ?_⟩)
    intro p hp
    rw [hnil] at hp
    cases hp

end Create

/-! ## Evacuating -/

/-- What a round of a loop does to the workspaces it is not about: names stay, none is placed that was
not, and one that holds windows stays where it is, with its priority list. -/
structure Spares (s t : SwayRoot) (w : WsId) : Prop where
  setting : SameSetting s t
  name : ∀ v, (t.ws v).name = (s.ws v).name
  placed : ∀ v, v ≠ w → (t.ws v).output ≠ none → (s.ws v).output ≠ none
  others : ∀ v, v ≠ w → s.workspaceIsEmpty v = false →
    t.workspaceIsEmpty v = false ∧ (t.ws v).output = (s.ws v).output ∧
      (t.ws v).priority = (s.ws v).priority

section Evacuate

variable {s t u : SwayRoot} {x : Option OutId} {w : WsId}

theorem Spares.refl (s : SwayRoot) (w : WsId) : Spares s s w :=
  ⟨SameSetting.refl s, fun _ => rfl, fun _ _ hv => hv, fun _ _ hs => ⟨hs, rfl, rfl⟩⟩

theorem Spares.trans (h : Spares s t w) (h' : Spares t u w) : Spares s u w where
  setting := h.setting.trans h'.setting
  name v := (h'.name v).trans (h.name v)
  placed v hv hu := h.placed v hv (h'.placed v hv hu)
  others v hv hs := by
    obtain ⟨ht, hout, hprio⟩ := h.others v hv hs
    obtain ⟨hu, hout', hprio'⟩ := h'.others v hv ht
    exact ⟨hu, hout'.trans hout, hprio'.trans hprio⟩

/-- What is on an output was on it before. -/
theorem Trims.output {held held' : Option WsId} (h : Trims s t) (hs : Linked s held)
    (ht : Linked t held') {v : WsId} {o : OutId} (hv : (t.ws v).output = some o) :
    (s.ws v).output = some o :=
  (hs.mem_iff o v).1 ((h.sublist o).subset ((ht.mem_iff o v).2 hv))

theorem Trims.spares {held held' : Option WsId} (h : Trims s t) (hs : Linked s held)
    (ht : Linked t held') (w : WsId) : Spares s t w where
  setting := h.setting
  name := h.name
  placed v _ hv := by
    obtain ⟨o, ho⟩ := Option.ne_none_iff_exists'.1 hv
    rw [h.output hs ht ho]
    exact Option.some_ne_none o
  others v _ hs := by
    obtain ⟨ht, hout⟩ := h.holds v hs
    exact ⟨ht, hout, h.priority v⟩

theorem spares_detach (s : SwayRoot) (w : WsId) : Spares s (s.workspaceDetach w) w where
  setting := SameSetting.detach s w
  name v := by rw [workspaceDetach_ws]
  placed v hv := by
    rw [workspaceDetach_ws, if_neg hv]
    exact id
  others v hv hs := by
    rw [workspaceIsEmpty_congr (s := s) (by rw [workspaceDetach_ws]) (by rw [workspaceDetach_ws])
      (by rw [workspaceDetach_ws]) (SameSetting.detach s w).isSticky, workspaceDetach_ws, if_neg hv]
    exact ⟨hs, rfl, rfl⟩

theorem spares_add (s : SwayRoot) (o : OutId) (w : WsId) : Spares s (s.outputAddWorkspace o w) w where
  setting := SameSetting.add s o w
  name v := by rw [outputAddWorkspace_ws]
  placed v hv := by
    rw [outputAddWorkspace_ws, if_neg hv]
    exact id
  others v hv hs := by
    rw [workspaceIsEmpty_congr (s := s) (by rw [outputAddWorkspace_ws])
      (by rw [outputAddWorkspace_ws]) (by rw [outputAddWorkspace_ws])
      (SameSetting.add s o w).isSticky, outputAddWorkspace_ws, if_neg hv]
    exact ⟨hs, rfl, rfl⟩

theorem addPriority_ws (s : SwayRoot) (w : WsId) (o : OutId) (v : WsId) :
    (s.workspaceOutputAddPriority w o).ws v =
      { s.ws v with priority := ((s.workspaceOutputAddPriority w o).ws v).priority } := by
  unfold workspaceOutputAddPriority
  split
  · rw [modWs_ws]
    split
    · next hv => rw [hv]
    · rfl
  · rfl

theorem spares_addPriority (s : SwayRoot) (w : WsId) (o : OutId) :
    Spares s (s.workspaceOutputAddPriority w o) w where
  setting := SameSetting.addPriority s w o
  name v := by rw [addPriority_ws]
  placed v _ := by
    rw [addPriority_ws]
    exact id
  others v hv hs := by
    refine ⟨?_, ?_, ?_⟩
    · rw [workspaceIsEmpty_congr (s := s) (by rw [addPriority_ws]) (by rw [addPriority_ws])
        (by rw [addPriority_ws]) (SameSetting.addPriority s w o).isSticky]
      exact hs
    · rw [addPriority_ws]
    · unfold workspaceOutputAddPriority
      split
      · rw [modWs_ws, if_neg hv]
      · rfl

theorem spares_sort (s : SwayRoot) (o : OutId) (w : WsId) : Spares s (s.outputSortWorkspaces o) w :=
  ⟨⟨rfl, rfl, rfl, rfl, rfl, rfl⟩, fun _ => rfl, fun _ _ hv => hv, fun _ _ hs => ⟨hs, rfl, rfl⟩⟩

/-- Where a workspace ends up that is evacuated to an output. -/
structure Arrives (s t : SwayRoot) (w : WsId) (o : OutId) : Prop where
  holds : t.workspaceIsEmpty w = false
  output : (t.ws w).output = some o
  priority : (t.ws w).priority = ((s.workspaceOutputAddPriority w o).ws w).priority

theorem evacuateTo_spec (h : Linked s (some w)) (hh : Housed s x) (hout : (s.ws w).output = none)
    (hlt : w < s.nextWs) {o : OutId} (hallowed : o ∈ s.outputs ∨ o = s.fallbackOutput ∧ s.outputs = [])
    (a : Option WsId) (e : Evacuation) :
    let t := s.evacuateTo w o a e
    Linked t none ∧ Housed t x ∧ Spares s t w ∧ (s.workspaceIsEmpty w = false → Arrives s t w o) ∧
      ∀ p, p ≠ o → (t.workspaces p).Sublist (s.workspaces p) := by
  intro t
  set s₁ := s.workspaceOutputAddPriority w o with hs₁
  set s₂ := (s₁.outputAddWorkspace o w).outputSortWorkspaces o with hs₂
  have hsetting₁ : SameSetting s s₁ := SameSetting.addPriority s w o
  have hlists₁ : ∀ p, s₁.workspaces p = s.workspaces p := by
    intro p
    rw [hs₁]
    unfold workspaceOutputAddPriority
    split <;> rfl
  have hlinked₁ : Linked s₁ (some w) := h.addPriority w o
  have hhoused₁ : Housed s₁ x := by
    refine hh.congr hsetting₁.outputs hsetting₁.fallbackOutput ?_
    intro p
    rw [hlists₁]
  have hout₁ : (s₁.ws w).output = none := by
    rw [hs₁, addPriority_ws]
    exact hout
  have hlt₁ : w < s₁.nextWs := by
    rw [hsetting₁.nextWs]
    exact hlt
  have hlinked₂ : Linked s₂ none := (hlinked₁.add o w hlt₁ (Or.inl rfl)).sort o
  have hhoused₂ : Housed s₂ x := by
    refine (hhoused₁.add hlinked₁ hout₁ ?_).sort o
    rw [hsetting₁.outputs, hsetting₁.fallbackOutput]
    obtain ho | ⟨ho, hnil⟩ := hallowed
    · exact Or.inl ho
    · refine Or.inr (Or.inr ⟨ho, ?_⟩)
      intro p hp
      rw [hnil] at hp
      cases hp
  have hspares₂ : Spares s s₂ w :=
    ((spares_addPriority s w o).trans (spares_add s₁ o w)).trans (spares_sort _ o w)
  have hlists₂ : ∀ p, p ≠ o → (s₂.workspaces p).Sublist (s.workspaces p) := by
    intro p hp
    have hsort : s₂.workspaces p = (s₁.outputAddWorkspace o w).workspaces p := by
      rw [hs₂]
      unfold outputSortWorkspaces
      rw [modWorkspaces_workspaces, if_neg hp]
    rw [hsort, hlinked₁.add_workspaces, if_neg hp, hlists₁]
    exact List.erase_sublist
  have harrive₂ : s.workspaceIsEmpty w = false → Arrives s s₂ w o := by
    intro hholds
    have hws : s₂.ws w = { s₁.ws w with output := some o } := by
      show (s₁.outputAddWorkspace o w).ws w = _
      rw [outputAddWorkspace_ws, if_pos rfl]
    constructor
    · rw [workspaceIsEmpty_congr (s := s) (by rw [hws, hs₁, addPriority_ws])
        (by rw [hws, hs₁, addPriority_ws]) (by rw [hws, hs₁, addPriority_ws]) hspares₂.setting.isSticky]
      exact hholds
    · rw [hws]
    · rw [hws]
  cases a with
  | none => exact ⟨hlinked₂, hhoused₂, hspares₂, harrive₂, hlists₂⟩
  | some a =>
      -- the workspace the output showed before may go, unless it holds windows
      obtain ⟨htrim, hlinked⟩ := workspaceConsiderDestroy_spec hlinked₂ a e.seen e.calls
      refine ⟨hlinked, hhoused₂.trims htrim, hspares₂.trans (htrim.spares hlinked₂ hlinked w), ?_, ?_⟩
      · intro hholds
        have harr := harrive₂ hholds
        obtain ⟨hholds', hout'⟩ := htrim.holds w harr.holds
        exact ⟨hholds', hout'.trans harr.output, (htrim.priority w).trans harr.priority⟩
      · intro p hp
        exact (htrim.sublist p).trans (hlists₂ p hp)

/-- Sticky containers are moved off a workspace that is evacuated. -/
theorem evacuateSticky_spec (h : Linked s (some w)) (hh : Housed s x)
    (hempty : s.workspaceIsEmpty w = true) {a : WsId} (ha : (s.ws a).output ≠ none) :
    Linked (s.evacuateSticky w a) (some w) ∧ Housed (s.evacuateSticky w a) x ∧
      Spares s (s.evacuateSticky w a) w ∧ ((s.evacuateSticky w a).ws w).output = (s.ws w).output ∧
      (∀ p, (s.evacuateSticky w a).workspaces p = s.workspaces p) := by
  have hws : ∀ v, (s.evacuateSticky w a).ws v = { s.ws v with
      floating :=
        if v = w then [] else if v = a then (s.ws v).floating ++ (s.ws w).floating
        else (s.ws v).floating } := by
    intro v
    unfold evacuateSticky
    rw [modWs_ws, modWs_ws, modWs_ws]
    by_cases hv : v = w
    · rw [if_pos hv, if_pos hv, hv]
      split
      · next hwa => rw [hwa]
      · rfl
    · rw [if_neg hv, if_neg hv]
      split
      · next hva => rw [hva]
      · rfl
  refine ⟨?_, hh.congr rfl rfl fun _ => Iff.rfl, ?_, by rw [hws], fun _ => rfl⟩
  · constructor
    · intro p v
      rw [hws]
      exact h.mem_iff p v
    · exact h.nodup
    · intro v hv hne
      rw [hws] at hv
      have hvw : v ≠ w := fun heq => hne (by rw [heq])
      have hva : v ≠ a := fun heq => ha (heq ▸ hv)
      rw [workspaceBare_congr (s := s) (by rw [hws]) (by rw [hws, if_neg hvw, if_neg hva])
        (by rw [hws])]
      exact h.bare v hv hne
    · intro v hv
      rw [hws]
      exact h.fresh v hv
  · refine ⟨⟨rfl, rfl, rfl, rfl, rfl, rfl⟩, fun v => by rw [hws], ?_, ?_⟩
    · intro v _
      rw [hws]
      exact id
    intro v hvw hs
    refine ⟨?_, by rw [hws], by rw [hws]⟩
    by_cases hva : v = a
    · -- what comes is sticky, and does not count
      have hsticky : (s.ws w).floating.all s.isSticky = true := by
        simp only [workspaceIsEmpty, Bool.and_eq_true] at hempty
        exact hempty.1.2
      have hfl : ((s.evacuateSticky w a).ws v).floating.all s.isSticky =
          (s.ws v).floating.all s.isSticky := by
        rw [hws, if_neg hvw, if_pos hva, List.all_append, hsticky, Bool.and_true]
      unfold workspaceIsEmpty at hs ⊢
      show (_ && ((s.evacuateSticky w a).ws v).floating.all s.isSticky && _) = false
      rw [hfl, hws]
      exact hs
    · have hsame : (s.evacuateSticky w a).workspaceIsEmpty v = s.workspaceIsEmpty v :=
        workspaceIsEmpty_congr (by rw [hws]) (by rw [hws, if_neg hvw, if_neg hva]) (by rw [hws]) rfl
      rw [hsame]
      exact hs

/-- The output in hand is treated as one that may lack workspaces. -/
theorem Housed.weaken (h : Housed s none) (hx : some s.fallbackOutput ≠ x) : Housed s x where
  nodup := h.nodup
  fallback := h.fallback
  fallback_ne_spare := hx
  known o ho := by
    obtain h | h | h := h.known o ho
    · exact Or.inl h
    · exact Or.inr (Or.inl h)
    · cases h
  shown o ho _ := h.shown o ho (Option.some_ne_none o)
  saved o ho _ := h.saved o ho (Option.some_ne_none o)

/-- The output in hand has what the others have. -/
theorem Housed.settle {o : OutId} (h : Housed s (some o))
    (hin : o ∈ s.outputs → s.workspaces o ≠ [] ∧ s.workspaces s.fallbackOutput = [])
    (hout : o ∉ s.outputs → s.workspaces o = []) : Housed s none where
  nodup := h.nodup
  fallback := h.fallback
  fallback_ne_spare := Option.some_ne_none _
  known p hp := by
    obtain hp' | hp' | hp' := h.known p hp
    · exact Or.inl hp'
    · exact Or.inr (Or.inl hp')
    · obtain rfl := Option.some.inj hp'
      by_cases ho : p ∈ s.outputs
      · exact Or.inl ho
      · exact absurd (hout ho) hp
  shown p hp _ := by
    by_cases hpo : p = o
    · subst hpo
      exact (hin hp).1
    · exact h.shown p hp fun heq => hpo (Option.some.inj heq)
  saved p hp _ := by
    by_cases hpo : p = o
    · subst hpo
      exact (hin hp).2
    · exact h.saved p hp fun heq => hpo (Option.some.inj heq)

/-- A workspace leaves the output in hand. -/
theorem Housed.detach {o : OutId} (h : Housed s (some o)) (hlinked : Linked s none)
    (hw : (s.ws w).output = some o) : Housed (s.workspaceDetach w) (some o) := by
  have hsetting := SameSetting.detach s w
  have hother : ∀ p, p ≠ o → (s.workspaceDetach w).workspaces p = s.workspaces p := by
    intro p hp
    rw [hlinked.detach_workspaces, List.erase_of_not_mem]
    intro hmem
    rw [hlinked.mem_iff, hw] at hmem
    exact hp (Option.some.inj hmem).symm
  constructor
  · rw [hsetting.outputs]
    exact h.nodup
  · rw [hsetting.outputs, hsetting.fallbackOutput]
    exact h.fallback
  · rw [hsetting.fallbackOutput]
    exact h.fallback_ne_spare
  · intro p hp
    rw [hsetting.outputs, hsetting.fallbackOutput]
    by_cases hpo : p = o
    · exact Or.inr (Or.inr (by rw [hpo]))
    · rw [hother p hpo] at hp
      exact h.known p hp
  · intro p hp hne
    rw [hsetting.outputs] at hp
    rw [hother p fun heq => hne (by rw [heq])]
    exact h.shown p hp hne
  · intro p hp hne
    rw [hsetting.outputs] at hp
    rw [hsetting.fallbackOutput, hother _ fun heq => h.fallback_ne_spare (by rw [heq])]
    exact h.saved p hp hne

theorem outputGetActiveWorkspace_mem {o : OutId} {child : Option WsId} {a : WsId}
    (h : s.outputGetActiveWorkspace o child = some a) : a ∈ s.workspaces o := by
  unfold outputGetActiveWorkspace at h
  obtain h | ⟨-, h⟩ := Option.or_eq_some_iff.1 h
  · exact of_decide_eq_true (Option.filter_eq_some_iff.1 h).2
  · exact List.mem_of_mem_head? h

theorem evacuationOutput_mem (s : SwayRoot) (w : WsId) :
    s.evacuationOutput w s.outputs.head? ∈ s.outputs ∨
      s.evacuationOutput w s.outputs.head? = s.fallbackOutput ∧ s.outputs = [] := by
  unfold evacuationOutput
  cases hh : s.workspaceOutputGetHighestAvailable w with
  | some o =>
      obtain ⟨n, -, hn⟩ := List.exists_of_findSome?_eq_some hh
      exact Or.inl (mem_outputs_of_outputByNameOrId hn)
  | none =>
      cases hout : s.outputs with
      | nil => exact Or.inr ⟨rfl, rfl⟩
      | cons o os =>
          left
          exact List.mem_cons_self

/-- The sticky containers of a workspace without windows have gone, as far as there is a workspace
for them. -/
structure ShedsSticky (s t : SwayRoot) (x : Option OutId) (w : WsId) : Prop where
  linked : Linked t (some w)
  housed : Housed t x
  spares : Spares s t w
  output : (t.ws w).output = (s.ws w).output
  lists : ∀ p, t.workspaces p = s.workspaces p
  empty : t.workspaceIsEmpty w = true

theorem evacuateSticky_empty (hempty : s.workspaceIsEmpty w = true) (a : WsId) :
    (s.evacuateSticky w a).workspaceIsEmpty w = true := by
  simp only [workspaceIsEmpty, Bool.and_eq_true] at hempty
  unfold workspaceIsEmpty evacuateSticky
  rw [modWs_ws, if_pos rfl, modWs_ws]
  split
  · next hwa =>
    rw [← hwa]
    simp [hempty.1.1, hempty.2]
  · simp [hempty.1.1, hempty.2]

theorem shedsSticky (h : Linked s (some w)) (hh : Housed s x) (hempty : s.workspaceIsEmpty w = true)
    {a : Option WsId} (ha : ∀ b, a = some b → (s.ws b).output ≠ none) :
    ShedsSticky s (a.elim s fun b =>
      if 0 < s.workspaceNumStickyContainers w then s.evacuateSticky w b else s) x w := by
  have hself : ShedsSticky s s x w := ⟨h, hh, Spares.refl s w, rfl, fun _ => rfl, hempty⟩
  cases a with
  | none => exact hself
  | some b =>
      rw [Option.elim_some]
      split
      · obtain ⟨hl, hh, hsp, hout, hlists⟩ := evacuateSticky_spec h hh hempty (ha b rfl)
        exact ⟨hl, hh, hsp, hout, hlists, evacuateSticky_empty hempty b⟩
      · exact hself

/-- Without sticky containers, a workspace without windows has nothing on it. -/
theorem bare_of_noSticky (hempty : s.workspaceIsEmpty w = true)
    (hnum : s.workspaceNumStickyContainers w = 0) : s.workspaceBare w = true := by
  have hfl : (s.ws w).floating = [] := by
    unfold workspaceNumStickyContainers at hnum
    rw [List.length_eq_zero_iff, List.filter_eq_nil_iff] at hnum
    simp only [workspaceIsEmpty, Bool.and_eq_true, List.all_eq_true] at hempty
    rw [List.eq_nil_iff_forall_not_mem]
    intro c hc
    exact hnum c hc (hempty.1.2 c hc)
  simp only [workspaceIsEmpty, Bool.and_eq_true] at hempty
  simp [workspaceBare, hfl, hempty.1.1, hempty.2]

/-- A workspace that is on no output is destroyed. -/
theorem workspaceBeginDestroy_spec (h : Linked s (some w)) (hbare : s.workspaceBare w = true)
    (hout : (s.ws w).output = none) (calls : List FocusCall) :
    Trims s (s.workspaceBeginDestroy w calls) ∧
      Linked (s.workspaceBeginDestroy w calls) none := by
  have halone : s.workspaceAlone w = false := by
    unfold workspaceAlone
    rw [hout]
  obtain ⟨htrim, hlinked⟩ := endWorkspace_spec (h.release hbare) hbare halone
  obtain ⟨htrim', hlinked'⟩ := focusCalls_spec hlinked calls
  exact ⟨htrim.trans htrim', hlinked'⟩

/-- The two ways a round ends. -/
theorem evacuateWorkspace_eq {fb : Option OutId} {e : Evacuation} {a : Option WsId}
    (ha : (s.workspaceDetach w).outputGetActiveWorkspace
      ((s.workspaceDetach w).evacuationOutput w fb) e.child = a) :
    s.evacuateWorkspace w fb e =
      let s₁ := s.workspaceDetach w
      let s₂ := a.elim s₁ fun b =>
        if 0 < s₁.workspaceNumStickyContainers w then s₁.evacuateSticky w b else s₁
      if s₁.workspaceIsEmpty w then
        if s₂.workspaceNumStickyContainers w = 0 then s₂.workspaceBeginDestroy w e.calls
        else s₂.evacuateTo w (s₁.evacuationOutput w fb) a e
      else s₁.evacuateTo w (s₁.evacuationOutput w fb) a e := by
  unfold evacuateWorkspace
  dsimp only
  rw [ha]
  cases a <;> rfl

/-- **A round of `output_evacuate`**: the workspace is gone from the output. If it holds windows it
is on the output its priority list asks for, or on a fallback. -/
theorem evacuateWorkspace_spec {o : OutId} (h : Linked s none) (hh : Housed s (some o))
    (ho : o ∉ s.outputs) (hw : (s.ws w).output = some o) (e : Evacuation) :
    let t := s.evacuateWorkspace w s.outputs.head? e
    Linked t none ∧ Housed t (some o) ∧ Spares s t w ∧
      (s.workspaceIsEmpty w = false →
        Arrives (s.workspaceDetach w) t w
          ((s.workspaceDetach w).evacuationOutput w s.outputs.head?)) ∧
      (t.workspaces o).Sublist ((s.workspaces o).erase w) := by
  intro t
  have hlt := h.lt_nextWs hw
  set s₁ := s.workspaceDetach w with hs₁
  have hsetting₁ : SameSetting s s₁ := SameSetting.detach s w
  have hlinked₁ : Linked s₁ (some w) := h.detach w hlt
  have hhoused₁ : Housed s₁ (some o) := hh.detach h hw
  have hlists₁ : s₁.workspaces o = (s.workspaces o).erase w := h.detach_workspaces w o
  have hout₁ : (s₁.ws w).output = none := by rw [hs₁, workspaceDetach_ws, if_pos rfl]
  have hlt₁ : w < s₁.nextWs := by
    rw [hsetting₁.nextWs]
    exact hlt
  have hempty₁ : s₁.workspaceIsEmpty w = s.workspaceIsEmpty w :=
    workspaceIsEmpty_congr (by rw [hs₁, workspaceDetach_ws]) (by rw [hs₁, workspaceDetach_ws])
      (by rw [hs₁, workspaceDetach_ws]) hsetting₁.isSticky
  set new := s₁.evacuationOutput w s.outputs.head? with hnew
  have hallowed : new ∈ s₁.outputs ∨ new = s₁.fallbackOutput ∧ s₁.outputs = [] := by
    rw [hnew, ← hsetting₁.outputs]
    exact evacuationOutput_mem s₁ w
  have hne : o ≠ new := by
    intro heq
    obtain hmem | ⟨hfb, -⟩ := hallowed
    · rw [← heq, hsetting₁.outputs] at hmem
      exact ho hmem
    · exact hhoused₁.fallback_ne_spare (by rw [← hfb, heq])
  obtain ⟨a, ha⟩ : ∃ a, s₁.outputGetActiveWorkspace new e.child = a := ⟨_, rfl⟩
  -- the two ways the round can end, from a state where the sticky containers are gone
  have hto : ∀ s₂ : SwayRoot, Linked s₂ (some w) → Housed s₂ (some o) → Spares s₁ s₂ w →
      (s₂.ws w).output = none → (∀ p, s₂.workspaces p = s₁.workspaces p) →
      let t := s₂.evacuateTo w new a e
      Linked t none ∧ Housed t (some o) ∧ Spares s t w ∧
        (s₂.workspaceIsEmpty w = false → Arrives s₂ t w new) ∧
        (t.workspaces o).Sublist ((s.workspaces o).erase w) := by
    intro s₂ hlinked₂ hhoused₂ hspares₂ hout₂ hlists₂
    have hspec := evacuateTo_spec hlinked₂ hhoused₂ hout₂
      (by rw [hspares₂.setting.nextWs]; exact hlt₁)
      (by rw [hspares₂.setting.outputs, hspares₂.setting.fallbackOutput]; exact hallowed) a e
    obtain ⟨hl, hh, hsp, harr, hsub⟩ := hspec
    refine ⟨hl, hh, ((spares_detach s w).trans hspares₂).trans hsp, harr, ?_⟩
    rw [← hlists₁, ← hlists₂]
    exact hsub o hne
  have hend : t = _ := evacuateWorkspace_eq ha
  dsimp only at hend
  rw [← hs₁, ← hnew] at hend
  by_cases hemp : s₁.workspaceIsEmpty w = true
  · have hclaim : s.workspaceIsEmpty w ≠ false := by
      rw [← hempty₁, hemp]
      simp
    have hplaced : ∀ b, a = some b → (s₁.ws b).output ≠ none := by
      rintro b rfl
      have hmem := outputGetActiveWorkspace_mem ha
      rw [hlinked₁.mem_iff] at hmem
      rw [hmem]
      exact Option.some_ne_none _
    have hsheds := shedsSticky hlinked₁ hhoused₁ hemp hplaced
    set s₂ := a.elim s₁ fun b =>
      if 0 < s₁.workspaceNumStickyContainers w then s₁.evacuateSticky w b else s₁ with hs₂
    have hout₂ : (s₂.ws w).output = none := hsheds.output.trans hout₁
    rw [if_pos hemp] at hend
    by_cases hnum : s₂.workspaceNumStickyContainers w = 0
    · -- nothing is left on it
      obtain ⟨htrims, hlinked⟩ := workspaceBeginDestroy_spec hsheds.linked
        (bare_of_noSticky hsheds.empty hnum) hout₂ e.calls
      rw [if_pos hnum] at hend
      rw [hend]
      refine ⟨hlinked, hsheds.housed.trims htrims,
        ((spares_detach s w).trans hsheds.spares).trans (htrims.spares hsheds.linked hlinked w),
        fun hholds => absurd hholds hclaim, ?_⟩
      rw [← hlists₁, ← hsheds.lists]
      exact htrims.sublist o
    · obtain ⟨hl, hh, hsp, -, hsub⟩ :=
        hto s₂ hsheds.linked hsheds.housed hsheds.spares hout₂ hsheds.lists
      rw [if_neg hnum] at hend
      rw [hend]
      exact ⟨hl, hh, hsp, fun hholds => absurd hholds hclaim, hsub⟩
  · obtain ⟨hl, hh, hsp, harr, hsub⟩ :=
      hto s₁ hlinked₁ hhoused₁ (Spares.refl s₁ w) hout₁ fun _ => rfl
    rw [if_neg hemp] at hend
    rw [hend]
    exact ⟨hl, hh, hsp, fun _ => harr (by simpa using hemp), hsub⟩

theorem highestAvailable_congr (houtputs : t.outputs = s.outputs) (hlabel : t.label = s.label)
    (hp : (t.ws w).priority = (s.ws w).priority) :
    t.workspaceOutputGetHighestAvailable w = s.workspaceOutputGetHighestAvailable w := by
  unfold workspaceOutputGetHighestAvailable
  rw [hp]
  congr 1
  funext name
  unfold outputByNameOrId outputMatchNameOrId
  rw [houtputs, hlabel]

theorem evacuationOutput_congr (h : SameSetting s t)
    (hp : (t.ws w).priority = (s.ws w).priority) (fb : Option OutId) :
    t.evacuationOutput w fb = s.evacuationOutput w fb := by
  unfold evacuationOutput
  rw [highestAvailable_congr h.outputs h.label hp, h.fallbackOutput]

theorem addPriority_congr (h : SameSetting s t) (hp : (t.ws w).priority = (s.ws w).priority)
    (o : OutId) :
    ((t.workspaceOutputAddPriority w o).ws w).priority =
      ((s.workspaceOutputAddPriority w o).ws w).priority := by
  have hget : t.workspaceOutputGetPriority w o = s.workspaceOutputGetPriority w o := by
    unfold workspaceOutputGetPriority
    rw [hp, h.label]
  unfold workspaceOutputAddPriority
  rw [hget]
  split
  · rw [modWs_ws, modWs_ws, if_pos rfl, if_pos rfl]
    show listAdd _ _ = listAdd _ _
    rw [hp, h.label]
  · exact hp

/-- What evacuating an output does to a workspace that holds windows. -/
structure Evacuates (s t : SwayRoot) (o : OutId) (v : WsId) : Prop where
  holds : t.workspaceIsEmpty v = false
  here : (s.ws v).output = some o →
    (t.ws v).output = some (s.evacuationOutput v s.outputs.head?) ∧
      (t.ws v).priority =
        ((s.workspaceOutputAddPriority v (s.evacuationOutput v s.outputs.head?)).ws v).priority
  elsewhere : (s.ws v).output ≠ some o →
    (t.ws v).output = (s.ws v).output ∧ (t.ws v).priority = (s.ws v).priority

/-- The output that is evacuated is none that a workspace is evacuated to. -/
theorem evacuationOutput_ne {o : OutId} (hh : Housed s (some o)) (ho : o ∉ s.outputs) (v : WsId) :
    s.evacuationOutput v s.outputs.head? ≠ o := by
  intro heq
  obtain hmem | ⟨hfb, -⟩ := evacuationOutput_mem s v
  · rw [heq] at hmem
    exact ho hmem
  · exact hh.fallback_ne_spare (by rw [← hfb, heq])

/-- A list that is empty is left alone. -/
theorem evacuates_self {o : OutId} (h : Linked s none) (hl : s.workspaces o = []) {v : WsId}
    (hv : s.workspaceIsEmpty v = false) : Evacuates s s o v := by
  refine ⟨hv, ?_, fun _ => ⟨rfl, rfl⟩⟩
  intro hout
  have hmem := (h.mem_iff o v).2 hout
  rw [hl] at hmem
  cases hmem

/-- This round moves the workspace, and the others leave it there. -/
theorem Arrives.evacuates {o : OutId} (hh : Housed s (some o)) (ho : o ∉ s.outputs)
    (hw : (s.ws w).output = some o)
    (harr : Arrives (s.workspaceDetach w) t w
      ((s.workspaceDetach w).evacuationOutput w s.outputs.head?))
    (hev : t.workspaceIsEmpty w = false → Evacuates t u o w) : Evacuates s u o w := by
  obtain ⟨hholds, hout, hprio⟩ := harr
  have hdetach : SameSetting s (s.workspaceDetach w) := SameSetting.detach s w
  have hprioDetach : ((s.workspaceDetach w).ws w).priority = (s.ws w).priority := by
    rw [workspaceDetach_ws]
  rw [evacuationOutput_congr hdetach hprioDetach] at hout hprio
  rw [addPriority_congr hdetach hprioDetach] at hprio
  obtain ⟨hholds', -, helse⟩ := hev hholds
  have hne : (t.ws w).output ≠ some o := by
    rw [hout]
    intro heq
    exact evacuationOutput_ne hh ho w (Option.some.inj heq)
  obtain ⟨hout', hprio'⟩ := helse hne
  exact ⟨hholds', fun _ => ⟨hout'.trans hout, hprio'.trans hprio⟩, fun hother => absurd hw hother⟩

/-- This round leaves the workspace, and the others move it. -/
theorem Spares.evacuates {o : OutId} (hsp : Spares s t w) {v : WsId} (hvw : v ≠ w)
    (hv : s.workspaceIsEmpty v = false) (hev : t.workspaceIsEmpty v = false → Evacuates t u o v) :
    Evacuates s u o v := by
  have hsame : SameSetting s t := hsp.setting
  obtain ⟨hholds, hout, hprio⟩ := hsp.others v hvw hv
  obtain ⟨hholds', hhere, helse⟩ := hev hholds
  rw [hout, hsame.outputs, evacuationOutput_congr hsame hprio,
    addPriority_congr hsame hprio] at hhere
  rw [hout, hprio] at helse
  exact ⟨hholds', hhere, helse⟩

/-- **The loop of `output_evacuate`** empties the list of the output. -/
theorem evacuateLoop_spec {o : OutId} (e : WsId → Evacuation) :
    ∀ (n : Nat) {s : SwayRoot}, Linked s none → Housed s (some o) → o ∉ s.outputs →
      (s.workspaces o).length ≤ n →
      let t := evacuateLoop o s.outputs.head? e n s
      Linked t none ∧ Housed t (some o) ∧ t.workspaces o = [] ∧ SameSetting s t ∧
        (∀ v, (t.ws v).name = (s.ws v).name) ∧
        (∀ v, (t.ws v).output ≠ none → (s.ws v).output ≠ none) ∧
        ∀ v, s.workspaceIsEmpty v = false → Evacuates s t o v := by
  intro n
  induction n with
  | zero =>
      intro s h hh _ hlen
      have hl := List.length_eq_zero_iff.1 (Nat.le_zero.1 hlen)
      exact ⟨h, hh, hl, SameSetting.refl s, fun _ => rfl, fun _ hv => hv,
        fun v hv => evacuates_self h hl hv⟩
  | succ n ih =>
      intro s h hh ho hlen
      cases hl : s.workspaces o with
      | nil =>
          have hself : evacuateLoop o s.outputs.head? e (n + 1) s = s := by
            rw [evacuateLoop, hl]
          rw [hself]
          exact ⟨h, hh, hl, SameSetting.refl s, fun _ => rfl, fun _ hv => hv,
            fun v hv => evacuates_self h hl hv⟩
      | cons w l =>
          have hloop : evacuateLoop o s.outputs.head? e (n + 1) s =
              evacuateLoop o s.outputs.head? e n
                (s.evacuateWorkspace w s.outputs.head? (e w)) := by
            rw [evacuateLoop, hl]
          have hw : (s.ws w).output = some o := by
            rw [← h.mem_iff, hl]
            exact List.mem_cons_self
          obtain ⟨h₁, hh₁, hsp, harr, hsub⟩ := evacuateWorkspace_spec h hh ho hw (e w)
          set s₁ := s.evacuateWorkspace w s.outputs.head? (e w) with hs₁
          have ho₁ : o ∉ s₁.outputs := by
            rw [hsp.setting.outputs]
            exact ho
          have hlen₁ : (s₁.workspaces o).length ≤ n := by
            rw [hl, List.erase_cons_head] at hsub
            have hle := hsub.length_le
            rw [hl, List.length_cons] at hlen
            omega
          have hih := ih h₁ hh₁ ho₁ hlen₁
          rw [hsp.setting.outputs] at hih
          rw [hloop]
          obtain ⟨ht, hht, htnil, hset, hname, hplaced, hev⟩ := hih
          refine ⟨ht, hht, htnil, hsp.setting.trans hset,
            fun v => (hname v).trans (hsp.name v), ?_, ?_⟩
          · intro v hv
            by_cases hvw : v = w
            · rw [hvw, hw]
              exact Option.some_ne_none o
            · exact hsp.placed v hvw (hplaced v hv)
          · intro v hv
            by_cases hvw : v = w
            · subst hvw
              exact (harr hv).evacuates hh ho hw (hev v)
            · exact hsp.evacuates hvw hv (hev v)

/-- **`output_disable`** keeps the invariant, and evacuates the output. -/
theorem outputDisable_spec (h : Good s) {o : OutId} (ho : o ∈ s.outputs) (e : WsId → Evacuation) :
    let s₁ : SwayRoot := { s with outputs := s.outputs.erase o }
    let t := s.outputDisable o e
    Good t ∧ t.workspaces o = [] ∧ SameSetting s₁ t ∧ (∀ v, (t.ws v).name = (s.ws v).name) ∧
      (∀ v, (t.ws v).output ≠ none → (s.ws v).output ≠ none) ∧
      ∀ v, s.workspaceIsEmpty v = false → Evacuates s₁ t o v := by
  intro s₁ t
  have hout₁ : o ∉ s₁.outputs := h.housed.nodup.not_mem_erase
  have hlinked₁ : Linked s₁ none := ⟨h.linked.mem_iff, h.linked.nodup, h.linked.bare, h.linked.fresh⟩
  have hhoused₁ : Housed s₁ (some o) := by
    constructor
    · exact h.housed.nodup.erase o
    · exact fun hmem => h.housed.fallback (List.mem_of_mem_erase hmem)
    · intro heq
      exact h.housed.fallback ((Option.some.inj heq) ▸ ho)
    · intro p hp
      obtain hp' | hp' | hp' := h.housed.known p hp
      · by_cases hpo : p = o
        · exact Or.inr (Or.inr (by rw [hpo]))
        · exact Or.inl ((List.mem_erase_of_ne hpo).2 hp')
      · exact Or.inr (Or.inl hp')
      · cases hp'
    · intro p hp _
      exact h.housed.shown p (List.mem_of_mem_erase hp) (Option.some_ne_none p)
    · intro p hp _
      exact h.housed.saved p (List.mem_of_mem_erase hp) (Option.some_ne_none p)
  have hspec := evacuateLoop_spec e (s₁.workspaces o).length hlinked₁ hhoused₁ hout₁ (Nat.le_refl _)
  obtain ⟨ht, hht, htnil, hset, hname, hplaced, hev⟩ := hspec
  refine ⟨⟨ht, hht.settle ?_ fun _ => htnil⟩, htnil, hset, hname, hplaced, hev⟩
  intro hmem
  rw [hset.outputs] at hmem
  exact absurd hmem hout₁

end Evacuate

/-! ## Restoring -/

/-- Some workspaces go to an output, and nothing else changes. -/
structure Relocates (s t : SwayRoot) (o : OutId) (moved : WsId → Bool) : Prop where
  setting : SameSetting s t
  ws : ∀ v, t.ws v = { s.ws v with output := if moved v then some o else (s.ws v).output }

/-- A workspace goes to an output if it is one of those that do. -/
def relocate (o : OutId) (moved : WsId → Bool) (s : SwayRoot) (w : WsId) : SwayRoot :=
  if moved w then (s.workspaceDetach w).outputAddWorkspace o w else s

section Restore

variable {s t : SwayRoot}

theorem relocate_spec (h : Linked s none) (o : OutId) (moved : WsId → Bool) {w : WsId}
    (hw : w < s.nextWs) :
    Linked (relocate o moved s w) none ∧
      Relocates s (relocate o moved s w) o fun v => decide (v = w) && moved v := by
  unfold relocate
  split
  · next hm =>
    have hsetting := SameSetting.detach s w
    constructor
    · exact (h.detach w hw).add o w (by rw [hsetting.nextWs]; exact hw) (Or.inl rfl)
    · refine ⟨hsetting.trans (SameSetting.add _ o w), ?_⟩
      intro v
      rw [outputAddWorkspace_ws, workspaceDetach_ws]
      by_cases hv : v = w
      · simp [hv, hm]
      · simp [hv]
  · next hm =>
    refine ⟨h, SameSetting.refl s, ?_⟩
    intro v
    by_cases hv : v = w
    · simp [hv, hm]
    · simp [hv]

theorem foldl_relocate_spec (o : OutId) (moved : WsId → Bool) (l : List WsId) :
    ∀ {s : SwayRoot}, Linked s none → (∀ w ∈ l, w < s.nextWs) →
      Linked (l.foldl (relocate o moved) s) none ∧
        Relocates s (l.foldl (relocate o moved) s) o fun v => decide (v ∈ l) && moved v := by
  induction l with
  | nil =>
      intro s h _
      refine ⟨h, SameSetting.refl s, ?_⟩
      intro v
      simp
  | cons w l ih =>
      intro s h hlt
      obtain ⟨hlinked, hrel⟩ := relocate_spec h o moved (hlt w List.mem_cons_self)
      obtain ⟨hlinked', hrel'⟩ := ih hlinked (by
        intro v hv
        rw [hrel.setting.nextWs]
        exact hlt v (List.mem_cons_of_mem w hv))
      refine ⟨hlinked', hrel.setting.trans hrel'.setting, ?_⟩
      intro v
      rw [List.foldl_cons, hrel'.ws, hrel.ws]
      by_cases hv : v = w
      · by_cases hm : moved w = true
        · simp [hv, hm]
        · simp [hv, hm]
      · simp [hv]

/-- What ranks the output first does not change while workspaces are restored. -/
theorem foldl_restoreWorkspace (o : OutId) (l : List WsId) {s : SwayRoot} :
    ∀ {t : SwayRoot}, SameSetting s t → (∀ v, (t.ws v).priority = (s.ws v).priority) →
      l.foldl (restoreWorkspace o) t =
        l.foldl (relocate o fun v => decide (s.workspaceOutputGetHighestAvailable v = some o)) t := by
  induction l with
  | nil =>
      intro t _ _
      rfl
  | cons w l ih =>
      intro t hset hprio
      have hstep : restoreWorkspace o t w =
          relocate o (fun v => decide (s.workspaceOutputGetHighestAvailable v = some o)) t w := by
        unfold restoreWorkspace relocate
        rw [highestAvailable_congr hset.outputs hset.label (hprio w)]
        simp
      rw [List.foldl_cons, List.foldl_cons, hstep]
      apply ih
      · refine hset.trans ?_
        unfold relocate
        split
        · exact (SameSetting.detach t w).trans (SameSetting.add _ o w)
        · exact SameSetting.refl t
      · intro v
        rw [← hprio v]
        unfold relocate
        split
        · rw [outputAddWorkspace_ws, workspaceDetach_ws]
        · rfl

/-- A workspace on an output is counted already. -/
theorem Linked.mem_lt (h : Linked s none) {o : OutId} : ∀ w ∈ s.workspaces o, w < s.nextWs :=
  fun w hw => h.lt_nextWs ((h.mem_iff o w).1 hw)

theorem foldl_restore_spec (h : Linked s none) (o other : OutId) :
    Linked ((s.workspaces other).foldl (restoreWorkspace o) s) none ∧
      Relocates s ((s.workspaces other).foldl (restoreWorkspace o) s) o fun v =>
        decide (v ∈ s.workspaces other) &&
          decide (s.workspaceOutputGetHighestAvailable v = some o) := by
  rw [foldl_restoreWorkspace o _ (SameSetting.refl s) fun _ => rfl]
  exact foldl_relocate_spec o _ _ h h.mem_lt

theorem foldl_restoreSaved_spec (h : Linked s none) (o : OutId) (l : List WsId)
    (hl : ∀ w ∈ l, w < s.nextWs) :
    Linked (l.foldl (restoreSaved o) s) none ∧
      Relocates s (l.foldl (restoreSaved o) s) o fun v => decide (v ∈ l) := by
  have hfold : l.foldl (restoreSaved o) s = l.foldl (relocate o fun _ => true) s := rfl
  rw [hfold]
  obtain ⟨hlinked, hrel⟩ := foldl_relocate_spec o (fun _ => true) l h hl
  refine ⟨hlinked, hrel.setting, ?_⟩
  intro v
  rw [hrel.ws]
  simp

/-- **An output without workspaces gets one**, and all others stay. -/
theorem refillOutput_spec (h : Linked s none) {o : OutId} (ho : o ∈ s.outputs) :
    Linked (s.refillOutput o) none ∧ (s.refillOutput o).workspaces o ≠ [] ∧
      ((s.refillOutput o = s ∧ s.workspaces o ≠ []) ∨
        ∃ name, s.workspaceNextName (s.label o).name = some name ∧
          Creates s (s.refillOutput o) o name) := by
  unfold refillOutput
  split
  · next hnil =>
    split
    · next name hname =>
      obtain ⟨hcreates, hlinked⟩ := workspaceCreate_spec h (some o) name rfl
      refine ⟨hlinked, ?_, Or.inr ⟨name, hname, hcreates⟩⟩
      exact List.ne_nil_of_mem ((hcreates.mem_iff h hlinked o s.nextWs).2 (Or.inr ⟨rfl, rfl⟩))
    · next hname =>
      -- an enabled output is found by its own name
      exfalso
      have hfound : (s.outputByNameOrId (s.label o).name).isSome = true := by
        unfold outputByNameOrId
        rw [List.find?_isSome]
        refine ⟨o, ho, ?_⟩
        unfold outputMatchNameOrId sameIgnoringCase
        simp
      unfold workspaceNextName at hname
      split at hname
      · next hnone =>
        rw [hnone] at hfound
        cases hfound
      · cases hname
  · next hne => exact ⟨h, hne, Or.inl ⟨rfl, hne⟩⟩

/-- Workspaces on an output were on one before, and keep their names. -/
structure Keeps (s t : SwayRoot) : Prop where
  config : t.config = s.config
  name : ∀ v, (t.ws v).output ≠ none → (t.ws v).name = (s.ws v).name
  placed : ∀ v, (t.ws v).output ≠ none → (s.ws v).output ≠ none

/-- Workspaces move, and outputs are filled up while there is none on a disabled output. -/
inductive Refills : SwayRoot → SwayRoot → Prop
  | keeps {s t : SwayRoot} (h : Keeps s t) : Refills s t
  | create {s t : SwayRoot} {outputName name : String} {o : OutId} (h : Linked s none)
      (henabled : ∀ v p, (s.ws v).output = some p → p ∈ s.outputs)
      (hname : s.workspaceNextName outputName = some name) (hc : Creates s t o name) : Refills s t
  | trans {s t u : SwayRoot} (h : Refills s t) (h' : Refills t u) : Refills s u

instance : Trans Refills Refills Refills where
  trans := Refills.trans

theorem Trims.keeps {held held' : Option WsId} (h : Trims s t) (hs : Linked s held)
    (ht : Linked t held') : Keeps s t where
  config := h.setting.config
  name v _ := h.name v
  placed v hv := by
    obtain ⟨o, ho⟩ := Option.ne_none_iff_exists'.1 hv
    rw [h.output hs ht ho]
    exact Option.some_ne_none o

/-- Workspaces of one output that go to another were on an output. -/
theorem Relocates.keeps {o : OutId} {moved : WsId → Bool} (h : Relocates s t o moved)
    (hmoved : ∀ v, moved v = true → (s.ws v).output ≠ none) : Keeps s t where
  config := h.setting.config
  name v _ := by rw [h.ws]
  placed v hv := by
    rw [h.ws] at hv
    dsimp only at hv
    split at hv
    · next hm => exact hmoved v hm
    · exact hv

theorem refillOutput_refills (h : Linked s none) {o : OutId} (ho : o ∈ s.outputs)
    (henabled : ∀ v p, (s.ws v).output = some p → p ∈ s.outputs) : Refills s (s.refillOutput o) := by
  obtain ⟨-, -, ⟨hself, -⟩ | ⟨name, hname, hcreates⟩⟩ := refillOutput_spec h ho
  · rw [hself]
    exact Refills.keeps ⟨rfl, fun _ _ => rfl, fun _ hv => hv⟩
  · exact Refills.create h henabled hname hcreates

/-- What restoring workspaces does to those there are: they stay where they are, or go to the
output that their priority lists rank first. -/
structure Restores (s t : SwayRoot) (o : OutId) : Prop where
  outputs : t.outputs = s.outputs
  fallbackOutput : t.fallbackOutput = s.fallbackOutput
  label : t.label = s.label
  isSticky : t.isSticky = s.isSticky
  nextWs : s.nextWs ≤ t.nextWs
  ws : ∀ v, v < s.nextWs → t.ws v = { s.ws v with output := (t.ws v).output }
  output : ∀ v, v < s.nextWs → (t.ws v).output = (s.ws v).output ∨
    s.workspaceOutputGetHighestAvailable v = some o ∧ (t.ws v).output = some o

theorem Restores.refl (s : SwayRoot) (o : OutId) : Restores s s o :=
  ⟨rfl, rfl, rfl, rfl, Nat.le_refl _, fun _ _ => rfl, fun _ _ => Or.inl rfl⟩

theorem Restores.highest {o : OutId} (h : Restores s t o) {v : WsId} (hv : v < s.nextWs) :
    t.workspaceOutputGetHighestAvailable v = s.workspaceOutputGetHighestAvailable v :=
  highestAvailable_congr h.outputs h.label (by rw [h.ws v hv])

theorem Restores.trans {u : SwayRoot} {o : OutId} (h : Restores s t o) (h' : Restores t u o) :
    Restores s u o where
  outputs := h'.outputs.trans h.outputs
  fallbackOutput := h'.fallbackOutput.trans h.fallbackOutput
  label := h'.label.trans h.label
  isSticky := h'.isSticky.trans h.isSticky
  nextWs := h.nextWs.trans h'.nextWs
  ws v hv := by
    rw [h'.ws v (lt_of_lt_of_le hv h.nextWs), h.ws v hv]
  output v hv := by
    have hvt := lt_of_lt_of_le hv h.nextWs
    obtain hout' | ⟨hhigh, hout'⟩ := h'.output v hvt
    · obtain hout | ⟨hhigh, hout⟩ := h.output v hv
      · exact Or.inl (hout'.trans hout)
      · exact Or.inr ⟨hhigh, hout'.trans hout⟩
    · exact Or.inr ⟨(h.highest hv) ▸ hhigh, hout'⟩

theorem Creates.restores {p : OutId} {name : String} (h : Creates s t p name) (o : OutId) :
    Restores s t o where
  outputs := h.outputs
  fallbackOutput := h.fallbackOutput
  label := h.label
  isSticky := h.isSticky
  nextWs := by
    rw [h.nextWs]
    exact Nat.le_succ _
  ws v hv := by rw [h.ws v (Nat.ne_of_lt hv)]
  output v hv := by
    left
    rw [h.ws v (Nat.ne_of_lt hv)]

theorem refillOutput_restores (h : Linked s none) {p : OutId} (hp : p ∈ s.outputs) (o : OutId) :
    Restores s (s.refillOutput p) o := by
  obtain ⟨-, -, ⟨hself, -⟩ | ⟨name, -, hcreates⟩⟩ := refillOutput_spec h hp
  · rw [hself]
    exact Restores.refl s o
  · exact hcreates.restores o

/-- While two outputs are enabled, one of them the output in hand, all workspaces are on enabled
outputs. -/
theorem Housed.enabled {o other : OutId} (hh : Housed s (some o)) (h : Linked s none)
    (ho : o ∈ s.outputs) (hother : other ∈ s.outputs) (hne : other ≠ o) {v : WsId} {p : OutId}
    (hv : (s.ws v).output = some p) : p ∈ s.outputs := by
  have hmem := (h.mem_iff p v).2 hv
  obtain hp | hp | hp := hh.known p (List.ne_nil_of_mem hmem)
  · exact hp
  · -- nothing is saved while another output is enabled
    rw [hp, hh.saved other hother fun heq => hne (Option.some.inj heq)] at hmem
    cases hmem
  · rw [Option.some.inj hp]
    exact ho

theorem Relocates.restores {o : OutId} {moved : WsId → Bool} (h : Relocates s t o moved)
    (hmoved : ∀ v, moved v = true → s.workspaceOutputGetHighestAvailable v = some o) :
    Restores s t o where
  outputs := h.setting.outputs
  fallbackOutput := h.setting.fallbackOutput
  label := h.setting.label
  isSticky := h.setting.isSticky
  nextWs := le_of_eq h.setting.nextWs.symm
  ws v _ := by rw [h.ws]
  output v _ := by
    rw [h.ws]
    dsimp only
    split
    · next hm => exact Or.inr ⟨hmoved v hm, rfl⟩
    · exact Or.inl rfl

/-- When workspaces go from one output to another, the lists of all others are what they were. -/
theorem relocated_mem_iff {o old : OutId} {moved : WsId → Prop} [DecidablePred moved]
    (h : Linked s none) (ht : Linked t none)
    (hws : ∀ v, (t.ws v).output = if moved v then some o else (s.ws v).output)
    (hmoved : ∀ v, moved v → (s.ws v).output = some old) {p : OutId} (hpo : p ≠ o) (hpold : p ≠ old)
    (v : WsId) : v ∈ t.workspaces p ↔ v ∈ s.workspaces p := by
  rw [ht.mem_iff, h.mem_iff, hws]
  split
  · next hm =>
    rw [hmoved v hm]
    simp [Ne.symm hpo, Ne.symm hpold]
  · rfl

/-- Workspaces go from one output to the one in hand. -/
theorem Housed.relocated {o old : OutId} (hh : Housed s (some o)) (houtputs : t.outputs = s.outputs)
    (hfallback : t.fallbackOutput = s.fallbackOutput)
    (hnil : ∀ p, p ≠ o → p ≠ old → (t.workspaces p = [] ↔ s.workspaces p = []))
    (hold : old ∈ s.outputs ∧ t.workspaces old ≠ [] ∨
      old = s.fallbackOutput ∧ t.workspaces old = []) : Housed t (some o) := by
  have hfbo : s.fallbackOutput ≠ o := fun heq => hh.fallback_ne_spare (by rw [heq])
  constructor
  · rw [houtputs]
    exact hh.nodup
  · rw [houtputs, hfallback]
    exact hh.fallback
  · rw [hfallback]
    exact hh.fallback_ne_spare
  · intro p hp
    rw [houtputs, hfallback]
    by_cases hpo : p = o
    · exact Or.inr (Or.inr (by rw [hpo]))
    · by_cases hpold : p = old
      · rw [hpold]
        exact hold.imp And.left fun hsaved => Or.inl hsaved.1
      · exact hh.known p fun heq => hp ((hnil p hpo hpold).2 heq)
  · intro p hp hpo
    rw [houtputs] at hp
    by_cases hpold : p = old
    · obtain ⟨-, hne⟩ | ⟨hfb, -⟩ := hold
      · rw [hpold]
        exact hne
      · exact absurd (hfb ▸ hpold ▸ hp) hh.fallback
    · intro heq
      exact hh.shown p hp hpo ((hnil p (fun h => hpo (by rw [h])) hpold).1 heq)
  · intro p hp hpo
    rw [houtputs] at hp
    rw [hfallback]
    obtain ⟨hmem, -⟩ | ⟨hfb, hempty⟩ := hold
    · rw [hnil _ hfbo fun heq => hh.fallback (heq ▸ hmem)]
      exact hh.saved p hp hpo
    · rw [← hfb]
      exact hempty

/-- **A round of `restore_workspaces`**: the workspaces of one output that rank the new one first go
there, and the output keeps or gets a workspace. -/
theorem restoreFrom_spec (h : Linked s none) {o other : OutId} (hh : Housed s (some o))
    (ho : o ∈ s.outputs) (hother : other ∈ s.outputs) :
    let t := restoreFrom o s other
    Linked t none ∧ Housed t (some o) ∧ Restores s t o ∧ Refills s t ∧
      (other ≠ o → ∀ v, (s.ws v).output = some other →
        s.workspaceOutputGetHighestAvailable v = some o → (t.ws v).output = some o) := by
  intro t
  by_cases hoo : other = o
  · have hself : t = s := if_pos hoo
    rw [hself]
    exact ⟨h, hh, Restores.refl s o, Refills.keeps ⟨rfl, fun _ _ => rfl, fun _ hv => hv⟩,
      fun hne => absurd hoo hne⟩
  obtain ⟨s₁, hs₁⟩ : ∃ s₁, (s.workspaces other).foldl (restoreWorkspace o) s = s₁ := ⟨_, rfl⟩
  have ht : t = s₁.refillOutput other := by
    rw [← hs₁]
    exact if_neg hoo
  obtain ⟨hlinked₁, hrel⟩ := foldl_restore_spec h o other
  rw [hs₁] at hlinked₁ hrel
  -- the workspaces that go rank the output first, and come from the other one
  have hfrom : ∀ v, (decide (v ∈ s.workspaces other) &&
      decide (s.workspaceOutputGetHighestAvailable v = some o)) = true →
      (s.ws v).output = some other ∧ s.workspaceOutputGetHighestAvailable v = some o := by
    intro v hm
    obtain ⟨hmem, hhigh⟩ := Bool.and_eq_true_iff.1 hm
    exact ⟨(h.mem_iff other v).1 (of_decide_eq_true hmem), of_decide_eq_true hhigh⟩
  have hother₁ : other ∈ s₁.outputs := by
    rw [hrel.setting.outputs]
    exact hother
  obtain ⟨hlinked, hne, hcase⟩ := refillOutput_spec hlinked₁ hother₁
  have hrestore₁ : Restores s s₁ o := hrel.restores fun v hm => (hfrom v hm).2
  have hrefill : Restores s₁ (s₁.refillOutput other) o := refillOutput_restores hlinked₁ hother₁ o
  have htotal := hrestore₁.trans hrefill
  have hnil : ∀ p, p ≠ o → p ≠ other →
      ((s₁.refillOutput other).workspaces p = [] ↔ s.workspaces p = []) := by
    intro p hpo hpother
    rw [List.eq_nil_iff_forall_not_mem, List.eq_nil_iff_forall_not_mem]
    apply forall_congr'
    intro v
    have hfold : v ∈ s₁.workspaces p ↔ v ∈ s.workspaces p :=
      relocated_mem_iff h hlinked₁ (fun v => by rw [hrel.ws]) (fun v hm => (hfrom v hm).1) hpo
        hpother v
    obtain ⟨hself, -⟩ | ⟨name, -, hcreates⟩ := hcase
    · rw [hself, hfold]
    · rw [hcreates.mem_iff hlinked₁ hlinked, hfold]
      simp [hpother]
  have henabled : ∀ v p, (s₁.ws v).output = some p → p ∈ s₁.outputs := by
    intro v p hv
    rw [hrel.setting.outputs]
    rw [hrel.ws] at hv
    dsimp only at hv
    split at hv
    · rw [← Option.some.inj hv]
      exact ho
    · exact hh.enabled h ho hother hoo hv
  have hkeeps : Keeps s s₁ := hrel.keeps fun v hm => by
    rw [(hfrom v hm).1]
    exact Option.some_ne_none other
  rw [ht]
  refine ⟨hlinked, hh.relocated htotal.outputs htotal.fallbackOutput hnil (Or.inl ⟨hother, hne⟩),
    htotal, (Refills.keeps hkeeps).trans (refillOutput_refills hlinked₁ hother₁ henabled), ?_⟩
  intro _ v hv hhigh
  have hlt := h.lt_nextWs hv
  have hout₁ : (s₁.ws v).output = some o := by
    rw [hrel.ws]
    dsimp only
    rw [if_pos]
    simp [(h.mem_iff other v).2 hv, hhigh]
  obtain hout | ⟨-, hout⟩ := hrefill.output v (by rw [hrel.setting.nextWs]; exact hlt)
  · exact hout.trans hout₁
  · exact hout

/-- The loop of `restore_workspaces` over the other outputs. -/
theorem foldl_restoreFrom_spec {o : OutId} (l : List OutId) :
    ∀ {s : SwayRoot}, Linked s none → Housed s (some o) → o ∈ s.outputs →
      (∀ p ∈ l, p ∈ s.outputs) →
      let t := l.foldl (restoreFrom o) s
      Linked t none ∧ Housed t (some o) ∧ Restores s t o ∧ Refills s t ∧
        ∀ p ∈ l, p ≠ o → ∀ v, (s.ws v).output = some p →
          s.workspaceOutputGetHighestAvailable v = some o → (t.ws v).output = some o := by
  induction l with
  | nil =>
      intro s h hh _ _
      exact ⟨h, hh, Restores.refl s o, Refills.keeps ⟨rfl, fun _ _ => rfl, fun _ hv => hv⟩,
        fun p hp => absurd hp List.not_mem_nil⟩
  | cons q l ih =>
      intro s h hh ho hl
      obtain ⟨h₁, hh₁, hr₁, hrefills₁, hmoved₁⟩ :=
        restoreFrom_spec h hh ho (hl q List.mem_cons_self)
      obtain ⟨ht, hht, hr, hrefills, hmoved⟩ := ih h₁ hh₁ (by rw [hr₁.outputs]; exact ho) (by
        intro p hp
        rw [hr₁.outputs]
        exact hl p (List.mem_cons_of_mem q hp))
      refine ⟨ht, hht, hr₁.trans hr, hrefills₁.trans hrefills, ?_⟩
      intro p hp hpo v hv hhigh
      have hlt := h.lt_nextWs hv
      have hhigh₁ : (restoreFrom o s q).workspaceOutputGetHighestAvailable v = some o := by
        rw [hr₁.highest hlt]
        exact hhigh
      -- once on the output, it stays there
      have hstay : ((restoreFrom o s q).ws v).output = some o →
          ((l.foldl (restoreFrom o) (restoreFrom o s q)).ws v).output = some o := by
        intro hout
        obtain hsame | ⟨-, hout'⟩ := hr.output v (lt_of_lt_of_le hlt hr₁.nextWs)
        · exact hsame.trans hout
        · exact hout'
      obtain hpq | hp := List.mem_cons.1 hp
      · rw [hpq] at hpo hv
        exact hstay (hmoved₁ hpo v hv hhigh)
      · obtain hsame | ⟨-, hout⟩ := hr₁.output v hlt
        · exact hmoved p hp hpo v (hsame.trans hv) hhigh₁
        · exact hstay hout

/-- The output is listed, and has no workspaces yet. -/
theorem Good.listed (h : Good s) {o : OutId} (ho : o ∉ s.outputs) (hfb : o ≠ s.fallbackOutput) :
    Linked { s with outputs := listAdd s.outputs o } none ∧
      Housed { s with outputs := listAdd s.outputs o } (some o) := by
  refine ⟨⟨h.linked.mem_iff, h.linked.nodup, h.linked.bare, h.linked.fresh⟩, ?_⟩
  have hmem : ∀ p, p ∈ listAdd s.outputs o ↔ p ∈ s.outputs ∨ p = o := by
    intro p
    show p ∈ s.outputs ++ [o] ↔ _
    simp
  constructor
  · show (s.outputs ++ [o]).Nodup
    rw [List.nodup_append]
    refine ⟨h.housed.nodup, List.nodup_singleton o, ?_⟩
    intro a ha b hb heq
    rw [List.mem_singleton.1 hb] at heq
    exact ho (heq ▸ ha)
  · show s.fallbackOutput ∉ listAdd s.outputs o
    rw [hmem]
    rintro (hlisted | hlisted)
    · exact h.housed.fallback hlisted
    · exact hfb hlisted.symm
  · intro heq
    exact hfb (Option.some.inj heq).symm
  · intro p hp
    obtain hlisted | hlisted | hlisted := h.housed.known p hp
    · exact Or.inl ((hmem p).2 (Or.inl hlisted))
    · exact Or.inr (Or.inl hlisted)
    · cases hlisted
  · intro p hp hne
    obtain hp | hp := (hmem p).1 hp
    · exact h.housed.shown p hp (Option.some_ne_none p)
    · exact absurd (by rw [hp]) hne
  · intro p hp hne
    obtain hp | hp := (hmem p).1 hp
    · exact h.housed.saved p hp (Option.some_ne_none p)
    · exact absurd (by rw [hp]) hne

/-- The end of `restore_workspaces`: what was saved goes to the output. -/
theorem restoreAllSaved_spec {o : OutId} (h : Linked s none) (hh : Housed s (some o))
    (ho : o ∈ s.outputs) :
    let t := ((s.workspaces s.fallbackOutput).foldl (restoreSaved o) s).outputSortWorkspaces o
    Linked t none ∧ Housed t (some o) ∧ t.workspaces t.fallbackOutput = [] ∧ SameSetting s t ∧
      Keeps s t ∧ ∀ v, t.ws v = { s.ws v with
        output := if (s.ws v).output = some s.fallbackOutput then some o else (s.ws v).output } := by
  intro t
  obtain ⟨hlinked, hrel⟩ :=
    foldl_restoreSaved_spec h o _ (h.mem_lt (o := s.fallbackOutput))
  have ht : Linked t none := hlinked.sort o
  have houtputs : t.outputs = s.outputs := hrel.setting.outputs
  have hfallback : t.fallbackOutput = s.fallbackOutput := hrel.setting.fallbackOutput
  have hfb : o ≠ s.fallbackOutput := fun heq => hh.fallback (heq ▸ ho)
  have hws : ∀ v, t.ws v = { s.ws v with
      output := if (s.ws v).output = some s.fallbackOutput then some o else (s.ws v).output } := by
    intro v
    refine (hrel.ws v).trans ?_
    dsimp only
    by_cases hv : v ∈ s.workspaces s.fallbackOutput
    · rw [if_pos (decide_eq_true hv), if_pos ((h.mem_iff _ v).1 hv)]
    · rw [if_neg (by simpa using hv), if_neg fun heq => hv ((h.mem_iff _ v).2 heq)]
  have hsaved : t.workspaces t.fallbackOutput = [] := by
    rw [List.eq_nil_iff_forall_not_mem]
    intro v hv
    rw [ht.mem_iff, hfallback, hws] at hv
    dsimp only at hv
    split at hv
    · exact hfb (Option.some.inj hv)
    · next hne => exact hne hv
  have hnil : ∀ p, p ≠ o → p ≠ s.fallbackOutput → (t.workspaces p = [] ↔ s.workspaces p = []) := by
    intro p hpo hpf
    rw [List.eq_nil_iff_forall_not_mem, List.eq_nil_iff_forall_not_mem]
    apply forall_congr'
    intro v
    exact not_congr (relocated_mem_iff h ht (fun v => by rw [hws]) (fun v hv => hv) hpo hpf v)
  have hkeeps : Keeps s t := by
    have hrelocated := hrel.keeps fun v hm => by
      rw [(h.mem_iff _ v).1 (of_decide_eq_true hm)]
      exact Option.some_ne_none _
    exact ⟨hrelocated.config, hrelocated.name, hrelocated.placed⟩
  have hhoused : Housed t (some o) :=
    hh.relocated houtputs hfallback hnil (Or.inr ⟨rfl, hfallback ▸ hsaved⟩)
  have hset : SameSetting s t :=
    ⟨houtputs, hfallback, hrel.setting.label, hrel.setting.config, hrel.setting.nextWs,
      hrel.setting.isSticky⟩
  exact ⟨ht, hhoused, hsaved, hset, hkeeps, hws⟩

/-- What `restore_workspaces` does: the saved workspaces and those whose priority list ranks the
output first are on the output, and the others stay. -/
structure Restored (s t : SwayRoot) (o : OutId) : Prop where
  outputs : t.outputs = s.outputs
  fallbackOutput : t.fallbackOutput = s.fallbackOutput
  isSticky : t.isSticky = s.isSticky
  nextWs : s.nextWs ≤ t.nextWs
  saved : t.workspaces t.fallbackOutput = []
  refills : Refills s t
  ws : ∀ v, v < s.nextWs → t.ws v = { s.ws v with output := (t.ws v).output }
  output : ∀ v p, (s.ws v).output = some p → p ≠ o → ((t.ws v).output = some o ↔
    p = s.fallbackOutput ∨ s.workspaceOutputGetHighestAvailable v = some o)

/-- **`restore_workspaces`**: first the other outputs, then what was saved. -/
theorem restoreWorkspaces_spec {o : OutId} (h : Linked s none) (hh : Housed s (some o))
    (ho : o ∈ s.outputs) : Linked (s.restoreWorkspaces o) none ∧
      Housed (s.restoreWorkspaces o) (some o) ∧ Restored s (s.restoreWorkspaces o) o := by
  obtain ⟨m, hm⟩ : ∃ m, s.outputs.foldl (restoreFrom o) s = m := ⟨_, rfl⟩
  obtain ⟨hlinked, hhoused, hr, hrefills, hmoved⟩ :=
    foldl_restoreFrom_spec s.outputs h hh ho fun p hp => hp
  rw [hm] at hlinked hhoused hr hrefills hmoved
  obtain ⟨ht, hht, hsaved, hset, hkeeps, hws⟩ :=
    restoreAllSaved_spec hlinked hhoused (by rw [hr.outputs]; exact ho)
  have hrest : s.restoreWorkspaces o =
      ((m.workspaces m.fallbackOutput).foldl (restoreSaved o) m).outputSortWorkspaces o := by
    rw [← hm]
    rfl
  rw [← hrest] at ht hht hsaved hset hkeeps hws
  refine ⟨ht, hht, hset.outputs.trans hr.outputs, hset.fallbackOutput.trans hr.fallbackOutput,
    hset.isSticky.trans hr.isSticky, hr.nextWs.trans (le_of_eq hset.nextWs.symm), hsaved,
    hrefills.trans (Refills.keeps hkeeps), ?_, ?_⟩
  · intro v hv
    rw [hws, hr.ws v hv]
  · intro v p hp hpo
    have hlt := h.lt_nextWs hp
    have hout : ((s.restoreWorkspaces o).ws v).output =
        if (m.ws v).output = some s.fallbackOutput then some o else (m.ws v).output := by
      rw [hws, hr.fallbackOutput]
    rw [hout]
    obtain hsame | ⟨hhigh, hgone⟩ := hr.output v hlt
    · rw [hsame, hp]
      by_cases hpf : p = s.fallbackOutput
      · rw [if_pos (congrArg some hpf)]
        exact iff_of_true rfl (Or.inl hpf)
      · rw [if_neg fun heq => hpf (Option.some.inj heq)]
        refine iff_of_false (fun heq => hpo (Option.some.inj heq)) ?_
        rintro (heq | hhigh)
        · exact hpf heq
        · -- it would have been moved already
          have hlisted : p ∈ s.outputs := by
            obtain hlisted | heq | heq :=
              hh.known p (List.ne_nil_of_mem ((h.mem_iff p v).2 hp))
            · exact hlisted
            · exact absurd heq hpf
            · exact absurd (Option.some.inj heq) hpo
          have hgone := hmoved p hlisted hpo v hp hhigh
          rw [hsame, hp] at hgone
          exact hpo (Option.some.inj hgone)
    · rw [hgone]
      refine iff_of_true ?_ (Or.inr hhigh)
      split <;> rfl

/-- Once the output has a workspace too, no output is missing one. -/
theorem refillOutput_housed {o : OutId} (h : Linked s none) (hh : Housed s (some o))
    (ho : o ∈ s.outputs) (hsaved : s.workspaces s.fallbackOutput = []) :
    Housed (s.refillOutput o) none := by
  obtain ⟨hlinked, hne, ⟨hself, hshown⟩ | ⟨name, -, hcreates⟩⟩ := refillOutput_spec h ho
  · rw [hself]
    exact hh.settle (fun _ => ⟨hshown, hsaved⟩) fun hnot => absurd ho hnot
  · refine (hcreates.housed h hlinked hh (Or.inl ho)).settle ?_ ?_
    · intro _
      refine ⟨hne, ?_⟩
      rw [List.eq_nil_iff_forall_not_mem]
      intro v hv
      rw [hcreates.fallbackOutput, hcreates.mem_iff h hlinked, hsaved] at hv
      obtain hv | ⟨-, hv⟩ := hv
      · cases hv
      · exact hh.fallback (hv ▸ ho)
    · intro hnot
      rw [hcreates.outputs] at hnot
      exact absurd ho hnot

/-- **`output_enable`** keeps the invariant. A workspace that holds windows goes to the output if it
was saved, or if its priority list ranks the output first; otherwise it stays. -/
theorem outputEnable_spec (h : Good s) {o : OutId} (ho : o ∉ s.outputs) (hfb : o ≠ s.fallbackOutput)
    (calls : List FocusCall) :
    let s₀ : SwayRoot := { s with outputs := listAdd s.outputs o }
    let t := s.outputEnable o calls
    Good t ∧ Refills s t ∧ ∀ v, s.workspaceIsEmpty v = false → t.workspaceIsEmpty v = false ∧
      ((t.ws v).output = some o ↔ (s.ws v).output = some s.fallbackOutput ∨
        s₀.workspaceOutputGetHighestAvailable v = some o) := by
  intro s₀ t
  obtain ⟨hlinked₀, hhoused₀⟩ := h.listed ho hfb
  have ho₀ : o ∈ s₀.outputs := List.mem_append_right _ (List.mem_singleton_self o)
  obtain ⟨hlinked₁, hhoused₁, hr⟩ := restoreWorkspaces_spec hlinked₀ hhoused₀ ho₀
  set s₁ := s₀.restoreWorkspaces o with hs₁
  have ho₁ : o ∈ s₁.outputs := by
    rw [hr.outputs]
    exact ho₀
  have hhoused₂ := refillOutput_housed hlinked₁ hhoused₁ ho₁ hr.saved
  have hr₂ : Restores s₁ (s₁.refillOutput o) o := refillOutput_restores hlinked₁ ho₁ o
  obtain ⟨hlinked₂, -, hcase⟩ := refillOutput_spec hlinked₁ ho₁
  obtain ⟨htrim, hlinked₃⟩ := focusCalls_spec hlinked₂ calls
  have ht : t = (s₁.refillOutput o).focusCalls calls := rfl
  have henabled : ∀ v p, (s₁.ws v).output = some p → p ∈ s₁.outputs := by
    intro v p hv
    have hmem := (hlinked₁.mem_iff p v).2 hv
    obtain hp | hp | hp := hhoused₁.known p (List.ne_nil_of_mem hmem)
    · exact hp
    · rw [hp, hr.saved] at hmem
      cases hmem
    · rw [Option.some.inj hp]
      exact ho₁
  have hrefills : Refills s ((s₁.refillOutput o).focusCalls calls) :=
    calc Refills s s₀ := Refills.keeps ⟨rfl, fun _ _ => rfl, fun _ hv => hv⟩
      Refills _ s₁ := hr.refills
      Refills _ (s₁.refillOutput o) := refillOutput_refills hlinked₁ ho₁ henabled
      Refills _ ((s₁.refillOutput o).focusCalls calls) :=
        Refills.keeps (htrim.keeps hlinked₂ hlinked₃)
  rw [ht]
  refine ⟨⟨hlinked₃, hhoused₂.trims htrim⟩, hrefills, ?_⟩
  intro v hv
  -- a workspace that holds windows is on an output already, and not on the new one
  obtain ⟨p, hp⟩ : ∃ p, (s.ws v).output = some p := by
    cases hout : (s.ws v).output with
    | some p => exact ⟨p, rfl⟩
    | none =>
        have hbare := h.linked.bare v hout (Option.some_ne_none v)
        rw [workspaceIsEmpty_of_bare hbare] at hv
        cases hv
  have hpo : p ≠ o := by
    rintro rfl
    obtain hlisted | ⟨heq, -⟩ := h.output_mem hp
    · exact ho hlisted
    · exact hfb heq
  have hlt : v < s.nextWs := h.linked.lt_nextWs hp
  have hlt₁ : v < s₁.nextWs := lt_of_lt_of_le hlt hr.nextWs
  have hsame : (s₁.refillOutput o).workspaceIsEmpty v = s.workspaceIsEmpty v := by
    have h₁ := hr.ws v hlt
    have h₂ := hr₂.ws v hlt₁
    apply workspaceIsEmpty_congr
    · calc ((s₁.refillOutput o).ws v).tiling
        _ = (s₁.ws v).tiling := by rw [h₂]
        _ = (s.ws v).tiling := by rw [h₁]
    · calc ((s₁.refillOutput o).ws v).floating
        _ = (s₁.ws v).floating := by rw [h₂]
        _ = (s.ws v).floating := by rw [h₁]
    · calc ((s₁.refillOutput o).ws v).minimized
        _ = (s₁.ws v).minimized := by rw [h₂]
        _ = (s.ws v).minimized := by rw [h₁]
    · exact hr₂.isSticky.trans hr.isSticky
  obtain ⟨hholds, hout₃⟩ := htrim.holds v (hsame.trans hv)
  -- filling the output up does not move the workspace
  have hout₂ : ((s₁.refillOutput o).ws v).output = (s₁.ws v).output := by
    obtain ⟨hself, -⟩ | ⟨name, -, hcreates⟩ := hcase
    · rw [hself]
    · rw [hcreates.ws v (Nat.ne_of_lt hlt₁)]
  refine ⟨hholds, ?_⟩
  rw [hout₃, hout₂, hr.output v p hp hpo, hp, Option.some.injEq]

end Restore

end SwayRoot

end Swirl

import Swirl.Commands.WorkspaceCases

set_option autoImplicit false

/-! # Hotplug loses nothing

Every event of a `SwayRoot` keeps the invariant of `Tree/Housing.lean`, so a workspace that holds
windows is in the list of one output, whatever happens. Whether it comes back to an output that is
disabled and enabled again is up to its priority list: it does if the list ranks the output first,
or if no other output is enabled meanwhile.

`workspace_move_to_output` is meant to see to that, but `workspace_output_get_priority` overlooks
an output that the list has by its name only, and then the list is not changed.
-/

namespace Swirl

namespace SwayRoot

section Steps

variable {s : SwayRoot}

/-- Contexts, settings and what the seats remember are not looked at. -/
theorem Good.congr (h : Good s) {t : SwayRoot} (houtputs : t.outputs = s.outputs)
    (hfallback : t.fallbackOutput = s.fallbackOutput) (hlists : t.workspaces = s.workspaces)
    (hws : t.ws = s.ws) (hnext : t.nextWs = s.nextWs) : Good t := by
  refine ⟨h.linked.congr ?_ ?_ ?_ hnext, h.housed.congr houtputs hfallback ?_⟩
  · intro o
    rw [hlists]
  · intro w
    rw [hws]
  · intro w _
    unfold workspaceBare
    rw [hws]
  · intro o
    rw [hlists]

theorem Good.focusCalls (h : Good s) (calls : List FocusCall) : Good (s.focusCalls calls) := by
  obtain ⟨htrim, hlinked⟩ := focusCalls_spec h.linked calls
  exact ⟨hlinked, h.housed.trims htrim⟩

/-- A workspace gets another name. -/
theorem Good.rename (h : Good s) (w : WsId) (newName : String) :
    Good (s.modWs w fun k => { k with name := newName }) :=
  ⟨h.linked.modWs w (fun _ => rfl) (fun _ => rfl) (fun _ => rfl) (fun _ => rfl),
    h.housed.congr rfl rfl fun _ => Iff.rfl⟩

theorem Good.sort (h : Good s) (o : OutId) : Good (s.outputSortWorkspaces o) :=
  ⟨h.linked.sort o, h.housed.sort o⟩

/-- What happens to the windows of a workspace that is on an output. -/
theorem Good.windows (h : Good s) {w : WsId} (hw : (s.ws w).output.isSome = true)
    (tiling floating minimized : List ConId) (isSticky : ConId → Bool) :
    Good { s.modWs w fun k => { k with tiling, floating, minimized } with isSticky } := by
  set t : SwayRoot :=
    { s.modWs w fun k => { k with tiling, floating, minimized } with isSticky } with ht
  have hws : ∀ v, t.ws v =
      if v = w then { s.ws w with tiling, floating, minimized } else s.ws v :=
    s.modWs_ws w fun k => { k with tiling, floating, minimized }
  refine ⟨h.linked.congr (fun _ => List.Perm.refl _) ?_ ?_ rfl,
    h.housed.congr rfl rfl fun _ => Iff.rfl⟩
  · intro v
    rw [hws]
    split
    · next hv => rw [hv]
    · rfl
  · intro v hv
    have hvw : v ≠ w := by
      intro heq
      rw [← heq, hv] at hw
      cases hw
    unfold workspaceBare
    rw [hws, if_neg hvw]

/-- A priority list is edited, and nothing else. -/
theorem raisePriority_ws (s : SwayRoot) (w : WsId) (old o : OutId) (v : WsId) :
    (s.workspaceOutputRaisePriority w old o).ws v =
      { s.ws v with priority := ((s.workspaceOutputRaisePriority w old o).ws v).priority } := by
  unfold workspaceOutputRaisePriority
  dsimp only
  split_ifs
  · rfl
  · rw [modWs_ws]
    split
    · next hv => rw [hv]
    · rfl
  · rw [modWs_ws]
    split
    · next hv =>
      rw [hv]
      split <;> rfl
    · rfl
  · rfl

theorem Good.raisePriority (h : Good s) (w : WsId) (old o : OutId) :
    Good (s.workspaceOutputRaisePriority w old o) ∧
      Keeps s (s.workspaceOutputRaisePriority w old o) := by
  have hraise := SameSetting.raisePriority s w old o
  constructor
  · refine ⟨h.linked.raisePriority w old o,
      h.housed.congr hraise.outputs hraise.fallbackOutput ?_⟩
    intro p
    unfold workspaceOutputRaisePriority
    dsimp only
    split_ifs <;> exact Iff.rfl
  · refine ⟨hraise.config, ?_, ?_⟩
    · intro v _
      rw [raisePriority_ws]
    · intro v hv
      rw [raisePriority_ws] at hv
      exact hv

/-- Bare workspaces are taken away. -/
theorem Good.considerDestroy (h : Good s) (a : WsId) (seen : Bool) (calls : List FocusCall) :
    Good (s.workspaceConsiderDestroy a seen calls) ∧
      Keeps s (s.workspaceConsiderDestroy a seen calls) := by
  obtain ⟨htrim, hlinked⟩ := workspaceConsiderDestroy_spec h.linked a seen calls
  exact ⟨⟨hlinked, h.housed.trims htrim⟩, htrim.keeps h.linked hlinked⟩

/-- A workspace leaves an enabled output, which is in hand then. -/
theorem Good.detached (h : Good s) {w : WsId} {old : OutId} (hold : (s.ws w).output = some old)
    (hmem : old ∈ s.outputs) : Housed (s.workspaceDetach w) (some old) := by
  refine (h.housed.weaken ?_).detach h.linked hold
  intro heq
  exact h.housed.fallback (by rw [Option.some.inj heq]; exact hmem)

/-- The workspace is on its new output, and the old one is in hand. -/
theorem Good.detachAdd (h : Good s) {w : WsId} {old o : OutId} (hold : (s.ws w).output = some old)
    (hmem : old ∈ s.outputs) (ho : o ∈ s.outputs) :
    let t := (s.workspaceDetach w).outputAddWorkspace o w
    Linked t none ∧ Housed t (some old) ∧ t.outputs = s.outputs ∧ Keeps s t := by
  intro t
  have hlt := h.linked.lt_nextWs hold
  have hsetting₁ := SameSetting.detach s w
  have hsetting := hsetting₁.trans (SameSetting.add (s.workspaceDetach w) o w)
  have hlinked₁ : Linked (s.workspaceDetach w) (some w) := h.linked.detach w hlt
  refine ⟨hlinked₁.add o w (by rw [hsetting₁.nextWs]; exact hlt) (Or.inl rfl),
    (h.detached hold hmem).add hlinked₁ (by rw [workspaceDetach_ws, if_pos rfl])
      (Or.inl (by rw [hsetting₁.outputs]; exact ho)), hsetting.outputs, hsetting.config, ?_, ?_⟩
  · intro v _
    rw [outputAddWorkspace_ws, workspaceDetach_ws]
  · intro v hv
    rw [outputAddWorkspace_ws, workspaceDetach_ws] at hv
    by_cases hvw : v = w
    · rw [hvw, hold]
      exact Option.some_ne_none old
    · simpa only [if_neg hvw] using hv

/-- The output in hand is filled up while another one is enabled. -/
theorem good_refillOutput (h : Linked s none) {old o : OutId} (hh : Housed s (some old))
    (hold : old ∈ s.outputs) (ho : o ∈ s.outputs) (hne : o ≠ old) : Good (s.refillOutput old) := by
  obtain ⟨hlinked, hshown, hcase⟩ := refillOutput_spec h hold
  have hhoused : Housed (s.refillOutput old) (some old) := by
    obtain ⟨hself, -⟩ | ⟨name, -, hcreates⟩ := hcase
    · rw [hself]
      exact hh
    · exact hcreates.housed h hlinked hh (Or.inl hold)
  have hrestores := refillOutput_restores h hold old
  refine ⟨hlinked, hhoused.settle ?_ ?_⟩
  · intro _
    refine ⟨hshown, hhoused.saved o ?_ fun heq => hne (Option.some.inj heq)⟩
    rw [hrestores.outputs]
    exact ho
  · intro hnot
    rw [hrestores.outputs] at hnot
    exact absurd hold hnot

/-- An enabled output shows a workspace. -/
theorem Good.outputGetActiveWorkspace_ne_none (h : Good s) {old o : OutId} {w : WsId}
    (hold : (s.ws w).output = some old) (hmem : old ∈ s.outputs) (ho : o ∈ s.outputs) (hne : o ≠ old)
    (child : Option WsId) : (s.workspaceDetach w).outputGetActiveWorkspace o child ≠ none := by
  intro hnone
  have ho₁ : o ∈ (s.workspaceDetach w).outputs := by
    rw [(SameSetting.detach s w).outputs]
    exact ho
  apply (h.detached hold hmem).shown o ho₁ fun heq => hne (Option.some.inj heq)
  unfold outputGetActiveWorkspace at hnone
  rw [Option.or_eq_none_iff] at hnone
  exact List.head?_eq_none_iff.1 hnone.2

/-- **`workspace_move_to_output`** keeps the invariant: the old output is filled up again. -/
theorem workspaceMoveToOutput_spec (h : Good s) {o : OutId} (ho : o ∈ s.outputs) (w : WsId)
    (child : Option WsId) (seen : Bool) (calls : List FocusCall) :
    Good (s.workspaceMoveToOutput w o child seen calls) ∧
      Refills s (s.workspaceMoveToOutput w o child seen calls) := by
  have hself : Good s ∧ Refills s s := ⟨h, Refills.keeps ⟨rfl, fun _ _ => rfl, fun _ hv => hv⟩⟩
  unfold workspaceMoveToOutput
  split
  · next old hold =>
    split
    · exact hself
    · next hne =>
      have hother : o ≠ old := fun heq => hne heq.symm
      have hmem : old ∈ s.outputs := by
        obtain hmem | ⟨-, hnil⟩ := h.output_mem hold
        · exact hmem
        · rw [hnil] at ho
          cases ho
      dsimp only
      split
      · next a _ =>
        obtain ⟨hlinked₂, hhoused₂, houtputs₂, hkeeps₂⟩ := h.detachAdd hold hmem ho
        set s₂ := (s.workspaceDetach w).outputAddWorkspace o w with hs₂
        rw [← houtputs₂] at hmem ho
        have hgood₃ : Good (s₂.refillOutput old) :=
          good_refillOutput hlinked₂ hhoused₂ hmem ho hother
        -- the rest takes bare workspaces away, sorts, and edits a priority list
        obtain ⟨hgood₄, hkeeps₄⟩ := hgood₃.considerDestroy a seen calls
        obtain ⟨hgood₆, hkeeps₆⟩ := (Good.sort hgood₄ o).raisePriority w old o
        refine ⟨hgood₆, ?_⟩
        calc Refills s s₂ := Refills.keeps hkeeps₂
          Refills _ (s₂.refillOutput old) := refillOutput_refills hlinked₂ hmem
            fun v p hv => hhoused₂.enabled hlinked₂ hmem ho hother hv
          Refills _ ((s₂.refillOutput old).workspaceConsiderDestroy a seen calls) :=
            Refills.keeps hkeeps₄
          Refills _ _ := Refills.keeps ⟨hkeeps₆.config, hkeeps₆.name, hkeeps₆.placed⟩
      · next hnone => exact absurd hnone (h.outputGetActiveWorkspace_ne_none hold hmem ho hother _)
  · exact hself

/-- A workspace that is made by its name. -/
theorem Good.createNamed (h : Good s) (name : String) : Good (s.workspaceCreate none name) :=
  (h.create name fun o ho => by cases ho).1

/-- **Every event keeps the invariant.** -/
theorem Good.step (h : Good s) (e : Event) : Good (s.step e) := by
  cases e with
  | workspace argv calls =>
      obtain ⟨config, hconfig⟩ | ⟨-, auto, argv', t, w, calls', ht, heq⟩ :=
        s.cmdWorkspace_cases argv calls
      · show Good (s.cmdWorkspace argv calls).1
        rw [hconfig]
        exact h.congr rfl rfl rfl rfl rfl
      · show Good (s.cmdWorkspace argv calls).1
        rw [heq]
        have hgood : Good t :=
          workspaceToSwitchTo_keeps (I := Good) (fun _ name h _ => Good.createNamed h name) h ht
        exact hgood.focusCalls calls'
  | moveContainer noAuto oldWs sticky word argv =>
      show Good (s.cmdMoveToWorkspace noAuto oldWs sticky word argv).1
      obtain hself | ⟨-, name, -, heq⟩ := s.cmdMoveToWorkspace_cases noAuto oldWs sticky word argv
      · rw [hself]
        exact h
      · rw [heq]
        exact h.createNamed name
  | rename workspace argv =>
      show Good (s.cmdRename workspace argv).1
      obtain hself | ⟨-, w, newName, -, -, heq | ⟨o, heq⟩⟩ := s.cmdRename_cases workspace argv
      · rw [hself]
        exact h
      · rw [heq]
        exact h.rename w newName
      · rw [heq]
        exact (h.rename w newName).sort o
  | enable o calls =>
      show Good (if o ∉ s.outputs ∧ o ≠ s.fallbackOutput then s.outputEnable o calls else s)
      split
      · next ho => exact (outputEnable_spec h ho.1 ho.2 calls).1
      · exact h
  | disable o e =>
      show Good (if o ∈ s.outputs then s.outputDisable o e else s)
      split
      · next ho => exact (outputDisable_spec h ho e).1
      · exact h
  | moveToOutput w o child seen calls =>
      show Good (if o ∈ s.outputs then s.workspaceMoveToOutput w o child seen calls else s)
      split
      · next ho => exact (workspaceMoveToOutput_spec h ho w child seen calls).1
      · exact h
  | destroyOutput o => exact h.congr rfl rfl rfl rfl rfl
  | launch k node child =>
      show Good (s.launcherCtxCreate k node child)
      unfold launcherCtxCreate
      dsimp only
      split
      · exact h.congr rfl rfl rfl rfl rfl
      · exact h
  | map k =>
      show Good (s.mapThroughContext k)
      obtain ⟨contexts, heq⟩ | ⟨c, output, contexts, -, houtput, -, -, heq⟩ :=
        s.mapThroughContext_cases k
      · rw [heq]
        exact h.congr rfl rfl rfl rfl rfl
      · rw [heq]
        exact (h.create c.fallbackName houtput).1.congr rfl rfl rfl rfl rfl
  | focus calls => exact h.focusCalls calls
  | windows w tiling floating minimized isSticky =>
      show Good (if (s.ws w).output.isSome then
        { s.modWs w fun k => { k with tiling, floating, minimized } with isSticky } else s)
      split
      · next hw => exact h.windows hw tiling floating minimized isSticky
      · exact h
  | fullscreen global => exact h.congr rfl rfl rfl rfl rfl
  | configure config => exact h.congr rfl rfl rfl rfl rfl

end Steps

theorem Good.start (fallbackOutput : OutId) (label : OutId → OutputLabel) (config : NameConfig) :
    Good (SwayRoot.start fallbackOutput label config) := by
  constructor
  · constructor
    · intro o w
      simp [SwayRoot.start]
    · intro o
      exact List.nodup_nil
    · intro w _ _
      rfl
    · intro w _
      exact ⟨rfl, Option.some_ne_none w⟩
  · constructor
    · exact List.nodup_nil
    · exact List.not_mem_nil
    · exact Option.some_ne_none _
    · intro o ho
      exact absurd rfl ho
    · intro o ho
      cases ho
    · intro o ho
      cases ho

/-! ## Coming back -/

/-- A workspace that holds windows is in one list, once: that of an enabled output, or that of the
fallback output while none is enabled. -/
def Kept (s : SwayRoot) : Prop :=
  ∀ w, s.workspaceIsEmpty w = false →
    ∃ o, (o ∈ s.outputs ∨ o = s.fallbackOutput ∧ s.outputs = []) ∧
      ∀ p, (s.workspaces p).count w = if p = o then 1 else 0

/-- An output that is disabled and enabled again gets the workspaces back that hold windows, whatever
the seats do meanwhile. -/
def Returns (s : SwayRoot) (o : OutId) : Prop :=
  ∀ (e : WsId → Evacuation) (calls : List FocusCall), ∀ w ∈ s.workspaces o,
    s.workspaceIsEmpty w = false → w ∈ ((s.outputDisable o e).outputEnable o calls).workspaces o

/-- The first entry of the priority list that stands for an output stands for this one, once it is
the last of the enabled outputs. -/
def RanksFirst (s : SwayRoot) (w : WsId) (o : OutId) : Prop :=
  { s with outputs := s.outputs.erase o ++ [o] }.workspaceOutputGetHighestAvailable w = some o

instance (s : SwayRoot) (w : WsId) (o : OutId) : Decidable (s.RanksFirst w o) :=
  inferInstanceAs (Decidable (_ = _))

/-- No other output is enabled, or all workspaces of the output that hold windows rank it first. -/
def BroughtBack (s : SwayRoot) (o : OutId) : Prop :=
  s.outputs.erase o = [] ∨
    ∀ w ∈ s.workspaces o, s.workspaceIsEmpty w = false → s.RanksFirst w o

section Returns

variable {s : SwayRoot}

/-- An output is found by its identifier, if not another before it. -/
theorem outputByNameOrId_identifier {L : List OutId} {p : OutId} (hp : p ∈ L) (o : OutId) :
    ∃ q ∈ L, { s with outputs := L ++ [o] }.outputByNameOrId (s.label p).identifier = some q := by
  have hmatch : s.outputMatchNameOrId p (s.label p).identifier = true := by
    unfold outputMatchNameOrId
    simp [sameIgnoringCase_refl]
  have hsome : (L.find? fun q => s.outputMatchNameOrId q (s.label p).identifier).isSome = true :=
    List.find?_isSome.2 ⟨p, hp, hmatch⟩
  obtain ⟨q, hq⟩ := Option.isSome_iff_exists.1 hsome
  refine ⟨q, List.mem_of_find?_eq_some hq, ?_⟩
  show ((L ++ [o]).find? fun q => s.outputMatchNameOrId q (s.label p).identifier) = some q
  rw [List.find?_append, hq]
  rfl

/-- The entry that evacuating adds at the end of a priority list does not rank the output first. -/
theorem ranksFirst_addPriority {L : List OutId} {o p : OutId} (ho : o ∉ L) (hp : p ∈ L)
    (w : WsId) :
    { s.workspaceOutputAddPriority w p with
        outputs := L ++ [o] }.workspaceOutputGetHighestAvailable w = some o ↔
      { s with outputs := L ++ [o] }.workspaceOutputGetHighestAvailable w = some o := by
  set find := ({ s with outputs := L ++ [o] } : SwayRoot).outputByNameOrId with hfind
  have hhigh : { s with outputs := L ++ [o] }.workspaceOutputGetHighestAvailable w =
      (s.ws w).priority.findSome? find := rfl
  by_cases hlt : s.workspaceOutputGetPriority w p < 0
  · have hadded : { s.workspaceOutputAddPriority w p with
        outputs := L ++ [o] }.workspaceOutputGetHighestAvailable w =
        ((s.ws w).priority ++ [(s.label p).identifier]).findSome? find := by
      unfold workspaceOutputAddPriority
      rw [if_pos hlt]
      unfold workspaceOutputGetHighestAvailable
      show ((s.modWs w fun k => { k with
        priority := listAdd k.priority (s.label p).identifier }).ws w).priority.findSome? find = _
      rw [modWs_ws, if_pos rfl]
      rfl
    obtain ⟨q, hq, hlookup⟩ := outputByNameOrId_identifier (s := s) hp o
    rw [hadded, hhigh, List.findSome?_append]
    cases hfirst : (s.ws w).priority.findSome? find with
    | some r => simp
    | none =>
        -- the list named no output: now it names another one
        have hlast : [(s.label p).identifier].findSome? find = some q := by
          simp [hfind, hlookup]
        rw [hlast]
        constructor
        · intro heq
          obtain rfl := Option.some.inj heq
          exact absurd hq ho
        · intro heq
          cases heq
  · have hself : s.workspaceOutputAddPriority w p = s := by
      unfold workspaceOutputAddPriority
      rw [if_neg hlt]
    rw [hself]

/-- With no output left, a workspace is evacuated to the fallback output. -/
theorem evacuationOutput_nil (h : s.outputs = []) (w : WsId) :
    s.evacuationOutput w s.outputs.head? = s.fallbackOutput := by
  have hnone : s.workspaceOutputGetHighestAvailable w = none := by
    unfold workspaceOutputGetHighestAvailable
    rw [List.findSome?_eq_none_iff]
    intro name _
    unfold outputByNameOrId
    rw [h]
    rfl
  unfold evacuationOutput
  rw [hnone, h]
  rfl

/-- **One workspace**: it is back on the output if no other was enabled, or if it ranks the output
first. -/
theorem outputEnable_outputDisable (h : Good s) {o : OutId} (ho : o ∈ s.outputs) {w : WsId}
    (hw : (s.ws w).output = some o) (hholds : s.workspaceIsEmpty w = false)
    (e : WsId → Evacuation) (calls : List FocusCall) :
    (((s.outputDisable o e).outputEnable o calls).ws w).output = some o ↔
      s.outputs.erase o = [] ∨ s.RanksFirst w o := by
  obtain ⟨hgood, -, hset, -, -, hev⟩ := outputDisable_spec h ho e
  obtain ⟨hholds', hhere, -⟩ := hev w hholds
  set s₁ : SwayRoot := { s with outputs := s.outputs.erase o } with hs₁
  set d := s.outputDisable o e with hd
  obtain ⟨hout, hprio⟩ := hhere hw
  have hmem : o ∉ s.outputs.erase o := h.housed.nodup.not_mem_erase
  have hd_outputs : d.outputs = s.outputs.erase o := hset.outputs
  have hfb : o ≠ d.fallbackOutput := by
    rw [hset.fallbackOutput]
    intro heq
    exact h.housed.fallback (heq ▸ ho)
  have hback := (outputEnable_spec hgood (by rw [hd_outputs]; exact hmem) hfb calls).2.2 w hholds'
  rw [hback.2, hout]
  by_cases hnil : s.outputs.erase o = []
  · have hfallback : s₁.evacuationOutput w s₁.outputs.head? = s₁.fallbackOutput :=
      evacuationOutput_nil hnil w
    constructor
    · intro _
      exact Or.inl hnil
    · intro _
      exact Or.inl (by rw [hfallback, hset.fallbackOutput])
  · have hnew : s₁.evacuationOutput w s₁.outputs.head? ∈ s₁.outputs := by
      obtain hmem | ⟨-, hnone⟩ := evacuationOutput_mem s₁ w
      · exact hmem
      · exact absurd hnone hnil
    have hnot : s₁.evacuationOutput w s₁.outputs.head? ≠ s₁.fallbackOutput := by
      intro heq
      rw [heq] at hnew
      exact h.housed.fallback (List.mem_of_mem_erase hnew)
    -- the priority list has at most one more entry than before
    have hhigh : ({ d with outputs := listAdd d.outputs o } :
        SwayRoot).workspaceOutputGetHighestAvailable w =
        { s₁.workspaceOutputAddPriority w (s₁.evacuationOutput w s₁.outputs.head?) with
          outputs := s.outputs.erase o ++ [o] }.workspaceOutputGetHighestAvailable w := by
      apply highestAvailable_congr
      · show d.outputs ++ [o] = _
        rw [hd_outputs]
      · rw [hset.label]
        exact (SameSetting.addPriority s₁ w _).label.symm
      · exact hprio
    rw [hhigh, ranksFirst_addPriority (s := s₁) hmem hnew w, hset.fallbackOutput]
    constructor
    · rintro (heq | hfirst)
      · exact absurd (Option.some.inj heq) hnot
      · exact Or.inr hfirst
    · rintro (heq | hfirst)
      · exact absurd heq hnil
      · exact Or.inr hfirst

/-- **All of them**: an output gets back what it had exactly if nothing else was enabled or it is
ranked first. -/
theorem returns_iff (h : Good s) {o : OutId} (ho : o ∈ s.outputs) :
    Returns s o ↔ BroughtBack s o := by
  -- after both, the lists and the pointers agree
  have hgood : ∀ e calls, Good ((s.outputDisable o e).outputEnable o calls) := by
    intro e calls
    obtain ⟨hgood, -, hset, -, -, -⟩ := outputDisable_spec h ho e
    refine (outputEnable_spec hgood ?_ ?_ calls).1
    · rw [hset.outputs]
      exact h.housed.nodup.not_mem_erase
    · rw [hset.fallbackOutput]
      intro heq
      exact h.housed.fallback (heq ▸ ho)
  constructor
  · intro hreturns
    by_cases hnil : s.outputs.erase o = []
    · exact Or.inl hnil
    · right
      intro w hw hholds
      have hmem := hreturns (fun _ => ⟨none, false, []⟩) [] w hw hholds
      rw [(hgood _ _).linked.mem_iff, outputEnable_outputDisable h ho
        ((h.linked.mem_iff o w).1 hw) hholds] at hmem
      exact hmem.resolve_left hnil
  · intro hback e calls w hw hholds
    rw [(hgood e calls).linked.mem_iff, outputEnable_outputDisable h ho
      ((h.linked.mem_iff o w).1 hw) hholds]
    obtain hnil | hfirst := hback
    · exact Or.inl hnil
    · exact Or.inr (hfirst w hw hholds)

theorem Good.kept (h : Good s) : Kept s := by
  intro w hw
  cases hout : (s.ws w).output with
  | none =>
      have hbare := h.linked.bare w hout (Option.some_ne_none w)
      rw [workspaceIsEmpty_of_bare hbare] at hw
      cases hw
  | some o =>
      refine ⟨o, h.output_mem hout, ?_⟩
      intro p
      have hmem : w ∈ s.workspaces p ↔ p = o := by
        rw [h.linked.mem_iff, hout]
        exact ⟨fun heq => (Option.some.inj heq).symm, fun heq => by rw [heq]⟩
      split
      · next hp => exact List.count_eq_one_of_mem (h.linked.nodup p) (hmem.2 hp)
      · next hp => exact List.count_eq_zero.2 fun hin => hp (hmem.1 hin)

end Returns

/-- Nothing is lost: the workspaces that hold windows are kept, and come back to their outputs. -/
structure LosesNothing (s : SwayRoot) : Prop where
  kept : Kept s
  returns : ∀ o ∈ s.outputs, Returns s o

/-- As far as it goes: all workspaces that hold windows are kept, and an output gets back what it
had exactly if it is ranked first. -/
structure LosesNothingRanked (s : SwayRoot) : Prop where
  kept : Kept s
  returns : ∀ o ∈ s.outputs, Returns s o ↔ BroughtBack s o

/-- **Hotplug loses nothing**, in any state that events lead to: no workspace that holds windows is
ever out of the lists, and disabling an output and enabling it again brings its workspaces back if
and only if they rank it first or it is the only one. -/
theorem losesNothing_of_run {s t : SwayRoot} (h : Lib.Run SwayRoot.step Lib.Free s t) (hs : Good s) :
    LosesNothingRanked t := by
  have hgood : Good t := h.invariant (fun _ e hgood _ => hgood.step e) hs
  exact ⟨hgood.kept, fun o ho => returns_iff hgood ho⟩

/-! ### An output that is listed by its name

The workspace `1` is configured for an output by name. It is created while that output is off, goes
there once it is on, and is then moved away by hand.
-/

/-- A laptop with its panel and a monitor. -/
def laptopLabel (o : OutId) : OutputLabel :=
  if o = 1 then ⟨"HDMI-A-1", "Dell Inc. U2720Q 7YW2"⟩
  else if o = 2 then ⟨"eDP-1", "BOE 0x0BCA Unknown"⟩
  else ⟨"FALLBACK", "Unknown Unknown Unknown"⟩

def laptop : SwayRoot := start 0 laptopLabel ⟨[⟨"1", ["HDMI-A-1"]⟩], [], [], false⟩

def laptopEvents : List Event :=
  [.enable 2 [], .windows 0 [7] [] [] fun _ => false, .enable 1 [], .moveToOutput 0 2 none false []]

/-- The laptop loses nothing, as far as it goes. -/
theorem losesNothing_laptop :
    LosesNothingRanked
      ((laptopEvents ++ [Event.disable 2 fun _ => ⟨none, false, []⟩]).foldl step laptop) :=
  losesNothing_of_run (Lib.Run.foldl (by simp [Lib.Allowed, Lib.Free, laptopEvents]))
    (Good.start _ _ _)

/-- The panel is disabled and enabled again, and its workspace stays on the monitor. -/
theorem losesNothing_fails_name : ¬ LosesNothing (laptopEvents.foldl step laptop) := by
  intro h
  have hreturns := h.returns 2 (by decide +kernel) (fun _ => ⟨none, false, []⟩) [] 0
    (by decide +kernel) (by decide +kernel)
  revert hreturns
  decide +kernel

end SwayRoot

end Swirl

import Swirl.Lib.Runs
import Swirl.Commands.Workspace

set_option autoImplicit false

/-! # Every workspace has its output

The lists of the outputs and the workspaces' own pointers agree, a workspace that is in no list
holds nothing, every enabled output shows a workspace, and the fallback output has workspaces only
while no output is enabled. Two relations carry this through the functions: what only takes bare
workspaces away (`Trims`), and a workspace that goes from one list to another.
-/

namespace Swirl

namespace SwayRoot

/-! ## What the edits do -/

section Edits

variable (s : SwayRoot)

theorem modWs_ws (w : WsId) (f : SwayWorkspace → SwayWorkspace) (v : WsId) :
    (s.modWs w f).ws v = if v = w then f (s.ws w) else s.ws v := by
  unfold modWs
  by_cases h : v = w
  · subst h
    simp
  · simp [h]

theorem modWorkspaces_workspaces (o : OutId) (f : List WsId → List WsId) (p : OutId) :
    (s.modWorkspaces o f).workspaces p = if p = o then f (s.workspaces o) else s.workspaces p := by
  unfold modWorkspaces
  by_cases h : p = o
  · subst h
    simp
  · simp [h]

theorem workspaceDetach_ws (w v : WsId) :
    (s.workspaceDetach w).ws v =
      { s.ws v with output := if v = w then none else (s.ws v).output } := by
  unfold workspaceDetach
  by_cases h : v = w
  · subst h
    split
    · rw [modWs_ws, if_pos rfl, if_pos rfl]
      rfl
    · next hnone => rw [if_pos rfl, ← hnone]
  · rw [if_neg h]
    split
    · rw [modWs_ws, if_neg h]
      rfl
    · rfl

theorem outputAddWorkspace_ws (o : OutId) (w v : WsId) :
    (s.outputAddWorkspace o w).ws v =
      { s.ws v with output := if v = w then some o else (s.ws v).output } := by
  unfold outputAddWorkspace
  rw [modWs_ws]
  by_cases h : v = w
  · subst h
    rw [if_pos rfl, if_pos rfl]
    show { (s.workspaceDetach v).ws v with output := some o } = _
    rw [workspaceDetach_ws]
  · rw [if_neg h, if_neg h]
    show (s.workspaceDetach w).ws v = _
    rw [workspaceDetach_ws, if_neg h]

theorem outputSortWorkspaces_perm (o p : OutId) :
    List.Perm ((s.outputSortWorkspaces o).workspaces p) (s.workspaces p) := by
  unfold outputSortWorkspaces
  rw [modWorkspaces_workspaces]
  by_cases h : p = o
  · subst h
    rw [if_pos rfl]
    exact List.perm_insertionSort _ _
  · rw [if_neg h]

end Edits

/-- The settings, and which outputs and workspaces there are, stay. -/
structure SameSetting (s s' : SwayRoot) : Prop where
  outputs : s'.outputs = s.outputs
  fallbackOutput : s'.fallbackOutput = s.fallbackOutput
  label : s'.label = s.label
  config : s'.config = s.config
  nextWs : s'.nextWs = s.nextWs
  isSticky : s'.isSticky = s.isSticky

namespace SameSetting

variable {s s' s'' : SwayRoot}

theorem refl (s : SwayRoot) : SameSetting s s := ⟨rfl, rfl, rfl, rfl, rfl, rfl⟩

theorem trans (h : SameSetting s s') (h' : SameSetting s' s'') : SameSetting s s'' where
  outputs := h'.outputs.trans h.outputs
  fallbackOutput := h'.fallbackOutput.trans h.fallbackOutput
  label := h'.label.trans h.label
  config := h'.config.trans h.config
  nextWs := h'.nextWs.trans h.nextWs
  isSticky := h'.isSticky.trans h.isSticky

theorem detach (s : SwayRoot) (w : WsId) : SameSetting s (s.workspaceDetach w) := by
  unfold workspaceDetach
  split <;> exact ⟨rfl, rfl, rfl, rfl, rfl, rfl⟩

theorem add (s : SwayRoot) (o : OutId) (w : WsId) : SameSetting s (s.outputAddWorkspace o w) :=
  (detach s w).trans ⟨rfl, rfl, rfl, rfl, rfl, rfl⟩

theorem addPriority (s : SwayRoot) (w : WsId) (o : OutId) :
    SameSetting s (s.workspaceOutputAddPriority w o) := by
  unfold workspaceOutputAddPriority
  split <;> exact ⟨rfl, rfl, rfl, rfl, rfl, rfl⟩

theorem raisePriority (s : SwayRoot) (w : WsId) (o p : OutId) :
    SameSetting s (s.workspaceOutputRaisePriority w o p) := by
  unfold workspaceOutputRaisePriority
  dsimp only
  split_ifs <;> exact ⟨rfl, rfl, rfl, rfl, rfl, rfl⟩

/-- The output a name stands for depends on the enabled outputs and their labels only. -/
theorem outputByNameOrId (h : SameSetting s s') (name : String) :
    s'.outputByNameOrId name = s.outputByNameOrId name := by
  unfold SwayRoot.outputByNameOrId outputMatchNameOrId
  rw [h.outputs, h.label]

end SameSetting

/-! ## Lists and pointers agree -/

/-- Lists and pointers agree, and a workspace in no list holds nothing, but for one that is on its
way from one list to another. -/
structure Linked (s : SwayRoot) (held : Option WsId) : Prop where
  mem_iff : ∀ o w, w ∈ s.workspaces o ↔ (s.ws w).output = some o
  nodup : ∀ o, (s.workspaces o).Nodup
  bare : ∀ w, (s.ws w).output = none → some w ≠ held → s.workspaceBare w = true
  fresh : ∀ w, s.nextWs ≤ w → (s.ws w).output = none ∧ some w ≠ held

section Linked

variable {s : SwayRoot} {held : Option WsId}

theorem Linked.detach_workspaces (h : Linked s held) (w : WsId) (p : OutId) :
    (s.workspaceDetach w).workspaces p = (s.workspaces p).erase w := by
  have hother : (s.ws w).output ≠ some p → s.workspaces p = (s.workspaces p).erase w := by
    intro hne
    rw [List.erase_of_not_mem]
    intro hmem
    exact hne ((h.mem_iff p w).1 hmem)
  unfold workspaceDetach
  split
  · next o ho =>
    show (s.modWorkspaces o fun l => l.erase w).workspaces p = _
    rw [modWorkspaces_workspaces]
    by_cases hp : p = o
    · rw [if_pos hp, hp]
    · rw [if_neg hp]
      apply hother
      rw [ho]
      intro heq
      exact hp (Option.some.inj heq).symm
  · next hnone =>
    apply hother
    rw [hnone]
    intro heq
    cases heq

theorem Linked.add_workspaces (h : Linked s held) (o : OutId) (w : WsId) (p : OutId) :
    (s.outputAddWorkspace o w).workspaces p =
      if p = o then (s.workspaces o).erase w ++ [w] else (s.workspaces p).erase w := by
  unfold outputAddWorkspace
  show ((s.workspaceDetach w).modWorkspaces o fun l => listAdd l w).workspaces p = _
  rw [modWorkspaces_workspaces, h.detach_workspaces, h.detach_workspaces]
  rfl

theorem workspaceBare_congr {s s' : SwayRoot} {w : WsId} (ht : (s'.ws w).tiling = (s.ws w).tiling)
    (hf : (s'.ws w).floating = (s.ws w).floating) (hm : (s'.ws w).minimized = (s.ws w).minimized) :
    s'.workspaceBare w = s.workspaceBare w := by
  unfold workspaceBare
  rw [ht, hf, hm]

theorem Linked.detach (h : Linked s none) (w : WsId) (hw : w < s.nextWs) :
    Linked (s.workspaceDetach w) (some w) where
  mem_iff o v := by
    rw [h.detach_workspaces, workspaceDetach_ws, (h.nodup o).mem_erase_iff, h.mem_iff]
    dsimp only
    by_cases hv : v = w
    · simp [hv]
    · simp [hv]
  nodup o := by
    rw [h.detach_workspaces]
    exact (h.nodup o).erase w
  bare v hv hne := by
    have hvw : v ≠ w := fun heq => hne (by rw [heq])
    rw [workspaceDetach_ws] at hv
    rw [if_neg hvw] at hv
    rw [workspaceBare_congr (s := s) (by rw [workspaceDetach_ws]) (by rw [workspaceDetach_ws])
      (by rw [workspaceDetach_ws])]
    exact h.bare v hv (Option.some_ne_none v)
  fresh v hv := by
    rw [(SameSetting.detach s w).nextWs] at hv
    have hvw : v ≠ w := fun heq => absurd hw (Nat.not_lt.2 (heq ▸ hv))
    rw [workspaceDetach_ws, if_neg hvw]
    refine ⟨(h.fresh v hv).1, ?_⟩
    intro heq
    exact hvw (Option.some.inj heq)

/-- A workspace enters a list: the one on its way, or one from another list. -/
theorem Linked.add (h : Linked s held) (o : OutId) (w : WsId) (hw : w < s.nextWs)
    (hheld : held = some w ∨ held = none) : Linked (s.outputAddWorkspace o w) none where
  mem_iff p v := by
    rw [h.add_workspaces, outputAddWorkspace_ws]
    dsimp only
    by_cases hv : v = w
    · subst hv
      rw [if_pos rfl]
      by_cases hp : p = o
      · subst hp
        simp
      · rw [if_neg hp, (h.nodup p).mem_erase_iff]
        simp [Ne.symm hp]
    · rw [if_neg hv, ← h.mem_iff]
      by_cases hp : p = o
      · subst hp
        simp [hv, (h.nodup p).mem_erase_iff]
      · simp [hp, hv, (h.nodup p).mem_erase_iff]
  nodup p := by
    rw [h.add_workspaces]
    split
    · rw [List.nodup_append]
      refine ⟨(h.nodup o).erase w, List.nodup_singleton w, ?_⟩
      intro a ha b hb heq
      obtain rfl := List.mem_singleton.1 hb
      exact ((h.nodup o).mem_erase_iff.1 ha).1 heq
    · exact (h.nodup p).erase w
  bare v hv _ := by
    rw [outputAddWorkspace_ws] at hv
    dsimp only at hv
    split at hv
    · cases hv
    · next hvw =>
      rw [workspaceBare_congr (s := s) (by rw [outputAddWorkspace_ws])
        (by rw [outputAddWorkspace_ws]) (by rw [outputAddWorkspace_ws])]
      apply h.bare v hv
      intro heq
      obtain hheld | hheld := hheld
      · exact hvw (Option.some.inj (heq.trans hheld))
      · rw [hheld] at heq
        cases heq
  fresh v hv := by
    rw [(SameSetting.add s o w).nextWs] at hv
    have hvw : v ≠ w := fun heq => absurd hw (Nat.not_lt.2 (heq ▸ hv))
    rw [outputAddWorkspace_ws, if_neg hvw]
    exact ⟨(h.fresh v hv).1, Option.some_ne_none v⟩

/-- The lists are sorted, and workspaces change in what nobody looks at here. -/
theorem Linked.congr (h : Linked s held) {s' : SwayRoot}
    (hlists : ∀ o, List.Perm (s'.workspaces o) (s.workspaces o))
    (hout : ∀ w, (s'.ws w).output = (s.ws w).output)
    (hbare : ∀ w, (s.ws w).output = none → s'.workspaceBare w = s.workspaceBare w)
    (hnext : s'.nextWs = s.nextWs) : Linked s' held where
  mem_iff o w := by rw [(hlists o).mem_iff, hout, h.mem_iff]
  nodup o := (hlists o).nodup_iff.2 (h.nodup o)
  bare w hw hne := by
    rw [hout] at hw
    rw [hbare w hw]
    exact h.bare w hw hne
  fresh w hw := by
    rw [hnext] at hw
    rw [hout]
    exact h.fresh w hw

theorem Linked.sort (h : Linked s held) (o : OutId) : Linked (s.outputSortWorkspaces o) held :=
  h.congr (s.outputSortWorkspaces_perm o) (fun _ => rfl) (fun _ _ => rfl) rfl

/-- A workspace gets another name or priority list. -/
theorem Linked.modWs (h : Linked s held) (w : WsId) {f : SwayWorkspace → SwayWorkspace}
    (hout : ∀ k, (f k).output = k.output) (ht : ∀ k, (f k).tiling = k.tiling)
    (hf : ∀ k, (f k).floating = k.floating) (hm : ∀ k, (f k).minimized = k.minimized) :
    Linked (s.modWs w f) held := by
  refine h.congr (fun _ => List.Perm.refl _) ?_ ?_ rfl
  · intro v
    rw [modWs_ws]
    split
    · next hv => rw [hout, hv]
    · rfl
  · intro v _
    apply workspaceBare_congr <;> rw [modWs_ws] <;> split
    · next hv => rw [ht, hv]
    · rfl
    · next hv => rw [hf, hv]
    · rfl
    · next hv => rw [hm, hv]
    · rfl

theorem Linked.addPriority (h : Linked s held) (w : WsId) (o : OutId) :
    Linked (s.workspaceOutputAddPriority w o) held := by
  unfold workspaceOutputAddPriority
  split
  · exact h.modWs w (fun _ => rfl) (fun _ => rfl) (fun _ => rfl) (fun _ => rfl)
  · exact h

theorem Linked.raisePriority (h : Linked s held) (w : WsId) (o p : OutId) :
    Linked (s.workspaceOutputRaisePriority w o p) held := by
  unfold workspaceOutputRaisePriority
  dsimp only
  split_ifs
  · exact h
  · exact h.modWs w (fun _ => rfl) (fun _ => rfl) (fun _ => rfl) (fun _ => rfl)
  · apply h.modWs w
    all_goals
      intro k
      split <;> rfl
  · exact h

/-- A workspace that arrives bare is on its way no more. -/
theorem Linked.release {w : WsId} (h : Linked s (some w)) (hw : s.workspaceBare w = true) :
    Linked s none where
  mem_iff := h.mem_iff
  nodup := h.nodup
  bare v hv _ := by
    by_cases hvw : v = w
    · rw [hvw]
      exact hw
    · exact h.bare v hv fun heq => hvw (Option.some.inj heq)
  fresh v hv := ⟨(h.fresh v hv).1, Option.some_ne_none v⟩

theorem Linked.lt_nextWs (h : Linked s held) {w : WsId} {o : OutId}
    (hw : (s.ws w).output = some o) : w < s.nextWs := by
  by_contra hge
  have hnone := (h.fresh w (Nat.le_of_not_lt hge)).1
  rw [hw] at hnone
  cases hnone

end Linked

/-! ## Bare workspaces go -/

theorem workspaceIsEmpty_congr {s s' : SwayRoot} {w : WsId}
    (ht : (s'.ws w).tiling = (s.ws w).tiling) (hf : (s'.ws w).floating = (s.ws w).floating)
    (hm : (s'.ws w).minimized = (s.ws w).minimized) (hs : s'.isSticky = s.isSticky) :
    s'.workspaceIsEmpty w = s.workspaceIsEmpty w := by
  unfold workspaceIsEmpty
  rw [ht, hf, hm, hs]

theorem workspaceIsEmpty_of_bare {s : SwayRoot} {w : WsId} (h : s.workspaceBare w = true) :
    s.workspaceIsEmpty w = true := by
  simp only [workspaceBare, Bool.and_eq_true, List.isEmpty_iff] at h
  simp [workspaceIsEmpty, h]

/-- Names and priorities stay, a workspace that holds windows stays where it is, and an output that
has workspaces keeps one. -/
structure Trims (s s' : SwayRoot) : Prop where
  setting : SameSetting s s'
  name : ∀ w, (s'.ws w).name = (s.ws w).name
  priority : ∀ w, (s'.ws w).priority = (s.ws w).priority
  sublist : ∀ o, (s'.workspaces o).Sublist (s.workspaces o)
  nonempty : ∀ o, s.workspaces o ≠ [] → s'.workspaces o ≠ []
  holds : ∀ w, s.workspaceIsEmpty w = false →
    s'.workspaceIsEmpty w = false ∧ (s'.ws w).output = (s.ws w).output

namespace Trims

variable {s s' s'' : SwayRoot}

theorem refl (s : SwayRoot) : Trims s s :=
  ⟨SameSetting.refl s, fun _ => rfl, fun _ => rfl, fun _ => List.Sublist.refl _, fun _ h => h,
    fun _ h => ⟨h, rfl⟩⟩

theorem trans (h : Trims s s') (h' : Trims s' s'') : Trims s s'' where
  setting := h.setting.trans h'.setting
  name w := (h'.name w).trans (h.name w)
  priority w := (h'.priority w).trans (h.priority w)
  sublist o := (h'.sublist o).trans (h.sublist o)
  nonempty o ho := h'.nonempty o (h.nonempty o ho)
  holds w hw := by
    obtain ⟨hw', hout⟩ := h.holds w hw
    obtain ⟨hw'', hout'⟩ := h'.holds w hw'
    exact ⟨hw'', hout'.trans hout⟩

end Trims

section Destroy

variable {s : SwayRoot}

/-- **A bare workspace that is not alone on its output can go.** -/
theorem endWorkspace_spec (h : Linked s none) {w : WsId} (hbare : s.workspaceBare w = true)
    (halone : s.workspaceAlone w = false) :
    Trims s (s.endWorkspace w) ∧ Linked (s.endWorkspace w) none := by
  -- the contexts are not looked at
  have hctx : ∀ t : SwayRoot, Linked t none → t.workspaceBare w = true →
      t.workspaceAlone w = false →
      Trims t (t.workspaceDetach w) ∧ Linked (t.workspaceDetach w) none := by
    intro t h hbare halone
    have hbare' : (t.workspaceDetach w).workspaceBare w = true := by
      rw [workspaceBare_congr (s := t) (by rw [workspaceDetach_ws]) (by rw [workspaceDetach_ws])
        (by rw [workspaceDetach_ws])]
      exact hbare
    constructor
    · refine ⟨SameSetting.detach t w, ?_, ?_, ?_, ?_, ?_⟩
      · intro v
        rw [workspaceDetach_ws]
      · intro v
        rw [workspaceDetach_ws]
      · intro o
        rw [h.detach_workspaces]
        exact List.erase_sublist
      · intro o ho
        rw [h.detach_workspaces]
        intro hnil
        by_cases hmem : w ∈ t.workspaces o
        · -- then the output had this workspace only
          have hlen := List.length_erase_of_mem hmem
          rw [hnil] at hlen
          obtain ⟨v, hv⟩ : ∃ v, t.workspaces o = [v] := by
            apply List.length_eq_one_iff.1
            have hpos := List.length_pos_of_mem hmem
            simp only [List.length_nil] at hlen
            omega
          rw [hv] at hmem
          obtain rfl := List.mem_singleton.1 hmem
          unfold workspaceAlone at halone
          rw [(h.mem_iff o w).1 (by rw [hv]; exact List.mem_singleton_self w)] at halone
          simp [hv] at halone
        · rw [List.erase_of_not_mem hmem] at hnil
          exact ho hnil
      · intro v hv
        have hvw : v ≠ w := by
          intro heq
          rw [heq, workspaceIsEmpty_of_bare hbare] at hv
          cases hv
        rw [workspaceIsEmpty_congr (s := t) (by rw [workspaceDetach_ws])
          (by rw [workspaceDetach_ws]) (by rw [workspaceDetach_ws]) (SameSetting.detach t w).isSticky]
        refine ⟨hv, ?_⟩
        rw [workspaceDetach_ws, if_neg hvw]
    · cases hout : (t.ws w).output with
      | none =>
          have hself : t.workspaceDetach w = t := by
            unfold workspaceDetach
            rw [hout]
          rw [hself]
          exact h
      | some o => exact (h.detach w (h.lt_nextWs hout)).release hbare'
  obtain ⟨htrim, hlinked⟩ := hctx
    { s with contexts := fun k => (s.contexts k).map (s.ctxHandleWorkspaceDestroy w) }
    ⟨h.mem_iff, h.nodup, h.bare, h.fresh⟩ hbare halone
  obtain ⟨houtputs, hfallback, hlabel, hconfig, hnext, hsticky⟩ := htrim.setting
  exact ⟨⟨⟨houtputs, hfallback, hlabel, hconfig, hnext, hsticky⟩, htrim.name, htrim.priority,
    htrim.sublist, htrim.nonempty, htrim.holds⟩, hlinked⟩

/-- Sticky containers follow the focus. -/
theorem follow_spec (h : Linked s none) {last new : WsId} (hne : last ≠ new)
    (hnew : (s.ws new).output ≠ none) :
    let s' := (s.modWs last fun k =>
      { k with floating := k.floating.filter fun c => !s.isSticky c }).modWs new fun k =>
      { k with floating := k.floating ++ (s.ws last).floating.filter s.isSticky }
    Trims s s' ∧ Linked s' none := by
  intro s'
  have hws : ∀ v, s'.ws v = { s.ws v with
      floating :=
        if v = new then (s.ws v).floating ++ (s.ws last).floating.filter s.isSticky
        else if v = last then (s.ws v).floating.filter fun c => !s.isSticky c
        else (s.ws v).floating } := by
    intro v
    show (((s.modWs last _).modWs new _).ws v) = _
    rw [modWs_ws, modWs_ws, modWs_ws, if_neg (Ne.symm hne)]
    by_cases hv : v = new
    · rw [if_pos hv, if_pos hv, hv]
    · rw [if_neg hv, if_neg hv]
      by_cases hl : v = last
      · rw [if_pos hl, if_pos hl, hl]
      · rw [if_neg hl, if_neg hl]
  have hempty : ∀ v, s'.workspaceIsEmpty v = s.workspaceIsEmpty v := by
    intro v
    have hall : (s'.ws v).floating.all s.isSticky = (s.ws v).floating.all s.isSticky := by
      rw [hws]
      dsimp only
      split_ifs
      · rw [List.all_append, List.all_filter]
        simp
      · -- the sticky ones are gone, and they did not count
        rw [List.all_filter, Bool.eq_iff_iff, List.all_eq_true, List.all_eq_true]
        apply forall_congr'
        intro c
        simp
      · rfl
    unfold workspaceIsEmpty
    show (_ && (s'.ws v).floating.all s.isSticky && _) = _
    rw [hall, hws]
  constructor
  · refine ⟨⟨rfl, rfl, rfl, rfl, rfl, rfl⟩, ?_, ?_, fun _ => List.Sublist.refl _, fun _ h => h, ?_⟩
    · intro v
      rw [hws]
    · intro v
      rw [hws]
    · intro v hv
      rw [hempty, hws]
      exact ⟨hv, rfl⟩
  · refine h.congr (fun _ => List.Perm.refl _) ?_ ?_ rfl
    · intro v
      rw [hws]
    · intro v hv
      have hvnew : v ≠ new := fun heq => hnew (heq ▸ hv)
      have hvbare := h.bare v hv (Option.some_ne_none v)
      simp only [workspaceBare, Bool.and_eq_true, List.isEmpty_iff] at hvbare
      rw [show s.workspaceBare v = true from h.bare v hv (Option.some_ne_none v)]
      simp [workspaceBare, hws, hvnew, hvbare]

theorem focusCall_spec (h : Linked s none) (c : FocusCall) :
    Trims s (focusCall s c) ∧ Linked (focusCall s c) none := by
  cases c with
  | focus w prev =>
      exact ⟨⟨⟨rfl, rfl, rfl, rfl, rfl, rfl⟩, fun _ => rfl, fun _ => rfl,
        fun _ => List.Sublist.refl _, fun _ h => h, fun _ h => ⟨h, rfl⟩⟩,
        ⟨h.mem_iff, h.nodup, h.bare, h.fresh⟩⟩
  | follow last new =>
      by_cases hskip : last = new ∨ (s.ws new).output = none
      · unfold focusCall
        dsimp only
        rw [if_pos hskip]
        exact ⟨Trims.refl s, h⟩
      · unfold focusCall
        dsimp only
        rw [if_neg hskip]
        push Not at hskip
        exact follow_spec h hskip.1 hskip.2
  | vanish w =>
      unfold focusCall
      dsimp only
      split
      · next hw =>
        obtain ⟨hbare, halone⟩ := Bool.and_eq_true_iff.1 hw
        exact endWorkspace_spec h hbare (by simpa using halone)
      · exact ⟨Trims.refl s, h⟩

theorem focusCalls_spec (h : Linked s none) (calls : List FocusCall) :
    Trims s (s.focusCalls calls) ∧ Linked (s.focusCalls calls) none := by
  refine Lib.foldl_invariant (I := fun t => Trims s t ∧ Linked t none) focusCall calls ?_
    ⟨Trims.refl s, h⟩
  intro t c _ ht
  obtain ⟨htrim, hlinked⟩ := focusCall_spec ht.2 c
  exact ⟨ht.1.trans htrim, hlinked⟩

theorem workspaceConsiderDestroy_spec (h : Linked s none) (w : WsId) (seen : Bool)
    (calls : List FocusCall) :
    Trims s (s.workspaceConsiderDestroy w seen calls) ∧
      Linked (s.workspaceConsiderDestroy w seen calls) none := by
  unfold workspaceConsiderDestroy
  split
  · exact ⟨Trims.refl s, h⟩
  · next hw =>
    simp only [Bool.or_eq_true, Bool.not_eq_true', not_or, Bool.not_eq_true,
      Bool.not_eq_false] at hw
    obtain ⟨htrim, hlinked⟩ := endWorkspace_spec h hw.1.1 hw.1.2
    obtain ⟨htrim', hlinked'⟩ := focusCalls_spec hlinked calls
    exact ⟨htrim.trans htrim', hlinked'⟩

end Destroy

/-! ## Which outputs have workspaces -/

/-- Every enabled output has a workspace, and the fallback output has none while another output is
enabled. `spare` is an output that is being enabled or disabled. -/
structure Housed (s : SwayRoot) (spare : Option OutId) : Prop where
  nodup : s.outputs.Nodup
  fallback : s.fallbackOutput ∉ s.outputs
  fallback_ne_spare : some s.fallbackOutput ≠ spare
  known : ∀ o, s.workspaces o ≠ [] → o ∈ s.outputs ∨ o = s.fallbackOutput ∨ some o = spare
  shown : ∀ o ∈ s.outputs, some o ≠ spare → s.workspaces o ≠ []
  saved : ∀ o ∈ s.outputs, some o ≠ spare → s.workspaces s.fallbackOutput = []

section Housed

variable {s s' : SwayRoot} {x : Option OutId}

/-- The lists of the outputs are as they were, as far as having workspaces goes. -/
theorem Housed.congr (h : Housed s x) (houtputs : s'.outputs = s.outputs)
    (hfallback : s'.fallbackOutput = s.fallbackOutput)
    (hnil : ∀ o, s'.workspaces o = [] ↔ s.workspaces o = []) : Housed s' x where
  nodup := houtputs ▸ h.nodup
  fallback := by rw [houtputs, hfallback]; exact h.fallback
  fallback_ne_spare := by rw [hfallback]; exact h.fallback_ne_spare
  known o ho := by
    rw [houtputs, hfallback]
    exact h.known o fun heq => ho ((hnil o).2 heq)
  shown o ho hne := by
    rw [houtputs] at ho
    intro heq
    exact h.shown o ho hne ((hnil o).1 heq)
  saved o ho hne := by
    rw [houtputs] at ho
    rw [hfallback]
    exact (hnil _).2 (h.saved o ho hne)

theorem Housed.trims (h : Housed s x) (ht : Trims s s') : Housed s' x := by
  refine h.congr ht.setting.outputs ht.setting.fallbackOutput ?_
  intro o
  constructor
  · intro heq
    by_contra hne
    exact ht.nonempty o hne heq
  · intro heq
    have hsub := ht.sublist o
    rw [heq] at hsub
    exact List.sublist_nil.1 hsub

theorem Housed.sort (h : Housed s x) (o : OutId) : Housed (s.outputSortWorkspaces o) x := by
  refine h.congr rfl rfl ?_
  intro p
  have hperm := s.outputSortWorkspaces_perm o p
  constructor
  · intro heq
    rw [heq] at hperm
    exact hperm.symm.eq_nil
  · intro heq
    rw [heq] at hperm
    exact hperm.eq_nil

/-- A workspace that is in no list enters that of an output that may have workspaces. -/
theorem Housed.add (h : Housed s x) {held : Option WsId} (hlinked : Linked s held) {o : OutId}
    {w : WsId} (hw : (s.ws w).output = none)
    (ho : o ∈ s.outputs ∨ some o = x ∨ o = s.fallbackOutput ∧ ∀ p ∈ s.outputs, some p = x) :
    Housed (s.outputAddWorkspace o w) x := by
  have hlists : ∀ p, (s.outputAddWorkspace o w).workspaces p =
      if p = o then s.workspaces o ++ [w] else s.workspaces p := by
    intro p
    have hnot : ∀ q, w ∉ s.workspaces q := by
      intro q hq
      rw [hlinked.mem_iff, hw] at hq
      cases hq
    rw [hlinked.add_workspaces, List.erase_of_not_mem (hnot o), List.erase_of_not_mem (hnot p)]
  have hsetting := SameSetting.add s o w
  constructor
  · rw [hsetting.outputs]
    exact h.nodup
  · rw [hsetting.outputs, hsetting.fallbackOutput]
    exact h.fallback
  · rw [hsetting.fallbackOutput]
    exact h.fallback_ne_spare
  · intro p hp
    rw [hsetting.outputs, hsetting.fallbackOutput]
    rw [hlists] at hp
    split at hp
    · next hpo =>
      rw [hpo]
      obtain ho | ho | ⟨ho, -⟩ := ho
      · exact Or.inl ho
      · exact Or.inr (Or.inr ho)
      · exact Or.inr (Or.inl ho)
    · exact h.known p hp
  · intro p hp hne
    rw [hsetting.outputs] at hp
    rw [hlists]
    split
    · simp
    · exact h.shown p hp hne
  · intro p hp hne
    rw [hsetting.outputs] at hp
    rw [hsetting.fallbackOutput, hlists, if_neg]
    · exact h.saved p hp hne
    · intro heq
      obtain ho | ho | ⟨-, ho⟩ := ho
      · exact h.fallback (heq ▸ ho)
      · exact h.fallback_ne_spare (heq ▸ ho)
      · exact hne (ho p hp)

end Housed

/-- **The invariant**: lists and pointers agree, and the workspaces are where they may be. -/
structure Good (s : SwayRoot) : Prop where
  linked : Linked s none
  housed : Housed s none

end SwayRoot

end Swirl

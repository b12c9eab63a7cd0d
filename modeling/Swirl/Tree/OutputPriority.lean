import Swirl.Lib.Ranking
import Swirl.Tree.HotplugSafety

set_option autoImplicit false

/-! # How a workspace ranks outputs

The priority list of a workspace has outputs by their name or their identifier, and an output is
ranked by its first entry. `workspace_output_get_priority` is meant to return the index of that
entry. It does unless the list has the output by its name alone: the search for the identifier then
returns `-1`, and that is less than the index of the name.

`workspace_move_to_output` raises the new output above the old one. What it puts in front is an
entry of an enabled output, so the first entry that stands for an enabled output is never further
down than before; but an old output that `workspace_output_get_priority` overlooks stays above.
-/

namespace Swirl

open Lib

/-- An entry of a priority list is the name or the identifier of an output. -/
def OutputLabel.has (label : OutputLabel) (entry : String) : Bool :=
  decide (entry = label.name) || decide (entry = label.identifier)

namespace SwayRoot

variable (s : SwayRoot) (w : WsId)

/-- The rank of an output: the least index of an entry that is its name or its identifier, and `-1`
if there is none. -/
def outputRank (o : OutId) : Int :=
  match (s.ws w).priority.findIdx? (s.label o).has with
  | some index => index
  | none => -1

/-- The list has an output. -/
def Lists (o : OutId) : Prop :=
  (s.label o).name ∈ (s.ws w).priority ∨ (s.label o).identifier ∈ (s.ws w).priority

/-- The list has an output by its name alone. -/
def ListedByName (o : OutId) : Prop :=
  (s.label o).name ∈ (s.ws w).priority ∧ (s.label o).identifier ∉ (s.ws w).priority

instance (o : OutId) : Decidable (s.ListedByName w o) := inferInstanceAs (Decidable (_ ∧ _))

/-- The list ranks an output above another one. -/
def RanksAbove (o p : OutId) : Prop :=
  Outranks (s.ws w).priority (s.label o).has (s.label p).has

instance (o p : OutId) : Decidable (s.RanksAbove w o p) :=
  inferInstanceAs (Decidable (Outranks _ _ _))

/-- The first entry that stands for an enabled output. -/
def availableIdx : Nat := (s.ws w).priority.findIdx fun entry => (s.outputByNameOrId entry).isSome

/-- Enabled outputs have no name or identifier in common. -/
def DistinctLabels : Prop :=
  ∀ o ∈ s.outputs, ∀ p ∈ s.outputs, o ≠ p → ∀ entry, (s.label o).has entry = true →
    (s.label p).has entry = false

/-! ## Reading a priority -/

section GetPriority

variable {s w} {o : OutId}

theorem has_iff {label : OutputLabel} {entry : String} :
    label.has entry = true ↔ entry = label.name ∨ entry = label.identifier := by
  simp [OutputLabel.has]

theorem findIdx_has (l : List String) (label : OutputLabel) :
    l.findIdx label.has = min (l.idxOf label.name) (l.idxOf label.identifier) := by
  have hbeq : ∀ a : String, l.findIdx (fun entry => decide (entry = a)) = l.idxOf a := by
    intro a
    rfl
  rw [← hbeq, ← hbeq]
  exact findIdx_or _ _ l

/-- A listed output has a first entry. -/
theorem findIdx_has_lt (h : s.Lists w o) :
    (s.ws w).priority.findIdx (s.label o).has < (s.ws w).priority.length := by
  rw [List.findIdx_lt_length]
  obtain h | h := h
  · exact ⟨_, h, has_iff.2 (Or.inl rfl)⟩
  · exact ⟨_, h, has_iff.2 (Or.inr rfl)⟩

theorem outputRank_of_listed (h : s.Lists w o) :
    s.outputRank w o = ((s.ws w).priority.findIdx (s.label o).has : Int) := by
  unfold outputRank
  rw [List.findIdx?_eq_some_iff_findIdx_eq.2 ⟨findIdx_has_lt h, rfl⟩]

theorem outputRank_of_unlisted (h : ¬ s.Lists w o) : s.outputRank w o = -1 := by
  have hnone : (s.ws w).priority.findIdx? (s.label o).has = none := by
    rw [List.findIdx?_eq_none_iff]
    intro entry hentry
    rw [Bool.eq_false_iff, Ne, has_iff]
    rintro (rfl | rfl)
    · exact h (Or.inl hentry)
    · exact h (Or.inr hentry)
  unfold outputRank
  rw [hnone]

/-- **`workspace_output_get_priority`** overlooks the outputs that are listed by name alone. -/
theorem workspaceOutputGetPriority_eq :
    s.workspaceOutputGetPriority w o = if s.ListedByName w o then -1 else s.outputRank w o := by
  unfold workspaceOutputGetPriority
  dsimp only
  by_cases hid : (s.label o).identifier ∈ (s.ws w).priority
  · have hboth : ¬ s.ListedByName w o := fun h => h.2 hid
    rw [if_neg hboth, outputRank_of_listed (Or.inr hid), findIdx_has, listFind_of_mem hid]
    by_cases hname : (s.label o).name ∈ (s.ws w).priority
    · rw [listFind_of_mem hname]
      split <;> omega
    · -- then the name is searched for in vain
      have hlen := List.idxOf_lt_length_iff.2 hid
      have hend := List.idxOf_eq_length hname
      rw [listFind_of_not_mem hname, if_pos (Or.inl (by decide))]
      omega
  · rw [listFind_of_not_mem hid]
    by_cases hname : (s.label o).name ∈ (s.ws w).priority
    · have halone : s.ListedByName w o := ⟨hname, hid⟩
      rw [if_pos halone, listFind_of_mem hname, if_pos (Or.inr (by omega))]
    · have hnone : ¬ s.Lists w o := not_or.2 ⟨hname, hid⟩
      have halone : ¬ s.ListedByName w o := fun h => hname h.1
      rw [if_neg halone, outputRank_of_unlisted hnone, listFind_of_not_mem hname,
        if_pos (Or.inl (by decide))]

theorem workspaceOutputGetPriority_eq_iff :
    s.workspaceOutputGetPriority w o = s.outputRank w o ↔ ¬ s.ListedByName w o := by
  rw [workspaceOutputGetPriority_eq]
  constructor
  · intro heq hlisted
    rw [if_pos hlisted, outputRank_of_listed (Or.inl hlisted.1)] at heq
    omega
  · intro hlisted
    rw [if_neg hlisted]

/-- A priority that is not negative is the rank. -/
theorem getPriority_nonneg (h : 0 ≤ s.workspaceOutputGetPriority w o) :
    s.workspaceOutputGetPriority w o = ((s.ws w).priority.findIdx (s.label o).has : Int) ∧
      (s.ws w).priority.findIdx (s.label o).has < (s.ws w).priority.length := by
  rw [workspaceOutputGetPriority_eq] at h ⊢
  split at h
  · omega
  · next hlisted =>
    rw [if_neg hlisted]
    by_cases hin : s.Lists w o
    · exact ⟨outputRank_of_listed hin, findIdx_has_lt hin⟩
    · rw [outputRank_of_unlisted hin] at h
      omega

end GetPriority

/-! ## Raising a priority -/

section RaisePriority

variable {s w} {old o : OutId}

theorem modWs_priority (f : SwayWorkspace → SwayWorkspace) :
    ((s.modWs w f).ws w).priority = (f (s.ws w)).priority := by
  rw [modWs_ws, if_pos rfl]

/-- The list stays, if the old output is overlooked or the new one is above it; or an entry of the
new one is promoted to the place of the old one. -/
theorem raisePriority_cases (hother : ∀ entry, (s.label o).has entry = true →
    (s.label old).has entry = false) :
    (s.workspaceOutputRaisePriority w old o = s ∧
        (s.workspaceOutputGetPriority w old < 0 ∨ s.RanksAbove w o old)) ∨
      (0 ≤ s.workspaceOutputGetPriority w old ∧ ∃ entry, (s.label o).has entry = true ∧
        Promotes (s.ws w).priority ((s.workspaceOutputRaisePriority w old o).ws w).priority entry
          ((s.ws w).priority.findIdx (s.label old).has)) := by
  by_cases hold : s.workspaceOutputGetPriority w old < 0
  · left
    refine ⟨?_, Or.inl hold⟩
    unfold workspaceOutputRaisePriority
    exact if_pos hold
  obtain ⟨holdidx, holdlt⟩ := getPriority_nonneg (Int.not_lt.1 hold)
  have hraise : s.workspaceOutputRaisePriority w old o =
      if s.workspaceOutputGetPriority w o < 0 then _ else if _ then _ else s := if_neg hold
  by_cases hnew : s.workspaceOutputGetPriority w o < 0
  · -- the identifier is inserted
    right
    refine ⟨Int.not_lt.1 hold, (s.label o).identifier, has_iff.2 (Or.inr rfl), ?_⟩
    rw [hraise, if_pos hnew, modWs_priority, holdidx,
      listInsert_of_ok ⟨Int.natCast_nonneg _, by omega⟩, Int.toNat_natCast]
    exact promotes_insertIdx holdlt.le
  obtain ⟨hnewidx, hnewlt⟩ := getPriority_nonneg (Int.not_lt.1 hnew)
  have hentry := List.findIdx_getElem (w := hnewlt)
  have hget : (s.ws w).priority[(s.ws w).priority.findIdx (s.label o).has]? =
      some (s.ws w).priority[(s.ws w).priority.findIdx (s.label o).has] :=
    List.getElem?_eq_getElem hnewlt
  by_cases hlt : s.workspaceOutputGetPriority w old < s.workspaceOutputGetPriority w o
  · -- the first entry of the new output moves up
    right
    refine ⟨Int.not_lt.1 hold, _, hentry, ?_⟩
    rw [hraise, if_neg hnew, if_pos hlt, modWs_priority]
    rw [holdidx, hnewidx] at hlt ⊢
    rw [Int.toNat_natCast, hget]
    dsimp only
    have hdel : listDel (s.ws w).priority
        ((s.ws w).priority.findIdx (s.label o).has : Int) =
        (s.ws w).priority.eraseIdx ((s.ws w).priority.findIdx (s.label o).has) := by
      rw [listDel, if_pos (Int.natCast_nonneg _), Int.toNat_natCast]
    have hok : InsertOk (listDel (s.ws w).priority
        ((s.ws w).priority.findIdx (s.label o).has : Int))
        ((s.ws w).priority.findIdx (s.label old).has : Int) := by
      refine ⟨Int.natCast_nonneg _, ?_⟩
      rw [hdel, List.length_eraseIdx_of_lt hnewlt]
      omega
    rw [listInsert_of_ok hok, hdel, Int.toNat_natCast]
    exact promotes_move (by omega) hget
  · left
    refine ⟨?_, Or.inr ?_⟩
    · rw [hraise, if_neg hnew, if_neg hlt]
    · -- no entry stands for both outputs
      have hne : (s.ws w).priority.findIdx (s.label o).has ≠
          (s.ws w).priority.findIdx (s.label old).has := by
        intro heq
        have hboth := List.findIdx_getElem (w := holdlt)
        simp only [← heq] at hboth
        rw [hother _ hentry] at hboth
        cases hboth
      show (s.ws w).priority.findIdx _ < (s.ws w).priority.findIdx _
      omega

theorem getPriority_neg_iff (hlisted : s.Lists w o) :
    s.workspaceOutputGetPriority w o < 0 ↔ s.ListedByName w o := by
  rw [workspaceOutputGetPriority_eq, outputRank_of_listed hlisted]
  split
  · next h => simp [h]
  · next h =>
    simp only [h, iff_false]
    omega

/-- **Raising** puts the new output above the old one, unless the old one is overlooked. -/
theorem raisePriority_ranksAbove_iff (hother : ∀ entry, (s.label o).has entry = true →
      (s.label old).has entry = false) (hlisted : s.Lists w old) :
    (s.workspaceOutputRaisePriority w old o).RanksAbove w o old ↔
      ¬ s.ListedByName w old ∨ s.RanksAbove w o old := by
  have hneg := getPriority_neg_iff hlisted
  obtain ⟨hsame, hcase⟩ | ⟨hold, entry, hentry, hpromotes⟩ := raisePriority_cases hother
  · rw [hsame]
    constructor
    · exact Or.inr
    · rintro (hnot | habove)
      · exact hcase.resolve_left fun hlt => hnot (hneg.1 hlt)
      · exact habove
  · have hnot : ¬ s.ListedByName w old := by
      rw [← hneg]
      omega
    have habove : Outranks ((s.workspaceOutputRaisePriority w old o).ws w).priority
        (s.label o).has (s.label old).has :=
      hpromotes.outranks hentry (hother entry hentry) (Nat.le_refl _)
    have hlabel := (SameSetting.raisePriority s w old o).label
    constructor
    · exact fun _ => Or.inl hnot
    · intro _
      unfold RanksAbove
      rw [hlabel]
      exact habove

theorem outputByNameOrId_isSome (ho : o ∈ s.outputs) {entry : String}
    (h : (s.label o).has entry = true) : (s.outputByNameOrId entry).isSome = true := by
  unfold outputByNameOrId
  rw [List.find?_isSome]
  refine ⟨o, ho, ?_⟩
  unfold outputMatchNameOrId
  obtain rfl | rfl := has_iff.1 h
  · simp [sameIgnoringCase_refl]
  · simp [sameIgnoringCase_refl]

/-- The first entry that stands for an enabled output is no further down than before. -/
theorem raisePriority_availableIdx_le (hother : ∀ entry, (s.label o).has entry = true →
      (s.label old).has entry = false) (ho : o ∈ s.outputs) :
    (s.workspaceOutputRaisePriority w old o).availableIdx w ≤ s.availableIdx w := by
  obtain ⟨hsame, -⟩ | ⟨-, entry, hentry, hpromotes⟩ := raisePriority_cases hother
  · rw [hsame]
  · have hfind := (SameSetting.raisePriority s w old o).outputByNameOrId
    unfold availableIdx
    simp only [hfind]
    exact hpromotes.findIdx_le (outputByNameOrId_isSome ho hentry)

end RaisePriority

/-! ## The output a workspace goes to -/

section HighestAvailable

variable {s w}

/-- `workspace_output_get_highest_available` returns an output for the entry at an index: the entry
stands for it, and none before stands for an enabled output. -/
structure ReturnsFor (s : SwayRoot) (w : WsId) (index : Nat) (o : OutId) : Prop where
  highest : s.workspaceOutputGetHighestAvailable w = some o
  entry : (s.ws w).priority[index]?.bind s.outputByNameOrId = some o
  before : ∀ name ∈ (s.ws w).priority.take index, s.outputByNameOrId name = none

theorem returnsFor_availableIdx (h : s.availableIdx w < (s.ws w).priority.length) :
    ∃ o, s.ReturnsFor w (s.availableIdx w) o := by
  have hsome : (s.outputByNameOrId (s.ws w).priority[s.availableIdx w]).isSome = true :=
    List.findIdx_getElem (w := h)
  obtain ⟨o, ho⟩ := Option.isSome_iff_exists.1 hsome
  have hget : (s.ws w).priority[s.availableIdx w]? = some (s.ws w).priority[s.availableIdx w] :=
    List.getElem?_eq_getElem h
  have hbefore : ∀ name ∈ (s.ws w).priority.take (s.availableIdx w),
      s.outputByNameOrId name = none := by
    intro name hname
    obtain ⟨j, hj, rfl⟩ := List.mem_take_iff_getElem.1 hname
    have hnot := List.not_of_lt_findIdx (lt_of_lt_of_le hj (min_le_left _ _))
    simpa using hnot
  refine ⟨o, ?_, by rw [hget]; exact ho, hbefore⟩
  unfold workspaceOutputGetHighestAvailable
  rw [← List.take_append_drop (s.availableIdx w) (s.ws w).priority, List.findSome?_append,
    List.findSome?_eq_none_iff.2 hbefore, Option.none_or, List.drop_eq_getElem_cons h,
    List.findSome?_cons, ho]

/-- An enabled output that is listed is available. -/
theorem availableIdx_lt {o : OutId} (ho : o ∈ s.outputs) (hlisted : s.Lists w o) :
    s.availableIdx w < (s.ws w).priority.length := by
  obtain ⟨entry, hentry, hhas⟩ := List.findIdx_lt_length.1 (findIdx_has_lt hlisted)
  exact List.findIdx_lt_length.2 ⟨entry, hentry, outputByNameOrId_isSome ho hhas⟩

end HighestAvailable

/-! ## Moving a workspace -/

/-- What a move is meant to do to the priority list. -/
structure RankedByMove (s t : SwayRoot) (w : WsId) (old o : OutId) : Prop where
  available : ∃ index p index' p', s.ReturnsFor w index p ∧ t.ReturnsFor w index' p' ∧
    index' ≤ index
  above : t.RanksAbove w o old

section Move

variable {s w} {old o : OutId}

/-- Before it raises the new output, a move leaves the priority list alone. -/
theorem workspaceMoveToOutput_raises (h : Good s) (ho : o ∈ s.outputs)
    (hold : (s.ws w).output = some old) (hne : o ≠ old) (child : Option WsId) (seen : Bool)
    (calls : List FocusCall) :
    ∃ s' : SwayRoot, s'.outputs = s.outputs ∧ s'.label = s.label ∧
      (s'.ws w).priority = (s.ws w).priority ∧
      s.workspaceMoveToOutput w o child seen calls = s'.workspaceOutputRaisePriority w old o := by
  have hlt := h.linked.lt_nextWs hold
  have hold_mem : old ∈ s.outputs := by
    obtain hmem | ⟨-, hnil⟩ := h.output_mem hold
    · exact hmem
    · rw [hnil] at ho
      cases ho
  -- the new output shows a workspace
  obtain ⟨a, ha⟩ : ∃ a, (s.workspaceDetach w).outputGetActiveWorkspace o child = some a := by
    rw [← Option.ne_none_iff_exists']
    intro hnone
    unfold outputGetActiveWorkspace at hnone
    rw [Option.or_eq_none_iff, List.head?_eq_none_iff, h.linked.detach_workspaces,
      List.erase_of_not_mem] at hnone
    · exact h.housed.shown o ho (Option.some_ne_none o) hnone.2
    · rw [h.linked.mem_iff, hold]
      exact fun heq => hne (Option.some.inj heq).symm
  have hlinked₁ : Linked (s.workspaceDetach w) (some w) := h.linked.detach w hlt
  have hdetach := SameSetting.detach s w
  set s₂ := (s.workspaceDetach w).outputAddWorkspace o w with hs₂
  have hadd : SameSetting s s₂ := hdetach.trans (SameSetting.add _ o w)
  have hlinked₂ : Linked s₂ none :=
    hlinked₁.add o w (by rw [hdetach.nextWs]; exact hlt) (Or.inl rfl)
  have hold₂ : old ∈ s₂.outputs := by
    rw [hadd.outputs]
    exact hold_mem
  have hrefill := refillOutput_restores hlinked₂ hold₂ old
  obtain ⟨hlinked₃, -⟩ := refillOutput_spec hlinked₂ hold₂
  obtain ⟨htrim, -⟩ := workspaceConsiderDestroy_spec hlinked₃ a seen calls
  refine ⟨((s₂.refillOutput old).workspaceConsiderDestroy a seen calls).outputSortWorkspaces o,
    ?_, ?_, ?_, ?_⟩
  · calc _ = (s₂.refillOutput old).outputs := htrim.setting.outputs
      _ = s₂.outputs := hrefill.outputs
      _ = s.outputs := hadd.outputs
  · calc _ = (s₂.refillOutput old).label := htrim.setting.label
      _ = s₂.label := hrefill.label
      _ = s.label := hadd.label
  · calc _ = ((s₂.refillOutput old).ws w).priority := htrim.priority w
      _ = (s₂.ws w).priority := by rw [hrefill.ws w (by rw [hadd.nextWs]; exact hlt)]
      _ = (s.ws w).priority := by rw [hs₂, outputAddWorkspace_ws, workspaceDetach_ws]
  · unfold workspaceMoveToOutput
    rw [hold]
    dsimp only
    rw [if_neg (Ne.symm hne), ha]

/-- What is said of a priority list depends on the enabled outputs and their labels only. -/
theorem ranksAbove_congr {s' : SwayRoot} (hlabel : s'.label = s.label)
    (hp : (s'.ws w).priority = (s.ws w).priority) :
    s'.RanksAbove w o old ↔ s.RanksAbove w o old := by
  unfold RanksAbove
  rw [hlabel, hp]

theorem rankedByMove_iff (h : Good s) (hlabels : s.DistinctLabels)
    (hold : (s.ws w).output = some old) (hlisted : s.Lists w old) (ho : o ∈ s.outputs)
    (hne : o ≠ old) (child : Option WsId) (seen : Bool) (calls : List FocusCall) :
    RankedByMove s (s.workspaceMoveToOutput w o child seen calls) w old o ↔
      ¬ s.ListedByName w old ∨ s.RanksAbove w o old := by
  have hold_mem : old ∈ s.outputs := by
    obtain hmem | ⟨-, hnil⟩ := h.output_mem hold
    · exact hmem
    · rw [hnil] at ho
      cases ho
  have hother := hlabels o ho old hold_mem hne
  obtain ⟨s', houtputs, hlabel, hp, hmove⟩ :=
    workspaceMoveToOutput_raises h ho hold hne child seen calls
  have hraise := SameSetting.raisePriority s' w old o
  have hplace : (s'.workspaceOutputRaisePriority w old o).availableIdx w ≤ s.availableIdx w := by
    have hle : (s'.workspaceOutputRaisePriority w old o).availableIdx w ≤ s'.availableIdx w :=
      raisePriority_availableIdx_le (by rw [hlabel]; exact hother) (by rw [houtputs]; exact ho)
    have hsame : s'.availableIdx w = s.availableIdx w := by
      unfold availableIdx outputByNameOrId outputMatchNameOrId
      rw [houtputs, hlabel, hp]
    rwa [hsame] at hle
  have habove : (s'.workspaceOutputRaisePriority w old o).RanksAbove w o old ↔
      ¬ s.ListedByName w old ∨ s.RanksAbove w o old := by
    have hlisted' : s'.Lists w old := by
      unfold Lists
      rw [hlabel, hp]
      exact hlisted
    rw [raisePriority_ranksAbove_iff (by rw [hlabel]; exact hother) hlisted',
      ranksAbove_congr hlabel hp]
    unfold ListedByName
    rw [hlabel, hp]
  rw [hmove, ← habove]
  constructor
  · exact fun hranked => hranked.above
  · intro hranks
    obtain ⟨p, hbefore⟩ := returnsFor_availableIdx (availableIdx_lt hold_mem hlisted)
    -- the new output is listed, since it is above another one
    have hlt : (s'.workspaceOutputRaisePriority w old o).availableIdx w <
        ((s'.workspaceOutputRaisePriority w old o).ws w).priority.length := by
      have hin := List.findIdx_lt_length.1 (lt_of_lt_of_le hranks List.findIdx_le_length)
      obtain ⟨entry, hentry, hhas⟩ := hin
      refine List.findIdx_lt_length.2 ⟨entry, hentry, outputByNameOrId_isSome ?_ hhas⟩
      rw [hraise.outputs, houtputs]
      exact ho
    obtain ⟨p', hafter⟩ := returnsFor_availableIdx hlt
    exact ⟨⟨_, p, _, p', hbefore, hafter, hplace⟩, hranks⟩

end Move

/-- **Output priorities** are right but for the outputs that a list has by their name alone: for
those `workspace_output_get_priority` returns `-1`, and a move from one of them raises nothing. -/
theorem outputPriority_right_iff {s : SwayRoot} (h : Good s) (hlabels : s.DistinctLabels)
    (w : WsId) :
    (∀ o, s.workspaceOutputGetPriority w o = s.outputRank w o ↔ ¬ s.ListedByName w o) ∧
      ∀ old o child seen calls, (s.ws w).output = some old → s.Lists w old → o ∈ s.outputs →
        o ≠ old →
        (RankedByMove s (s.workspaceMoveToOutput w o child seen calls) w old o ↔
          ¬ s.ListedByName w old ∨ s.RanksAbove w o old) := by
  constructor
  · intro o
    exact workspaceOutputGetPriority_eq_iff
  · intro old o child seen calls hold hlisted ho hne
    exact rankedByMove_iff h hlabels hold hlisted ho hne child seen calls

/-! ### A monitor and a panel

The workspace `1` is configured for the monitor, by its name or by its identifier, and is there when
both outputs are on.
-/

/-- Both outputs are on, and the workspace has one entry in its list. -/
def deskWith (entry : String) : SwayRoot :=
  (laptopEvents.take 3).foldl step (start 0 laptopLabel ⟨[⟨"1", [entry]⟩], [], [], false⟩)

theorem good_deskWith (entry : String) : Good (deskWith entry) := by
  have hrun : Lib.Run SwayRoot.step Lib.Free
      (start 0 laptopLabel ⟨[⟨"1", [entry]⟩], [], [], false⟩) (deskWith entry) :=
    Lib.Run.foldl (by simp [Lib.Allowed, Lib.Free, laptopEvents])
  exact hrun.invariant (fun _ e hgood _ => hgood.step e) (Good.start _ _ _)

/-- The laptop's outputs have nothing in common. -/
theorem distinctLabels_of_laptop {t : SwayRoot} (houtputs : t.outputs = [2, 1])
    (hmonitor : t.label 1 = laptopLabel 1) (hpanel : t.label 2 = laptopLabel 2) :
    t.DistinctLabels := by
  intro o ho p hp hne entry hentry
  rw [Bool.eq_false_iff, Ne, has_iff]
  rw [has_iff] at hentry
  rw [houtputs, List.mem_pair] at ho hp
  obtain rfl | rfl := ho <;> obtain rfl | rfl := hp
  · exact absurd rfl hne
  · rw [hpanel] at hentry
    rw [hmonitor]
    obtain rfl | rfl := hentry <;> decide
  · rw [hmonitor] at hentry
    rw [hpanel]
    obtain rfl | rfl := hentry <;> decide
  · exact absurd rfl hne

/-- Listed by its identifier, the monitor gives way to the panel. -/
theorem outputPriority_right_identifier :
    RankedByMove (deskWith "Dell Inc. U2720Q 7YW2")
      ((deskWith "Dell Inc. U2720Q 7YW2").workspaceMoveToOutput 0 2 none false []) 0 1 2 :=
  ((outputPriority_right_iff (good_deskWith _)
    (distinctLabels_of_laptop (by decide +kernel) (by decide +kernel) (by decide +kernel)) 0).2
      1 2 none false [] (by decide +kernel) (Or.inr (by decide +kernel)) (by decide +kernel)
      (by decide)).2 (Or.inl (by decide +kernel))

/-- Listed by its name, it is overlooked, and stays above the panel. -/
theorem outputPriority_name :
    (deskWith "HDMI-A-1").workspaceOutputGetPriority 0 1 ≠ (deskWith "HDMI-A-1").outputRank 0 1 ∧
      ¬ RankedByMove (deskWith "HDMI-A-1")
        ((deskWith "HDMI-A-1").workspaceMoveToOutput 0 2 none false []) 0 1 2 := by
  constructor
  · decide +kernel
  · intro hranked
    have habove := hranked.above
    revert habove
    decide +kernel

end SwayRoot

end Swirl

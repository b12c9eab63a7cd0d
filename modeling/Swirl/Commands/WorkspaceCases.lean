import Swirl.Tree.HousingRuns

set_option autoImplicit false

/-! # What the commands do to the workspaces

Every command and every window that is mapped through a context either leaves the workspaces alone,
gives one another name, or creates one after a lookup has found none with its name (`Missed`). What
follows of a command is said once here, for any property of the outputs and workspaces.
-/

namespace Swirl

namespace SwayRoot

/-- The names `workspace_by_name` gives a meaning of their own, with or without a focus. -/
def IsLookupWord (name : String) : Prop :=
  name = "current" ∨ sameIgnoringCase name "back_and_forth" = true

instance (name : String) : Decidable (IsLookupWord name) := inferInstanceAs (Decidable (_ ∨ _))

/-- The digits a name begins with. -/
def leadingDigits (name : String) : List Char := name.toList.takeWhile Char.isDigit

/-- A lookup has found no workspace for a name. -/
inductive Missed (s : SwayRoot) (name : String) : Prop
  | byName (h : s.workspaceByName name = none)
      (hword : ¬ IsLookupWord name ∨
        s.config.autoBackAndForth = true ∧ s.prevWorkspaceName = some name)
  | byNumber (number : String) (h : s.workspaceByNumber number = none)
      (hdigit : startsWithDigit number = true) (hname : leadingDigits name = leadingDigits number)
  | remembered (h : s.findWorkspaceName name = none)

section Words

theorem sameIgnoringCase_refl (a : String) : sameIgnoringCase a a = true := by
  simp [sameIgnoringCase]

theorem sameIgnoringCase_comm (a b : String) : sameIgnoringCase a b = sameIgnoringCase b a := by
  unfold sameIgnoringCase
  rw [Bool.eq_iff_iff, beq_iff_eq, beq_iff_eq]
  exact eq_comm

/-- The characters of joined words: those of the first, a blank, and those of the others. -/
theorem joinArgs_cons (word : String) (argv : List String) :
    ∃ rest, (joinArgs (word :: argv)).toList = word.toList ++ rest ∧
      (argv = [] ∧ rest = [] ∨ ∃ more, rest = ' ' :: more) := by
  unfold joinArgs
  rw [String.toList_intercalate, List.map_cons]
  cases argv with
  | nil => exact ⟨[], by simp [List.intercalate], Or.inl ⟨rfl, rfl⟩⟩
  | cons v vs =>
      refine ⟨" ".toList ++ List.intercalate " ".toList ((v :: vs).map String.toList), ?_,
        Or.inr ⟨_, rfl⟩⟩
      rw [List.intercalate_cons_of_ne_nil (by simp), List.append_assoc]

/-- Joined words begin with the digits of the first. -/
theorem leadingDigits_joinArgs (word : String) (argv : List String) :
    leadingDigits (joinArgs (word :: argv)) = leadingDigits word := by
  obtain ⟨rest, hjoin, hrest⟩ := joinArgs_cons word argv
  unfold leadingDigits
  rw [hjoin, List.takeWhile_append]
  have hnone : rest.takeWhile Char.isDigit = [] := by
    obtain ⟨-, hrest⟩ | ⟨more, hrest⟩ := hrest
    · rw [hrest]
      rfl
    · rw [hrest]
      rfl
  split
  · next hlen =>
    rw [hnone, List.append_nil]
    exact ((List.takeWhile_prefix _).eq_of_length hlen).symm
  · rfl

/-- A name of several words has a blank, which no lookup word has. -/
theorem not_isLookupWord_joinArgs {word : String} (argv : List String)
    (hn : isNeighbour word = false) (hb : sameIgnoringCase word "back_and_forth" = false) :
    ¬ IsLookupWord (joinArgs (word :: argv)) := by
  obtain ⟨rest, hjoin, ⟨-, hrest⟩ | ⟨more, hrest⟩⟩ := joinArgs_cons word argv
  · have hword : joinArgs (word :: argv) = word := by
      rw [String.ext_iff, hjoin, hrest, List.append_nil]
    rw [hword]
    rintro (heq | hsame)
    · rw [heq] at hn
      revert hn
      decide
    · rw [hb] at hsame
      cases hsame
  · have hmem : ' ' ∈ (joinArgs (word :: argv)).toList := by
      rw [hjoin, hrest]
      simp
    rintro (heq | hsame)
    · rw [heq] at hmem
      revert hmem
      decide
    · unfold sameIgnoringCase at hsame
      rw [beq_iff_eq] at hsame
      have hlow : ' '.toLower ∈ (joinArgs (word :: argv)).toList.map Char.toLower :=
        List.mem_map_of_mem hmem
      rw [hsame] at hlow
      revert hlow
      decide

/-- The word for the previous workspace stands for what the seat remembers. -/
theorem workspaceByName_back {s : SwayRoot} {word : String}
    (h : sameIgnoringCase word "back_and_forth" = true) :
    s.workspaceByName word = s.prevWorkspaceName.bind s.findWorkspaceName := by
  have hne : ∀ other, sameIgnoringCase other "back_and_forth" = false → word ≠ other := by
    intro other hother heq
    rw [heq, hother] at h
    cases h
  unfold workspaceByName
  split
  · rw [if_neg (hne _ (by decide)), if_neg (hne _ (by decide)), if_neg (hne _ (by decide)),
      if_neg (hne _ (by decide)), if_neg (hne _ (by decide)), if_pos h]
  · rw [if_neg (hne _ (by decide)), if_pos h]

end Words

/-! ## Workspaces that are found or created -/

section Keeps

variable {s : SwayRoot} {I : SwayRoot → Prop}

theorem foundOrCreated_keeps (hcreate : ∀ s name, I s → Missed s name → I (s.workspaceCreate none name))
    (h : I s) (found : Option WsId) (name : String) (hmissed : found = none → Missed s name) :
    I (s.foundOrCreated found name).1 := by
  unfold foundOrCreated
  cases found with
  | some w => exact h
  | none => exact hcreate s name h (hmissed rfl)

theorem workspaceAutoBackAndForth_keeps
    (hcreate : ∀ s name, I s → Missed s name → I (s.workspaceCreate none name)) (h : I s) (w : WsId) :
    I (s.workspaceAutoBackAndForth w).1 := by
  unfold workspaceAutoBackAndForth
  split
  · next name hname =>
    split
    · next hauto =>
      refine foundOrCreated_keeps hcreate h _ _ ?_
      intro hnone
      exact Missed.byName hnone (Or.inr ⟨hauto.1, hname⟩)
    · exact h
  · exact h

theorem switchTarget_keeps
    (hcreate : ∀ s name, I s → Missed s name → I (s.workspaceCreate none name)) (auto : Bool)
    {found : SwayRoot × WsId} (h : I found.1) : I (switchTarget auto found).1 := by
  unfold switchTarget
  split
  · exact workspaceAutoBackAndForth_keeps hcreate h found.2
  · exact h

/-- **The lookups of `cmd_workspace`** create a workspace only after missing it. -/
theorem workspaceToSwitchTo_keeps
    (hcreate : ∀ s name, I s → Missed s name → I (s.workspaceCreate none name)) (h : I s)
    {auto : Bool} {argv : List String} {t : SwayRoot} {target : Option WsId}
    (ht : s.workspaceToSwitchTo auto argv = .ok (t, target)) : I t := by
  unfold workspaceToSwitchTo at ht
  cases argv with
  | nil =>
      obtain ⟨rfl, -⟩ := Prod.mk.inj (Except.ok.inj ht)
      exact h
  | cons word argv =>
      dsimp only at ht
      split at ht
      · -- by number
        cases argv with
        | nil => cases ht
        | cons number rest =>
            dsimp only at ht
            split at ht
            · next hdigit =>
              have hkeep := switchTarget_keeps hcreate auto
                (foundOrCreated_keeps hcreate h (s.workspaceByNumber number)
                  (joinArgs (number :: rest)) fun hnone =>
                    Missed.byNumber number hnone hdigit (leadingDigits_joinArgs number rest))
              rw [Except.ok.inj ht] at hkeep
              exact hkeep
            · cases ht
      · split at ht
        · obtain ⟨rfl, -⟩ := Prod.mk.inj (Except.ok.inj ht)
          exact h
        · next hn =>
          split at ht
          · next hb =>
            -- back to the workspace the seat remembers
            split at ht
            · cases ht
            · next name hname =>
              have hkeep := foundOrCreated_keeps hcreate h (s.workspaceByName word) name (by
                  intro hnone
                  apply Missed.remembered
                  rw [workspaceByName_back (by simpa using hb), hname] at hnone
                  exact hnone)
              obtain ⟨rfl, -⟩ := Prod.mk.inj (Except.ok.inj ht)
              exact hkeep
          · next hb =>
            have hkeep := switchTarget_keeps hcreate auto
              (foundOrCreated_keeps hcreate h (s.workspaceByName (joinArgs (word :: argv)))
                (joinArgs (word :: argv)) fun hnone =>
                  Missed.byName hnone (Or.inl (not_isLookupWord_joinArgs argv (by simpa using hn)
                    (by simpa using hb))))
            rw [Except.ok.inj ht] at hkeep
            exact hkeep

end Keeps

/-! ## What each of them does -/

section Cases

variable (s : SwayRoot)

theorem workspaceConfigFindOrCreate_cases (wsName : String) :
    ∃ config, s.workspaceConfigFindOrCreate wsName = { s with config } := by
  unfold workspaceConfigFindOrCreate
  split
  · exact ⟨s.config, rfl⟩
  · exact ⟨_, rfl⟩

theorem workspaceOutputs_cases (argv : List String) (outputLocation : Nat) :
    ∃ config, s.workspaceOutputs argv outputLocation = { s with config } := by
  obtain ⟨config, hconfig⟩ :=
    s.workspaceConfigFindOrCreate_cases (joinArgs (argv.take outputLocation))
  unfold workspaceOutputs
  dsimp only
  rw [hconfig]
  exact ⟨_, rfl⟩

theorem cmdWorkspaceGaps_cases (argv : List String) (gapsLocation : Nat) :
    ∃ config, (s.cmdWorkspaceGaps argv gapsLocation).1 = { s with config } := by
  obtain ⟨config, hconfig⟩ :=
    s.workspaceConfigFindOrCreate_cases (joinArgs (argv.take gapsLocation))
  unfold cmdWorkspaceGaps
  dsimp only
  rw [hconfig]
  split_ifs
  · exact ⟨s.config, rfl⟩
  · exact ⟨s.config, rfl⟩
  · refine ⟨config, ?_⟩
    split
    · split_ifs <;> rfl
    · rfl

/-- The last part of `cmd_workspace` does nothing, or switches to a workspace that its lookups have
found or created. -/
theorem switchWorkspace_cases (argv : List String) (calls : List FocusCall) :
    (s.switchWorkspace argv calls).1 = s ∨
      s.outputs ≠ [] ∧ ∃ auto argv' t w calls', s.workspaceToSwitchTo auto argv' = .ok (t, w) ∧
        (s.switchWorkspace argv calls).1 = t.focusCalls calls' := by
  unfold switchWorkspace
  split
  · exact Or.inl rfl
  · next houtputs =>
    split
    · exact Or.inl rfl
    · split
      · exact Or.inl rfl
      · next auto argv' hargv =>
        split
        · exact Or.inl rfl
        · next t w ht => exact Or.inr ⟨houtputs, auto, argv', t, some w, calls, ht, rfl⟩
        · next t ht => exact Or.inr ⟨houtputs, auto, argv', t, none, [], ht, rfl⟩

/-- **`cmd_workspace`** changes the configurations, or switches to a workspace that its lookups have
found or created. -/
theorem cmdWorkspace_cases (argv : List String) (calls : List FocusCall) :
    (∃ config, (s.cmdWorkspace argv calls).1 = { s with config }) ∨
      s.outputs ≠ [] ∧ ∃ auto argv' t w calls', s.workspaceToSwitchTo auto argv' = .ok (t, w) ∧
        (s.cmdWorkspace argv calls).1 = t.focusCalls calls' := by
  unfold cmdWorkspace
  split
  · exact Or.inl ⟨s.config, rfl⟩
  · split
    · exact Or.inl ⟨s.config, rfl⟩
    · split
      · exact Or.inl ⟨s.config, rfl⟩
      · exact Or.inl (s.workspaceOutputs_cases argv _)
    · exact Or.inl (s.cmdWorkspaceGaps_cases argv _)
    · obtain hself | hswitch := s.switchWorkspace_cases argv calls
      · exact Or.inl ⟨s.config, hself⟩
      · exact Or.inr hswitch

/-- The detour of `move container to workspace` over the remembered workspace, from the workspace
that has the name. -/
def detour (noAuto : Bool) (oldWs found : Option WsId) (name : String) :
    Option WsId × Option String :=
  match s.prevWorkspaceName with
  | some prev =>
      if !noAuto ∧ s.config.autoBackAndForth ∧ (oldWs.map fun w => (s.ws w).name) = some name then
        (s.workspaceByName prev, some prev)
      else (found, some name)
  | none => (found, some name)

theorem detour_missed {noAuto : Bool} {oldWs found : Option WsId} {n name : String}
    (hmissed : found = none → Missed s n) (h : s.detour noAuto oldWs found n = (none, some name)) :
    Missed s name := by
  have hdirect : ((found, some n) : Option WsId × Option String) = (none, some name) →
      Missed s name := by
    intro heq
    obtain ⟨hfound, hn⟩ := Prod.mk.inj heq
    rw [← Option.some.inj hn]
    exact hmissed hfound
  unfold detour at h
  split at h
  · next prev hprev =>
    split at h
    · next hauto =>
      obtain ⟨hnone, hn⟩ := Prod.mk.inj h
      rw [← Option.some.inj hn]
      exact Missed.byName hnone (Or.inr ⟨hauto.2.1, hprev⟩)
    · exact hdirect h
  · exact hdirect h

/-- A name without a workspace, as `move container to workspace` finds it, was looked up. -/
theorem moveTarget_missed {noAuto : Bool} {oldWs : Option WsId} {word : String}
    {argv : List String} {name : String}
    (h : s.moveTarget noAuto oldWs word argv = .ok (none, some name)) : Missed s name := by
  unfold moveTarget at h
  dsimp only at h
  split at h
  · obtain ⟨-, hname⟩ := Prod.mk.inj (Except.ok.inj h)
    cases hname
  · next hn =>
    split at h
    · next hb =>
      split at h
      · obtain ⟨-, hname⟩ := Prod.mk.inj (Except.ok.inj h)
        cases hname
      · next prev hnone hprev =>
        obtain ⟨-, hname⟩ := Prod.mk.inj (Except.ok.inj h)
        rw [← Option.some.inj hname]
        apply Missed.remembered
        rw [workspaceByName_back hb, hprev] at hnone
        exact hnone
      · cases h
    · next hb =>
      split at h
      · cases argv with
        | nil => cases h
        | cons number rest =>
            dsimp only at h
            split at h
            · next hdigit =>
              refine s.detour_missed ?_ (Except.ok.inj h)
              intro hnone
              refine Missed.byNumber (joinArgs (number :: rest)) hnone ?_ rfl
              obtain ⟨more, hjoin, -⟩ := joinArgs_cons number rest
              unfold startsWithDigit at hdigit ⊢
              rw [hjoin]
              cases hnum : number.toList with
              | nil =>
                  rw [hnum] at hdigit
                  cases hdigit
              | cons c cs =>
                  rw [hnum] at hdigit
                  exact hdigit
            · cases h
      · refine s.detour_missed ?_ (Except.ok.inj h)
        intro hnone
        exact Missed.byName hnone (Or.inl (not_isLookupWord_joinArgs argv (by simpa using hn)
          (by simpa using hb)))

/-- **`move container to workspace`** creates a workspace that was missed, or none. -/
theorem cmdMoveToWorkspace_cases (noAuto : Bool) (oldWs : Option WsId) (sticky : Bool)
    (word : String) (argv : List String) :
    (s.cmdMoveToWorkspace noAuto oldWs sticky word argv).1 = s ∨
      s.outputs ≠ [] ∧ ∃ name, Missed s name ∧
        (s.cmdMoveToWorkspace noAuto oldWs sticky word argv).1 = s.workspaceCreate none name := by
  unfold cmdMoveToWorkspace
  split
  · exact Or.inl rfl
  · next houtputs =>
    split
    · exact Or.inl rfl
    · exact Or.inl rfl
    · next name hname =>
      split
      · exact Or.inl rfl
      · exact Or.inr ⟨houtputs, name, s.moveTarget_missed hname, rfl⟩
    · exact Or.inl rfl

/-- **`cmd_rename`** gives a workspace a name that no other has, and sorts the list it is in. -/
theorem cmdRename_cases (workspace : Option WsId) (argv : List String) :
    (s.cmdRename workspace argv).1 = s ∨
      s.outputs ≠ [] ∧ ∃ w newName, isSpecialName newName = false ∧
        s.workspaceByName newName = none ∧
        let t := s.modWs w fun k => { k with name := newName }
        (s.cmdRename workspace argv).1 = t ∨
          ∃ o, (s.cmdRename workspace argv).1 = t.outputSortWorkspaces o := by
  unfold cmdRename
  split
  · exact Or.inl rfl
  · split
    · exact Or.inl rfl
    · next houtputs =>
      split
      · exact Or.inl rfl
      · split
        · exact Or.inl rfl
        · exact Or.inl rfl
        · next w hw =>
          split
          · exact Or.inl rfl
          · next word rest hrest =>
            dsimp only
            split
            · exact Or.inl rfl
            · next hspecial =>
              split
              · exact Or.inl rfl
              · next hnone =>
                refine Or.inr ⟨houtputs, w, joinArgs (word :: rest), by simpa using hspecial,
                  hnone, ?_⟩
                split
                · next o _ => exact Or.inr ⟨o, rfl⟩
                · exact Or.inl rfl

/-- **A window is mapped through a context**: without looking if the context follows nothing, or
after missing the name, a workspace is created. -/
theorem mapThroughContext_cases (k : CtxId) :
    (∃ contexts, s.mapThroughContext k = { s with contexts }) ∨
      ∃ c output contexts, s.contexts k = some c ∧ (∀ o, output = some o → o ∈ s.outputs) ∧
        (∀ w, c.node ≠ .workspace w) ∧ (c.node = .root ∨ s.workspaceByName c.fallbackName = none) ∧
        s.mapThroughContext k = { s.workspaceCreate output c.fallbackName with contexts } := by
  unfold mapThroughContext
  split
  · next c hc =>
    unfold launcherCtxGetWorkspace
    split
    · exact Or.inl ⟨_, rfl⟩
    · next o hnode =>
      split
      · exact Or.inl ⟨_, rfl⟩
      · next hnone =>
        refine Or.inr ⟨c, _, _, hc, ?_, fun w hw => ?_, Or.inr hnone, rfl⟩
        · intro p hp
          split at hp
          · next ho =>
            rw [← Option.some.inj hp]
            exact ho
          · cases hp
        · rw [hnode] at hw
          cases hw
    · next hnode =>
      refine Or.inr ⟨c, none, _, hc, ?_, fun w hw => ?_, Or.inl hnode, rfl⟩
      · intro p hp
        cases hp
      · rw [hnode] at hw
        cases hw
  · exact Or.inl ⟨s.contexts, rfl⟩

end Cases

end SwayRoot

end Swirl

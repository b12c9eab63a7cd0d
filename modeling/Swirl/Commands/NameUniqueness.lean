import Swirl.Tree.HotplugSafety
import Mathlib.Data.List.TakeWhile

set_option autoImplicit false

/-! # No two workspaces have the same name

A lookup that finds no workspace for a name leaves the name free: this is what the commands, and the
search for a new name, rely on before they create a workspace. It holds as long as all workspaces
are on enabled outputs and the name is none that the lookups give another meaning.

A launcher context whose workspace and output are gone creates a workspace without a lookup, and
one whose output is there does not look at the workspaces that are saved on the fallback output.
-/

namespace Swirl

namespace SwayRoot

/-! ## Names and their digits -/

theorem isDigit_toLower (c : Char) : c.toLower.isDigit = c.isDigit := by
  unfold Char.toLower
  split
  · next h =>
    obtain ⟨hge, hle⟩ := h
    have hge' : 65 ≤ c.val.toNat := UInt32.le_iff_toNat_le.1 hge
    have hle' : c.val.toNat ≤ 90 := UInt32.le_iff_toNat_le.1 hle
    have hadd : (c.val + ('a'.val - 'A'.val)).toNat = c.val.toNat + 32 := by
      rw [UInt32.toNat_add, show ('a'.val - 'A'.val).toNat = 32 from rfl]
      exact Nat.mod_eq_of_lt (by omega)
    have hno : c.isDigit = false := by
      unfold Char.isDigit
      rw [Bool.and_eq_false_iff]
      right
      rw [decide_eq_false_iff_not, UInt32.le_iff_toNat_le]
      show ¬ c.val.toNat ≤ 57
      omega
    rw [hno]
    unfold Char.isDigit
    rw [Bool.and_eq_false_iff]
    right
    rw [decide_eq_false_iff_not, UInt32.le_iff_toNat_le]
    show ¬ (c.val + ('a'.val - 'A'.val)).toNat ≤ 57
    omega
  · rfl

theorem toLower_of_isDigit {c : Char} (h : c.isDigit = true) : c.toLower = c := by
  unfold Char.toLower
  rw [dif_neg]
  rintro ⟨hge, -⟩
  have hge' : 65 ≤ c.val.toNat := UInt32.le_iff_toNat_le.1 hge
  unfold Char.isDigit at h
  have hle := of_decide_eq_true (Bool.and_eq_true_iff.1 h).2
  have hle' : c.val.toNat ≤ 57 := UInt32.le_iff_toNat_le.1 hle
  omega

/-- A list of characters begins with the same digits in lower case. -/
theorem takeWhile_isDigit_toLower (l : List Char) :
    (l.map Char.toLower).takeWhile Char.isDigit = l.takeWhile Char.isDigit := by
  induction l with
  | nil => rfl
  | cons c l ih =>
      rw [List.map_cons, List.takeWhile_cons, List.takeWhile_cons, isDigit_toLower]
      split
      · next hc => rw [ih, toLower_of_isDigit hc]
      · rfl

theorem leadingDigits_congr {a b : String} (h : sameIgnoringCase a b = true) :
    leadingDigits a = leadingDigits b := by
  unfold sameIgnoringCase at h
  rw [beq_iff_eq] at h
  unfold leadingDigits
  rw [← takeWhile_isDigit_toLower, h, takeWhile_isDigit_toLower]

/-- **`_workspace_by_number`** compares the digits two names begin with. -/
theorem matchesNumber_iff (a b : List Char) :
    matchesNumber a b = true ↔ a.takeWhile Char.isDigit = b.takeWhile Char.isDigit := by
  induction a generalizing b with
  | nil =>
      unfold matchesNumber
      cases b with
      | nil => simp
      | cons d ds =>
          by_cases hd : d.isDigit = true <;> simp [hd]
  | cons c cs ih =>
      unfold matchesNumber
      by_cases hc : c.isDigit = true
      · rw [if_pos hc, List.takeWhile_cons, if_pos hc]
        cases b with
        | nil => simp
        | cons d ds =>
            dsimp only
            by_cases hcd : c = d
            · subst hcd
              rw [if_pos rfl, ih, List.takeWhile_cons, if_pos hc]
              simp
            · rw [if_neg hcd, List.takeWhile_cons]
              split <;> simp [hcd]
      · rw [if_neg hc, List.takeWhile_cons, if_neg hc]
        cases b with
        | nil => simp
        | cons d ds =>
            by_cases hd : d.isDigit = true <;> simp [hd]

/-- A number is all digits. -/
theorem leadingDigits_toString (n : Nat) : leadingDigits (toString n) = Nat.toDigits 10 n := by
  have hlist : (toString n).toList = Nat.toDigits 10 n := Nat.toList_repr
  unfold leadingDigits
  rw [hlist]
  rw [List.takeWhile_eq_self_iff]
  intro c hc
  exact Nat.isDigit_of_mem_toDigits (by decide) (by decide) hc

theorem leadingDigits_toString_inj {m n : Nat}
    (h : leadingDigits (toString m) = leadingDigits (toString n)) : m = n := by
  rw [leadingDigits_toString, leadingDigits_toString] at h
  calc m = Nat.ofDigitChars 10 (Nat.toDigits 10 m) 0 := Nat.ofDigitChars_ten_toDigits.symm
    _ = Nat.ofDigitChars 10 (Nat.toDigits 10 n) 0 := by rw [h]
    _ = n := Nat.ofDigitChars_ten_toDigits

/-! ## Lookups -/

section Lookups

variable {s : SwayRoot}

/-- No workspace on any output has a name that cannot be told from this one. -/
def Fresh (s : SwayRoot) (name : String) : Prop :=
  ∀ v, (s.ws v).output ≠ none → sameIgnoringCase (s.ws v).name name = false

/-- All workspaces are on enabled outputs. -/
def AllEnabled (s : SwayRoot) : Prop := ∀ v o, (s.ws v).output = some o → o ∈ s.outputs

theorem Good.allEnabled (h : Good s) (hne : s.outputs ≠ []) : AllEnabled s := by
  intro v o hv
  obtain hmem | ⟨-, hnil⟩ := h.output_mem hv
  · exact hmem
  · exact absurd hnil hne

/-- A search that finds nothing has looked at every workspace of an enabled output. -/
theorem rootFindWorkspace_none (h : Linked s none) (hall : AllEnabled s) {test : WsId → Bool}
    (hnone : s.rootFindWorkspace test = none) {v : WsId} (hv : (s.ws v).output ≠ none) :
    test v = false := by
  obtain ⟨o, ho⟩ := Option.ne_none_iff_exists'.1 hv
  unfold rootFindWorkspace at hnone
  rw [List.findSome?_eq_none_iff] at hnone
  have hlist := hnone o (hall v o ho)
  rw [List.find?_eq_none] at hlist
  simpa using hlist v ((h.mem_iff o v).2 ho)

theorem fresh_of_findWorkspaceName (h : Linked s none) (hall : AllEnabled s) {name : String}
    (hnone : s.findWorkspaceName name = none) : Fresh s name :=
  fun _ hv => rootFindWorkspace_none h hall hnone hv

theorem fresh_of_workspaceByNumber (h : Linked s none) (hall : AllEnabled s) {number name : String}
    (hnone : s.workspaceByNumber number = none) (hname : leadingDigits name = leadingDigits number) :
    Fresh s name := by
  intro v hv
  have hno := rootFindWorkspace_none h hall hnone hv
  by_contra hsame
  rw [Bool.not_eq_false] at hsame
  have hmatch : matchesNumber number.toList (s.ws v).name.toList = true := by
    rw [matchesNumber_iff]
    exact hname.symm.trans (leadingDigits_congr hsame).symm
  rw [hmatch] at hno
  cases hno

/-- A walk to the previous or the next workspace that starts finds one. -/
theorem scanNamed_isSome (beats : Int → Int → Bool) (w : WsId) (l : List WsId) :
    ∀ (first : Option WsId) (other : Option (WsId × Int)) (found : Bool),
      l ≠ [] ∨ other.isSome = true → (s.scanNamed beats w l first other found).isSome = true := by
  induction l with
  | nil =>
      intro first other found h
      obtain h | h := h
      · exact absurd rfl h
      · obtain ⟨p, rfl⟩ := Option.isSome_iff_exists.1 h
        rfl
  | cons v vs ih =>
      intro first other found _
      unfold scanNamed
      dsimp only
      split
      on_goal 2 => split
      on_goal 2 => rfl
      -- from here on there is a candidate
      all_goals
        apply ih
        right
        cases other with
        | none => rfl
        | some p =>
            dsimp only
            split <;> rfl

theorem scanNumbered_isSome (beats : Int → Int → Bool) (n : Int) (l : List WsId) :
    ∀ (first : Option (WsId × Int)) (other : Option WsId) (near : Option (WsId × Int)),
      l ≠ [] ∨ first.isSome = true → (s.scanNumbered beats n l first other near).isSome = true := by
  induction l with
  | nil =>
      intro first other near h
      obtain h | h := h
      · exact absurd rfl h
      · obtain ⟨p, rfl⟩ := Option.isSome_iff_exists.1 h
        unfold scanNumbered
        simp
  | cons v vs ih =>
      intro first other near _
      unfold scanNumbered
      dsimp only
      apply ih
      right
      cases first with
      | none => rfl
      | some p =>
          dsimp only
          split <;> rfl

theorem upToNamed_ne_nil {l : List WsId} (h : l ≠ []) : s.upToNamed l ≠ [] := by
  cases l with
  | nil => exact absurd rfl h
  | cons v vs =>
      unfold upToNamed
      split <;> exact List.cons_ne_nil _ _

/-- A workspace on an enabled output has a previous, a next, and so on. -/
theorem neighbours_isSome (h : Linked s none) (hall : AllEnabled s) {w : WsId}
    (hw : s.seatGetFocusedWorkspace = some w) :
    s.workspacePrev w ≠ none ∧ s.workspaceNext w ≠ none ∧
      ∀ dir, s.workspaceOutputPrevNext w dir ≠ none := by
  have hplaced : (s.ws w).output.isSome = true := (Option.filter_eq_some_iff.1 hw).2
  obtain ⟨o, ho⟩ := Option.isSome_iff_exists.1 hplaced
  have hmem : w ∈ s.workspaces o := (h.mem_iff o w).2 ho
  have hin : w ∈ s.enabledWorkspaces := List.mem_flatMap.2 ⟨o, hall w o ho, hmem⟩
  refine ⟨?_, ?_, ?_⟩
  · have hne : s.enabledWorkspaces.reverse ≠ [] :=
      List.ne_nil_of_mem (List.mem_reverse.2 hin)
    unfold workspacePrev
    dsimp only
    rw [← Option.isSome_iff_ne_none]
    split
    · exact scanNamed_isSome _ w _ _ _ _ (Or.inl hne)
    · exact scanNumbered_isSome _ _ _ _ _ _ (Or.inl hne)
  · unfold workspaceNext
    dsimp only
    rw [← Option.isSome_iff_ne_none]
    split
    · exact scanNamed_isSome _ w _ _ _ _ (Or.inl (List.ne_nil_of_mem hin))
    · apply scanNumbered_isSome
      left
      obtain ⟨v, hv⟩ := List.exists_mem_of_ne_nil _
        (upToNamed_ne_nil (s := s) (List.ne_nil_of_mem hmem))
      exact List.ne_nil_of_mem (List.mem_flatMap.2 ⟨o, hall w o ho, hv⟩)
  · intro dir
    unfold workspaceOutputPrevNext
    rw [ho, hw]
    dsimp only
    have hlen : 0 < (s.workspaces o).length := List.length_pos_of_mem hmem
    rw [Ne, List.getElem?_eq_none_iff, Nat.not_le]
    have hpos : (0 : Int) < ((s.workspaces o).length : Int) := by exact_mod_cast hlen
    have hlt := Int.emod_lt_of_pos (listFind (s.workspaces o) w + dir) hpos
    have hnonneg := Int.emod_nonneg (listFind (s.workspaces o) w + dir) (ne_of_gt hpos)
    omega

/-- **`workspace_by_name`** finds nothing only if no workspace has the name. -/
theorem findWorkspaceName_of_workspaceByName (h : Linked s none) (hall : AllEnabled s)
    {name : String} (hnone : s.workspaceByName name = none) (hword : ¬ IsLookupWord name) :
    s.findWorkspaceName name = none := by
  obtain ⟨hcurrent, hback⟩ := not_or.1 hword
  unfold workspaceByName at hnone
  split at hnone
  · next w hw =>
    obtain ⟨hprev, hnext, houtput⟩ := neighbours_isSome h hall hw
    split_ifs at hnone
    · exact absurd hnone hprev
    · exact absurd hnone (houtput _)
    · exact absurd hnone hnext
    · exact absurd hnone (houtput _)
    · exact hnone
  · rw [if_neg hcurrent, if_neg hback] at hnone
    exact hnone

/-- **A name that was missed is free.** -/
theorem Missed.fresh (h : Linked s none) (hall : AllEnabled s) {name : String}
    (hprev : s.config.autoBackAndForth = true → ∀ p, s.prevWorkspaceName = some p →
      ¬ IsLookupWord p) (hm : Missed s name) : Fresh s name := by
  cases hm with
  | byName hnone hword =>
      apply fresh_of_findWorkspaceName h hall
      apply findWorkspaceName_of_workspaceByName h hall hnone
      obtain hword | ⟨hauto, hname⟩ := hword
      · exact hword
      · exact hprev hauto name hname
  | byNumber number hnone _ hname => exact fresh_of_workspaceByNumber h hall hnone hname
  | remembered hnone => exact fresh_of_findWorkspaceName h hall hnone

/-! ## A new name -/

/-- The digits the workspaces on enabled outputs begin with. -/
def takenDigits (s : SwayRoot) : List (List Char) :=
  s.enabledWorkspaces.map fun w => leadingDigits (s.ws w).name

theorem mem_takenDigits {number : String} (h : s.workspaceByNumber number ≠ none) :
    leadingDigits number ∈ takenDigits s := by
  obtain ⟨w, hw⟩ := Option.ne_none_iff_exists'.1 h
  unfold workspaceByNumber rootFindWorkspace at hw
  obtain ⟨o, ho, hfind⟩ := List.exists_of_findSome?_eq_some hw
  have hmatch := List.find?_some hfind
  rw [matchesNumber_iff] at hmatch
  unfold takenDigits leadingDigits
  rw [hmatch]
  exact List.mem_map_of_mem (f := fun w => leadingDigits (s.ws w).name)
    (List.mem_flatMap.2 ⟨o, ho, List.mem_of_find?_eq_some hfind⟩)

/-- If the search for a number takes the last one without a look, all others are taken. -/
theorem freeNumber_cases (n : Nat) : ∀ i,
    s.workspaceByNumber (s.freeNumber n i) = none ∨
      ∀ k, i ≤ k → k ≤ i + n → leadingDigits (toString k) ∈ takenDigits s := by
  induction n with
  | zero =>
      intro i
      by_cases hnone : s.workspaceByNumber (toString i) = none
      · exact Or.inl hnone
      · right
        intro k hik hki
        obtain rfl : k = i := by omega
        exact mem_takenDigits hnone
  | succ n ih =>
      intro i
      unfold freeNumber
      split
      · next hsome =>
        obtain hnone | hall := ih (i + 1)
        · exact Or.inl hnone
        · right
          intro k hik hki
          by_cases hk : k = i
          · rw [hk]
            apply mem_takenDigits
            exact Option.isSome_iff_ne_none.1 hsome
          · exact hall k (by omega) (by omega)
      · next hnone =>
        left
        simpa using hnone

/-- **The search for a number ends at a free one**: there are more numbers than workspaces. -/
theorem freeNumber_free (s : SwayRoot) :
    s.workspaceByNumber (s.freeNumber s.enabledWorkspaces.length 1) = none := by
  obtain hnone | hall := s.freeNumber_cases s.enabledWorkspaces.length 1
  · exact hnone
  · exfalso
    set n := s.enabledWorkspaces.length with hn
    set l := (List.range' 1 (n + 1)).map fun k => leadingDigits (toString k) with hl
    have hnodup : l.Nodup := by
      apply List.Nodup.map _ List.nodup_range'
      intro a b hab
      exact leadingDigits_toString_inj hab
    have hsub : l ⊆ takenDigits s := by
      intro ds hds
      obtain ⟨k, hk, rfl⟩ := List.mem_map.1 hds
      obtain ⟨hk₁, hk₂⟩ := List.mem_range'_1.1 hk
      exact hall k hk₁ (by omega)
    have hle := (hnodup.subperm hsub).length_le
    unfold takenDigits at hle
    rw [hl, List.length_map, List.length_range', List.length_map] at hle
    omega

/-- No binding and no configuration names a workspace by a word the lookups give a meaning. -/
def PlainNames (c : NameConfig) : Prop :=
  (∀ wsc ∈ c.workspaceConfigs, ¬ IsLookupWord wsc.workspace) ∧
    ∀ b ∈ c.keysymBindings ++ c.keycodeBindings, ¬ IsLookupWord (bindingName b.target)

instance (c : NameConfig) : Decidable (PlainNames c) := inferInstanceAs (Decidable (_ ∧ _))

theorem workspaceNameFromBinding_spec {outputName : String} {b : NameBinding} {name : String}
    (h : s.workspaceNameFromBinding outputName b = some name) :
    name = bindingName b.target ∧ s.workspaceByName name = none := by
  unfold workspaceNameFromBinding at h
  dsimp only at h
  split at h
  · cases h
  · split at h
    · cases h
    · split at h
      · cases h
      · next hnone =>
        split at h
        · obtain rfl := Option.some.inj h
          exact ⟨rfl, by simpa using hnone⟩
        · cases h

/-- The name taken from the bindings is that of one of them. -/
theorem foldl_earlierName_spec {outputName : String} (l : List NameBinding) :
    ∀ (best : Int × Option String) (name : String),
      (l.foldl (s.earlierName outputName) best).2 = some name →
      best.2 = some name ∨ ∃ b ∈ l, s.workspaceNameFromBinding outputName b = some name := by
  induction l with
  | nil =>
      intro best name h
      exact Or.inl h
  | cons b l ih =>
      intro best name h
      obtain hbest | ⟨b', hb', hname⟩ := ih _ name h
      · unfold earlierName at hbest
        split at hbest
        · next n hn =>
          split at hbest
          · right
            refine ⟨b, List.mem_cons_self, ?_⟩
            rw [hn]
            exact hbest
          · exact Or.inl hbest
        · exact Or.inl hbest
      · exact Or.inr ⟨b', List.mem_cons_of_mem b hb', hname⟩

/-- **`workspace_next_name`** gives a free name. -/
theorem workspaceNextName_fresh (h : Linked s none) (hall : AllEnabled s)
    (hplain : PlainNames s.config) {outputName name : String}
    (hname : s.workspaceNextName outputName = some name) : Fresh s name := by
  have hfree : ∀ n, s.workspaceByName n = none → ¬ IsLookupWord n → Fresh s n := fun n hnone hword =>
    fresh_of_findWorkspaceName h hall (findWorkspaceName_of_workspaceByName h hall hnone hword)
  unfold workspaceNextName at hname
  split at hname
  · cases hname
  · next o ho =>
    dsimp only at hname
    rw [← Option.some.inj hname]
    split
    · next n hn =>
      obtain hconfig | ⟨-, hbinding⟩ := Option.or_eq_some_iff.1 hn
      · -- a configured workspace
        unfold nameFromConfig at hconfig
        obtain ⟨wsc, hwsc, rfl⟩ := Option.map_eq_some_iff.1 hconfig
        have htest := List.find?_some hwsc
        have hnone := (Bool.and_eq_true_iff.1 htest).1
        exact hfree _ (Option.isNone_iff_eq_none.1 hnone)
          (hplain.1 wsc (List.mem_of_find?_eq_some hwsc))
      · obtain hstart | ⟨b, hb, hname⟩ := s.foldl_earlierName_spec _ _ n hbinding
        · cases hstart
        · obtain ⟨rfl, hnone⟩ := workspaceNameFromBinding_spec hname
          exact hfree _ hnone (hplain.2 b hb)
    · exact fresh_of_workspaceByNumber h hall s.freeNumber_free rfl

end Lookups

/-! ## The names stay different -/

/-- **The invariant**: workspaces on outputs whose names `strcasecmp` cannot tell apart are the same. -/
def Distinct (s : SwayRoot) : Prop :=
  ∀ v w, (s.ws v).output ≠ none → (s.ws w).output ≠ none →
    sameIgnoringCase (s.ws v).name (s.ws w).name = true → v = w

section Distinct

variable {s t : SwayRoot}

theorem Distinct.keeps (h : Distinct s) (hk : Keeps s t) : Distinct t := by
  intro v w hv hw hsame
  rw [hk.name v hv, hk.name w hw] at hsame
  exact h v w (hk.placed v hv) (hk.placed w hw) hsame

/-- A workspace is created under a free name. -/
theorem Distinct.create (h : Distinct s) {o : OutId} {name : String}
    (hc : Creates s t o name) (hfresh : Fresh s name) : Distinct t := by
  -- the new one and another
  have hnew : ∀ v, v ≠ s.nextWs → (t.ws v).output ≠ none →
      sameIgnoringCase (t.ws v).name (t.ws s.nextWs).name = false := by
    intro v hv hplaced
    rw [hc.ws v hv] at hplaced ⊢
    rw [hc.name]
    exact hfresh v hplaced
  intro v w hv hw hsame
  by_cases hvn : v = s.nextWs
  · by_cases hwn : w = s.nextWs
    · rw [hvn, hwn]
    · rw [hvn, sameIgnoringCase_comm, hnew w hwn hw] at hsame
      cases hsame
  · by_cases hwn : w = s.nextWs
    · rw [hwn, hnew v hvn hv] at hsame
      cases hsame
    · rw [hc.ws v hvn] at hv hsame
      rw [hc.ws w hwn] at hw hsame
      exact h v w hv hw hsame

/-- A workspace gets a free name. -/
theorem Distinct.rename (h : Distinct s) (w : WsId) {newName : String} (hfresh : Fresh s newName) :
    Distinct (s.modWs w fun k => { k with name := newName }) := by
  have hws : ∀ v, (s.modWs w fun k => { k with name := newName }).ws v =
      { s.ws v with name := if v = w then newName else (s.ws v).name } := by
    intro v
    rw [modWs_ws]
    split
    · next hv => rw [hv]
    · rfl
  intro u v hu hv hsame
  rw [hws] at hu hv
  rw [hws, hws] at hsame
  dsimp only at hsame
  by_cases huw : u = w
  · by_cases hvw : v = w
    · rw [huw, hvw]
    · rw [if_pos huw, if_neg hvw, sameIgnoringCase_comm, hfresh v hv] at hsame
      cases hsame
  · by_cases hvw : v = w
    · rw [if_neg huw, if_pos hvw, hfresh u hu] at hsame
      cases hsame
    · rw [if_neg huw, if_neg hvw] at hsame
      exact h u v hu hv hsame

/-- Outputs that are filled up get workspaces with free names. -/
theorem Distinct.refills (h : Distinct s) (hplain : PlainNames s.config) (hr : Refills s t) :
    Distinct t := by
  -- the settings stay along the way
  have hboth : Distinct t ∧ t.config = s.config := by
    induction hr with
    | keeps hk => exact ⟨h.keeps hk, hk.config⟩
    | create hlinked henabled hname hc =>
        exact ⟨h.create hc (workspaceNextName_fresh hlinked henabled hplain hname), hc.config⟩
    | trans _ _ ih ih' =>
        obtain ⟨hmid, hconfig⟩ := ih h hplain
        obtain ⟨hlast, hconfig'⟩ := ih' hmid (hconfig ▸ hplain)
        exact ⟨hlast, hconfig'.trans hconfig⟩
  exact hboth.1

theorem Distinct.congr (h : Distinct s) (hws : t.ws = s.ws) : Distinct t := by
  unfold Distinct at h ⊢
  rw [hws]
  exact h

/-- What the seat remembers is not touched by creating a workspace. -/
theorem workspaceCreate_prevWorkspaceName (s : SwayRoot) (output : Option OutId) (name : String) :
    (s.workspaceCreate output name).prevWorkspaceName = s.prevWorkspaceName := by
  have hadd : ∀ (u : SwayRoot) (o : OutId) (w : WsId),
      ((u.workspaceOutputAddPriority w o).outputAddWorkspace o w).prevWorkspaceName =
        u.prevWorkspaceName := by
    intro u o w
    unfold workspaceOutputAddPriority outputAddWorkspace workspaceDetach
    split_ifs
    · split <;> rfl
    · split <;> rfl
  unfold workspaceCreate
  exact hadd _ _ _

/-- The name the seat remembers is none that the lookups give a meaning. -/
def PlainPrev (s : SwayRoot) : Prop :=
  s.config.autoBackAndForth = true → ∀ p, s.prevWorkspaceName = some p → ¬ IsLookupWord p

/-- What `cmd_workspace` needs of the outputs and workspaces, and keeps until it switches. -/
structure Nameable (s : SwayRoot) : Prop where
  good : Good s
  distinct : Distinct s
  outputs : s.outputs ≠ []
  prev : PlainPrev s

/-- A workspace that was missed is created. -/
theorem Nameable.create (h : Nameable s) {name : String} (hm : Missed s name) :
    Nameable (s.workspaceCreate none name) := by
  have hfresh : Fresh s name := hm.fresh h.good.linked (h.good.allEnabled h.outputs) h.prev
  have hnone : ∀ o, (none : Option OutId) = some o → o ∈ s.outputs := by
    intro o ho
    cases ho
  obtain ⟨hgood, o, hc⟩ := h.good.create name hnone
  refine ⟨hgood, h.distinct.create hc hfresh, ?_, ?_⟩
  · rw [hc.outputs]
    exact h.outputs
  · unfold PlainPrev
    rw [hc.config, workspaceCreate_prevWorkspaceName]
    exact h.prev

/-- A context with a name that a new workspace may get. -/
def ContextNamed (s : SwayRoot) (c : LauncherCtx) : Prop :=
  match c.node with
  | .workspace _ => True
  | .output _ =>
      s.workspaceByName c.fallbackName = none → s.outputs = [] ∨ IsLookupWord c.fallbackName →
        Fresh s c.fallbackName
  | .root => Fresh s c.fallbackName

/-- The events that lead to no name twice: the names commands and new outputs are given are none
that the lookups give a meaning, and a window does not come through a context that would create a
workspace under a name that is taken, without a lookup or with one that does not see it. -/
def Named (s : SwayRoot) : Event → Prop
  | .workspace .. => PlainPrev s
  | .moveContainer .. => PlainPrev s
  | .enable .. => PlainNames s.config
  | .moveToOutput .. => PlainNames s.config
  | .map k => ∀ c, s.contexts k = some c → ContextNamed s c
  | _ => True

/-- A context creates workspaces under free names only. -/
theorem ContextNamed.fresh {c : LauncherCtx} (h : ContextNamed s c) (hgood : Good s)
    (hmissed : c.node = .root ∨ s.workspaceByName c.fallbackName = none)
    (hcreates : ∀ w, c.node ≠ .workspace w) : Fresh s c.fallbackName := by
  unfold ContextNamed at h
  split at h
  · next w hw => exact absurd hw (hcreates w)
  · next o ho =>
    have hnone := hmissed.resolve_left (by rw [ho]; exact CtxNode.noConfusion)
    by_cases hcond : s.outputs = [] ∨ IsLookupWord c.fallbackName
    · exact h hnone hcond
    · obtain ⟨hne, hword⟩ := not_or.1 hcond
      have hall := hgood.allEnabled hne
      exact fresh_of_findWorkspaceName hgood.linked hall
        (findWorkspaceName_of_workspaceByName hgood.linked hall hnone hword)
  · exact h

theorem Distinct.focusCalls (h : Distinct s) (hgood : Good s) (calls : List FocusCall) :
    Distinct (s.focusCalls calls) := by
  obtain ⟨htrim, hlinked⟩ := focusCalls_spec hgood.linked calls
  exact h.keeps (htrim.keeps hgood.linked hlinked)

theorem not_isLookupWord_of_not_special {name : String} (h : isSpecialName name = false) :
    ¬ IsLookupWord name := by
  rintro (heq | hsame)
  · rw [heq] at h
    revert h
    decide
  · unfold isSpecialName at h
    rw [List.any_eq_false] at h
    exact h "back_and_forth" (by simp) hsame

/-- The windows of a workspace change, and nothing that has to do with names. -/
theorem keeps_windows (s : SwayRoot) (w : WsId) (tiling floating minimized : List ConId) :
    Keeps s (s.modWs w fun k => { k with tiling, floating, minimized }) := by
  have hws : ∀ v, (s.modWs w fun k => { k with tiling, floating, minimized }).ws v =
      if v = w then { s.ws w with tiling, floating, minimized } else s.ws v :=
    s.modWs_ws w fun k => { k with tiling, floating, minimized }
  refine ⟨rfl, ?_, ?_⟩
  · intro v _
    rw [hws]
    split
    · next hv => rw [hv]
    · rfl
  · intro v hv
    rw [hws] at hv
    split at hv
    · next hvw =>
      rw [hvw]
      exact hv
    · exact hv

/-- **No event gives a name twice.** -/
theorem Distinct.step (h : Distinct s) (hgood : Good s) {e : Event} (hok : Named s e) :
    Distinct (s.step e) := by
  cases e with
  | workspace argv calls =>
      show Distinct (s.cmdWorkspace argv calls).1
      obtain ⟨config, hconfig⟩ | ⟨hne, auto, argv', t, w, calls', ht, heq⟩ :=
        s.cmdWorkspace_cases argv calls
      · rw [hconfig]
        exact h.congr rfl
      · rw [heq]
        have hname : Nameable t :=
          workspaceToSwitchTo_keeps (I := Nameable) (fun _ _ h hm => h.create hm)
            ⟨hgood, h, hne, hok⟩ ht
        exact hname.distinct.focusCalls hname.good calls'
  | moveContainer noAuto oldWs sticky word argv =>
      show Distinct (s.cmdMoveToWorkspace noAuto oldWs sticky word argv).1
      obtain hself | ⟨hne, name, hm, heq⟩ :=
        s.cmdMoveToWorkspace_cases noAuto oldWs sticky word argv
      · rw [hself]
        exact h
      · rw [heq]
        exact (Nameable.create ⟨hgood, h, hne, hok⟩ hm).distinct
  | rename workspace argv =>
      show Distinct (s.cmdRename workspace argv).1
      obtain hself | ⟨hne, w, newName, hspecial, hnone, hcase⟩ := s.cmdRename_cases workspace argv
      · rw [hself]
        exact h
      · have hword := not_isLookupWord_of_not_special hspecial
        have hall := hgood.allEnabled hne
        have hrename := h.rename w (fresh_of_findWorkspaceName hgood.linked hall
          (findWorkspaceName_of_workspaceByName hgood.linked hall hnone hword))
        obtain heq | ⟨o, heq⟩ := hcase
        · rw [heq]
          exact hrename
        · rw [heq]
          exact hrename.congr rfl
  | enable o calls =>
      show Distinct (if o ∉ s.outputs ∧ o ≠ s.fallbackOutput then s.outputEnable o calls else s)
      split
      · next ho => exact h.refills hok (outputEnable_spec hgood ho.1 ho.2 calls).2.1
      · exact h
  | disable o e =>
      show Distinct (if o ∈ s.outputs then s.outputDisable o e else s)
      split
      · next ho =>
        obtain ⟨-, -, hset, hname, hplaced, -⟩ := outputDisable_spec hgood ho e
        exact h.keeps ⟨hset.config, fun v _ => hname v, hplaced⟩
      · exact h
  | moveToOutput w o child seen calls =>
      show Distinct (if o ∈ s.outputs then s.workspaceMoveToOutput w o child seen calls else s)
      split
      · next ho => exact h.refills hok (workspaceMoveToOutput_spec hgood ho w child seen calls).2
      · exact h
  | destroyOutput o => exact h.congr rfl
  | launch k node child =>
      show Distinct (s.launcherCtxCreate k node child)
      unfold launcherCtxCreate
      dsimp only
      split
      · exact h.congr rfl
      · exact h
  | map k =>
      show Distinct (s.mapThroughContext k)
      obtain ⟨contexts, heq⟩ | ⟨c, output, contexts, hc, houtput, hcreates, hmissed, heq⟩ :=
        s.mapThroughContext_cases k
      · rw [heq]
        exact h.congr rfl
      · rw [heq]
        obtain ⟨-, o, hcreated⟩ := hgood.create c.fallbackName houtput
        have hfresh := (hok c hc).fresh hgood hmissed hcreates
        exact (h.create hcreated hfresh).congr rfl
  | focus calls => exact h.focusCalls hgood calls
  | windows w tiling floating minimized isSticky =>
      show Distinct (if (s.ws w).output.isSome then
        { s.modWs w fun k => { k with tiling, floating, minimized } with isSticky } else s)
      split
      · exact (h.keeps (keeps_windows s w tiling floating minimized)).congr rfl
      · exact h
  | fullscreen global => exact h.congr rfl
  | configure config => exact h.congr rfl

/-- No two workspaces on enabled outputs have names that are equal ignoring case. -/
def UniqueNames (s : SwayRoot) : Prop :=
  ∀ o ∈ s.outputs, ∀ p ∈ s.outputs, ∀ v ∈ s.workspaces o, ∀ w ∈ s.workspaces p,
    sameIgnoringCase (s.ws v).name (s.ws w).name = true → v = w

/-- The laptop, without a configured workspace. -/
def plainLaptop : SwayRoot := start 0 laptopLabel ⟨[], [], [], false⟩

/-- The workspace vanishes while its output is there: the context follows the output. -/
def codeEvents : List Event :=
  [.enable 1 [], .workspace ["code"] [], .launch 0 (.workspace 1) none, .focus [.vanish 1],
    .enable 2 [], .map 0, .rename none ["workspace", "code", "to", "mail"]]

/-- The workspace `2` ends with its output, comes back by its name, and comes back again with the
window. -/
def panelEvents : List Event :=
  [.enable 1 [], .enable 2 [], .launch 0 (.workspace 1) none, .disable 2 fun _ => ⟨none, false, []⟩,
    .workspace ["2"] [], .map 0]

end Distinct

end SwayRoot

end Swirl

import Mathlib.Data.List.Cycle
import Swirl.Common.Sort
import Swirl.Lib.Choice
import Swirl.Tree.WorkspaceNames

set_option autoImplicit false

/-! # Going through the workspaces

`workspace_prev` and `workspace_next` go through the workspaces in one cycle: those with a number by
their numbers, then the others in the order of the outputs and their lists. The way back always
follows it. The way forward starts with the first workspace when it looks for the least number, and
stays with it when it has none; and it leaves the list of an output at the first workspace without a
number, although one with a number may stand behind.
-/

namespace Swirl

namespace SwayRoot

variable {s : SwayRoot} {v w : WsId} {l p q : List WsId}

/-- The workspace has a number. -/
def isNumbered (s : SwayRoot) (w : WsId) : Bool := decide (0 ≤ s.workspaceGetNumber w)

/-! ## The walks -/

/-- The pairs the walks keep. -/
def withNumber (s : SwayRoot) (w : WsId) : WsId × Int := (w, s.workspaceGetNumber w)

/-- The second number takes the place of the first. -/
def numberPrefers (s : SwayRoot) (beats : Int → Int → Bool) (v w : WsId) : Bool :=
  beats (s.workspaceGetNumber w) (s.workspaceGetNumber v)

/-- The second workspace takes the place of the first, if it has a number. -/
def otherPrefers (s : SwayRoot) (beats : Int → Int → Bool) (v w : WsId) : Bool :=
  s.isNumbered w && s.numberPrefers beats v w

/-- A choice without an end before the end of the list. -/
def bestOf (prefers : WsId → WsId → Bool) (l : List WsId) (kept : Option WsId) : Option WsId :=
  Lib.choose prefers (fun _ => false) l kept

theorem bestOf_cons (prefers : WsId → WsId → Bool) (l : List WsId) (v : WsId)
    (kept : Option WsId) : bestOf prefers (v :: l) kept =
      bestOf prefers l (if kept.all (fun c => prefers c v) then some v else kept) :=
  Lib.choose_cons rfl kept

section Walks

variable (beats : Int → Int → Bool)

/-- The workspace that is kept after one more. -/
def keepOther (s : SwayRoot) (beats : Int → Int → Bool) (v : WsId) (kept : Option WsId) :
    Option WsId :=
  if kept.all (fun c => s.otherPrefers beats c v) then some v else kept

theorem withNumber_keepOther (v : WsId) (kept : Option WsId) :
    (s.keepOther beats v kept).map s.withNumber =
      match kept.map s.withNumber with
      | none => some (v, s.workspaceGetNumber v)
      | some (o, m) =>
          if 0 ≤ s.workspaceGetNumber v && beats (s.workspaceGetNumber v) m then
            some (v, s.workspaceGetNumber v)
          else some (o, m) := by
  cases kept with
  | none => rfl
  | some c =>
      have hrule : s.keepOther beats v (some c) =
          if 0 ≤ s.workspaceGetNumber v &&
            beats (s.workspaceGetNumber v) (s.workspaceGetNumber c) then some v else some c := rfl
      rw [hrule, Option.map_some]
      dsimp only [withNumber]
      split <;> rfl

theorem scanNamed_cons (v : WsId) (l : List WsId) (first kept : Option WsId) (found : Bool) :
    s.scanNamed beats w (v :: l) first (kept.map s.withNumber) found =
      if v = w then
        s.scanNamed beats w l (first.or (some v)) ((s.keepOther beats v kept).map s.withNumber) true
      else if s.workspaceGetNumber v < 0 ∧ found then some v
      else s.scanNamed beats w l (first.or (some v)) ((s.keepOther beats v kept).map s.withNumber)
        found := by
  rw [withNumber_keepOther]
  rfl

/-- Behind the workspace itself, the walk ends at the first one without a number. -/
theorem scanNamed_found (hw : w ∉ q) (first : Option WsId) (kept : Option WsId)
    (hkept : kept.isSome) : s.scanNamed beats w q first (kept.map s.withNumber) true =
      (q.find? fun v => !s.isNumbered v).or (bestOf (s.otherPrefers beats) q kept) := by
  induction q generalizing first kept with
  | nil =>
      obtain ⟨c, rfl⟩ := Option.isSome_iff_exists.mp hkept
      rfl
  | cons v q ih =>
      obtain ⟨hv, hq⟩ := List.ne_and_not_mem_of_not_mem_cons hw
      rw [scanNamed_cons, if_neg hv.symm, List.find?_cons, bestOf_cons]
      by_cases hn : s.isNumbered v = true
      · have hnot : ¬ (s.workspaceGetNumber v < 0 ∧ true = true) :=
          fun h => absurd (of_decide_eq_true hn) (not_le.mpr h.1)
        have hstill : (s.keepOther beats v kept).isSome := by
          unfold keepOther
          split
          · rfl
          · exact hkept
        rw [if_neg hnot, hn]
        exact ih hq _ _ hstill
      · have hneg : s.workspaceGetNumber v < 0 := by simpa [isNumbered] using hn
        rw [if_pos ⟨hneg, rfl⟩, Bool.eq_false_iff.mpr hn]
        rfl

/-- Up to the workspace itself, the walk only keeps the best one. -/
theorem scanNamed_eq (hp : w ∉ p) (hq : w ∉ q) (first kept : Option WsId) :
    s.scanNamed beats w (p ++ w :: q) first (kept.map s.withNumber) false =
      (q.find? fun v => !s.isNumbered v).or
        (bestOf (s.otherPrefers beats) (p ++ w :: q) kept) := by
  induction p generalizing first kept with
  | nil =>
      have hsome : (s.keepOther beats w kept).isSome := by
        unfold keepOther
        cases kept with
        | none => rfl
        | some c => split <;> rfl
      rw [List.nil_append, bestOf_cons, scanNamed_cons, if_pos rfl]
      exact scanNamed_found beats hq _ _ hsome
  | cons v p ih =>
      obtain ⟨hv, hp⟩ := List.ne_and_not_mem_of_not_mem_cons hp
      have hnot : ¬ (s.workspaceGetNumber v < 0 ∧ false = true) := fun h => absurd h.2 (by decide)
      rw [List.cons_append, bestOf_cons, scanNamed_cons, if_neg hv.symm, if_neg hnot]
      exact ih hp _ _

/-- The number lies in the direction of the walk from `n`. -/
def isCandidate (s : SwayRoot) (beats : Int → Int → Bool) (n : Int) (v : WsId) : Bool :=
  s.isNumbered v && beats n (s.workspaceGetNumber v)

/-- The number that is kept after one more. -/
def keepNear (s : SwayRoot) (beats : Int → Int → Bool) (v : WsId) (kept : Option WsId) :
    Option WsId :=
  if kept.all (fun c => s.numberPrefers beats c v) then some v else kept

theorem withNumber_keepNear (v : WsId) (kept : Option WsId) :
    (s.keepNear beats v kept).map s.withNumber =
      match kept.map s.withNumber with
      | none => some (v, s.workspaceGetNumber v)
      | some (o, m) =>
          if beats (s.workspaceGetNumber v) m then some (v, s.workspaceGetNumber v)
          else some (o, m) := by
  cases kept with
  | none => rfl
  | some c =>
      have hrule : s.keepNear beats v (some c) =
          if beats (s.workspaceGetNumber v) (s.workspaceGetNumber c) then some v else some c := rfl
      rw [hrule, Option.map_some]
      dsimp only [withNumber]
      split <;> rfl

theorem scanNumbered_cons (n : Int) (v : WsId) (l : List WsId) (first other near : Option WsId) :
    s.scanNumbered beats n (v :: l) (first.map s.withNumber) other (near.map s.withNumber) =
      s.scanNumbered beats n l ((s.keepOther beats v first).map s.withNumber)
        (if s.workspaceGetNumber v < 0 then other.or (some v) else other)
        (if 0 ≤ s.workspaceGetNumber v ∧ beats n (s.workspaceGetNumber v) then
          (s.keepNear beats v near).map s.withNumber else near.map s.withNumber) := by
  rw [withNumber_keepOther, withNumber_keepNear]
  rfl

/-- The closest number, or else a workspace without a number, or else the best number. -/
theorem scanNumbered_eq (n : Int) (l : List WsId) (first other near : Option WsId) :
    s.scanNumbered beats n l (first.map s.withNumber) other (near.map s.withNumber) =
      (bestOf (s.numberPrefers beats) (l.filter (s.isCandidate beats n)) near).or
        ((other.or (l.find? fun v => !s.isNumbered v)).or
          (bestOf (s.otherPrefers beats) l first)) := by
  induction l generalizing first other near with
  | nil =>
      rw [scanNumbered, List.filter_nil, List.find?_nil, Option.or_none]
      cases near <;> cases first <;> rfl
  | cons v l ih =>
      have hother : (if s.workspaceGetNumber v < 0 then other.or (some v) else other).or
          (l.find? fun v => !s.isNumbered v) =
          other.or ((v :: l).find? fun v => !s.isNumbered v) := by
        rw [List.find?_cons]
        by_cases hn : s.isNumbered v = true
        · rw [if_neg (not_lt.mpr (of_decide_eq_true hn)), hn]
          rfl
        · have hneg : s.workspaceGetNumber v < 0 := by simpa [isNumbered] using hn
          rw [if_pos hneg, Bool.eq_false_iff.mpr hn]
          cases other <;> rfl
      rw [scanNumbered_cons, bestOf_cons]
      by_cases hcand : 0 ≤ s.workspaceGetNumber v ∧ beats n (s.workspaceGetNumber v) = true
      · have hkeep : s.isCandidate beats n v = true := by
          unfold isCandidate
          rw [hcand.2, Bool.and_true]
          exact decide_eq_true hcand.1
        rw [if_pos hcand, ih, hother, List.filter_cons_of_pos hkeep, bestOf_cons]
        rfl
      · have hskip : ¬ s.isCandidate beats n v = true := by
          unfold isCandidate
          rw [Bool.and_eq_true]
          exact fun h => hcand ⟨of_decide_eq_true h.1, h.2⟩
        rw [if_neg hcand, ih, hother, List.filter_cons_of_neg hskip]
        rfl

end Walks

/-! ## The cycle -/

/-- The workspaces with a number, by their numbers. -/
def numbered (s : SwayRoot) : List WsId :=
  (s.enabledWorkspaces.filter s.isNumbered).insertionSort fun v w =>
    s.workspaceGetNumber v ≤ s.workspaceGetNumber w

/-- The workspaces without a number. -/
def named (s : SwayRoot) : List WsId := s.enabledWorkspaces.filter fun v => !s.isNumbered v

/-- All workspaces, in the order of the cycle. -/
def workspaceCycle (s : SwayRoot) : List WsId := s.numbered ++ s.named

/-- A workspace is on one output, and a number is that of one workspace. -/
structure DistinctWorkspaces (s : SwayRoot) : Prop where
  nodup : s.enabledWorkspaces.Nodup
  number : ∀ v ∈ s.enabledWorkspaces, ∀ w ∈ s.enabledWorkspaces, s.isNumbered v = true →
    s.workspaceGetNumber v = s.workspaceGetNumber w → v = w

theorem mem_numbered : v ∈ s.numbered ↔ v ∈ s.enabledWorkspaces ∧ s.isNumbered v = true := by
  unfold numbered
  rw [List.mem_insertionSort, List.mem_filter]

theorem mem_named : v ∈ s.named ↔ v ∈ s.enabledWorkspaces ∧ s.isNumbered v = false := by
  unfold named
  rw [List.mem_filter, Bool.not_eq_true']

theorem mem_workspaceCycle : v ∈ s.workspaceCycle ↔ v ∈ s.enabledWorkspaces := by
  unfold workspaceCycle
  rw [List.mem_append, mem_numbered, mem_named]
  cases s.isNumbered v <;> simp

theorem DistinctWorkspaces.nodup_numbered (h : DistinctWorkspaces s) : s.numbered.Nodup :=
  (List.perm_insertionSort _ _).nodup_iff.mpr (h.nodup.filter _)

theorem DistinctWorkspaces.nodup_named (h : DistinctWorkspaces s) : s.named.Nodup :=
  h.nodup.filter _

theorem DistinctWorkspaces.nodup_cycle (h : DistinctWorkspaces s) : s.workspaceCycle.Nodup := by
  refine List.Nodup.append h.nodup_numbered h.nodup_named fun v hv hv' => ?_
  have hyes := (mem_numbered.mp hv).2
  rw [(mem_named.mp hv').2] at hyes
  cases hyes

/-- The numbers rise. -/
theorem DistinctWorkspaces.numbered_lt (h : DistinctWorkspaces s) :
    s.numbered.Pairwise fun v w => s.workspaceGetNumber v < s.workspaceGetNumber w := by
  have hsorted : s.numbered.Pairwise fun v w =>
      s.workspaceGetNumber v ≤ s.workspaceGetNumber w := List.pairwise_insertionSort _ _
  refine (hsorted.and h.nodup_numbered).imp_of_mem fun {v w} hv hw hvw => ?_
  obtain ⟨hvmem, hvnum⟩ := mem_numbered.mp hv
  exact lt_of_le_of_ne hvw.1 fun heq => hvw.2 (h.number v hvmem w (mem_numbered.mp hw).1 hvnum heq)

theorem workspaceGetNumber_of_named (hv : s.isNumbered v = false) :
    s.workspaceGetNumber v = -1 := by
  have hneg : s.workspaceGetNumber v < 0 := not_le.mp (of_decide_eq_false hv)
  unfold workspaceGetNumber at hneg ⊢
  dsimp only at hneg ⊢
  split
  · rfl
  next hnot =>
    rw [if_neg hnot] at hneg
    exact absurd hneg fun hlt => hnot (Or.inr (Or.inr (Or.inl hlt)))

theorem neg_one_le_workspaceGetNumber (s : SwayRoot) (v : WsId) : -1 ≤ s.workspaceGetNumber v := by
  cases hv : s.isNumbered v with
  | false => rw [workspaceGetNumber_of_named hv]
  | true =>
      have hnum : 0 ≤ s.workspaceGetNumber v := of_decide_eq_true hv
      omega

/-- The workspaces without a number before and after one of them. -/
theorem DistinctWorkspaces.exists_split_named (h : DistinctWorkspaces s)
    (hsplit : s.named = p ++ v :: q) : ∃ p' q', s.enabledWorkspaces = p' ++ v :: q' ∧
      v ∉ p' ∧ v ∉ q' ∧ p = p'.filter (fun v => !s.isNumbered v) ∧
        q = q'.filter fun v => !s.isNumbered v := by
  have hv : v ∈ s.named := by
    rw [hsplit]
    simp
  obtain ⟨hmem, hname⟩ := mem_named.mp hv
  obtain ⟨p', q', hall⟩ := List.append_of_mem hmem
  have hnodup := h.nodup
  rw [hall] at hnodup
  have hp' : v ∉ p' := fun hm => List.disjoint_of_nodup_append hnodup hm List.mem_cons_self
  have hq' : v ∉ q' := (List.nodup_cons.mp hnodup.of_append_right).1
  have hsame : p'.filter (fun v => !s.isNumbered v) ++ v :: q'.filter (fun v => !s.isNumbered v) =
      p ++ v :: q := by
    rw [← hsplit, named, hall, List.filter_append, List.filter_cons_of_pos (by rw [hname]; rfl)]
  obtain ⟨hp, -, hq⟩ := (List.append_cons_inj_of_notMem
    (fun hm => hp' (List.mem_of_mem_filter hm)) fun hm => hq' (List.mem_of_mem_filter hm)).mp hsame
  exact ⟨p', q', hall, hp', hq', hp.symm, hq.symm⟩

/-- A workspace of the cycle has a number, or stands behind those that have one. -/
theorem split_cycle (hsplit : s.workspaceCycle = p ++ v :: q) :
    (s.isNumbered v = true ∧ ∃ q', s.numbered = p ++ v :: q' ∧ q = q' ++ s.named) ∨
      s.isNumbered v = false ∧ ∃ p', s.named = p' ++ v :: q ∧ p = s.numbered ++ p' := by
  rcases List.append_eq_append_iff.mp hsplit with ⟨p', hp, hM⟩ | ⟨q', hN, hq⟩
  · refine Or.inr ⟨?_, p', hM, hp⟩
    exact (mem_named.mp (by rw [hM]; simp)).2
  · cases q' with
    | nil =>
        rw [List.append_nil] at hN
        refine Or.inr ⟨?_, [], hq.symm, by rw [hN, List.append_nil]⟩
        exact (mem_named.mp (by rw [← List.nil_append s.named, ← hq]; exact List.mem_cons_self)).2
    | cons u q' =>
        obtain ⟨rfl, htail⟩ := List.cons.inj hq
        refine Or.inl ⟨?_, q', hN, htail⟩
        exact (mem_numbered.mp (by rw [hN]; simp)).2

/-- Which numbers are less and which are greater. -/
theorem DistinctWorkspaces.split_numbered (h : DistinctWorkspaces s)
    (hsplit : s.numbered = p ++ v :: q) (hw : w ∈ s.enabledWorkspaces)
    (hnum : s.isNumbered w = true) :
    (s.workspaceGetNumber w < s.workspaceGetNumber v ↔ w ∈ p) ∧
      (s.workspaceGetNumber v < s.workspaceGetNumber w ↔ w ∈ q) := by
  have hlt := h.numbered_lt
  have hmem : w ∈ s.numbered := mem_numbered.mpr ⟨hw, hnum⟩
  rw [hsplit] at hlt hmem
  obtain ⟨-, hvq, hpv⟩ := List.pairwise_append.mp hlt
  have hbelow : ∀ x ∈ p, s.workspaceGetNumber x < s.workspaceGetNumber v :=
    fun x hx => hpv x hx v List.mem_cons_self
  have habove : ∀ x ∈ q, s.workspaceGetNumber v < s.workspaceGetNumber x :=
    (List.pairwise_cons.mp hvq).1
  rcases List.mem_append.mp hmem with hp | hvq'
  · have hb := hbelow w hp
    refine ⟨iff_of_true hb hp, iff_of_false (by omega) fun hq => ?_⟩
    have ha := habove w hq
    omega
  · rcases List.mem_cons.mp hvq' with rfl | hq
    · refine ⟨iff_of_false (lt_irrefl _) fun hp => ?_, iff_of_false (lt_irrefl _) fun hq => ?_⟩
      · exact lt_irrefl _ (hbelow w hp)
      · exact lt_irrefl _ (habove w hq)
    · have ha := habove w hq
      refine ⟨iff_of_false (by omega) fun hp => ?_, iff_of_true ha hq⟩
      have hb := hbelow w hp
      omega

/-! ## Backwards -/

/-- `workspace_prev` prefers the greater number. -/
def greater (n m : Int) : Bool := decide (m < n)

/-- `workspace_next` prefers the smaller number. -/
def smaller (n m : Int) : Bool := decide (n < m)

/-- A choice that follows a rank takes the first best workspace. -/
theorem bestOf_eq_argmax {prefers : WsId → WsId → Bool} {rank : WsId → Int}
    (h : ∀ v w, prefers v w = true ↔ rank v < rank w) (l : List WsId) :
    bestOf prefers l none = l.argmax rank :=
  Lib.choose_eq_argmax (List.pairwise_of_forall h) fun _ _ hstop => nomatch hstop

theorem numberPrefers_greater (v w : WsId) :
    s.numberPrefers greater v w = true ↔ s.workspaceGetNumber v < s.workspaceGetNumber w :=
  decide_eq_true_iff

theorem numberPrefers_smaller (v w : WsId) :
    s.numberPrefers smaller v w = true ↔ -s.workspaceGetNumber v < -s.workspaceGetNumber w := by
  rw [neg_lt_neg_iff]
  exact decide_eq_true_iff

/-- A greater number is one, since no number is less than that of a workspace without one. -/
theorem otherPrefers_greater (v w : WsId) :
    s.otherPrefers greater v w = true ↔ s.workspaceGetNumber v < s.workspaceGetNumber w := by
  unfold otherPrefers
  rw [Bool.and_eq_true, numberPrefers_greater]
  refine and_iff_right_of_imp fun hlt => decide_eq_true ?_
  have hv := neg_one_le_workspaceGetNumber s v
  omega

/-- A choice that never prefers another one keeps the first. -/
theorem bestOf_keeps {prefers : WsId → WsId → Bool}
    (h : ∀ v ∈ l.head?, ∀ w ∈ l, prefers v w = false) : bestOf prefers l none = l.head? := by
  cases l with
  | nil => rfl
  | cons v l =>
      have hkeep : ∀ w ∈ l, prefers v w = false :=
        fun w hw => h v rfl w (List.mem_cons_of_mem v hw)
      clear h
      rw [bestOf_cons]
      show bestOf prefers l (some v) = some v
      induction l with
      | nil => rfl
      | cons w l ih =>
          have hvw : (some v).all (fun c => prefers c w) = false := hkeep w List.mem_cons_self
          rw [bestOf_cons, hvw]
          exact ih fun u hu => hkeep u (List.mem_cons_of_mem w hu)

/-- The last workspace of the cycle with a number has the greatest one. -/
theorem DistinctWorkspaces.bestOf_greater (h : DistinctWorkspaces s)
    (hl : ∀ v, v ∈ l ↔ v ∈ s.enabledWorkspaces) (hsplit : s.numbered = p ++ [v]) :
    bestOf (s.otherPrefers greater) l none = some v := by
  have hv : v ∈ s.numbered := by
    rw [hsplit]
    simp
  obtain ⟨hmem, hnum⟩ := mem_numbered.mp hv
  rw [bestOf_eq_argmax otherPrefers_greater]
  refine Lib.argmax_of_lt ((hl v).mpr hmem) fun w hw hwv => ?_
  have hwmem := (hl w).mp hw
  cases hwnum : s.isNumbered w with
  | false =>
      have hle : 0 ≤ s.workspaceGetNumber v := of_decide_eq_true hnum
      rw [workspaceGetNumber_of_named hwnum]
      omega
  | true =>
      have hin : w ∈ s.numbered := mem_numbered.mpr ⟨hwmem, hwnum⟩
      rw [hsplit, List.mem_append, List.mem_singleton] at hin
      exact ((h.split_numbered hsplit hwmem hwnum).1).mpr (hin.resolve_right hwv)

/-- The closest smaller number is that before in the cycle. -/
theorem DistinctWorkspaces.near_greater (h : DistinctWorkspaces s)
    (hl : ∀ v, v ∈ l ↔ v ∈ s.enabledWorkspaces) (hsplit : s.numbered = p ++ v :: q) :
    bestOf (s.numberPrefers greater) (l.filter (s.isCandidate greater (s.workspaceGetNumber v)))
      none = p.getLast? := by
  have hcand : ∀ w, w ∈ l.filter (s.isCandidate greater (s.workspaceGetNumber v)) ↔ w ∈ p := by
    intro w
    have hpn : w ∈ p → w ∈ s.numbered := fun hw => by
      rw [hsplit]
      exact List.mem_append_left _ hw
    rw [List.mem_filter, hl]
    unfold isCandidate greater
    rw [Bool.and_eq_true, decide_eq_true_iff]
    constructor
    · rintro ⟨hw, hnum, hlt⟩
      exact (h.split_numbered hsplit hw hnum).1.mp hlt
    · intro hw
      obtain ⟨hmem, hnum⟩ := mem_numbered.mp (hpn hw)
      exact ⟨hmem, hnum, (h.split_numbered hsplit hmem hnum).1.mpr hw⟩
  rw [bestOf_eq_argmax numberPrefers_greater]
  rcases List.eq_nil_or_concat' p with rfl | ⟨p, x, rfl⟩
  · rw [List.eq_nil_iff_forall_not_mem.mpr fun w hw => List.not_mem_nil ((hcand w).mp hw)]
    rfl
  · rw [List.getLast?_concat]
    refine Lib.argmax_of_lt ((hcand x).mpr (by simp)) fun w hw hwx => ?_
    have hwp : w ∈ p := by
      have hin := (hcand w).mp hw
      rw [List.mem_append, List.mem_singleton] at hin
      exact hin.resolve_right hwx
    have hlt := h.numbered_lt
    rw [hsplit, List.append_assoc] at hlt
    exact (List.pairwise_append.mp hlt).2.2 w hwp x (by simp)

theorem find?_reverse_named (l : List WsId) : l.reverse.find? (fun v => !s.isNumbered v) =
    (l.filter fun v => !s.isNumbered v).getLast? := by
  rw [← List.head?_filter, List.filter_reverse, List.head?_reverse]

/-- What `workspace_prev` falls back to. -/
theorem DistinctWorkspaces.bestOf_reverse (h : DistinctWorkspaces s) :
    bestOf (s.otherPrefers greater) s.enabledWorkspaces.reverse none =
      s.numbered.getLast?.or s.named.getLast? := by
  rcases List.eq_nil_or_concat' s.numbered with hnil | ⟨p, v, hsplit⟩
  · -- without a number, the last workspace is kept
    have hno : ∀ v ∈ s.enabledWorkspaces, s.isNumbered v = false := by
      intro v hv
      rw [← Bool.not_eq_true]
      intro hnum
      have hin := mem_numbered.mpr ⟨hv, hnum⟩
      rw [hnil] at hin
      cases hin
    have hall : s.named = s.enabledWorkspaces :=
      List.filter_eq_self.mpr fun v hv => by rw [hno v hv]; rfl
    rw [hnil, hall, List.getLast?_nil, Option.none_or, ← List.head?_reverse]
    refine bestOf_keeps fun v _ w hw => ?_
    unfold otherPrefers
    rw [hno w (List.mem_reverse.mp hw), Bool.false_and]
  · rw [h.bestOf_greater (fun v => List.mem_reverse) hsplit, hsplit, List.getLast?_concat]
    rfl

/-- **`workspace_prev` goes back in the cycle.** -/
theorem DistinctWorkspaces.workspacePrev_eq (h : DistinctWorkspaces s)
    (hsplit : s.workspaceCycle = p ++ v :: q) :
    s.workspacePrev v = p.getLast?.or s.workspaceCycle.getLast? := by
  have hlast : s.workspaceCycle.getLast? = s.named.getLast?.or s.numbered.getLast? :=
    List.getLast?_append
  have hback := h.bestOf_reverse
  have hmem : ∀ w, w ∈ s.enabledWorkspaces.reverse ↔ w ∈ s.enabledWorkspaces :=
    fun w => List.mem_reverse
  unfold workspacePrev
  dsimp only
  rcases split_cycle hsplit with ⟨hnum, q', hN, -⟩ | ⟨hnum, p', hM, rfl⟩
  · -- the closest smaller number, or the last one without a number
    have hscan := scanNumbered_eq (s := s) greater (s.workspaceGetNumber v)
      s.enabledWorkspaces.reverse none none none
    have hnonneg : 0 ≤ s.workspaceGetNumber v := of_decide_eq_true hnum
    rw [if_neg (not_lt.mpr hnonneg)]
    refine hscan.trans ?_
    rw [h.near_greater hmem hN, find?_reverse_named, Option.none_or, hback, hlast]
    show p.getLast?.or (s.named.getLast?.or (s.numbered.getLast?.or s.named.getLast?)) = _
    cases s.named.getLast? <;> simp
  · -- the one before it without a number, or the greatest number
    obtain ⟨u, t, hall, hu, ht, hp, -⟩ := h.exists_split_named hM
    have hrev : s.enabledWorkspaces.reverse = t.reverse ++ v :: u.reverse := by
      rw [hall]
      simp
    have hscan := scanNamed_eq (s := s) greater (mt List.mem_reverse.mp ht)
      (mt List.mem_reverse.mp hu) none none
    have hneg : s.workspaceGetNumber v < 0 := not_le.mp (of_decide_eq_false hnum)
    rw [if_pos hneg]
    rw [← hrev] at hscan
    refine hscan.trans ?_
    rw [find?_reverse_named, hback, ← hp, hlast, List.getLast?_append]
    cases p'.getLast? <;> cases s.numbered.getLast? <;> cases s.named.getLast? <;> rfl

/-! ## Forwards -/

/-- What `workspace_next` looks at from a workspace with a number. -/
def seenByNext (s : SwayRoot) : List WsId :=
  s.outputs.flatMap fun o => s.upToNamed (s.workspaces o)

/-- The numbers come first: the first workspace of all has one, if any has, and on the output of
every workspace with a number, but the least, none without a number stands before it. -/
structure NumbersFirst (s : SwayRoot) : Prop where
  first : ∀ v ∈ s.enabledWorkspaces.head?, s.isNumbered v = true
  ahead : ∀ v ∈ s.enabledWorkspaces, s.isNumbered v = true →
    (∃ u ∈ s.enabledWorkspaces, s.isNumbered u = true ∧
      s.workspaceGetNumber u < s.workspaceGetNumber v) →
    ∃ o ∈ s.outputs, v ∈ (s.workspaces o).takeWhile s.isNumbered

theorem upToNamed_cons (v : WsId) (l : List WsId) : s.upToNamed (v :: l) =
    if s.isNumbered v then v :: s.upToNamed l else [v] := by
  rw [upToNamed]
  cases hv : s.isNumbered v with
  | true => rw [if_neg (not_lt.mpr (of_decide_eq_true hv)), if_pos rfl]
  | false => rw [if_pos (not_le.mp (of_decide_eq_false hv)), if_neg Bool.false_ne_true]

theorem upToNamed_subset (l : List WsId) : s.upToNamed l ⊆ l := by
  induction l with
  | nil => exact List.Subset.refl _
  | cons v l ih =>
      rw [upToNamed_cons]
      split
      · exact List.cons_subset_cons v ih
      · exact List.cons_subset_cons v (List.nil_subset l)

/-- The first workspace without a number is among those looked at. -/
theorem find?_upToNamed (l : List WsId) : (s.upToNamed l).find? (fun v => !s.isNumbered v) =
    l.find? fun v => !s.isNumbered v := by
  induction l with
  | nil => rfl
  | cons v l ih =>
      rw [upToNamed_cons, List.find?_cons]
      cases hv : s.isNumbered v with
      | true => rw [if_pos rfl, List.find?_cons, hv, ih]
      | false => rw [if_neg Bool.false_ne_true, List.find?_cons, hv]; rfl

theorem mem_upToNamed (hv : s.isNumbered v = true) :
    v ∈ s.upToNamed l ↔ v ∈ l.takeWhile s.isNumbered := by
  induction l with
  | nil => exact Iff.rfl
  | cons w l ih =>
      rw [upToNamed_cons, List.takeWhile_cons]
      cases hw : s.isNumbered w with
      | true => rw [if_pos rfl, if_pos rfl, List.mem_cons, List.mem_cons, ih]
      | false =>
          rw [if_neg Bool.false_ne_true, if_neg Bool.false_ne_true, List.mem_singleton]
          refine iff_of_false (fun he => ?_) List.not_mem_nil
          rw [he, hw] at hv
          cases hv

theorem upToNamed_eq_self (h : ∀ v ∈ l, s.isNumbered v = true) : s.upToNamed l = l := by
  induction l with
  | nil => rfl
  | cons v l ih =>
      rw [upToNamed_cons, if_pos (h v List.mem_cons_self),
        ih fun w hw => h w (List.mem_cons_of_mem v hw)]

theorem seenByNext_subset (s : SwayRoot) : s.seenByNext ⊆ s.enabledWorkspaces := by
  intro v hv
  obtain ⟨o, ho, hmem⟩ := List.mem_flatMap.mp hv
  exact List.mem_flatMap.mpr ⟨o, ho, upToNamed_subset _ hmem⟩

theorem find?_seenByNext (s : SwayRoot) :
    s.seenByNext.find? (fun v => !s.isNumbered v) = s.named.head? := by
  unfold seenByNext named enabledWorkspaces
  rw [List.head?_filter]
  induction s.outputs with
  | nil => rfl
  | cons o l ih =>
      rw [List.flatMap_cons, List.flatMap_cons, List.find?_append, List.find?_append,
        find?_upToNamed, ih]

theorem mem_seenByNext (hv : s.isNumbered v = true) :
    v ∈ s.seenByNext ↔ ∃ o ∈ s.outputs, v ∈ (s.workspaces o).takeWhile s.isNumbered := by
  unfold seenByNext
  rw [List.mem_flatMap]
  exact exists_congr fun o => and_congr_right fun _ => mem_upToNamed hv

theorem seenByNext_eq_self (h : s.named = []) : s.seenByNext = s.enabledWorkspaces := by
  have hall : ∀ v ∈ s.enabledWorkspaces, s.isNumbered v = true := by
    intro v hv
    by_contra hnum
    have hin := mem_named.mpr ⟨hv, Bool.eq_false_iff.mpr hnum⟩
    rw [h] at hin
    cases hin
  unfold seenByNext enabledWorkspaces
  refine List.flatMap_congr fun o ho => upToNamed_eq_self fun v hv => ?_
  exact hall v (List.mem_flatMap.mpr ⟨o, ho, hv⟩)

/-- The closest greater number is that behind in the cycle, if it is looked at. -/
theorem DistinctWorkspaces.near_smaller (h : DistinctWorkspaces s)
    (hl : l ⊆ s.enabledWorkspaces) (hsplit : s.numbered = p ++ v :: q)
    (hseen : ∀ w ∈ q.head?, w ∈ l) :
    bestOf (s.numberPrefers smaller) (l.filter (s.isCandidate smaller (s.workspaceGetNumber v)))
      none = q.head? := by
  have hcand : ∀ w, w ∈ l.filter (s.isCandidate smaller (s.workspaceGetNumber v)) ↔
      w ∈ l ∧ w ∈ q := by
    intro w
    have hqn : w ∈ q → w ∈ s.numbered := fun hw => by
      rw [hsplit]
      exact List.mem_append_right _ (List.mem_cons_of_mem v hw)
    rw [List.mem_filter]
    refine and_congr_right fun hw => ?_
    unfold isCandidate smaller
    rw [Bool.and_eq_true, decide_eq_true_iff]
    constructor
    · rintro ⟨hnum, hlt⟩
      exact (h.split_numbered hsplit (hl hw) hnum).2.mp hlt
    · intro hq
      have hnum := (mem_numbered.mp (hqn hq)).2
      exact ⟨hnum, (h.split_numbered hsplit (hl hw) hnum).2.mpr hq⟩
  rw [bestOf_eq_argmax numberPrefers_smaller]
  cases q with
  | nil =>
      rw [List.eq_nil_iff_forall_not_mem.mpr fun w hw => List.not_mem_nil ((hcand w).mp hw).2]
      rfl
  | cons x q =>
      refine Lib.argmax_of_lt ((hcand x).mpr ⟨hseen x rfl, List.mem_cons_self⟩) fun w hw hwx => ?_
      have hwq : w ∈ q := (List.mem_cons.mp ((hcand w).mp hw).2).resolve_left hwx
      have hlt := h.numbered_lt
      rw [hsplit] at hlt
      have htail := (List.pairwise_cons.mp (List.pairwise_append.mp hlt).2.1).2
      exact neg_lt_neg ((List.pairwise_cons.mp htail).1 w hwq)

/-- From a workspace with a number on, the walk finds the least number. -/
theorem DistinctWorkspaces.bestOf_smaller (h : DistinctWorkspaces s)
    (hl : ∀ v, v ∈ l ↔ v ∈ s.enabledWorkspaces) (hfirst : ∀ v ∈ l.head?, s.isNumbered v = true) :
    bestOf (s.otherPrefers smaller) l none = s.numbered.head? := by
  cases l with
  | nil =>
      have hnil : s.numbered = [] := List.eq_nil_iff_forall_not_mem.mpr fun v hv =>
        List.not_mem_nil ((hl v).mpr (mem_numbered.mp hv).1)
      rw [hnil]
      rfl
  | cons v l =>
      have hv := hfirst v rfl
      -- those without a number are never preferred
      have hdrop : bestOf (s.otherPrefers smaller) (v :: l) none =
          bestOf (s.otherPrefers smaller) ((v :: l).filter s.isNumbered) none := by
        rw [List.filter_cons_of_pos hv, bestOf_cons, bestOf_cons]
        refine Lib.choose_filter (fun _ => rfl) fun c d _ hd => ?_
        unfold otherPrefers
        rw [hd, Bool.false_and]
      have hin : ∀ w, w ∈ (v :: l).filter s.isNumbered ↔ w ∈ s.numbered := by
        intro w
        rw [List.mem_filter, hl, mem_numbered]
      have hargmax : bestOf (s.otherPrefers smaller) ((v :: l).filter s.isNumbered) none =
          ((v :: l).filter s.isNumbered).argmax fun w => -s.workspaceGetNumber w := by
        refine Lib.choose_eq_argmax ?_ fun _ _ hstop => nomatch hstop
        refine List.pairwise_of_forall_mem_list fun c _ d hd => ?_
        unfold otherPrefers
        rw [(mem_numbered.mp ((hin d).mp hd)).2, Bool.true_and]
        exact numberPrefers_smaller c d
      rw [hdrop, hargmax]
      cases hN : s.numbered with
      | nil =>
          have hvin := (hin v).mp (List.mem_filter.mpr ⟨List.mem_cons_self, hv⟩)
          rw [hN] at hvin
          cases hvin
      | cons x t =>
          refine Lib.argmax_of_lt ((hin x).mpr (by rw [hN]; exact List.mem_cons_self)) ?_
          intro w hw hwx
          have hwt := (hin w).mp hw
          have hlt := h.numbered_lt
          rw [hN] at hwt hlt
          have hwt := (List.mem_cons.mp hwt).resolve_left hwx
          exact neg_lt_neg ((List.pairwise_cons.mp hlt).1 w hwt)

/-- What `workspace_next` falls back to stays at a first workspace without a number. -/
theorem bestOf_first_named (hfirst : ∀ v ∈ s.enabledWorkspaces.head?, s.isNumbered v = false) :
    bestOf (s.otherPrefers smaller) s.enabledWorkspaces none = s.named.head? := by
  have hkeep : bestOf (s.otherPrefers smaller) s.enabledWorkspaces none =
      s.enabledWorkspaces.head? := by
    refine bestOf_keeps fun v hv w _ => ?_
    unfold otherPrefers numberPrefers smaller isNumbered
    rw [workspaceGetNumber_of_named (hfirst v hv), ← Bool.decide_and, decide_eq_false_iff_not]
    -- no number is less than -1
    omega
  rw [hkeep]
  unfold named
  cases hall : s.enabledWorkspaces with
  | nil => rfl
  | cons v l =>
      have hv := hfirst v (by rw [hall]; rfl)
      rw [List.filter_cons_of_pos (by rw [hv]; rfl)]
      rfl

/-- From a workspace with a number, `workspace_next` goes forward in the cycle if it looks at the
one behind. -/
theorem DistinctWorkspaces.workspaceNext_numbered (h : DistinctWorkspaces s)
    (hsplit : s.numbered = p ++ v :: q) (hseen : ∀ w ∈ q.head?, w ∈ s.seenByNext) :
    s.workspaceNext v = q.head?.or (s.named.head?.or s.numbered.head?) := by
  have hnum : s.isNumbered v = true := by
    refine (mem_numbered.mp ?_).2
    rw [hsplit]
    simp
  have hscan :=
    scanNumbered_eq (s := s) smaller (s.workspaceGetNumber v) s.seenByNext none none none
  unfold workspaceNext
  dsimp only
  rw [if_neg (not_lt.mpr (of_decide_eq_true hnum))]
  refine hscan.trans ?_
  rw [h.near_smaller (seenByNext_subset s) hsplit hseen, find?_seenByNext, Option.none_or]
  cases hM : s.named with
  | cons u t => rfl
  | nil =>
      have hall : ∀ u ∈ s.enabledWorkspaces.head?, s.isNumbered u = true := by
        intro u hu
        by_contra hno
        have hin := mem_named.mpr ⟨List.mem_of_mem_head? hu, Bool.eq_false_iff.mpr hno⟩
        rw [hM] at hin
        cases hin
      rw [seenByNext_eq_self hM, h.bestOf_smaller (fun u => Iff.rfl) hall]

/-- From a workspace without a number, `workspace_next` goes to the one behind it, or to what it
falls back to. -/
theorem DistinctWorkspaces.workspaceNext_named (h : DistinctWorkspaces s)
    (hsplit : s.named = p ++ v :: q) : s.workspaceNext v =
      q.head?.or (bestOf (s.otherPrefers smaller) s.enabledWorkspaces none) := by
  have hnum : s.isNumbered v = false := by
    refine (mem_named.mp ?_).2
    rw [hsplit]
    simp
  obtain ⟨u, t, hall, hu, ht, -, hq⟩ := h.exists_split_named hsplit
  have hscan := scanNamed_eq (s := s) smaller hu ht none none
  have hneg : s.workspaceGetNumber v < 0 := not_le.mp (of_decide_eq_false hnum)
  unfold workspaceNext
  dsimp only
  rw [if_pos hneg]
  rw [← hall] at hscan
  refine hscan.trans ?_
  rw [hq, List.head?_filter]

/-- **`workspace_next` goes forward in the cycle**, where no workspace has a number or the numbers
come first. -/
theorem DistinctWorkspaces.workspaceNext_eq (h : DistinctWorkspaces s)
    (hfirst : (∀ v ∈ s.enabledWorkspaces, s.isNumbered v = false) ∨ NumbersFirst s)
    (hsplit : s.workspaceCycle = p ++ v :: q) :
    s.workspaceNext v = q.head?.or s.workspaceCycle.head? := by
  have hhead : s.workspaceCycle.head? = s.numbered.head?.or s.named.head? := List.head?_append
  rcases split_cycle hsplit with ⟨hnum, q', hN, rfl⟩ | ⟨hnum, p', hM, -⟩
  · -- there is a number, so the numbers come first
    have hv : v ∈ s.numbered := by
      rw [hN]
      simp
    have hahead : NumbersFirst s := by
      refine hfirst.resolve_left fun hnone => ?_
      rw [hnone v (mem_numbered.mp hv).1] at hnum
      cases hnum
    have hseen : ∀ w ∈ q'.head?, w ∈ s.seenByNext := by
      intro w hw
      have hwq := List.mem_of_mem_head? hw
      have hwN : w ∈ s.numbered := by
        rw [hN]
        exact List.mem_append_right _ (List.mem_cons_of_mem v hwq)
      obtain ⟨hwmem, hwnum⟩ := mem_numbered.mp hwN
      refine (mem_seenByNext hwnum).mpr (hahead.ahead w hwmem hwnum ⟨v, ?_, hnum, ?_⟩)
      · exact (mem_numbered.mp hv).1
      · exact ((h.split_numbered hN hwmem hwnum).2).mpr hwq
    rw [h.workspaceNext_numbered hN hseen, List.head?_append, hhead, hN]
    cases q'.head? <;> cases s.named.head? <;> cases p <;> rfl
  · rw [h.workspaceNext_named hM, hhead]
    congr 1
    rcases hfirst with hnone | hahead
    · have hnil : s.numbered = [] := List.eq_nil_iff_forall_not_mem.mpr fun w hw => by
        have hw := mem_numbered.mp hw
        rw [hnone w hw.1] at hw
        cases hw.2
      rw [bestOf_first_named fun w hw => hnone w (List.mem_of_mem_head? hw), hnil]
      rfl
    · rw [h.bestOf_smaller (fun w => Iff.rfl) hahead.first]
      -- the first of all has a number, since there is one
      have hv : v ∈ s.enabledWorkspaces := (mem_named.mp (by rw [hM]; simp)).1
      obtain ⟨u, hu⟩ := Option.isSome_iff_exists.mp
        (List.isSome_head?.mpr (List.ne_nil_of_mem hv))
      have hin : u ∈ s.numbered :=
        mem_numbered.mpr ⟨List.mem_of_mem_head? hu, hahead.first u hu⟩
      cases hN : s.numbered with
      | nil =>
          rw [hN] at hin
          cases hin
      | cons x t => rfl

/-! ## Around the cycle -/

section Around

variable {α : Type*} [DecidableEq α] {u p q : List α} {a : α}

theorem next_append_cons (hnodup : u.Nodup) (ha : a ∈ u) (hsplit : u = p ++ a :: q) :
    some (u.next a ha) = q.head?.or u.head? := by
  subst hsplit
  have hlt : p.length < (p ++ a :: q).length := by simp
  have hget : (p ++ a :: q)[p.length] = a := by simp
  have hnext := List.next_getElem (p ++ a :: q) hnodup p.length hlt
  simp only [hget] at hnext
  rw [hnext]
  cases q with
  | nil => simp [List.head?_eq_getElem?]
  | cons b q =>
      have hmod : (p.length + 1) % (p ++ a :: b :: q).length = p.length + 1 :=
        Nat.mod_eq_of_lt (by simp)
      simp only [hmod]
      simp

theorem prev_append_cons (hnodup : u.Nodup) (ha : a ∈ u) (hsplit : u = p ++ a :: q) :
    some (u.prev a ha) = p.getLast?.or u.getLast? := by
  have hrev : u.reverse = q.reverse ++ a :: p.reverse := by
    rw [hsplit]
    simp
  have hnext := next_append_cons (List.nodup_reverse.mpr hnodup) (List.mem_reverse.mpr ha) hrev
  rw [List.next_reverse_eq_prev u hnodup a ha, List.head?_reverse, List.head?_reverse] at hnext
  exact hnext

/-- Going on in a cycle comes by every element. -/
theorem reaches_next (hnodup : u.Nodup) {next : α → Option α}
    (hnext : ∀ a, ∀ ha : a ∈ u, next a = some (u.next a ha)) {b : α} (ha : a ∈ u) (hb : b ∈ u) :
    Relation.ReflTransGen (fun a b => next a = some b) a b := by
  obtain ⟨i, hi, rfl⟩ := List.getElem_of_mem ha
  obtain ⟨j, hj, rfl⟩ := List.getElem_of_mem hb
  have hpos : 0 < u.length := by omega
  have hmod : ∀ k, (i + k) % u.length < u.length := fun k => Nat.mod_lt _ hpos
  have hsteps : ∀ k, Relation.ReflTransGen (fun a b => next a = some b) u[i]
      (u.get ⟨(i + k) % u.length, hmod k⟩) := by
    intro k
    induction k with
    | zero =>
        have hstart : u.get ⟨(i + 0) % u.length, hmod 0⟩ = u[i] := by
          simp [Nat.mod_eq_of_lt hi]
        rw [hstart]
    | succ k ih =>
        have hstep : u.next (u.get ⟨(i + k) % u.length, hmod k⟩) (List.get_mem _ _) =
            u.get ⟨(i + (k + 1)) % u.length, hmod (k + 1)⟩ := by
          have h := List.next_getElem u hnodup ((i + k) % u.length) (hmod k)
          simp only [Nat.mod_add_mod, Nat.add_assoc] at h
          exact h
        exact ih.tail ((hnext _ (List.get_mem _ _)).trans (congrArg some hstep))
  -- all the way round to the start of the list, and then on
  have hround := hsteps (u.length - i + j)
  have hidx : (i + (u.length - i + j)) % u.length = j := by
    rw [← Nat.add_assoc, Nat.add_sub_cancel' hi.le, Nat.add_mod_left, Nat.mod_eq_of_lt hj]
  simp only [hidx, List.get_eq_getElem] at hround
  exact hround

end Around

/-- Going forward and going back undo one another, and going forward comes by every workspace. -/
structure CyclesWorkspaces (s : SwayRoot) : Prop where
  prev_next : ∀ w ∈ s.enabledWorkspaces, ∃ v ∈ s.enabledWorkspaces,
    s.workspaceNext w = some v ∧ s.workspacePrev v = some w
  next_prev : ∀ w ∈ s.enabledWorkspaces, ∃ v ∈ s.enabledWorkspaces,
    s.workspacePrev w = some v ∧ s.workspaceNext v = some w
  visits : ∀ w ∈ s.enabledWorkspaces, ∀ v ∈ s.enabledWorkspaces,
    Relation.ReflTransGen (fun w v => s.workspaceNext w = some v) w v

theorem DistinctWorkspaces.workspacePrev_cycle (h : DistinctWorkspaces s)
    (hw : w ∈ s.workspaceCycle) : s.workspacePrev w = some (s.workspaceCycle.prev w hw) := by
  obtain ⟨p, q, hsplit⟩ := List.append_of_mem hw
  rw [h.workspacePrev_eq hsplit, prev_append_cons h.nodup_cycle hw hsplit]

theorem DistinctWorkspaces.workspaceNext_cycle (h : DistinctWorkspaces s)
    (hfirst : (∀ v ∈ s.enabledWorkspaces, s.isNumbered v = false) ∨ NumbersFirst s)
    (hw : w ∈ s.workspaceCycle) : s.workspaceNext w = some (s.workspaceCycle.next w hw) := by
  obtain ⟨p, q, hsplit⟩ := List.append_of_mem hw
  rw [h.workspaceNext_eq hfirst hsplit, next_append_cons h.nodup_cycle hw hsplit]

theorem DistinctWorkspaces.cyclesWorkspaces (h : DistinctWorkspaces s)
    (hfirst : (∀ v ∈ s.enabledWorkspaces, s.isNumbered v = false) ∨ NumbersFirst s) :
    CyclesWorkspaces s := by
  refine ⟨fun w hw => ?_, fun w hw => ?_, fun w hw v hv => ?_⟩
  · have hC := mem_workspaceCycle.mpr hw
    have hin := List.next_mem s.workspaceCycle w hC
    refine ⟨_, mem_workspaceCycle.mp hin, h.workspaceNext_cycle hfirst hC, ?_⟩
    rw [h.workspacePrev_cycle hin, List.prev_next _ h.nodup_cycle]
  · have hC := mem_workspaceCycle.mpr hw
    have hin := List.prev_mem s.workspaceCycle w hC
    refine ⟨_, mem_workspaceCycle.mp hin, h.workspacePrev_cycle hC, ?_⟩
    rw [h.workspaceNext_cycle hfirst hin, List.next_prev _ h.nodup_cycle]
  · exact reaches_next h.nodup_cycle (fun u hu => h.workspaceNext_cycle hfirst hu)
      (mem_workspaceCycle.mpr hw) (mem_workspaceCycle.mpr hv)

/-- What a choice leaves is in the list. -/
theorem mem_of_bestOf {prefers : WsId → WsId → Bool} (h : bestOf prefers l none = some v) :
    v ∈ l :=
  (Lib.mem_of_choose h).resolve_right (fun hnone => nomatch hnone)

/-- From a workspace with a number, `workspace_next` finds one that it looks at. -/
theorem mem_seenByNext_of_next (hw : s.isNumbered w = true) (h : s.workspaceNext w = some v) :
    v ∈ s.seenByNext := by
  have hscan :=
    scanNumbered_eq (s := s) smaller (s.workspaceGetNumber w) s.seenByNext none none none
  unfold workspaceNext at h
  dsimp only at h
  rw [if_neg (not_lt.mpr (of_decide_eq_true hw))] at h
  have hchosen := hscan.symm.trans h
  rw [Option.none_or] at hchosen
  rcases Option.or_eq_some_iff.mp hchosen with hnear | ⟨-, hother⟩
  · exact List.mem_of_mem_filter (mem_of_bestOf hnear)
  · rcases Option.or_eq_some_iff.mp hother with hfind | ⟨-, hbest⟩
    · exact List.mem_of_find?_eq_some hfind
    · exact mem_of_bestOf hbest

/-- Where a workspace has a number, the way back needs the numbers to come first. -/
theorem DistinctWorkspaces.numbersFirst (h : DistinctWorkspaces s) (hcycle : CyclesWorkspaces s)
    (hv : v ∈ s.enabledWorkspaces) (hnum : s.isNumbered v = true) : NumbersFirst s := by
  refine ⟨fun u hu => ?_, fun u hu hunum hless => ?_⟩
  · -- from the last one without a number, the way goes to the first of all
    by_contra hno
    have huname : s.isNumbered u = false := Bool.eq_false_iff.mpr hno
    have humem : u ∈ s.named := mem_named.mpr ⟨List.mem_of_mem_head? hu, huname⟩
    rcases List.eq_nil_or_concat' s.named with hnil | ⟨p, w, hM⟩
    · rw [hnil] at humem
      cases humem
    have hwM : w ∈ s.named := by
      rw [hM]
      simp
    obtain ⟨x, -, hnext, hprev⟩ := hcycle.prev_next w (mem_named.mp hwM).1
    have hfallback := bestOf_first_named (s := s) fun y hy => by
      rw [← Option.mem_unique hu hy]
      exact huname
    rw [h.workspaceNext_named hM, List.head?_nil, Option.none_or, hfallback] at hnext
    -- but back from there it goes to the greatest number
    obtain ⟨t, ht⟩ := List.head?_eq_some_iff.mp hnext
    have hsplit : s.workspaceCycle = s.numbered ++ x :: t := by
      unfold workspaceCycle
      rw [ht]
    rw [h.workspacePrev_eq hsplit] at hprev
    rcases List.eq_nil_or_concat' s.numbered with hnil | ⟨p', y, hN⟩
    · have hin := mem_numbered.mpr ⟨hv, hnum⟩
      rw [hnil] at hin
      cases hin
    · rw [hN, List.getLast?_concat, Option.some_or] at hprev
      have hyN : y ∈ s.numbered := by
        rw [hN]
        simp
      have hyes := (mem_numbered.mp hyN).2
      rw [Option.some.inj hprev, (mem_named.mp hwM).2] at hyes
      cases hyes
  · -- the way forward from the number before it has to look at it
    obtain ⟨x, hx, hxnum, hlt⟩ := hless
    obtain ⟨p, q, hN⟩ := List.append_of_mem (mem_numbered.mpr ⟨hu, hunum⟩)
    have hxp : x ∈ p := (h.split_numbered hN hx hxnum).1.mp hlt
    have hsplit : s.workspaceCycle = p ++ u :: (q ++ s.named) := by
      unfold workspaceCycle
      rw [hN, List.append_assoc, List.cons_append]
    obtain ⟨w, -, hprev, hnext⟩ := hcycle.next_prev u hu
    rcases List.eq_nil_or_concat' p with rfl | ⟨p, y, rfl⟩
    · cases hxp
    · rw [h.workspacePrev_eq hsplit, List.getLast?_concat, Option.some_or] at hprev
      have hyN : y ∈ s.numbered := by
        rw [hN]
        simp
      rw [← Option.some.inj hprev] at hnext
      exact (mem_seenByNext hunum).mp (mem_seenByNext_of_next (mem_numbered.mp hyN).2 hnext)

/-- **`workspace_next` and `workspace_prev` go around one cycle** exactly if no workspace has a
number or the numbers come first. -/
theorem cyclesWorkspaces_iff (h : DistinctWorkspaces s) : CyclesWorkspaces s ↔
    (∀ w ∈ s.enabledWorkspaces, s.isNumbered w = false) ∨ NumbersFirst s := by
  constructor
  · intro hcycle
    by_cases hnone : ∀ w ∈ s.enabledWorkspaces, s.isNumbered w = false
    · exact Or.inl hnone
    · push Not at hnone
      obtain ⟨w, hw, hnum⟩ := hnone
      exact Or.inr (h.numbersFirst hcycle hw (Bool.eq_true_of_not_eq_false hnum))
  · exact h.cyclesWorkspaces

/-! ## The lists of the outputs -/

/-- `sort_workspace_cmp_qsort` -/
def sortWorkspaceCmp (s : SwayRoot) (a b : WsId) : Int :=
  let digit (w : WsId) : Bool := (s.ws w).name.toList.head?.any Char.isDigit
  let num (w : WsId) : Int := toInt (strtol (s.ws w).name.toList).value
  if digit a && digit b then
    if num a < num b then -1 else if num b < num a then 1 else 0
  else if digit a then -1
  else if digit b then 1
  else 0

/-- What the sort looks at: if the name starts with a digit, and its number. -/
def sortKey (s : SwayRoot) (w : WsId) : Bool × Int :=
  ((s.ws w).name.toList.head?.any Char.isDigit, toInt (strtol (s.ws w).name.toList).value)

/-- The names that start with a digit come first, by their numbers. -/
def sortKeyLe : Bool × Int → Bool × Int → Bool
  | (true, m), (true, n) => decide (m ≤ n)
  | (true, _), (false, _) => true
  | (false, _), (true, _) => false
  | (false, _), (false, _) => true

theorem sortWorkspaceLe_eq (s : SwayRoot) (a b : WsId) :
    s.sortWorkspaceLe a b = sortKeyLe (s.sortKey a) (s.sortKey b) := by
  unfold sortWorkspaceLe sortKey
  cases ha : (s.ws a).name.toList.head?.any Char.isDigit <;>
    cases hb : (s.ws b).name.toList.head?.any Char.isDigit <;> simp [ha, hb, sortKeyLe]

theorem noLater_sortWorkspaceCmp (s : SwayRoot) (a b : WsId) :
    noLater s.sortWorkspaceCmp a b = s.sortWorkspaceLe a b := by
  rw [sortWorkspaceLe_eq]
  unfold noLater sortWorkspaceCmp sortKey
  cases ha : (s.ws a).name.toList.head?.any Char.isDigit <;>
    cases hb : (s.ws b).name.toList.head?.any Char.isDigit <;> simp [ha, hb, sortKeyLe]
  split_ifs <;> omega

theorem sortKeyLe_trans (k l m : Bool × Int) (hkl : sortKeyLe k l = true)
    (hlm : sortKeyLe l m = true) : sortKeyLe k m = true := by
  obtain ⟨dk, nk⟩ := k
  obtain ⟨dl, nl⟩ := l
  obtain ⟨dm, nm⟩ := m
  cases dk <;> cases dl <;> cases dm <;> simp [sortKeyLe] at hkl hlm ⊢
  omega

theorem sortKeyLe_total (k l : Bool × Int) : (sortKeyLe k l || sortKeyLe l k) = true := by
  obtain ⟨dk, nk⟩ := k
  obtain ⟨dl, nl⟩ := l
  cases dk <;> cases dl <;> simp [sortKeyLe]
  omega

/-- `output_sort_workspaces` is `list_stable_sort` by its comparison. -/
theorem outputSortWorkspaces_eq (s : SwayRoot) (o : OutId) : s.outputSortWorkspaces o =
    s.modWorkspaces o (listStableSort s.sortWorkspaceCmp) := by
  have hcmp : ∀ a b, s.sortWorkspaceCmp a b ≤ 0 ↔ sortKeyLe (s.sortKey a) (s.sortKey b) = true := by
    intro a b
    rw [← sortWorkspaceLe_eq, ← noLater_sortWorkspaceCmp]
    exact decide_eq_true_iff.symm
  have htrans : ∀ a b c, s.sortWorkspaceCmp a b ≤ 0 → s.sortWorkspaceCmp b c ≤ 0 →
      s.sortWorkspaceCmp a c ≤ 0 := by
    intro a b c hab hbc
    exact (hcmp a c).mpr (sortKeyLe_trans _ _ _ ((hcmp a b).mp hab) ((hcmp b c).mp hbc))
  have htotal : ∀ a b, s.sortWorkspaceCmp a b ≤ 0 ∨ s.sortWorkspaceCmp b a ≤ 0 := by
    intro a b
    have h := sortKeyLe_total (s.sortKey a) (s.sortKey b)
    rw [Bool.or_eq_true] at h
    exact h.imp (hcmp a b).mpr (hcmp b a).mpr
  have hle : noLater s.sortWorkspaceCmp = s.sortWorkspaceLe := by
    funext a b
    exact noLater_sortWorkspaceCmp s a b
  unfold outputSortWorkspaces
  congr 1
  funext l
  rw [← hle]
  exact Lib.StableSort.unique (noLater_total htotal)
    (Lib.StableSort.insertionSort (noLater_trans htrans) (noLater_total htotal) l)
    (listStableSort_spec htrans htotal l)

/-- Two monitors, with two workspaces on the first and one on the second. -/
def twoMonitors (name : WsId → String) : SwayRoot where
  outputs := [1, 2]
  fallbackOutput := 0
  label := fun o => if o = 1 then ⟨"HDMI-A-1", "Dell Inc. U2720Q 7YW2"⟩ else ⟨"eDP-1", "BOE"⟩
  workspaces := fun o => if o = 1 then [1, 2] else if o = 2 then [3] else []
  ws := fun w => ⟨name w, some (if w = 3 then 2 else 1), [], [], [], []⟩
  nextWs := 4
  isSticky := fun _ => false
  focus := some 1
  prevWorkspaceName := none
  fullscreenGlobal := false
  contexts := fun _ => none
  config := ⟨[], [], [], false⟩

/-- The workspace `1` is not on the first monitor. -/
def namedFirst : SwayRoot :=
  twoMonitors fun w => if w = 1 then "mail" else if w = 2 then "web" else "1"

/-- The workspace `1` is on the first monitor, before the others. -/
def numberFirst : SwayRoot :=
  twoMonitors fun w => if w = 1 then "1" else if w = 2 then "web" else "mail"

theorem cyclesWorkspaces_iff_numberFirst : CyclesWorkspaces numberFirst :=
  (cyclesWorkspaces_iff ⟨by decide +kernel, by decide +kernel⟩).mpr
    (Or.inr ⟨by decide +kernel, by decide +kernel⟩)

/-- From `web` the way forward goes to `mail`, the first of all; and the lists are sorted. -/
theorem cyclesWorkspaces_namedFirst : DistinctWorkspaces namedFirst ∧
    (∀ o ∈ namedFirst.outputs,
      (namedFirst.outputSortWorkspaces o).workspaces o = namedFirst.workspaces o) ∧
    ¬ CyclesWorkspaces namedFirst := by
  refine ⟨⟨by decide +kernel, by decide +kernel⟩, by decide +kernel, fun h => ?_⟩
  obtain ⟨v, -, hnext, hprev⟩ := h.prev_next 2 (by decide +kernel)
  have hweb : namedFirst.workspaceNext 2 = some 1 := by decide +kernel
  have hback : namedFirst.workspacePrev 1 = some 3 := by decide +kernel
  obtain rfl : 1 = v := Option.some.inj (hweb.symm.trans hnext)
  exact absurd (hback.symm.trans hprev) (by decide)

end SwayRoot

end Swirl

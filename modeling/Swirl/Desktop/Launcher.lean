import Swirl.Common.Stringop
import Swirl.Lib.Forest

set_option autoImplicit false

/-! # The context a process was launched in

`launcher_ctx_find_pid` of `launcher.c`: for the process of a new window, the search for the launcher
context that decides on its workspace. It goes up from the process along the parents that
`/proc/<pid>/stat` names, and looks through the pending contexts at every process. The inner search
ends at a match and the climb goes on, so of two contexts on the way the one further up is returned.
-/

namespace Swirl

open Lib

/-- `struct launcher_ctx` -/
structure LauncherContext where
  pid : Int
  fallbackName : String
  deriving DecidableEq

variable (stat : Int → Option (List Char)) (ctxs : List LauncherContext)

/-! ## The search -/

/-- `get_parent_pid`; `stat` is the line of `/proc/<pid>/stat`, where it can be read. The parent is
its fourth word. -/
def getParentPid (child : Int) : Int :=
  let parent :=
    match stat child with
    | some line =>
        let words := (splitChars ' ' line).filter fun t => !t.isEmpty
        toInt (strtol (words.getD 3 [])).value
    | none => -1
  if parent ≠ 0 then if parent = child then -1 else parent
  else -1

/-- The look through `server.pending_launcher_ctxs`. -/
def findCtx (pid : Int) : Option LauncherContext := ctxs.find? fun c => pid = c.pid

/-- The outer loop of `launcher_ctx_find_pid`; `none` when it has not ended after so many turns. -/
def findPidLoop : Nat → Option LauncherContext → Int → Option (Option LauncherContext)
  | 0, _, _ => none
  | fuel + 1, ctx, pid =>
      let ctx := (findCtx ctxs pid).or ctx
      let pid := getParentPid stat pid
      if 1 < pid then findPidLoop fuel ctx pid else some ctx

/-- `launcher_ctx_find_pid` -/
def launcherCtxFindPid (fuel : Nat) (pid : Int) : Option (Option LauncherContext) :=
  if ctxs = [] then some none else findPidLoop stat ctxs fuel none pid

/-! ## The parents -/

/-- The parent of a process, unless it is init or there is none. -/
def parentOf (pid : Int) : Option Int :=
  if 1 < getParentPid stat pid then some (getParentPid stat pid) else none

/-- No process is an ancestor of itself. -/
def Acyclic : Prop := ∀ pid, ¬ Under (parentOf stat) pid pid

/-- A process is another one or an ancestor of it, and is not init. -/
def AncestorOrSelf (pid a : Int) : Prop := (a = pid ∨ Under (parentOf stat) pid a) ∧ a ≠ 1

/-- The context of the nearest ancestor that has one, counting the process itself. -/
def IsNearest (pid : Int) (c : LauncherContext) : Prop :=
  c ∈ ctxs ∧ c.pid ≠ 1 ∧ ∃ k, up (parentOf stat) k pid = some c.pid ∧
    ∀ j < k, ∀ a, up (parentOf stat) j pid = some a → a ≠ 1 → ∀ e ∈ ctxs, e.pid ≠ a

/-- The search ends, with the nearest context; with none only where there is none. -/
def FindsNearest (pid : Int) : Prop :=
  ∃ fuel r, launcherCtxFindPid stat ctxs fuel pid = some r ∧
    match r with
    | some c => IsNearest stat ctxs pid c
    | none => ∀ a, AncestorOrSelf stat pid a → ∀ c ∈ ctxs, c.pid ≠ a

/-- At most one process on the way up has a context; init is not on the way, and if the search
starts at it and it has a context, something above has one. -/
def SingleCtx (pid : Int) : Prop :=
  (∀ c ∈ ctxs, ∀ e ∈ ctxs, AncestorOrSelf stat pid c.pid → AncestorOrSelf stat pid e.pid →
    c.pid = e.pid) ∧
  (pid = 1 → ∀ c ∈ ctxs, c.pid = 1 → ∃ e ∈ ctxs, Under (parentOf stat) pid e.pid)

section Search

variable {stat ctxs} {pid a : Int} {c : LauncherContext} {r ctx : Option LauncherContext}

theorem parentOf_mem {p : Int} (h : parentOf stat pid = some p) : p ∈ Finset.Ioo 1 (2 ^ 31) := by
  unfold parentOf at h
  split at h
  next hlt =>
    obtain rfl := Option.some.inj h
    refine Finset.mem_Ioo.2 ⟨hlt, ?_⟩
    have hbound : ∀ v : Int, toInt v < 2 ^ 31 := by
      intro v
      unfold toInt
      have h := Int.bmod_lt (x := v) (m := 2 ^ 32) (by decide)
      omega
    unfold getParentPid
    dsimp only
    split
    · split_ifs
      · decide
      · exact hbound _
      · decide
    · split_ifs <;> decide
  · cases h

theorem findCtx_eq_some (h : findCtx ctxs pid = some c) : c ∈ ctxs ∧ c.pid = pid := by
  refine ⟨List.mem_of_find?_eq_some h, ?_⟩
  have hpid := List.find?_some h
  exact (of_decide_eq_true hpid).symm

theorem findCtx_eq_none : findCtx ctxs pid = none ↔ ∀ c ∈ ctxs, c.pid ≠ pid := by
  unfold findCtx
  rw [List.find?_eq_none]
  refine forall₂_congr fun c _ => ?_
  simp [eq_comm]

/-- With enough turns for all parents the climb ends. -/
theorem findPidLoop_ends {n : Nat} (h : ∀ b, up (parentOf stat) (n + 1) pid ≠ some b) :
    ∃ r, findPidLoop stat ctxs (n + 1) ctx pid = some r := by
  induction n generalizing pid ctx with
  | zero =>
      have htop : ¬ 1 < getParentPid stat pid := by
        intro hlt
        refine h (getParentPid stat pid) ?_
        have hp : parentOf stat pid = some (getParentPid stat pid) := if_pos hlt
        simp [up, hp]
      exact ⟨_, if_neg htop⟩
  | succ n ih =>
      by_cases hlt : 1 < getParentPid stat pid
      · have hp : parentOf stat pid = some (getParentPid stat pid) := if_pos hlt
        have hcut : ∀ b, up (parentOf stat) (n + 1) (getParentPid stat pid) ≠ some b := by
          intro b hb
          refine h b ?_
          show (parentOf stat pid).bind _ = _
          rw [hp]
          exact hb
        have hnext : ∃ r, findPidLoop stat ctxs (n + 1) ((findCtx ctxs pid).or ctx)
            (getParentPid stat pid) = some r := ih hcut
        obtain ⟨r, hr⟩ := hnext
        exact ⟨r, (if_pos hlt).trans hr⟩
      · exact ⟨_, if_neg hlt⟩

/-- A result is the last context on the way up from a process, or what was found before where there
is none. -/
def LastAbove (stat : Int → Option (List Char)) (ctxs : List LauncherContext) (pid : Int)
    (ctx r : Option LauncherContext) : Prop :=
  (r = ctx ∧ ∀ j a, up (parentOf stat) j pid = some a → findCtx ctxs a = none) ∨
    ∃ c k, r = some c ∧ c ∈ ctxs ∧ up (parentOf stat) k pid = some c.pid ∧
      ∀ j a, k < j → up (parentOf stat) j pid = some a → findCtx ctxs a = none

/-- What is above a process is above its parent. -/
theorem up_parentOf {j : Nat} (h : up (parentOf stat) (j + 1) pid = some a) :
    1 < getParentPid stat pid ∧ up (parentOf stat) j (getParentPid stat pid) = some a := by
  obtain ⟨p, hp, hup⟩ := Option.bind_eq_some_iff.1 h
  unfold parentOf at hp
  split at hp
  next hlt =>
    obtain rfl := Option.some.inj hp
    exact ⟨hlt, hup⟩
  · cases hp

/-- With no context above a process, it is the one of the process itself. -/
theorem lastAbove_self (hnone : ∀ j a, up (parentOf stat) (j + 1) pid = some a →
    findCtx ctxs a = none) : LastAbove stat ctxs pid ctx ((findCtx ctxs pid).or ctx) := by
  cases hfind : findCtx ctxs pid with
  | none =>
      left
      refine ⟨Option.none_or, ?_⟩
      intro j a hup
      cases j with
      | zero =>
          obtain rfl := Option.some.inj hup
          exact hfind
      | succ j => exact hnone j a hup
  | some c =>
      right
      obtain ⟨hmem, hpid⟩ := findCtx_eq_some hfind
      refine ⟨c, 0, Option.some_or, hmem, congrArg some hpid.symm, ?_⟩
      intro j a hj hup
      obtain ⟨i, rfl⟩ := Nat.exists_eq_succ_of_ne_zero hj.ne'
      exact hnone i a hup

/-- **The climb returns the last context on the way up**, or what was found before. -/
theorem findPidLoop_last {fuel : Nat} (h : findPidLoop stat ctxs fuel ctx pid = some r) :
    LastAbove stat ctxs pid ctx r := by
  induction fuel generalizing pid ctx with
  | zero => cases h
  | succ fuel ih =>
      rw [findPidLoop] at h
      split at h
      next hlt =>
        have hp : parentOf stat pid = some (getParentPid stat pid) := if_pos hlt
        obtain ⟨rfl, hnone⟩ | ⟨c, k, hr, hmem, hk, hlast⟩ := ih h
        · exact lastAbove_self fun j a hup => hnone j a (up_parentOf hup).2
        · right
          refine ⟨c, k + 1, hr, hmem, ?_, ?_⟩
          · show (parentOf stat pid).bind _ = _
            rw [hp]
            exact hk
          · intro j a hj hup
            obtain ⟨i, rfl⟩ := Nat.exists_eq_succ_of_ne_zero (Nat.ne_zero_of_lt hj)
            exact hlast i a (Nat.lt_of_succ_lt_succ hj) (up_parentOf hup).2
      next htop =>
        obtain rfl := Option.some.inj h
        exact lastAbove_self fun j a hup => absurd (up_parentOf hup).1 htop

theorem launcherCtxFindPid_last {fuel : Nat} (h : launcherCtxFindPid stat ctxs fuel pid = some r) :
    LastAbove stat ctxs pid none r := by
  unfold launcherCtxFindPid at h
  split at h
  next hnil =>
    subst hnil
    exact Or.inl ⟨(Option.some.inj h).symm, fun _ _ _ => rfl⟩
  · exact findPidLoop_last h

/-! ## The nearest context -/

theorem ancestorOrSelf_iff :
    AncestorOrSelf stat pid a ↔ (∃ k, up (parentOf stat) k pid = some a) ∧ a ≠ 1 := by
  refine and_congr_left fun _ => ?_
  constructor
  · rintro (rfl | ⟨k, hk⟩)
    · exact ⟨0, rfl⟩
    · exact ⟨k + 1, hk⟩
  · rintro ⟨k, hk⟩
    cases k with
    | zero => exact Or.inl (Option.some.inj hk).symm
    | succ k => exact Or.inr ⟨k, hk⟩

/-- Init is above nothing. -/
theorem up_succ_ne_one {k : Nat} (h : up (parentOf stat) (k + 1) pid = some a) : a ≠ 1 := by
  rw [up_succ] at h
  obtain ⟨b, -, hb⟩ := Option.bind_eq_some_iff.1 h
  have hmem := Finset.mem_Ioo.1 (parentOf_mem hb)
  omega

variable (hacyclic : Acyclic stat)

include hacyclic

theorem ranked_parentOf : Ranked (parentOf stat) :=
  Ranked.of_irrefl (fun _ _ h => parentOf_mem h) hacyclic

theorem launcherCtxFindPid_ends (pid : Int) :
    ∃ fuel r, launcherCtxFindPid stat ctxs fuel pid = some r := by
  by_cases hnil : ctxs = []
  · exact ⟨0, none, if_pos hnil⟩
  · have hcut : ∀ b, up (parentOf stat) ((Finset.Ioo (1 : Int) (2 ^ 31)).card + 1) pid ≠ some b := by
      intro b hb
      have hle := (ranked_parentOf hacyclic).up_bound (fun _ _ h => parentOf_mem h) hb
      omega
    have hends : ∃ r, findPidLoop stat ctxs _ none pid = some r := findPidLoop_ends hcut
    obtain ⟨r, hr⟩ := hends
    exact ⟨_, r, (if_neg hnil).trans hr⟩

/-- A process is met once on the way up. -/
theorem up_inj {i j : Nat} (hi : up (parentOf stat) i pid = some a)
    (hj : up (parentOf stat) j pid = some a) : i = j := by
  have hle : ∀ i j, up (parentOf stat) i pid = some a → up (parentOf stat) j pid = some a →
      ¬ i < j := by
    intro i j hi hj hlt
    obtain ⟨d, rfl⟩ := Nat.exists_eq_add_of_lt hlt
    rw [Nat.add_assoc, up_add, hi] at hj
    exact hacyclic a ⟨d, hj⟩
  exact Nat.le_antisymm (not_lt.1 (hle j i hj hi)) (not_lt.1 (hle i j hi hj))

theorem findsNearest_of_single (h : SingleCtx stat ctxs pid) : FindsNearest stat ctxs pid := by
  have hends : ∃ fuel r, launcherCtxFindPid stat ctxs fuel pid = some r :=
    launcherCtxFindPid_ends hacyclic pid
  obtain ⟨fuel, r, hrun⟩ := hends
  refine ⟨fuel, r, hrun, ?_⟩
  obtain ⟨rfl, hnone⟩ | ⟨c, k, rfl, hmem, hk, hlast⟩ := launcherCtxFindPid_last hrun
  · intro a ha
    obtain ⟨⟨k, hk⟩, -⟩ := ancestorOrSelf_iff.1 ha
    exact findCtx_eq_none.1 (hnone k a hk)
  · have hinit : c.pid ≠ 1 := by
      intro hone
      cases k with
      | succ k => exact up_succ_ne_one hk hone
      | zero =>
          have hpid : pid = 1 := (Option.some.inj hk).trans hone
          obtain ⟨e, he, j, hj⟩ := h.2 hpid c hmem hone
          exact findCtx_eq_none.1 (hlast (j + 1) e.pid (Nat.succ_pos j) hj) e he rfl
    refine ⟨hmem, hinit, k, hk, ?_⟩
    rintro j hj a hup ha e he rfl
    have hsame := h.1 c hmem e he (ancestorOrSelf_iff.2 ⟨⟨k, hk⟩, hinit⟩)
      (ancestorOrSelf_iff.2 ⟨⟨j, hup⟩, ha⟩)
    rw [← hsame] at hup
    exact hj.ne (up_inj hacyclic hup hk)

theorem single_of_findsNearest (h : FindsNearest stat ctxs pid) : SingleCtx stat ctxs pid := by
  obtain ⟨fuel, r, hrun, hr⟩ := h
  obtain ⟨rfl, hnone⟩ | ⟨c, k, rfl, hmem, hk, hlast⟩ := launcherCtxFindPid_last hrun
  · have hno : ∀ c ∈ ctxs, ∀ k, up (parentOf stat) k pid ≠ some c.pid := fun c hc k hup =>
      findCtx_eq_none.1 (hnone k c.pid hup) c hc rfl
    refine ⟨?_, ?_⟩
    · intro c hc e _ hanc
      obtain ⟨⟨k, hk⟩, -⟩ := ancestorOrSelf_iff.1 hanc
      exact absurd hk (hno c hc k)
    · intro hpid c hc hone
      exact absurd (congrArg some (hpid.trans hone.symm)) (hno c hc 0)
  · obtain ⟨-, hinit, k', hk', hnear⟩ := hr
    obtain rfl := up_inj hacyclic hk hk'
    -- the context that was found is the nearest and the last one
    have heq : ∀ e ∈ ctxs, AncestorOrSelf stat pid e.pid → e.pid = c.pid := by
      intro e he hanc
      obtain ⟨⟨i, hi⟩, hne⟩ := ancestorOrSelf_iff.1 hanc
      have hle : i ≤ k := not_lt.1 fun hlt =>
        findCtx_eq_none.1 (hlast i e.pid hlt hi) e he rfl
      have hge : k ≤ i := not_lt.1 fun hlt => hnear i hlt e.pid hi hne e he rfl
      obtain rfl := Nat.le_antisymm hle hge
      exact Option.some.inj (hi.symm.trans hk)
    refine ⟨?_, ?_⟩
    · intro c' hc' e he hc hanc
      exact (heq c' hc' hc).trans (heq e he hanc).symm
    · intro hpid _ _ _
      cases k with
      | zero => exact absurd ((Option.some.inj hk).symm.trans hpid) hinit
      | succ k => exact ⟨c, hmem, k, hk⟩

/-- **`launcher_ctx_find_pid`** finds the nearest context exactly where no two processes on the way
up have one. -/
theorem launcherCtxFindPid_nearest_iff (pid : Int) :
    FindsNearest stat ctxs pid ↔ SingleCtx stat ctxs pid :=
  ⟨single_of_findsNearest hacyclic, findsNearest_of_single hacyclic⟩

end Search

/-- Process 30 was started by 20, and that by 10, which init started. -/
def threeProcesses (pid : Int) : Option (List Char) :=
  if pid = 30 then some "30 (foot) S 20".toList
  else if pid = 20 then some "20 (sh) S 10".toList
  else if pid = 10 then some "10 (sh) S 1".toList
  else none

/-- Both of its ancestors have a context. -/
def twoCtxs : List LauncherContext := [⟨20, "2"⟩, ⟨10, "1"⟩]

theorem acyclic_threeProcesses : Acyclic threeProcesses := by
  have hup : parentOf threeProcesses 30 = some 20 ∧ parentOf threeProcesses 20 = some 10 ∧
      parentOf threeProcesses 10 = none := by decide +kernel
  refine Ranked.irrefl ⟨Int.toNat, ?_⟩
  intro d p hp
  by_cases h30 : d = 30
  · rw [h30, hup.1] at hp
    obtain rfl := Option.some.inj hp
    rw [h30]
    decide
  by_cases h20 : d = 20
  · rw [h20, hup.2.1] at hp
    obtain rfl := Option.some.inj hp
    rw [h20]
    decide
  by_cases h10 : d = 10
  · rw [h10, hup.2.2] at hp
    cases hp
  have hnone : getParentPid threeProcesses d = -1 := by
    have hstat : threeProcesses d = none := by
      unfold threeProcesses
      rw [if_neg h30, if_neg h20, if_neg h10]
    unfold getParentPid
    rw [hstat]
    dsimp only
    split_ifs <;> rfl
  unfold parentOf at hp
  rw [hnone] at hp
  cases hp

theorem launcherCtxFindPid_nearest_iff_threeProcesses :
    FindsNearest threeProcesses twoCtxs 30 ↔ SingleCtx threeProcesses twoCtxs 30 :=
  launcherCtxFindPid_nearest_iff acyclic_threeProcesses 30

/-- The context of process 10 is returned, and not that of process 20. -/
theorem launcherCtxFindPid_outermost : ¬ FindsNearest threeProcesses twoCtxs 30 := by
  intro h
  have hsame := (single_of_findsNearest acyclic_threeProcesses h).1 ⟨20, "2"⟩
    List.mem_cons_self ⟨10, "1"⟩ (List.mem_cons_of_mem _ List.mem_cons_self)
    (ancestorOrSelf_iff.2 ⟨⟨1, by decide +kernel⟩, by decide⟩)
    (ancestorOrSelf_iff.2 ⟨⟨2, by decide +kernel⟩, by decide⟩)
  exact absurd hsame (by decide)

end Swirl

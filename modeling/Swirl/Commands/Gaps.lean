import Swirl.Commands.Bind
import Swirl.Lib.Runs
import Swirl.Tree.Types

set_option autoImplicit false

/-! # Gaps

The `gaps` command of `gaps.c`, the gaps of a workspace in the configuration (`workspace <name>
gaps`), and the gaps a workspace is created with. The outer gaps may be negative, but not below
minus the inner gap, so that no window is pushed out of the workspace.
-/

namespace Swirl

open Lib

/-! ## Four sides -/

/-- A side of a workspace. -/
inductive GapSide where
  | top | right | bottom | left
  deriving DecidableEq, Repr

/-- The gap at a side. -/
def SideGaps.at (g : SideGaps) : GapSide → Int
  | .top => g.top
  | .right => g.right
  | .bottom => g.bottom
  | .left => g.left

/-- The gaps at some sides are changed. -/
def SideGaps.change (g : SideGaps) (p : GapSide → Bool) (f : Int → Int) : SideGaps where
  top := if p .top then f g.top else g.top
  right := if p .right then f g.right else g.right
  bottom := if p .bottom then f g.bottom else g.bottom
  left := if p .left then f g.left else g.left

@[simp] theorem SideGaps.at_change (g : SideGaps) (p : GapSide → Bool) (f : Int → Int)
    (side : GapSide) : (g.change p f).at side = if p side then f (g.at side) else g.at side := by
  cases side <;> rfl

/-- The inner gap and the outer ones: of the configuration, of a workspace or of the configuration
of a workspace. -/
structure Gaps where
  inner : Int
  outer : SideGaps
  deriving DecidableEq, Repr

/-- `INT_MIN`, the mark of a gap that is not configured. -/
def intMin : Int := -2 ^ 31

/-- Gaps that are not configured. -/
def Gaps.unset : Gaps := ⟨intMin, ⟨intMin, intMin, intMin, intMin⟩⟩

/-- The sides a word stands for. -/
def namesSide (word : String) : GapSide → Bool
  | .top | .bottom => sameIgnoringCase word "outer" || sameIgnoringCase word "vertical"
  | .right | .left => sameIgnoringCase word "outer" || sameIgnoringCase word "horizontal"

/-- The sides a word stands for, its own name included. -/
def wordSides (word : String) (side : GapSide) : Bool :=
  namesSide word side || sameIgnoringCase word (match side with
    | .top => "top"
    | .right => "right"
    | .bottom => "bottom"
    | .left => "left")

/-- A word stands for some side. -/
def namesOuter (word : String) : Bool :=
  wordSides word .top || wordSides word .right || wordSides word .bottom || wordSides word .left

/-- The gaps with an amount for a word; none if the word is not known. -/
def Gaps.assign (g : Gaps) (word : String) (amount : Int) : Option Gaps :=
  if sameIgnoringCase word "inner" then some { g with inner := if 0 ≤ amount then amount else 0 }
  else if namesOuter word then
    some { g with outer := g.outer.change (wordSides word) fun _ => amount }
  else none

/-! ## The state -/

/-- The default gaps of the configuration, the gaps of the configuration of a workspace by its name,
and the gaps of the workspaces. -/
structure GapsState where
  config : Gaps
  workspaceConfigs : String → Option Gaps
  ws : WsId → Option Gaps

/-- The state at the start. -/
def GapsState.start : GapsState where
  config := ⟨0, ⟨0, 0, 0, 0⟩⟩
  workspaceConfigs _ := none
  ws _ := none

/-! ## gaps -/

/-- `checkarg` with `EXPECTED_EQUAL_TO` -/
def checkargEqualTo (argc : Nat) (name : String) (val : Nat) : Option CmdResult :=
  if argc = val then none
  else some (.invalid ("Invalid " ++ name ++ " command (expected " ++ toString val ++
    " argument" ++ (if val = 1 then "" else "s") ++ ", got " ++ toString argc ++ ")"))

/-- `prevent_invalid_outer_gaps` of `gaps.c`, on the gaps of the configuration. -/
def preventInvalidOuterGaps (g : Gaps) : Gaps :=
  let below (side : GapSide) : Bool := decide (g.outer.at side < -g.inner)
  { g with outer := g.outer.change below fun _ => -g.inner }

/-- `expected_defaults` -/
def expectedDefaults : String :=
  "'gaps inner|outer|horizontal|vertical|top|right|bottom|left <px>'"

/-- `expected_runtime` -/
def expectedRuntime : String := "'gaps inner|outer|horizontal|vertical|" ++
  "top|right|bottom|left current|all set|plus|minus|toggle <px>'"

/-- An amount of pixels, with or without the unit. -/
def gapsAmount (word : String) : Option Int :=
  let n := strtol word.toList
  if n.rest ≠ [] ∧ sameIgnoringCase (String.ofList n.rest) "px" = false then none
  else some (toInt n.value)

/-- `gaps_set_defaults` -/
def gapsSetDefaults (config : Gaps) (argv : List String) : Gaps × CmdResult :=
  match argv with
  | [word, amount] =>
      match (gapsAmount amount).bind (config.assign word) with
      | some g => (preventInvalidOuterGaps g, .success)
      | none => (config, .invalid ("Expected " ++ expectedDefaults))
  | _ => (config, (checkargEqualTo argv.length "gaps" 2).getD .success)

/-- `enum gaps_op` -/
inductive GapsOp where
  | set | add | subtract | toggle
  deriving DecidableEq, Repr

/-- `apply_gaps_op` -/
def applyGapsOp (op : GapsOp) (amount prop : Int) : Int :=
  match op with
  | .set => amount
  | .add => prop + amount
  | .subtract => prop - amount
  | .toggle => if prop ≠ 0 then 0 else amount

/-- `struct gaps_data` -/
structure GapsData where
  inner : Bool
  outer : GapSide → Bool
  operation : GapsOp
  amount : Int

/-- The gaps of a workspace that `configure_gaps` leaves. -/
def GapsData.apply (d : GapsData) (g : Gaps) : Gaps :=
  let inner := if d.inner then applyGapsOp d.operation d.amount g.inner else g.inner
  { inner := if inner < 0 then 0 else inner
    outer := g.outer.change d.outer (applyGapsOp d.operation d.amount) }

/-- `configure_gaps` on some workspaces. The outer gaps it corrects are those of the
configuration. -/
def GapsState.configureGaps (s : GapsState) (targets : List WsId) (d : GapsData) : GapsState :=
  { s with
    ws := fun w => if w ∈ targets then (s.ws w).map d.apply else s.ws w
    config := if targets = [] then s.config else preventInvalidOuterGaps s.config }

/-- The operation a word stands for. -/
def gapsOp (word : String) : Option GapsOp :=
  if sameIgnoringCase word "set" then some .set
  else if sameIgnoringCase word "plus" then some .add
  else if sameIgnoringCase word "minus" then some .subtract
  else if sameIgnoringCase word "toggle" then some .toggle
  else none

/-- Whether all workspaces are meant, or the current one. -/
def gapsAll (word : String) : Option Bool :=
  if sameIgnoringCase word "current" then some false
  else if sameIgnoringCase word "all" then some true
  else none

/-- What the four arguments of `gaps_set_runtime` ask for: the data, and whether for all
workspaces. -/
def readGaps (argv : List String) : Option (Bool × GapsData) :=
  match argv with
  | [word, scope, operation, amount] =>
      let inner := sameIgnoringCase word "inner"
      if inner = false ∧ namesOuter word = false then none
      else
        match gapsAll scope, gapsOp operation, gapsAmount amount with
        | some all, some op, some n =>
            some (all, ⟨inner, fun side => !inner && wordSides word side, op, n⟩)
        | _, _, _ => none
  | _ => none

/-- Where a command runs: whether the configuration is being read, the workspaces of every output,
and the current workspace. -/
structure GapsContext where
  reading : Bool
  outputs : List (List WsId)
  workspace : WsId

/-- The workspaces that are meant. -/
def GapsContext.targets (k : GapsContext) (all : Bool) : List WsId :=
  if all then k.outputs.flatten else [k.workspace]

/-- `gaps_set_runtime` -/
def GapsState.gapsSetRuntime (s : GapsState) (k : GapsContext) (argv : List String) :
    GapsState × CmdResult :=
  match checkargEqualTo argv.length "gaps" 4 with
  | some error => (s, error)
  | none =>
      if k.outputs = [] then
        (s, .invalid "Can't run this command while there's no outputs connected.")
      else
        match readGaps argv with
        | some (all, d) => (s.configureGaps (k.targets all) d, .success)
        | none => (s, .invalid ("Expected " ++ expectedRuntime))

/-- `cmd_gaps` -/
def GapsState.cmdGaps (s : GapsState) (k : GapsContext) (argv : List String) :
    GapsState × CmdResult :=
  match checkargAtLeast argv.length "gaps" 2 with
  | some error => (s, error)
  | none =>
      if argv.length = 2 then
        let (config, result) := gapsSetDefaults s.config argv
        ({ s with config }, result)
      else if argv.length = 4 ∧ k.reading = false then s.gapsSetRuntime k argv
      else if k.reading then (s, .invalid ("Expected " ++ expectedDefaults))
      else (s, .invalid ("Expected " ++ expectedRuntime ++ " or " ++ expectedDefaults))

/-! ## workspace gaps -/

/-- `prevent_invalid_outer_gaps` of `workspace.c`. Minus `INT_MIN` is out of range in C, and is
`INT_MIN` again: nothing is below that. -/
def preventInvalidRuleGaps (g : Gaps) : Gaps :=
  let below (side : GapSide) : Bool :=
    decide (g.outer.at side ≠ intMin) && decide (g.outer.at side < toInt (-g.inner))
  { g with outer := g.outer.change below fun _ => toInt (-g.inner) }

/-- What a word and an amount make of the gaps in the configuration of a workspace. -/
def Gaps.configured (g : Gaps) (word : String) (amount : Int) : Option Gaps :=
  (g.assign word amount).map fun g =>
    preventInvalidRuleGaps
      { g with inner := if g.inner ≠ intMin ∧ g.inner < 0 then 0 else g.inner }

/-- `cmd_workspace_gaps` -/
def GapsState.cmdWorkspaceGaps (s : GapsState) (argv : List String) (gapsLocation : Nat) :
    GapsState × CmdResult :=
  let expected := "Expected 'workspace <name> gaps " ++
    "inner|outer|horizontal|vertical|top|right|bottom|left <px>'"
  if gapsLocation = 0 then (s, .invalid expected)
  else
    match checkargEqualTo argv.length "workspace" (gapsLocation + 3) with
    | some error => (s, error)
    | none =>
        -- the configuration is created before the rest is read
        let wsName := joinArgs (argv.take gapsLocation)
        let wsc := (s.workspaceConfigs wsName).getD Gaps.unset
        let put (g : Gaps) : GapsState :=
          { s with workspaceConfigs := Function.update s.workspaceConfigs wsName (some g) }
        match argv.drop (gapsLocation + 1) with
        | word :: amount :: _ =>
            let n := strtol amount.toList
            if n.rest ≠ [] then (put wsc, .failure expected)
            else
              match wsc.configured word (toInt n.value) with
              | some g => (put g, .success)
              | none => (put wsc, .invalid expected)
        | _ => (put wsc, .invalid expected)

/-- The configured gaps over the defaults. -/
def Gaps.orDefault (g d : Gaps) : Gaps where
  inner := if g.inner ≠ intMin then g.inner else d.inner
  outer := ⟨if g.outer.top ≠ intMin then g.outer.top else d.outer.top,
    if g.outer.right ≠ intMin then g.outer.right else d.outer.right,
    if g.outer.bottom ≠ intMin then g.outer.bottom else d.outer.bottom,
    if g.outer.left ≠ intMin then g.outer.left else d.outer.left⟩

/-- The part of `workspace_create` that gives a new workspace its gaps. -/
def GapsState.workspaceCreate (s : GapsState) (w : WsId) (name : String) : GapsState :=
  { s with ws := Function.update s.ws w (some
      (match s.workspaceConfigs name with
        | some wsc => wsc.orDefault s.config
        | none => s.config)) }

/-! ## Runs -/

/-- A command, or a new workspace. -/
inductive GapsEvent where
  | gaps (k : GapsContext) (argv : List String)
  | workspaceGaps (argv : List String) (gapsLocation : Nat)
  | create (w : WsId) (name : String)

def GapsState.step (s : GapsState) : GapsEvent → GapsState
  | .gaps k argv => (s.cmdGaps k argv).1
  | .workspaceGaps argv gapsLocation => (s.cmdWorkspaceGaps argv gapsLocation).1
  | .create w name => s.workspaceCreate w name

/-- No window is pushed out: the inner gap is not negative, and no outer gap is below minus it. -/
structure Gaps.Valid (g : Gaps) : Prop where
  inner : 0 ≤ g.inner
  outer : ∀ side, -g.inner ≤ g.outer.at side

/-- The gaps in the configuration of a workspace: as far as they are set, they are valid. -/
structure Gaps.RuleValid (g : Gaps) : Prop where
  inner : g.inner = intMin ∨ 0 ≤ g.inner ∧ g.inner < 2 ^ 31
  outer : g.inner ≠ intMin → ∀ side, g.outer.at side = intMin ∨ -g.inner ≤ g.outer.at side

/-- The gaps of every workspace are valid. -/
def GapsState.Inside (s : GapsState) : Prop := ∀ w g, s.ws w = some g → g.Valid

/-- The gaps of the configuration are valid. -/
structure GapsState.Sound (s : GapsState) : Prop where
  config : s.config.Valid
  rules : ∀ name g, s.workspaceConfigs name = some g → g.RuleValid

/-! ## One change -/

section Change

variable {g : Gaps} {s : GapsState} {word name : String} {amount : Int} {side : GapSide}

theorem toInt_lt (v : Int) : toInt v < 2 ^ 31 := by
  unfold toInt
  have hhi := Int.bmod_lt (x := v) (m := 2 ^ 32) (by norm_num)
  norm_num at hhi ⊢
  omega

theorem toInt_of_mem {v : Int} (hlo : intMin ≤ v) (hhi : v < 2 ^ 31) : toInt v = v := by
  unfold intMin at hlo
  exact Int.bmod_eq_of_le (by norm_num at hlo ⊢; omega) (by norm_num at hhi ⊢; omega)

theorem valid_preventInvalidOuterGaps (h : 0 ≤ g.inner) : (preventInvalidOuterGaps g).Valid where
  inner := h
  outer side := by
    unfold preventInvalidOuterGaps
    dsimp only
    rw [SideGaps.at_change]
    split
    · exact le_rfl
    next hge => exact not_lt.1 fun hlt => hge (decide_eq_true hlt)

/-- An amount goes to the inner gap, cut at zero, or to some sides. -/
theorem assign_cases {g' : Gaps} (h : g.assign word amount = some g') :
    g' = { g with inner := max amount 0 } ∨
      ∃ p, g' = { g with outer := g.outer.change p fun _ => amount } := by
  unfold Gaps.assign at h
  split at h
  · left
    rw [← Option.some.inj h]
    congr 1
    split <;> omega
  · split at h
    · exact Or.inr ⟨_, (Option.some.inj h).symm⟩
    · cases h

theorem valid_gapsSetDefaults (h : g.Valid) (argv : List String) :
    (gapsSetDefaults g argv).1.Valid := by
  unfold gapsSetDefaults
  split
  next word amount =>
    cases hassign : (gapsAmount amount).bind (g.assign word) with
    | none => exact h
    | some g' =>
        obtain ⟨n, -, hn⟩ := Option.bind_eq_some_iff.1 hassign
        apply valid_preventInvalidOuterGaps
        rcases assign_cases hn with rfl | ⟨p, rfl⟩
        · exact le_max_right _ _
        · exact h.inner
  · exact h

/-- **The configuration of a workspace** stays valid as far as it is set. -/
theorem ruleValid_configured {g' : Gaps} (h : g.RuleValid) (hhi : amount < 2 ^ 31)
    (hg : g.configured word amount = some g') : g'.RuleValid := by
  obtain ⟨k, hk, rfl⟩ := Option.map_eq_some_iff.1 hg
  have hinner : k.inner = intMin ∨ 0 ≤ k.inner ∧ k.inner < 2 ^ 31 := by
    rcases assign_cases hk with rfl | ⟨p, rfl⟩
    · exact Or.inr ⟨le_max_right _ _, max_lt hhi (by norm_num)⟩
    · exact h.inner
  have hkept : (if k.inner ≠ intMin ∧ k.inner < 0 then 0 else k.inner) = k.inner := by
    rw [if_neg]
    rintro ⟨hne, hneg⟩
    rcases hinner with heq | ⟨hpos, -⟩
    · exact hne heq
    · omega
  rw [hkept]
  refine ⟨hinner, fun hne side => ?_⟩
  obtain ⟨hpos, hlt⟩ := hinner.resolve_left hne
  have hneg : toInt (-k.inner) = -k.inner :=
    toInt_of_mem (by unfold intMin; norm_num at hlt ⊢; omega) (by norm_num at hlt ⊢; omega)
  unfold preventInvalidRuleGaps
  dsimp only
  rw [SideGaps.at_change, hneg]
  split
  · exact Or.inr le_rfl
  next hkeep =>
    by_cases hunset : k.outer.at side = intMin
    · exact Or.inl hunset
    · refine Or.inr (not_lt.1 fun hbelow => hkeep ?_)
      rw [decide_eq_true hunset, decide_eq_true hbelow]
      rfl

theorem ruleValid_unset : Gaps.unset.RuleValid := ⟨Or.inl rfl, fun h => absurd rfl h⟩

end Change

/-! ## What keeps the gaps valid -/

/-- An operation leaves valid gaps valid: the inner gap it makes covers every negative outer gap, or
the outer gaps it makes are covered by the inner one. -/
def GapsData.Keeps (d : GapsData) (g : Gaps) : Prop :=
  if d.inner then
    ∀ side, 0 ≤ g.outer.at side ∨ match d.operation with
      | .set => -g.outer.at side ≤ d.amount
      | .add => -g.outer.at side ≤ g.inner + d.amount
      | .subtract => -g.outer.at side ≤ g.inner - d.amount
      | .toggle => False
  else
    ∀ side, d.outer side = true → match d.operation with
      | .set => -g.inner ≤ d.amount
      | .add => -g.inner ≤ g.outer.at side + d.amount
      | .subtract => -g.inner ≤ g.outer.at side - d.amount
      | .toggle => g.outer.at side = 0 → -g.inner ≤ d.amount

/-- The gaps that are configured for a workspace fit the defaults for the rest. -/
def Gaps.FitsDefault (g d : Gaps) : Prop :=
  if g.inner = intMin then ∀ side, g.outer.at side ≠ intMin → -d.inner ≤ g.outer.at side
  else ∀ side, g.outer.at side = intMin → -g.inner ≤ d.outer.at side

/-- An event does not push windows out. -/
def GapsState.Keeps (s : GapsState) : GapsEvent → Prop
  | .gaps k argv => k.reading = false → k.outputs ≠ [] → ∀ all d, readGaps argv = some (all, d) →
      ∀ w ∈ k.targets all, ∀ g, s.ws w = some g → d.Keeps g
  | .workspaceGaps .. => True
  | .create _ name => ∀ g, s.workspaceConfigs name = some g → g.FitsDefault s.config

section Keeps

variable {g : Gaps} {d : GapsData} {s : GapsState}

/-- The outer gaps are as before, so that a new inner gap has to cover the negative ones. -/
theorem apply_inner_valid_iff {outer : GapSide → Bool} {operation : GapsOp} {amount : Int}
    (hg : g.Valid) (hd : ∀ side, outer side = false) :
    (GapsData.apply ⟨true, outer, operation, amount⟩ g).Valid ↔
      ∀ side, 0 ≤ g.outer.at side ∨
        -g.outer.at side ≤ applyGapsOp operation amount g.inner := by
  obtain ⟨i, o⟩ := g
  have hi : 0 ≤ i := hg.inner
  have ho : ∀ side, -i ≤ o.at side := hg.outer
  dsimp only
  constructor
  · intro h side
    have hside := h.outer side
    simp only [GapsData.apply, SideGaps.at_change, hd, Bool.false_eq_true, if_false,
      if_true] at hside
    split at hside <;> omega
  · intro h
    refine ⟨?_, fun side => ?_⟩
    · simp only [GapsData.apply, if_true]
      split <;> omega
    · simp only [GapsData.apply, SideGaps.at_change, hd, Bool.false_eq_true, if_false,
        if_true]
      have hside := h side
      split <;> omega

/-- The inner gap is as before, and has to cover the new outer ones. -/
theorem apply_outer_valid_iff {outer : GapSide → Bool} {operation : GapsOp} {amount : Int}
    (hg : g.Valid) : (GapsData.apply ⟨false, outer, operation, amount⟩ g).Valid ↔
      ∀ side, outer side = true →
        -g.inner ≤ applyGapsOp operation amount (g.outer.at side) := by
  obtain ⟨i, o⟩ := g
  have hi : 0 ≤ i := hg.inner
  have ho : ∀ side, -i ≤ o.at side := hg.outer
  have hinner : (if i < 0 then 0 else i) = i := if_neg (not_lt.2 hi)
  dsimp only
  constructor
  · intro h side hside
    have houter := h.outer side
    simpa only [GapsData.apply, SideGaps.at_change, hside, hinner, if_true,
      Bool.false_eq_true, if_false] using houter
  · intro h
    refine ⟨?_, fun side => ?_⟩
    · simpa only [GapsData.apply, hinner, Bool.false_eq_true, if_false] using hi
    · simp only [GapsData.apply, SideGaps.at_change, hinner, Bool.false_eq_true, if_false]
      split
      next hside => exact h side hside
      · exact ho side

/-- **`configure_gaps`** leaves the gaps of a workspace valid exactly where the operation does. -/
theorem apply_valid_iff (hg : g.Valid) (hd : d.inner = true → ∀ side, d.outer side = false) :
    (d.apply g).Valid ↔ d.Keeps g := by
  obtain ⟨inner, outer, operation, amount⟩ := d
  cases inner with
  | true =>
      rw [apply_inner_valid_iff hg (hd rfl), GapsData.Keeps, if_pos rfl]
      refine forall_congr' fun side => or_congr_right' fun hneg => ?_
      cases operation with
      | set => exact Iff.rfl
      | add => exact Iff.rfl
      | subtract => exact Iff.rfl
      | toggle =>
          -- a negative outer gap needs an inner one, which is toggled off
          have hside := hg.outer side
          have hpos : g.inner ≠ 0 := by omega
          simp only [applyGapsOp, if_pos hpos]
          exact iff_false_intro (by omega)
  | false =>
      rw [apply_outer_valid_iff hg, GapsData.Keeps, if_neg Bool.false_ne_true]
      refine forall_congr' fun side => imp_congr_right fun _ => ?_
      cases operation with
      | set => exact Iff.rfl
      | add => exact Iff.rfl
      | subtract => exact Iff.rfl
      | toggle =>
          simp only [applyGapsOp]
          have hi : 0 ≤ g.inner := hg.inner
          by_cases hzero : g.outer.at side = 0
          · rw [if_neg (not_not.2 hzero)]
            exact ⟨fun h _ => h, fun h => h hzero⟩
          · rw [if_pos hzero]
            exact iff_of_true (by omega) fun h => absurd h hzero

theorem at_orDefault (g d : Gaps) (side : GapSide) : (g.orDefault d).outer.at side =
    if g.outer.at side ≠ intMin then g.outer.at side else d.outer.at side := by
  cases side <;> rfl

/-- **A new workspace** has valid gaps exactly where what is configured for it fits the defaults. -/
theorem orDefault_valid_iff {d : Gaps} (hg : g.RuleValid) (hd : d.Valid) :
    (g.orDefault d).Valid ↔ g.FitsDefault d := by
  unfold Gaps.FitsDefault
  split
  next hunset =>
    have hinner : (g.orDefault d).inner = d.inner := if_neg (not_not.2 hunset)
    constructor
    · intro h side hset
      have hside := h.outer side
      rwa [hinner, at_orDefault, if_pos hset] at hside
    · intro h
      refine ⟨hinner ▸ hd.inner, fun side => ?_⟩
      rw [hinner, at_orDefault]
      split
      next hset => exact h side hset
      · exact hd.outer side
  next hset =>
    have hinner : (g.orDefault d).inner = g.inner := if_pos hset
    constructor
    · intro h side hunset
      have hside := h.outer side
      rwa [hinner, at_orDefault, if_neg (not_not.2 hunset)] at hside
    · intro h
      refine ⟨hinner ▸ (hg.inner.resolve_left hset).1, fun side => ?_⟩
      rw [hinner, at_orDefault]
      split
      next hside => exact (hg.outer hset side).resolve_left hside
      next hside => exact h side (not_not.1 hside)

/-- What is read applies to the inner gap or to sides, not to both. -/
theorem readGaps_sides {argv : List String} {all : Bool} (h : readGaps argv = some (all, d))
    (hinner : d.inner = true) (side : GapSide) : d.outer side = false := by
  unfold readGaps at h
  split at h
  · dsimp only at h
    split at h
    · cases h
    · split at h
      · injection h with h
        injection h with _ h
        rw [← h] at hinner ⊢
        dsimp only at hinner ⊢
        rw [hinner]
        rfl
      · cases h
  · cases h

/-- **`cmd_gaps`** configures the workspaces that are meant, or sets defaults, or changes nothing. -/
theorem cmdGaps_cases (s : GapsState) (k : GapsContext) (argv : List String) :
    (k.reading = false ∧ k.outputs ≠ [] ∧ ∃ all d, readGaps argv = some (all, d) ∧
      (s.cmdGaps k argv).1 = s.configureGaps (k.targets all) d) ∨
    (k.reading = false → k.outputs ≠ [] → readGaps argv = none) ∧
      ∃ c, (s.cmdGaps k argv).1 = { s with config := c } ∧ (s.config.Valid → c.Valid) := by
  have hread : argv.length ≠ 4 → readGaps argv = none := by
    intro hlen
    unfold readGaps
    split
    · exact absurd rfl hlen
    · rfl
  have hsame : ∃ c, s = { s with config := c } ∧ (s.config.Valid → c.Valid) :=
    ⟨s.config, rfl, id⟩
  unfold GapsState.cmdGaps
  cases hatLeast : checkargAtLeast argv.length "gaps" 2 with
  | some error =>
      have hlt : argv.length < 2 := by
        unfold checkargAtLeast at hatLeast
        by_contra hge
        rw [if_neg hge] at hatLeast
        cases hatLeast
      exact Or.inr ⟨fun _ _ => hread (by omega), hsame⟩
  | none =>
      dsimp only
      split
      next hlen =>
        exact Or.inr ⟨fun _ _ => hread (by omega), _, rfl, fun h => valid_gapsSetDefaults h argv⟩
      · split
        next hruntime =>
          obtain ⟨hlen, hreading⟩ := hruntime
          unfold GapsState.gapsSetRuntime
          rw [checkargEqualTo, if_pos hlen]
          dsimp only
          split
          next hnone => exact Or.inr ⟨fun _ hne => absurd hnone hne, hsame⟩
          next hne =>
            cases hr : readGaps argv with
            | none => exact Or.inr ⟨fun _ _ => rfl, hsame⟩
            | some r => exact Or.inl ⟨hreading, hne, r.1, r.2, rfl, rfl⟩
        next hnot =>
          have hnone : k.reading = false → k.outputs ≠ [] → readGaps argv = none :=
            fun hreading _ => hread fun hlen => hnot ⟨hlen, hreading⟩
          split
          · exact Or.inr ⟨hnone, hsame⟩
          · exact Or.inr ⟨hnone, hsame⟩

/-- **`cmd_workspace_gaps`** changes the configuration of one workspace at most. -/
theorem cmdWorkspaceGaps_sound (h : s.Sound) (argv : List String) (gapsLocation : Nat) :
    (s.cmdWorkspaceGaps argv gapsLocation).1.Sound ∧
      (s.cmdWorkspaceGaps argv gapsLocation).1.ws = s.ws := by
  have hput : ∀ (name : String) (g : Gaps), g.RuleValid →
      GapsState.Sound { s with
        workspaceConfigs := Function.update s.workspaceConfigs name (some g) } := by
    intro name g hg
    refine ⟨h.config, fun name' g' hg' => ?_⟩
    dsimp only at hg'
    by_cases heq : name' = name
    · rw [heq, Function.update_self] at hg'
      exact Option.some.inj hg' ▸ hg
    · rw [Function.update_of_ne heq] at hg'
      exact h.rules name' g' hg'
  have hold : ∀ name, ((s.workspaceConfigs name).getD Gaps.unset).RuleValid := by
    intro name
    cases hc : s.workspaceConfigs name with
    | none => exact ruleValid_unset
    | some g => exact h.rules name g hc
  unfold GapsState.cmdWorkspaceGaps
  dsimp only
  split
  · exact ⟨h, rfl⟩
  · split
    · exact ⟨h, rfl⟩
    · split
      · split
        · exact ⟨hput _ _ (hold _), rfl⟩
        · split
          next hg => exact ⟨hput _ _ (ruleValid_configured (hold _) (toInt_lt _) hg), rfl⟩
          · exact ⟨hput _ _ (hold _), rfl⟩
      · exact ⟨hput _ _ (hold _), rfl⟩

/-- What is configured stays in order, whatever happens. -/
theorem sound_step (h : s.Sound) (e : GapsEvent) : (s.step e).Sound := by
  cases e with
  | gaps k argv =>
      show (s.cmdGaps k argv).1.Sound
      obtain ⟨-, -, all, d, -, hstep⟩ | ⟨-, c, hstep, hc⟩ := cmdGaps_cases s k argv
      · rw [hstep]
        refine ⟨?_, h.rules⟩
        show (if k.targets all = [] then s.config else preventInvalidOuterGaps s.config).Valid
        split
        · exact h.config
        · exact valid_preventInvalidOuterGaps h.config.inner
      · rw [hstep]
        exact ⟨hc h.config, h.rules⟩
  | workspaceGaps argv gapsLocation => exact (cmdWorkspaceGaps_sound h argv gapsLocation).1
  | create w name => exact ⟨h.config, h.rules⟩

/-- The command `gaps`. -/
theorem inside_cmdGaps_iff (hs : s.Inside) (k : GapsContext) (argv : List String) :
    (s.cmdGaps k argv).1.Inside ↔ s.Keeps (.gaps k argv) := by
  obtain ⟨hreading, hne, all, d, hr, hstep⟩ | ⟨hnone, c, hstep, -⟩ := cmdGaps_cases s k argv
  · have hvalid : ∀ g, g.Valid → ((d.apply g).Valid ↔ d.Keeps g) := fun g hg =>
      apply_valid_iff hg (readGaps_sides hr)
    rw [hstep]
    constructor
    · intro h _ _ all' d' hr' w hw g hg
      obtain ⟨rfl, rfl⟩ := Prod.mk.inj (Option.some.inj (hr.symm.trans hr'))
      refine (hvalid g (hs w g hg)).1 (h w _ ?_)
      show (if w ∈ k.targets all then (s.ws w).map d.apply else s.ws w) = _
      rw [if_pos hw, hg]
      rfl
    · intro h w g' hg'
      replace hg' : (if w ∈ k.targets all then (s.ws w).map d.apply else s.ws w) = some g' :=
        hg'
      split at hg'
      next hw =>
        obtain ⟨g, hg, rfl⟩ := Option.map_eq_some_iff.1 hg'
        exact (hvalid g (hs w g hg)).2 (h hreading hne all d hr w hw g hg)
      · exact hs w g' hg'
  · rw [hstep]
    refine iff_of_true hs ?_
    intro hreading hne all d hr
    rw [hnone hreading hne] at hr
    cases hr

/-- A new workspace. -/
theorem inside_create_iff (hsound : s.Sound) (hs : s.Inside) (w : WsId) (name : String) :
    (s.step (.create w name)).Inside ↔ s.Keeps (.create w name) := by
  have hnew : (s.step (.create w name)).Inside ↔
      (match s.workspaceConfigs name with
        | some wsc => wsc.orDefault s.config
        | none => s.config).Valid := by
    have hself : (s.step (.create w name)).ws w = some
        (match s.workspaceConfigs name with
          | some wsc => wsc.orDefault s.config
          | none => s.config) := Function.update_self _ _ _
    constructor
    · intro h
      exact h w _ hself
    · intro h w' g hg
      by_cases heq : w' = w
      · rw [heq, hself] at hg
        exact Option.some.inj hg ▸ h
      · have hother : (s.step (.create w name)).ws w' = s.ws w' :=
          Function.update_of_ne heq _ _
        rw [hother] at hg
        exact hs w' g hg
  rw [hnew]
  show _ ↔ ∀ g, s.workspaceConfigs name = some g → g.FitsDefault s.config
  cases hc : s.workspaceConfigs name with
  | none => exact iff_of_true hsound.config fun g hg => by cases hg
  | some wsc =>
      dsimp only
      rw [orDefault_valid_iff (hsound.rules name wsc hc) hsound.config]
      exact ⟨fun h g hg => Option.some.inj hg ▸ h, fun h => h wsc rfl⟩

/-- **One event** keeps the gaps of all workspaces valid exactly where it is said to. -/
theorem inside_step_iff (hsound : s.Sound) (hs : s.Inside) (e : GapsEvent) :
    (s.step e).Inside ↔ s.Keeps e := by
  cases e with
  | gaps k argv => exact inside_cmdGaps_iff hs k argv
  | workspaceGaps argv gapsLocation =>
      refine iff_of_true ?_ trivial
      show (s.cmdWorkspaceGaps argv gapsLocation).1.Inside
      unfold GapsState.Inside
      rw [(cmdWorkspaceGaps_sound hsound argv gapsLocation).2]
      exact hs
  | create w name => exact inside_create_iff hsound hs w name

end Keeps

theorem sound_start : GapsState.start.Sound where
  config := ⟨le_rfl, fun side => by cases side <;> exact le_rfl⟩
  rules _ _ h := by cases h

/-- **Gaps never push windows out**, in every run whose commands and new workspaces each leave the
gaps valid, and in no other. -/
theorem gaps_inside_iff (es : List GapsEvent) :
    Allowed GapsState.step (fun s e => (s.step e).Inside) GapsState.start es ↔
      Allowed GapsState.step GapsState.Keeps GapsState.start es := by
  have hkeeps : Allowed GapsState.step (fun s e => (s.step e).Sound ∧ (s.step e).Inside)
      GapsState.start es ↔ Allowed GapsState.step GapsState.Keeps GapsState.start es :=
    Allowed.keeps_iff (fun s : GapsState => s.Sound ∧ s.Inside)
      (fun s e hs => (and_iff_right (sound_step hs.1 e)).trans (inside_step_iff hs.1 hs.2 e))
      ⟨sound_start, fun _ _ h => by cases h⟩
  rw [← hkeeps]
  exact Allowed.congr (I := GapsState.Sound)
    (fun s e hs _ => sound_step hs e)
    (fun s e hs _ => (and_iff_right (sound_step hs e)).symm) sound_start (Allowed.free _ es)

/-- A workspace, and a negative outer gap for it while the inner gap is zero. -/
def negativeOuter : List GapsEvent :=
  [.create 0 "1", .gaps ⟨false, [[0]], 0⟩ ["outer", "current", "set", "-50"]]

/-- The outer gaps of the workspace are as the command says: only those of the configuration are
corrected. -/
theorem gaps_pushed_out : ¬ (negativeOuter.foldl GapsState.step GapsState.start).Inside := by
  intro h
  have hgaps : (negativeOuter.foldl GapsState.step GapsState.start).ws 0 =
      some ⟨0, ⟨-50, -50, -50, -50⟩⟩ := by decide +kernel
  exact absurd ((h 0 _ hgaps).outer .top) (by decide)

end Swirl

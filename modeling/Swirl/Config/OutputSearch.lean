import Swirl.Config.OutputState
import Swirl.Lib.Search

set_option autoImplicit false

/-! # The search for a configuration that works

When the requested states are refused, `search_valid_config` tries, output by output, the render
formats, the modes and adaptive sync, and turns an output off when nothing else is left and it may
be degraded. All of it happens in the one vector of states, which a failed branch leaves as it is.
The search succeeds exactly when there is an assignment of candidates every non-empty prefix of
which is accepted with the later outputs turned off, and it leaves such an assignment behind.
-/

namespace Swirl

open Swirl.Lib

/-! ## The search -/

section Search

variable (prepare : List OutputState → Bool) (cfg : MatchedOutputConfig) (idx : Nat)
  (next : Attempt (List OutputState))

/-- `clear_later_output_states` -/
def clearLaterOutputStates (idx : Nat) (states : List OutputState) : List OutputState :=
  states.take (idx + 1) ++ List.replicate (states.length - (idx + 1)) .off

/-- `search_finish`. What comes after it, the search for the next output, is `next`. -/
def searchFinish : Attempt (List OutputState) := fun states =>
  if prepare (clearLaterOutputStates idx states) then next (clearLaterOutputStates idx states)
  else (false, clearLaterOutputStates idx states)

/-- `search_finish` after `wlr_output_state_set_adaptive_sync_enabled` -/
def searchWithSync (enabled : Bool) : Attempt (List OutputState) := fun states =>
  searchFinish prepare idx next
    (states.modify idx fun state => { state with adaptiveSyncEnabled := some enabled })

/-- `search_adaptive_sync` -/
def searchAdaptiveSync : Attempt (List OutputState) :=
  if !cfg.output.adaptiveSyncSupported then searchFinish prepare idx next
  else if configIs cfg.config .adaptiveSync fun v : Int => v == 1 then
    (searchWithSync prepare idx next true).orElse (searchWithSync prepare idx next false)
  else searchWithSync prepare idx next false

/-- `search_adaptive_sync` after `wlr_output_state_set_mode`, or after the mode is taken out of the
committed fields. -/
def searchWithMode (mode : Option OutputMode) : Attempt (List OutputState) := fun states =>
  searchAdaptiveSync prepare cfg idx next
    (states.modify idx fun state => { state with mode := mode.map .fixed })

/-- `search_mode` -/
def searchMode : Attempt (List OutputState) :=
  if configHasManualMode cfg.config then searchAdaptiveSync prepare cfg idx next
  else
    let others :=
      if cfg.output.modes = [] then searchWithMode prepare cfg idx next none
      else
        Attempt.tryEach (searchWithMode prepare cfg idx next)
          ((cfg.output.modes.map some).filter (· ≠ cfg.output.preferredMode))
    match cfg.output.preferredMode with
    | some preferredMode => (searchWithMode prepare cfg idx next (some preferredMode)).orElse others
    | none => others

/-- The list of formats in `search_render_format`, which starts with BGR in the unlikely event that
it was required before. -/
def searchFormats (o : SwayOutput) : List DrmFormat :=
  if renderFormatIsBgr o.renderFormat then
    [.xbgr2101010, .xrgb2101010, .xrgb8888, .argb8888, .rgb565]
  else [.xrgb2101010, .xbgr2101010, .xrgb8888, .argb8888, .rgb565]

/-- The two tests of a format in `search_render_format`: that it is no deeper than what the
configuration needs, and that the primary plane supports it. -/
def formatIsAllowed (cfg : MatchedOutputConfig) (fmt : DrmFormat) : Bool :=
  !decide ((getConfigRenderBitDepth cfg.config).rank < (bitDepthFromFormat fmt).rank) &&
    match cfg.output.primaryFormats with
    | none => true
    | some formats => decide (fmt ∈ formats)

/-- `search_mode` after `wlr_output_state_set_render_format` -/
def searchWithFormat (fmt : DrmFormat) : Attempt (List OutputState) := fun states =>
  searchMode prepare cfg idx next
    (states.modify idx fun state => { state with renderFormat := some fmt })

/-- `search_render_format` -/
def searchRenderFormat : Attempt (List OutputState) :=
  Attempt.tryEach
    (fun fmt => if formatIsAllowed cfg fmt then searchWithFormat prepare cfg idx next fmt
      else Attempt.fail)
    (searchFormats cfg.output)

/-- The end of `search_valid_config`, which turns the output off. -/
def searchDisabled : Attempt (List OutputState) := fun states =>
  searchFinish prepare idx next
    (states.modify idx fun state => { state with enabled := some false })

end Search

/-- `search_valid_config` from output `idx` on; the list is `ctx->configs` from there on. -/
def searchValidConfig (prepare : List OutputState → Bool) (degradeToOff : Bool) :
    List MatchedOutputConfig → Nat → Attempt (List OutputState)
  | [], _ => fun states => (true, states)
  | cfg :: configs, idx =>
      let next := searchValidConfig prepare degradeToOff configs (idx + 1)
      if outputConfigIsDisabling cfg.config then searchDisabled prepare idx next
      else fun states =>
        (searchRenderFormat prepare cfg idx next).orElse
          (if degradeToOff then fun states =>
              searchDisabled prepare idx next (states.modify idx fun _ => OutputState.init)
            else Attempt.fail)
          (states.modify idx (queueOutputConfig cfg.config cfg.output))

/-! ## What it looks for -/

/-- The state that is asked for first. -/
def MatchedOutputConfig.queued (cfg : MatchedOutputConfig) : OutputState :=
  queueOutputConfig cfg.config cfg.output OutputState.init

/-- The queued state with another render format, mode and adaptive sync. -/
def MatchedOutputConfig.withChoices (cfg : MatchedOutputConfig) (fmt : Option DrmFormat)
    (mode : Option PendingMode) (sync : Option Bool) : OutputState :=
  { cfg.queued with renderFormat := fmt, mode := mode, adaptiveSyncEnabled := sync }

/-- The render formats that an output may be given. -/
def allowedFormats (cfg : MatchedOutputConfig) : List DrmFormat :=
  (searchFormats cfg.output).filter (formatIsAllowed cfg)

/-- The modes that an output may be given: the one of the configuration, or any of its own. -/
def allowedModes (cfg : MatchedOutputConfig) : List (Option PendingMode) :=
  if configHasManualMode cfg.config then [cfg.queued.mode]
  else if cfg.output.modes = [] then [none]
  else cfg.output.modes.map fun mode => some (.fixed mode)

/-- The settings of adaptive sync that an output may be given. -/
def allowedSyncs (cfg : MatchedOutputConfig) : List (Option Bool) :=
  if !cfg.output.adaptiveSyncSupported then [none]
  else if configIs cfg.config .adaptiveSync fun v : Int => v == 1 then [some true, some false]
  else [some false]

/-- The candidates for an output. -/
def candidates (degradeToOff : Bool) (cfg : MatchedOutputConfig) : List OutputState :=
  if outputConfigIsDisabling cfg.config then [.off]
  else
    ((allowedFormats cfg).flatMap fun fmt => (allowedModes cfg).flatMap fun mode =>
      (allowedSyncs cfg).map fun sync => cfg.withChoices (some fmt) mode sync) ++
    if degradeToOff then [.off] else []

/-- `choice` gives each of the outputs a candidate, and after the states `before` every non-empty
prefix of it is accepted with the later outputs off. -/
structure AssignmentAfter (prepare : List OutputState → Bool) (degradeToOff : Bool)
    (before : List OutputState) (configs : List MatchedOutputConfig)
    (choice : List OutputState) : Prop where
  candidate : List.Forall₂ (fun state cfg => state ∈ candidates degradeToOff cfg) choice configs
  accepted : ∀ i < configs.length,
    prepare (before ++ choice.take (i + 1) ++
      List.replicate (configs.length - (i + 1)) .off) = true

/-- An assignment of candidates to all outputs. -/
def Assignment (prepare : List OutputState → Bool) (degradeToOff : Bool)
    (configs : List MatchedOutputConfig) (choice : List OutputState) : Prop :=
  AssignmentAfter prepare degradeToOff [] configs choice

section

variable {prepare : List OutputState → Bool} {degrade : Bool} {before choice : List OutputState}
  {cfg : MatchedOutputConfig} {configs : List MatchedOutputConfig} {c : OutputState}

theorem assignmentAfter_nil : AssignmentAfter prepare degrade before [] [] :=
  ⟨List.Forall₂.nil, fun _ hi => absurd hi (Nat.not_lt_zero _)⟩

/-- An assignment is one of its first output and, after that, one of the others. -/
theorem assignmentAfter_cons :
    AssignmentAfter prepare degrade before (cfg :: configs) (c :: choice) ↔
      c ∈ candidates degrade cfg ∧
      prepare (before ++ c :: List.replicate configs.length .off) = true ∧
      AssignmentAfter prepare degrade (before ++ [c]) configs choice := by
  constructor
  · rintro ⟨hcand, hacc⟩
    obtain ⟨hc, hchoice⟩ := List.forall₂_cons.1 hcand
    refine ⟨hc, ?_, hchoice, fun i hi => ?_⟩
    · simpa using hacc 0 (Nat.zero_lt_succ _)
    · have h := hacc (i + 1) (Nat.succ_lt_succ hi)
      simpa [List.append_assoc] using h
  · rintro ⟨hc, hfirst, hcand, hacc⟩
    refine ⟨List.forall₂_cons.2 ⟨hc, hcand⟩, fun i hi => ?_⟩
    cases i with
    | zero => simpa using hfirst
    | succ i =>
        have h := hacc i (Nat.lt_of_succ_lt_succ hi)
        simpa [List.append_assoc] using h

/-- The whole of an assignment is accepted. -/
theorem AssignmentAfter.prepare_choice (h : AssignmentAfter prepare degrade before configs choice)
    (hne : configs ≠ []) : prepare (before ++ choice) = true := by
  have hlen : choice.length = configs.length := h.candidate.length_eq
  have hpos : 0 < configs.length := List.length_pos_of_ne_nil hne
  have hlast := h.accepted (configs.length - 1) (by omega)
  have htake : choice.take (configs.length - 1 + 1) = choice :=
    List.take_of_length_le (by omega)
  have hrest : configs.length - (configs.length - 1 + 1) = 0 := by omega
  rw [htake, hrest] at hlast
  simpa using hlast

end

/-! ## The queued state -/

/-- `set_mode` sets the mode to one that does not depend on the pending state, or leaves it. -/
theorem setMode_eq (o : SwayOutput) (width height : Int) (refreshRate : ℚ) (custom : Bool) :
    ∃ mode : Option PendingMode, ∀ pending,
      setMode o pending width height refreshRate custom =
        { pending with mode := mode.or pending.mode } := by
  unfold setMode
  dsimp only
  generalize (if round (refreshRate * 1000) ≤ 0 then 2147483647
    else round (refreshRate * 1000)) = mhz
  by_cases hcustom : o.modes = [] ∨ custom = true
  · refine ⟨some (.custom width height (if 0 < refreshRate then mhz else 0)), fun pending => ?_⟩
    rw [if_pos hcustom]
    rfl
  · refine ⟨((closestMode width height mhz o.modes 2147483647 none).or o.preferredMode).map .fixed,
      fun pending => ?_⟩
    rw [if_neg hcustom]
    cases (closestMode width height mhz o.modes 2147483647 none).or o.preferredMode <;> rfl

theorem setModeline_eq (o : SwayOutput) (drmMode : DrmModeInfo) :
    ∃ mode : Option PendingMode, ∀ pending,
      setModeline o pending drmMode = { pending with mode := mode.or pending.mode } := by
  refine ⟨if o.isDrm then (o.addMode drmMode).map .fixed else none, fun pending => ?_⟩
  unfold setModeline
  cases o.isDrm <;> cases o.addMode drmMode <;> rfl

/-- The mode part sets the mode to one that does not depend on the pending state, or leaves it. -/
theorem queueMode_eq (oc : Option OutputConfig) (o : SwayOutput) :
    ∃ mode : Option PendingMode, ∀ pending,
      queueMode oc o pending = { pending with mode := mode.or pending.mode } := by
  cases oc with
  | none =>
      refine ⟨o.preferredMode.map .fixed, fun pending => ?_⟩
      unfold queueMode
      cases o.preferredMode <;> simp
  | some oc =>
      unfold queueMode
      cases configModeline (some oc) with
      | some drmMode => exact setModeline_eq o drmMode
      | none =>
          cases configSize (some oc) with
          | none =>
              refine ⟨o.preferredMode.map .fixed, fun pending => ?_⟩
              cases o.preferredMode <;> simp
          | some size => exact setMode_eq o size.1 size.2 _ _

/-- `set_hdr` sets the image description to one that does not depend on the pending state, or leaves
it. -/
theorem setHdr_eq (o : SwayOutput) (enabled : Bool) :
    ∃ description : Option Bool, ∀ pending, setHdr o pending enabled =
      { pending with imageDescription := description.or pending.imageDescription } := by
  refine ⟨(setHdr o OutputState.init enabled).imageDescription, fun pending => ?_⟩
  unfold setHdr
  dsimp only
  split_ifs
  all_goals simp [OutputState.init]

/-- The scale depends on the mode and the transform of the pending state only. -/
theorem queuedScale_congr (oc : Option OutputConfig) (o : SwayOutput) {p q : OutputState}
    (hmode : p.mode = q.mode) (htransform : p.transform = q.transform) :
    queuedScale oc o p = queuedScale oc o q := by
  have hdefault : computeDefaultScale o p = computeDefaultScale o q := by
    unfold computeDefaultScale
    rw [hmode, htransform]
  unfold queuedScale
  rw [hdefault]

/-- What an output that is not turned off is asked for: the mode, adaptive sync and the image
description are the fields that may be left as they are. -/
theorem queueOutputConfig_eq {oc : Option OutputConfig} (o : SwayOutput)
    (henabled : outputConfigIsDisabling oc = false) :
    ∃ (mode : Option PendingMode) (description : Option Bool), ∀ pending,
      queueOutputConfig oc o pending =
        { enabled := some true
          mode := mode.or pending.mode
          subpixel := some (queuedSubpixel oc o)
          transform := some (queuedTransform oc o)
          scale := some (queuedScale oc o { OutputState.init with
            mode := mode.or pending.mode, transform := some (queuedTransform oc o) })
          adaptiveSyncEnabled :=
            if o.adaptiveSyncSupported then
              some (configIs oc .adaptiveSync fun v : Int => v == 1)
            else pending.adaptiveSyncEnabled
          renderFormat := some (queuedFormat oc o)
          imageDescription := description.or pending.imageDescription } := by
  obtain ⟨mode, hmode⟩ := queueMode_eq oc o
  obtain ⟨description, hset⟩ := setHdr_eq o (queuedHdr oc)
  refine ⟨mode, description, fun pending => ?_⟩
  unfold queueOutputConfig
  simp only [henabled, Bool.false_eq_true, if_false, hmode, hset]
  cases o.adaptiveSyncSupported with
  | true =>
      simp only [if_true, OutputState.mk.injEq, Option.some.injEq, true_and, and_true]
      exact queuedScale_congr oc o rfl rfl
  | false =>
      simp only [Bool.false_eq_true, if_false, OutputState.mk.injEq, Option.some.injEq, true_and,
        and_true]
      exact queuedScale_congr oc o rfl rfl

/-- Queued on a state that is off, or on what was queued before, an output that is not turned off is
asked for the same. -/
theorem queueOutputConfig_fresh {cfg : MatchedOutputConfig} {pending : OutputState}
    (henabled : outputConfigIsDisabling cfg.config = false)
    (hpending : pending = .off ∨ pending = cfg.queued) :
    queueOutputConfig cfg.config cfg.output pending = cfg.queued := by
  obtain ⟨mode, description, hqueue⟩ := queueOutputConfig_eq cfg.output henabled
  unfold MatchedOutputConfig.queued at hpending ⊢
  rcases hpending with rfl | rfl
  · rw [hqueue, hqueue]
    rfl
  · rw [hqueue, hqueue]
    simp only [OutputState.init, Option.or_none, Option.or_self]
    cases cfg.output.adaptiveSyncSupported <;> rfl

/-! ## One output

Throughout the search for one output the states before it stay as they are, the number of later
ones does too, and its own state is the queued one up to the choices that are still open. -/

/-- After the states `before` comes one with `own`, and then `later` others. -/
def AtOutput (before : List OutputState) (later : Nat) (own : OutputState → Prop)
    (states : List OutputState) : Prop :=
  ∃ state rest, states = before ++ state :: rest ∧ rest.length = later ∧ own state

section Output

variable {prepare : List OutputState → Bool} {degrade : Bool} {cfg : MatchedOutputConfig}
  {before : List OutputState} {later : Nat} {next : Attempt (List OutputState)}
  {E : OutputState → Prop} {G : List OutputState → Prop} {own own' : OutputState → Prop}

theorem AtOutput.mono {states : List OutputState} (h : AtOutput before later own states)
    (hown : ∀ state, own state → own' state) : AtOutput before later own' states := by
  obtain ⟨state, rest, hstates, hlen, hstate⟩ := h
  exact ⟨state, rest, hstates, hlen, hown state hstate⟩

/-- A change of the state of the output. -/
theorem AtOutput.modify {states : List OutputState} {f : OutputState → OutputState}
    (h : AtOutput before later own states) (hown : ∀ state, own state → own' (f state)) :
    AtOutput before later own' (states.modify before.length f) := by
  obtain ⟨state, rest, rfl, hlen, hstate⟩ := h
  refine ⟨f state, rest, ?_, hlen, hown state hstate⟩
  rw [List.modify_eq_take_drop]
  simp

theorem AtOutput.clearLater {states : List OutputState} {c : OutputState}
    (h : AtOutput before later (· = c) states) :
    clearLaterOutputStates before.length states = before ++ c :: List.replicate later .off := by
  obtain ⟨state, rest, rfl, hlen, rfl⟩ := h
  unfold clearLaterOutputStates
  have htake : (before ++ state :: rest).take (before.length + 1) = before ++ [state] := by
    simp [List.take_append]
  have hrest : (before ++ state :: rest).length - (before.length + 1) = later := by
    simp only [List.length_append, List.length_cons]
    omega
  rw [htake, hrest, List.append_assoc]
  rfl

/-- The candidate is accepted with the later outputs off, and the search for them succeeds. -/
def Accepts (prepare : List OutputState → Bool) (before : List OutputState) (later : Nat)
    (E : OutputState → Prop) (c : OutputState) : Prop :=
  prepare (before ++ c :: List.replicate later .off) = true ∧ E c

/-- What the search for the later outputs does after a candidate is accepted. -/
def NextTries (prepare : List OutputState → Bool) (degrade : Bool) (cfg : MatchedOutputConfig)
    (before : List OutputState) (later : Nat) (next : Attempt (List OutputState))
    (E : OutputState → Prop) (G : List OutputState → Prop) : Prop :=
  ∀ c ∈ candidates degrade cfg, prepare (before ++ c :: List.replicate later .off) = true →
    Tries next (· = before ++ c :: List.replicate later .off) (E c) G
      (AtOutput before later (· = c))

theorem searchFinish_tries {c : OutputState}
    (hnext : NextTries prepare degrade cfg before later next E G)
    (hc : c ∈ candidates degrade cfg) :
    Tries (searchFinish prepare before.length next) (AtOutput before later (· = c))
      (Accepts prepare before later E c) G (AtOutput before later (· = c)) := by
  have hclear : ∀ states, AtOutput before later (· = c) states →
      clearLaterOutputStates before.length states = before ++ c :: List.replicate later .off :=
    fun states h => h.clearLater
  unfold searchFinish Accepts
  refine Tries.guard (g := clearLaterOutputStates before.length) (hnext c hc) ?_ ?_ ?_
  · intro states h
    rw [hclear states h]
  · exact fun states h _ => hclear states h
  · intro states h
    rw [hclear states h]
    exact ⟨c, _, rfl, List.length_replicate, rfl⟩

/-- The mode of a configuration that has one is kept. -/
def ModeKept (cfg : MatchedOutputConfig) (mode : Option PendingMode) : Prop :=
  configHasManualMode cfg.config = true → mode = cfg.queued.mode

/-- Adaptive sync is left alone where it is not supported. -/
def SyncKept (cfg : MatchedOutputConfig) (sync : Option Bool) : Prop :=
  cfg.output.adaptiveSyncSupported = false → sync = none

/-- The format and the mode are chosen. -/
def SyncOpen (cfg : MatchedOutputConfig) (fmt : DrmFormat) (mode : Option PendingMode)
    (state : OutputState) : Prop :=
  ∃ sync, SyncKept cfg sync ∧ state = cfg.withChoices (some fmt) mode sync

/-- The format is chosen. -/
def ModeOpen (cfg : MatchedOutputConfig) (fmt : DrmFormat) (state : OutputState) : Prop :=
  ∃ mode sync, ModeKept cfg mode ∧ SyncKept cfg sync ∧
    state = cfg.withChoices (some fmt) mode sync

/-- Nothing is chosen. -/
def FormatOpen (cfg : MatchedOutputConfig) (state : OutputState) : Prop :=
  ∃ fmt mode sync, ModeKept cfg mode ∧ SyncKept cfg sync ∧
    state = cfg.withChoices fmt mode sync

theorem SyncOpen.modeOpen {fmt : DrmFormat} {mode : Option PendingMode} {state : OutputState}
    (hmode : ModeKept cfg mode) (h : SyncOpen cfg fmt mode state) : ModeOpen cfg fmt state := by
  obtain ⟨sync, hsync, rfl⟩ := h
  exact ⟨mode, sync, hmode, hsync, rfl⟩

theorem ModeOpen.formatOpen {fmt : DrmFormat} {state : OutputState} (h : ModeOpen cfg fmt state) :
    FormatOpen cfg state := by
  obtain ⟨mode, sync, hmode, hsync, rfl⟩ := h
  exact ⟨some fmt, mode, sync, hmode, hsync, rfl⟩

/-- The candidates of an output that is not turned off by its configuration. -/
theorem withChoices_mem_candidates {fmt : DrmFormat} {mode : Option PendingMode}
    {sync : Option Bool} (henabled : outputConfigIsDisabling cfg.config = false)
    (hfmt : fmt ∈ allowedFormats cfg) (hmode : mode ∈ allowedModes cfg)
    (hsync : sync ∈ allowedSyncs cfg) :
    cfg.withChoices (some fmt) mode sync ∈ candidates degrade cfg := by
  unfold candidates
  rw [henabled]
  simp only [Bool.false_eq_true, if_false, List.mem_append, List.mem_flatMap, List.mem_map]
  exact Or.inl ⟨fmt, hfmt, mode, hmode, sync, hsync, rfl⟩

theorem preferredMode_mem {o : SwayOutput} (hne : o.modes ≠ []) :
    ∃ preferred, o.preferredMode = some preferred ∧ preferred ∈ o.modes := by
  unfold SwayOutput.preferredMode
  cases hfind : o.modes.find? fun mode => mode.preferred with
  | some mode => exact ⟨mode, rfl, List.mem_of_find?_eq_some hfind⟩
  | none =>
      cases hmodes : o.modes with
      | nil => exact absurd hmodes hne
      | cons mode modes => exact ⟨mode, rfl, List.mem_cons_self⟩

section Choices

variable {fmt : DrmFormat} {mode : Option PendingMode}
  (hnext : NextTries prepare degrade cfg before later next E G)
  (henabled : outputConfigIsDisabling cfg.config = false)

include hnext henabled

theorem searchWithSync_tries {enabled : Bool} (hfmt : fmt ∈ allowedFormats cfg)
    (hmode : mode ∈ allowedModes cfg) (hsync : some enabled ∈ allowedSyncs cfg)
    (hsupported : cfg.output.adaptiveSyncSupported = true) :
    Tries (searchWithSync prepare before.length next enabled)
      (AtOutput before later (SyncOpen cfg fmt mode))
      (Accepts prepare before later E (cfg.withChoices (some fmt) mode (some enabled))) G
      (AtOutput before later (SyncOpen cfg fmt mode)) := by
  have hc : cfg.withChoices (some fmt) mode (some enabled) ∈ candidates degrade cfg :=
    withChoices_mem_candidates henabled hfmt hmode hsync
  have hfinish := (searchFinish_tries hnext hc).modify
    (I := AtOutput before later (SyncOpen cfg fmt mode))
    (fun states => states.modify before.length
      fun state => { state with adaptiveSyncEnabled := some enabled })
    (fun states h => h.modify (by rintro _ ⟨_, -, rfl⟩; rfl))
  refine hfinish.mono (fun _ h => h) (fun _ h => h) fun states h => h.mono ?_
  rintro _ rfl
  have hkept : SyncKept cfg (some enabled) := by
    intro hnot
    rw [hsupported] at hnot
    cases hnot
  exact ⟨some enabled, hkept, rfl⟩

theorem searchAdaptiveSync_tries (hfmt : fmt ∈ allowedFormats cfg)
    (hmode : mode ∈ allowedModes cfg) :
    Tries (searchAdaptiveSync prepare cfg before.length next)
      (AtOutput before later (SyncOpen cfg fmt mode))
      (∃ sync ∈ allowedSyncs cfg,
        Accepts prepare before later E (cfg.withChoices (some fmt) mode sync)) G
      (AtOutput before later (SyncOpen cfg fmt mode)) := by
  have hone : ∀ enabled : Bool, some enabled ∈ allowedSyncs cfg →
      cfg.output.adaptiveSyncSupported = true →
      Tries (searchWithSync prepare before.length next enabled)
        (AtOutput before later (SyncOpen cfg fmt mode))
        (Accepts prepare before later E (cfg.withChoices (some fmt) mode (some enabled))) G
        (AtOutput before later (SyncOpen cfg fmt mode)) :=
    fun _ hsync => searchWithSync_tries hnext henabled hfmt hmode hsync
  unfold searchAdaptiveSync
  cases hsupported : cfg.output.adaptiveSyncSupported with
  | false =>
      have hsyncs : allowedSyncs cfg = [none] := by
        unfold allowedSyncs
        rw [hsupported]
        rfl
      have hc : cfg.withChoices (some fmt) mode none ∈ candidates degrade cfg :=
        withChoices_mem_candidates henabled hfmt hmode
          (by rw [hsyncs]; exact List.mem_singleton.2 rfl)
      rw [hsyncs]
      -- the state is the one candidate already
      refine ((searchFinish_tries hnext hc).mono ?_ (fun _ h => h) ?_).congr (by simp)
      · intro states h
        refine h.mono ?_
        rintro _ ⟨sync, hsync, rfl⟩
        rw [hsync hsupported]
      · intro states h
        refine h.mono ?_
        rintro _ rfl
        exact ⟨none, fun _ => rfl, rfl⟩
  | true =>
      have hsyncs : allowedSyncs cfg =
          if configIs cfg.config .adaptiveSync fun v : Int => v == 1 then
            [some true, some false] else [some false] := by
        unfold allowedSyncs
        rw [hsupported]
        rfl
      rw [hsyncs] at hone ⊢
      cases hwants : configIs cfg.config .adaptiveSync fun v : Int => v == 1 with
      | false =>
          rw [hwants] at hone
          exact (hone false (by simp) hsupported).congr (by simp)
      | true =>
          rw [hwants] at hone
          exact ((hone true (by simp) hsupported).orElse (hone false (by simp) hsupported)).congr
            (by simp)

theorem searchWithMode_tries {chosen : Option OutputMode} (hfmt : fmt ∈ allowedFormats cfg)
    (hmode : chosen.map .fixed ∈ allowedModes cfg)
    (hfree : configHasManualMode cfg.config = false) :
    Tries (searchWithMode prepare cfg before.length next chosen)
      (AtOutput before later (ModeOpen cfg fmt))
      (∃ sync ∈ allowedSyncs cfg,
        Accepts prepare before later E (cfg.withChoices (some fmt) (chosen.map .fixed) sync)) G
      (AtOutput before later (ModeOpen cfg fmt)) := by
  have hkept : ModeKept cfg (chosen.map .fixed) := by
    intro hmanual
    rw [hfree] at hmanual
    cases hmanual
  have hsync := (searchAdaptiveSync_tries hnext henabled hfmt hmode).modify
    (I := AtOutput before later (ModeOpen cfg fmt))
    (fun states => states.modify before.length
      fun state => { state with mode := chosen.map .fixed })
    (fun states h => h.modify (by rintro _ ⟨_, sync, -, hs, rfl⟩; exact ⟨sync, hs, rfl⟩))
  exact hsync.mono (fun _ h => h) (fun _ h => h) fun states h =>
    h.mono fun state hstate => hstate.modeOpen hkept

theorem searchMode_tries (hfmt : fmt ∈ allowedFormats cfg) :
    Tries (searchMode prepare cfg before.length next)
      (AtOutput before later (ModeOpen cfg fmt))
      (∃ mode ∈ allowedModes cfg, ∃ sync ∈ allowedSyncs cfg,
        Accepts prepare before later E (cfg.withChoices (some fmt) mode sync)) G
      (AtOutput before later (ModeOpen cfg fmt)) := by
  unfold searchMode
  cases hmanual : configHasManualMode cfg.config with
  | true =>
      have hmodes : allowedModes cfg = [cfg.queued.mode] := by
        unfold allowedModes
        rw [hmanual]
        rfl
      have hmem : cfg.queued.mode ∈ allowedModes cfg := by
        rw [hmodes]
        exact List.mem_singleton.2 rfl
      have hsync := searchAdaptiveSync_tries hnext henabled hfmt hmem
      rw [hmodes]
      refine (hsync.mono ?_ (fun _ h => h) ?_).congr (by simp)
      · intro states h
        refine h.mono ?_
        rintro _ ⟨mode, sync, hmode, hs, rfl⟩
        exact ⟨sync, hs, by rw [hmode hmanual]⟩
      · exact fun states h => h.mono fun state hstate => hstate.modeOpen fun _ => rfl
  | false =>
      have hone : ∀ chosen : Option OutputMode, chosen.map .fixed ∈ allowedModes cfg →
          Tries (searchWithMode prepare cfg before.length next chosen)
            (AtOutput before later (ModeOpen cfg fmt))
            (∃ sync ∈ allowedSyncs cfg,
              Accepts prepare before later E
                (cfg.withChoices (some fmt) (chosen.map .fixed) sync)) G
            (AtOutput before later (ModeOpen cfg fmt)) :=
        fun _ hmode => searchWithMode_tries hnext henabled hfmt hmode hmanual
      by_cases hempty : cfg.output.modes = []
      · have hmodes : allowedModes cfg = [none] := by
          unfold allowedModes
          rw [hmanual, hempty]
          rfl
        have hpreferred : cfg.output.preferredMode = none := by
          unfold SwayOutput.preferredMode
          rw [hempty]
          rfl
        rw [hmodes] at hone ⊢
        simp only [Bool.false_eq_true, if_false, if_pos hempty, hpreferred]
        exact (hone none (by simp)).congr (by simp)
      · have hmodes : allowedModes cfg = cfg.output.modes.map fun mode => some (.fixed mode) := by
          unfold allowedModes
          rw [hmanual, if_neg hempty]
          rfl
        obtain ⟨preferred, hpreferred, hmem⟩ := preferredMode_mem hempty
        rw [hmodes] at hone ⊢
        simp only [Bool.false_eq_true, if_false, if_neg hempty, hpreferred]
        have hfirst := hone (some preferred) (List.mem_map.2 ⟨preferred, hmem, rfl⟩)
        -- the loop leaves the preferred mode out, which has been tried already
        have hothers : ∀ chosen ∈ (cfg.output.modes.map some).filter (· ≠ some preferred), _ :=
          fun chosen hchosen => hone chosen (by
            obtain ⟨mode, hmode, rfl⟩ := List.mem_map.1 (List.mem_filter.1 hchosen).1
            exact List.mem_map.2 ⟨mode, hmode, rfl⟩)
        refine (hfirst.orElse (Tries.tryEach hothers)).congr ?_
        constructor
        · rintro (h | ⟨chosen, hchosen, h⟩)
          · exact ⟨_, List.mem_map.2 ⟨preferred, hmem, rfl⟩, h⟩
          · obtain ⟨mode, hmode, rfl⟩ := List.mem_map.1 (List.mem_filter.1 hchosen).1
            exact ⟨_, List.mem_map.2 ⟨mode, hmode, rfl⟩, h⟩
        · rintro ⟨_, hchosen, h⟩
          obtain ⟨mode, hmode, rfl⟩ := List.mem_map.1 hchosen
          by_cases heq : mode = preferred
          · subst heq
            exact Or.inl h
          · exact Or.inr ⟨some mode, List.mem_filter.2
              ⟨List.mem_map.2 ⟨mode, hmode, rfl⟩, by simpa using heq⟩, h⟩

theorem searchRenderFormat_tries :
    Tries (searchRenderFormat prepare cfg before.length next)
      (AtOutput before later (FormatOpen cfg))
      (∃ fmt ∈ allowedFormats cfg, ∃ mode ∈ allowedModes cfg, ∃ sync ∈ allowedSyncs cfg,
        Accepts prepare before later E (cfg.withChoices (some fmt) mode sync)) G
      (AtOutput before later (FormatOpen cfg)) := by
  have hone : ∀ fmt ∈ searchFormats cfg.output,
      Tries (if formatIsAllowed cfg fmt then searchWithFormat prepare cfg before.length next fmt
          else Attempt.fail)
        (AtOutput before later (FormatOpen cfg))
        (formatIsAllowed cfg fmt = true ∧ ∃ mode ∈ allowedModes cfg, ∃ sync ∈ allowedSyncs cfg,
          Accepts prepare before later E (cfg.withChoices (some fmt) mode sync)) G
        (AtOutput before later (FormatOpen cfg)) := by
    intro fmt hfmt
    cases hallowed : formatIsAllowed cfg fmt with
    | false => exact Tries.fail.congr (by simp)
    | true =>
        have hmode := (searchMode_tries hnext henabled
          (List.mem_filter.2 ⟨hfmt, hallowed⟩)).modify
          (I := AtOutput before later (FormatOpen cfg))
          (fun states => states.modify before.length
            fun state => { state with renderFormat := some fmt })
          (fun states h => h.modify (by
            rintro _ ⟨_, mode, sync, hm, hs, rfl⟩
            exact ⟨mode, sync, hm, hs, rfl⟩))
        refine (hmode.mono (fun _ h => h) (fun _ h => h) fun states h => ?_).congr (by simp)
        exact h.mono fun state hstate => hstate.formatOpen
  refine (Tries.tryEach hone).congr ?_
  unfold allowedFormats
  simp only [List.mem_filter, and_assoc]

end Choices

/-- The end of the search for an output that turns it off. -/
theorem searchDisabled_tries (hnext : NextTries prepare degrade cfg before later next E G)
    (hc : OutputState.off ∈ candidates degrade cfg) {g : OutputState → OutputState}
    (hg : ∀ state, own state → { g state with enabled := some false } = OutputState.off) :
    Tries (fun states => searchDisabled prepare before.length next
        (states.modify before.length g))
      (AtOutput before later own) (Accepts prepare before later E .off) G
      (AtOutput before later fun _ => True) := by
  have hfinish := ((searchFinish_tries hnext hc).modify
    (I := AtOutput before later fun state => { state with enabled := some false } = .off)
    (fun states => states.modify before.length
      fun state => { state with enabled := some false })
    (fun states h => h.modify fun state hstate => hstate)).modify
    (I := AtOutput before later own)
    (fun states => states.modify before.length g)
    (fun states h => h.modify hg)
  exact hfinish.mono (fun _ h => h) (fun _ h => h) fun states h => h.mono fun _ _ => trivial

end Output

/-! ## All outputs -/

/-- What `search_valid_config` finds when it comes to an output: nothing is asked for it yet, or
what was queued for it at first. -/
def SearchStart (before : List OutputState) :
    List MatchedOutputConfig → List OutputState → Prop
  | [], states => states = before
  | cfg :: configs, states =>
      AtOutput before configs.length (fun state => state = .off ∨ state = cfg.queued) states

/-- What a failed search leaves alone. -/
def SearchEnd (before : List OutputState) (configs : List MatchedOutputConfig)
    (states : List OutputState) : Prop :=
  ∃ rest, states = before ++ rest ∧ rest.length = configs.length

/-- What a successful search leaves: an assignment. -/
def SearchFound (prepare : List OutputState → Bool) (degrade : Bool) (before : List OutputState)
    (configs : List MatchedOutputConfig) (states : List OutputState) : Prop :=
  ∃ choice, states = before ++ choice ∧ AssignmentAfter prepare degrade before configs choice

section

variable {prepare : List OutputState → Bool} {degrade : Bool} {before : List OutputState}
  {cfg : MatchedOutputConfig} {configs : List MatchedOutputConfig}

/-- The later outputs start off. -/
theorem searchStart_off (before : List OutputState) (configs : List MatchedOutputConfig) :
    SearchStart before configs (before ++ List.replicate configs.length .off) := by
  cases configs with
  | nil => exact List.append_nil before
  | cons cfg configs =>
      exact ⟨.off, List.replicate configs.length .off, rfl, List.length_replicate, Or.inl rfl⟩

theorem AtOutput.searchEnd {own : OutputState → Prop} {states : List OutputState}
    (h : AtOutput before configs.length own states) : SearchEnd before (cfg :: configs) states := by
  obtain ⟨state, rest, rfl, hlen, -⟩ := h
  exact ⟨state :: rest, rfl, by simp [hlen]⟩

/-- The search for the later outputs, with what it adds to an accepted candidate. -/
theorem nextTries {next : Attempt (List OutputState)}
    (h : ∀ c, Tries next (SearchStart (before ++ [c]) configs)
      (∃ choice, AssignmentAfter prepare degrade (before ++ [c]) configs choice)
      (SearchFound prepare degrade (before ++ [c]) configs)
      (SearchEnd (before ++ [c]) configs)) :
    NextTries prepare degrade cfg before configs.length next
      (fun c => ∃ choice, AssignmentAfter prepare degrade (before ++ [c]) configs choice)
      (SearchFound prepare degrade before (cfg :: configs)) := by
  intro c hc hprepare
  refine (h c).mono ?_ ?_ ?_
  · rintro _ rfl
    have hstart := searchStart_off (before ++ [c]) configs
    rwa [List.append_assoc] at hstart
  · rintro _ ⟨choice, rfl, hchoice⟩
    exact ⟨c :: choice, List.append_assoc .., assignmentAfter_cons.2 ⟨hc, hprepare, hchoice⟩⟩
  · rintro _ ⟨rest, rfl, hlen⟩
    exact ⟨c, rest, List.append_assoc .., hlen, rfl⟩

theorem exists_assignmentAfter_cons :
    (∃ choice, AssignmentAfter prepare degrade before (cfg :: configs) choice) ↔
      ∃ c ∈ candidates degrade cfg, Accepts prepare before configs.length
        (fun c => ∃ choice, AssignmentAfter prepare degrade (before ++ [c]) configs choice) c := by
  constructor
  · rintro ⟨choice, h⟩
    cases choice with
    | nil => cases h.candidate
    | cons c choice =>
        obtain ⟨hc, hprepare, hchoice⟩ := assignmentAfter_cons.1 h
        exact ⟨c, hc, hprepare, choice, hchoice⟩
  · rintro ⟨c, hc, hprepare, choice, hchoice⟩
    exact ⟨c :: choice, assignmentAfter_cons.2 ⟨hc, hprepare, hchoice⟩⟩

/-- The candidates of an output that is turned off by its configuration. -/
theorem candidates_disabling (h : outputConfigIsDisabling cfg.config = true) :
    candidates degrade cfg = [.off] := by
  unfold candidates
  rw [h]
  rfl

/-- The candidates of another output: the choices, and off when it may be degraded. -/
theorem exists_mem_candidates {P : OutputState → Prop}
    (h : outputConfigIsDisabling cfg.config = false) :
    (∃ c ∈ candidates degrade cfg, P c) ↔
      (∃ fmt ∈ allowedFormats cfg, ∃ mode ∈ allowedModes cfg, ∃ sync ∈ allowedSyncs cfg,
        P (cfg.withChoices (some fmt) mode sync)) ∨ (degrade = true ∧ P .off) := by
  unfold candidates
  rw [h]
  simp only [Bool.false_eq_true, if_false, List.mem_append, List.mem_flatMap, List.mem_map]
  constructor
  · rintro ⟨c, ⟨fmt, hfmt, mode, hmode, sync, hsync, rfl⟩ | hoff, hc⟩
    · exact Or.inl ⟨fmt, hfmt, mode, hmode, sync, hsync, hc⟩
    · cases degrade with
      | false => cases hoff
      | true =>
          obtain rfl := List.mem_singleton.1 hoff
          exact Or.inr ⟨rfl, hc⟩
  · rintro (⟨fmt, hfmt, mode, hmode, sync, hsync, hc⟩ | ⟨rfl, hc⟩)
    · exact ⟨_, Or.inl ⟨fmt, hfmt, mode, hmode, sync, hsync, rfl⟩, hc⟩
    · exact ⟨.off, Or.inr (List.mem_singleton.2 rfl), hc⟩

theorem queued_formatOpen (h : outputConfigIsDisabling cfg.config = false) :
    FormatOpen cfg cfg.queued := by
  refine ⟨cfg.queued.renderFormat, cfg.queued.mode, cfg.queued.adaptiveSyncEnabled,
    fun _ => rfl, fun hsupported => ?_, rfl⟩
  obtain ⟨mode, description, hqueue⟩ := queueOutputConfig_eq cfg.output h
  unfold MatchedOutputConfig.queued
  rw [hqueue, hsupported]
  rfl

theorem queued_disabling (h : outputConfigIsDisabling cfg.config = true) :
    cfg.queued = .off := by
  unfold MatchedOutputConfig.queued queueOutputConfig
  rw [h]
  rfl

end

/-- The search from any output on, after accepted states for the ones before it. -/
theorem searchValidConfig_tries (prepare : List OutputState → Bool) (degrade : Bool)
    (configs : List MatchedOutputConfig) (before : List OutputState) :
    Tries (searchValidConfig prepare degrade configs before.length)
      (SearchStart before configs)
      (∃ choice, AssignmentAfter prepare degrade before configs choice)
      (SearchFound prepare degrade before configs)
      (SearchEnd before configs) := by
  induction configs generalizing before with
  | nil =>
      refine ⟨fun states hstart _ => ?_, fun states _ hrun => by cases hrun⟩
      have hfound : SearchFound prepare degrade before [] states :=
        ⟨[], by rw [List.append_nil]; exact hstart, assignmentAfter_nil⟩
      exact ⟨⟨[], assignmentAfter_nil⟩, hfound⟩
  | cons cfg configs ih =>
      have hnext : NextTries prepare degrade cfg before configs.length
          (searchValidConfig prepare degrade configs (before.length + 1)) _ _ :=
        nextTries fun c => by simpa using ih (before ++ [c])
      refine Tries.congr ?_ exists_assignmentAfter_cons.symm
      unfold searchValidConfig
      cases hdisabling : outputConfigIsDisabling cfg.config with
      | true =>
          simp only [if_true]
          have hoff : OutputState.off ∈ candidates degrade cfg := by
            rw [candidates_disabling hdisabling]
            exact List.mem_singleton.2 rfl
          have hqueued : ∀ state, state = .off ∨ state = cfg.queued →
              { id state with enabled := some false } = OutputState.off := by
            intro state hstate
            rw [queued_disabling hdisabling, or_self] at hstate
            rw [hstate]
            rfl
          have hsearch := searchDisabled_tries hnext hoff hqueued
          rw [candidates_disabling hdisabling]
          simp only [List.modify_id] at hsearch
          refine (hsearch.mono (fun _ h => h) (fun _ h => h) fun states h => h.searchEnd).congr ?_
          simp
      | false =>
          simp only [Bool.false_eq_true, if_false]
          rw [exists_mem_candidates hdisabling]
          have hformat := searchRenderFormat_tries hnext hdisabling
          -- on the way back the output may be turned off, if it may be degraded
          have hlast : Tries (if degrade then fun states =>
                searchDisabled prepare before.length
                  (searchValidConfig prepare degrade configs (before.length + 1))
                  (states.modify before.length fun _ => OutputState.init)
              else Attempt.fail)
              (AtOutput before configs.length (FormatOpen cfg))
              (degrade = true ∧ Accepts prepare before configs.length
                (fun c => ∃ choice, AssignmentAfter prepare degrade (before ++ [c]) configs choice)
                .off)
              (SearchFound prepare degrade before (cfg :: configs))
              (SearchEnd before (cfg :: configs)) := by
            cases degrade with
            | false =>
                refine (Tries.fail.mono (fun _ h => h) (fun _ h => h) fun states h => ?_).congr
                  (by simp)
                exact h.searchEnd
            | true =>
                have hoff : OutputState.off ∈ candidates true cfg := by
                  unfold candidates
                  rw [hdisabling]
                  simp
                have hreset : ∀ state, FormatOpen cfg state →
                    { (fun _ => OutputState.init) state with enabled := some false } =
                      OutputState.off := fun _ _ => rfl
                have hsearch := searchDisabled_tries hnext hoff hreset
                refine (hsearch.mono (fun _ h => h) (fun _ h => h) fun states h => ?_).congr
                  (by simp)
                exact h.searchEnd
          refine (hformat.orElse hlast).modify _ fun states h => h.modify ?_
          intro state hstate
          rw [queueOutputConfig_fresh hdisabling hstate]
          exact queued_formatOpen hdisabling

section

variable (prepare : List OutputState → Bool) (degrade : Bool) (configs : List MatchedOutputConfig)

theorem searchStart_queuedStates : SearchStart [] configs (queuedStates configs) := by
  cases configs with
  | nil => rfl
  | cons cfg configs =>
      exact ⟨cfg.queued, queuedStates configs, rfl, by simp [queuedStates], Or.inr rfl⟩

theorem searchValidConfig_iff :
    (searchValidConfig prepare degrade configs 0 (queuedStates configs)).1 = true ↔
      ∃ choice, Assignment prepare degrade configs choice :=
  (searchValidConfig_tries prepare degrade configs []).iff (searchStart_queuedStates configs)

theorem searchValidConfig_found
    (hrun : (searchValidConfig prepare degrade configs 0 (queuedStates configs)).1 = true) :
    Assignment prepare degrade configs
      (searchValidConfig prepare degrade configs 0 (queuedStates configs)).2 := by
  have htries := searchValidConfig_tries prepare degrade configs []
  obtain ⟨-, choice, hstates, hchoice⟩ :=
    htries.success _ (searchStart_queuedStates configs) hrun
  have heq : (searchValidConfig prepare degrade configs 0 (queuedStates configs)).2 = choice :=
    hstates
  rw [heq]
  exact hchoice

end

/-- The search from the first output on succeeds exactly when there is an assignment, and leaves
one in the vector of states. -/
theorem searchValidConfig_finds (prepare : List OutputState → Bool) (degradeToOff : Bool)
    (configs : List MatchedOutputConfig) :
    let result := searchValidConfig prepare degradeToOff configs 0 (queuedStates configs)
    (result.1 = true ↔ ∃ choice, Assignment prepare degradeToOff configs choice) ∧
    (result.1 = true → Assignment prepare degradeToOff configs result.2) ∧
    (result.1 = true → configs ≠ [] → prepare result.2 = true) := by
  intro result
  refine ⟨searchValidConfig_iff prepare degradeToOff configs,
    searchValidConfig_found prepare degradeToOff configs, ?_⟩
  intro hrun hne
  exact (searchValidConfig_found prepare degradeToOff configs hrun).prepare_choice hne

/-- A backend that takes ARGB only. -/
def prepareArgb (states : List OutputState) : Bool :=
  states.all fun state => decide (state.renderFormat = some .argb8888)

/-- A connected output with one mode. -/
def panel : SwayOutput where
  enabled := true
  modes := [⟨1, 1280, 720, 60000, true⟩]
  width := 1280
  height := 720
  physWidth := 300
  physHeight := 170
  transform := 0
  detectedSubpixel := .unknown
  adaptiveSyncSupported := false
  renderFormat := .xrgb8888
  primaryFormats := none
  isDrm := true
  panelOrientation := 0
  addMode := fun _ => none
  bt2020 := false
  st2084Pq := false
  hasPrimaries := false
  hasTransferFunctions := false
  outputColorTransform := false

theorem searchValidConfig_finds_panel :
    let result := searchValidConfig prepareArgb false [⟨panel, none⟩] 0
      (queuedStates [⟨panel, none⟩])
    Assignment prepareArgb false [⟨panel, none⟩] result.2 ∧ prepareArgb result.2 = true :=
  have h := searchValidConfig_finds prepareArgb false [⟨panel, none⟩]
  ⟨h.2.1 (by decide +kernel), h.2.2 (by decide +kernel) (by simp)⟩

/-- A backend that refuses everything. -/
def prepareNothing : List OutputState → Bool := fun _ => false

/-- Without outputs the search succeeds before anything is tested. -/
theorem searchValidConfig_noOutputs :
    let result := searchValidConfig prepareNothing false [] 0 (queuedStates [])
    result.1 = true ∧ prepareNothing result.2 = false := ⟨rfl, rfl⟩

end Swirl

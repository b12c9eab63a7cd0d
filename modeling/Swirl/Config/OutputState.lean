import Swirl.Config.OutputConfig
import Mathlib.Algebra.Order.Round
import Mathlib.Data.Rat.Floor

set_option autoImplicit false

/-! # The state an output is asked for

`queue_output_config` turns a configuration into the state that the backend is to test or commit:
whether the output is enabled, its mode, transform, scale, render format and the rest. A field of a
`wlr_output_state` that is not committed is `none`. Numbers are exact.
-/

namespace Swirl

/-- `struct wlr_output_mode`, with its address. -/
structure OutputMode where
  address : Nat
  width : Int
  height : Int
  refresh : Int
  preferred : Bool
  deriving DecidableEq

/-- The mode of a pending state. -/
inductive PendingMode
  | fixed (mode : OutputMode)
  | custom (width height refresh : Int)
  deriving DecidableEq

/-- A DRM format, as far as the code names it. -/
inductive DrmFormat
  | xrgb2101010
  | xbgr2101010
  | xrgb8888
  | argb8888
  | xbgr8888
  | rgb565
  | other (code : UInt32)
  deriving DecidableEq

/-- `struct wlr_output_state`, with the fields that are committed. -/
structure OutputState where
  enabled : Option Bool
  mode : Option PendingMode
  subpixel : Option Subpixel
  transform : Option Int
  scale : Option ℚ
  adaptiveSyncEnabled : Option Bool
  renderFormat : Option DrmFormat
  /-- An image description, or that there is none any more. -/
  imageDescription : Option Bool
  deriving DecidableEq

/-- `wlr_output_state_init` -/
def OutputState.init : OutputState := ⟨none, none, none, none, none, none, none, none⟩

/-- The state of an output that is turned off, and nothing else. -/
def OutputState.off : OutputState := { OutputState.init with enabled := some false }

/-- `struct sway_output` with its `wlr_output`, the formats of its primary plane, the DRM
connector and the features of the renderer for it. It is not the fallback output, which
`apply_output_configs` leaves out. -/
structure SwayOutput where
  enabled : Bool
  modes : List OutputMode
  width : Int
  height : Int
  physWidth : Int
  physHeight : Int
  transform : Int
  detectedSubpixel : Subpixel
  adaptiveSyncSupported : Bool
  renderFormat : DrmFormat
  primaryFormats : Option (List DrmFormat)
  isDrm : Bool
  panelOrientation : Int
  /-- `wlr_drm_connector_add_mode` -/
  addMode : DrmModeInfo → Option OutputMode
  bt2020 : Bool
  st2084Pq : Bool
  hasPrimaries : Bool
  hasTransferFunctions : Bool
  outputColorTransform : Bool

/-- `struct matched_output_config` -/
structure MatchedOutputConfig where
  output : SwayOutput
  config : Option OutputConfig

/-- `wlr_output_preferred_mode` -/
def SwayOutput.preferredMode (o : SwayOutput) : Option OutputMode :=
  (o.modes.find? fun mode => mode.preferred).or o.modes.head?

/-- A field of the configuration, if there is one, passes a test. -/
def configIs (oc : Option OutputConfig) (f : OutputField) (p : f.Value → Bool) : Bool :=
  match oc with
  | none => false
  | some oc => p (oc.get f)

/-- `output_config_is_disabling` -/
def outputConfigIsDisabling (oc : Option OutputConfig) : Bool :=
  configIs oc .enabled (fun v : Int => v == 0) || configIs oc .power fun v : Int => v == 0

/-- The mode line of a configuration, if it has one. -/
def configModeline (oc : Option OutputConfig) : Option DrmModeInfo :=
  match oc with
  | none => none
  | some oc =>
      let drmMode : DrmModeInfo := oc.get .drmMode
      if drmMode.type ≠ 0 ∧ drmMode.type ≠ 0xFFFFFFFF then some drmMode else none

/-- The size of the mode of a configuration, if it has one. -/
def configSize (oc : Option OutputConfig) : Option (Int × Int) :=
  match oc with
  | none => none
  | some oc =>
      let width : Int := oc.get .width
      let height : Int := oc.get .height
      if 0 < width ∧ 0 < height then some (width, height) else none

/-- `config_has_manual_mode` -/
def configHasManualMode (oc : Option OutputConfig) : Bool :=
  (configModeline oc).isSome || (configSize oc).isSome

/-- The loop of `set_mode`: the mode of the size whose refresh rate is closest, the first of those,
with the distance below which the next one has to be. -/
def closestMode (width height mhz : Int) : List OutputMode → Int → Option OutputMode →
    Option OutputMode
  | [], _, best => best
  | mode :: modes, bestDiff, best =>
      if mode.width = width ∧ mode.height = height then
        let diff := |mode.refresh - mhz|
        if diff < bestDiff then
          if diff = 0 then some mode else closestMode width height mhz modes diff (some mode)
        else closestMode width height mhz modes bestDiff best
      else closestMode width height mhz modes bestDiff best

/-- `set_mode` -/
def setMode (o : SwayOutput) (pending : OutputState) (width height : Int) (refreshRate : ℚ)
    (custom : Bool) : OutputState :=
  let mhz := round (refreshRate * 1000)
  -- if no target refresh rate is given, match the highest available
  let mhz := if mhz ≤ 0 then 2147483647 else mhz
  if o.modes = [] ∨ custom = true then
    { pending with mode := some (.custom width height (if 0 < refreshRate then mhz else 0)) }
  else
    match (closestMode width height mhz o.modes 2147483647 none).or o.preferredMode with
    | some mode => { pending with mode := some (.fixed mode) }
    | none => pending

/-- `set_modeline` -/
def setModeline (o : SwayOutput) (pending : OutputState) (drmMode : DrmModeInfo) : OutputState :=
  if o.isDrm then
    match o.addMode drmMode with
    | some mode => { pending with mode := some (.fixed mode) }
    | none => pending
  else pending

/-- `set_hdr`, with `output_supports_hdr`. -/
def setHdr (o : SwayOutput) (pending : OutputState) (enabled : Bool) : OutputState :=
  let enabled := enabled && (o.bt2020 && o.st2084Pq && o.outputColorTransform)
  if enabled then { pending with imageDescription := some true }
  else if o.hasPrimaries || o.hasTransferFunctions then
    { pending with imageDescription := some false }
  else pending

/-- `phys_size_is_aspect_ratio` -/
def physSizeIsAspectRatio (o : SwayOutput) : Bool :=
  decide ((o.physWidth, o.physHeight) ∈
    [(1600, 900), (1600, 1000), (160, 90), (160, 100), (16, 9), (16, 10)])

/-- `compute_default_scale`. A transform swaps width and height when it is odd. -/
def computeDefaultScale (o : SwayOutput) (pending : OutputState) : ℚ :=
  let box :=
    match pending.mode with
    | some (.fixed mode) => (mode.width, mode.height)
    | some (.custom width height _) => (width, height)
    | none => (o.width, o.height)
  let transform := pending.transform.getD o.transform
  let box := if transform % 2 = 1 then (box.2, box.1) else box
  if box.2 < 1200 then 1
  else if o.physWidth = 0 ∨ o.physHeight = 0 then 1
  else if physSizeIsAspectRatio o then 1
  else
    let dpiX : ℚ := box.1 / (o.physWidth / (254 / 10))
    let dpiY : ℚ := box.2 / (o.physHeight / (254 / 10))
    if dpiX ≤ 192 ∨ dpiY ≤ 192 then 1 else 2

/-- The order of `enum render_bit_depth`. -/
def RenderBitDepth.rank : RenderBitDepth → Nat
  | .default => 0
  | .depth6 => 1
  | .depth8 => 2
  | .depth10 => 3

/-- `bit_depth_from_format` -/
def bitDepthFromFormat : DrmFormat → RenderBitDepth
  | .xrgb2101010 | .xbgr2101010 => .depth10
  | .xrgb8888 | .argb8888 => .depth8
  | .rgb565 => .depth6
  | _ => .default

/-- `get_config_render_bit_depth` -/
def getConfigRenderBitDepth (oc : Option OutputConfig) : RenderBitDepth :=
  match oc with
  | none => .depth8
  | some oc =>
      let depth : RenderBitDepth := oc.get .renderBitDepth
      let hdr : Int := oc.get .hdr
      if depth ≠ .default then depth else if hdr = 1 then .depth10 else .depth8

/-- `render_format_is_bgr` -/
def renderFormatIsBgr (fmt : DrmFormat) : Bool := decide (fmt = .xbgr2101010 ∨ fmt = .xbgr8888)

/-- The render format that `queue_output_config` asks for. -/
def queuedFormat (oc : Option OutputConfig) (o : SwayOutput) : DrmFormat :=
  match getConfigRenderBitDepth oc with
  | .depth10 => if bitDepthFromFormat o.renderFormat = .depth10 then o.renderFormat else .xrgb2101010
  | .depth6 => .rgb565
  | _ => .xrgb8888

/-- The mode part of `queue_output_config`. -/
def queueMode (oc : Option OutputConfig) (o : SwayOutput) (pending : OutputState) : OutputState :=
  match oc, configModeline oc, configSize oc with
  | some _, some drmMode, _ => setModeline o pending drmMode
  | some oc, none, some size =>
      setMode o pending size.1 size.2 (oc.get .refreshRate) (decide (oc.get .customMode = (1 : Int)))
  | _, _, _ =>
      match o.preferredMode with
      | some mode => { pending with mode := some (.fixed mode) }
      | none => pending

/-- The transform that `queue_output_config` asks for. -/
def queuedTransform (oc : Option OutputConfig) (o : SwayOutput) : Int :=
  match oc with
  | some oc =>
      let transform : Int := oc.get .transform
      if 0 ≤ transform then transform else if o.isDrm then o.panelOrientation else 0
  | none => if o.isDrm then o.panelOrientation else 0

/-- The scale that `queue_output_config` asks for, in steps of 120ths. -/
def queuedScale (oc : Option OutputConfig) (o : SwayOutput) (pending : OutputState) : ℚ :=
  match oc with
  | some oc =>
      let scale : ℚ := oc.get .scale
      if 0 < scale then round (scale * 120) / 120 else computeDefaultScale o pending
  | none => computeDefaultScale o pending

/-- The subpixel order that `queue_output_config` asks for. -/
def queuedSubpixel (oc : Option OutputConfig) (o : SwayOutput) : Subpixel :=
  match oc with
  | some oc =>
      let subpixel : Subpixel := oc.get .subpixel
      if subpixel ≠ .unknown then subpixel else o.detectedSubpixel
  | none => o.detectedSubpixel

/-- Whether `queue_output_config` asks for HDR. -/
def queuedHdr (oc : Option OutputConfig) : Bool :=
  match oc with
  | none => false
  | some oc =>
      let hdr : Int := oc.get .hdr
      let color : ColorSetting := oc.get .colorProfile
      decide (hdr = 1) && !(color.colorTransform.isSome ||
        decide (color.colorProfile = .transformWithDevicePrimaries))

/-- `queue_output_config` -/
def queueOutputConfig (oc : Option OutputConfig) (o : SwayOutput) (pending : OutputState) :
    OutputState :=
  if outputConfigIsDisabling oc then { pending with enabled := some false }
  else
    let pending := { pending with enabled := some true }
    let pending := queueMode oc o pending
    let pending := { pending with subpixel := some (queuedSubpixel oc o) }
    let pending := { pending with transform := some (queuedTransform oc o) }
    -- the scale comes after the mode, whose size it is detected from
    let pending := { pending with scale := some (queuedScale oc o pending) }
    let pending :=
      if o.adaptiveSyncSupported then
        { pending with
          adaptiveSyncEnabled := some (configIs oc .adaptiveSync fun v : Int => v == 1) }
      else pending
    let pending := { pending with renderFormat := some (queuedFormat oc o) }
    setHdr o pending (queuedHdr oc)

/-- The states that `apply_resolved_output_configs` asks for. -/
def queuedStates (configs : List MatchedOutputConfig) : List OutputState :=
  configs.map fun cfg => queueOutputConfig cfg.config cfg.output OutputState.init

end Swirl

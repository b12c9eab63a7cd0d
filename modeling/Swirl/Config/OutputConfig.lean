import Swirl.Common.Stringop
import Swirl.Lib.Runs
import Mathlib.Data.Rat.Defs

set_option autoImplicit false

/-! # Stored output configurations

An `output` command is stored under the name it was given: the wildcard, the name of an output or
its identifier. `find_output_config` merges what is stored under the three, in this order, and
`store_output_config` clears from the entries that would shadow a command what the command sets.
With two outputs of one identifier, that takes away the setting of the other one.
-/

namespace Swirl

open Lib

/-! ## Fields -/

/-- `enum scale_filter_mode` -/
inductive ScaleFilterMode
  | default
  | linear
  | nearest
  | smart
  deriving DecidableEq

/-- `enum wl_output_subpixel` -/
inductive Subpixel
  | unknown
  | none
  | horizontalRgb
  | horizontalBgr
  | verticalRgb
  | verticalBgr
  deriving DecidableEq

/-- `enum render_bit_depth` -/
inductive RenderBitDepth
  | default
  | depth6
  | depth8
  | depth10
  deriving DecidableEq

/-- `enum color_profile` -/
inductive ColorProfile
  | default
  | transform
  | transformWithDevicePrimaries
  deriving DecidableEq

/-- The color profile with its transform, which are set together. A transform is its address. -/
structure ColorSetting where
  colorProfile : ColorProfile
  colorTransform : Option Nat
  deriving DecidableEq

/-- `drmModeModeInfo`: the type, and the numbers of the mode line. -/
structure DrmModeInfo where
  type : UInt32
  timings : List Int
  deriving DecidableEq

/-- The fields of `struct output_config`. -/
inductive OutputField
  | enabled
  | power
  | width
  | height
  | refreshRate
  | customMode
  | drmMode
  | x
  | y
  | scale
  | scaleFilter
  | transform
  | subpixel
  | maxRenderTime
  | adaptiveSync
  | renderBitDepth
  | colorProfile
  | allowTearing
  | hdr
  | background
  | backgroundOption
  | backgroundFallback
  deriving DecidableEq

/-- What a field holds. -/
@[reducible] def OutputField.Value : OutputField → Type
  | .refreshRate | .scale => ℚ
  | .drmMode => DrmModeInfo
  | .scaleFilter => ScaleFilterMode
  | .subpixel => Subpixel
  | .renderBitDepth => RenderBitDepth
  | .colorProfile => ColorSetting
  | .background | .backgroundOption | .backgroundFallback => Option String
  | _ => Int

/-- The value of a field that is not set: what `new_output_config` gives it. -/
def OutputField.unset : (f : OutputField) → f.Value
  | .enabled => (-1 : Int)
  | .power => (-1 : Int)
  | .width => (-1 : Int)
  | .height => (-1 : Int)
  | .refreshRate => (-1 : ℚ)
  | .customMode => (-1 : Int)
  | .drmMode => DrmModeInfo.mk 0xFFFFFFFF []
  | .x => (2147483647 : Int)
  | .y => (2147483647 : Int)
  | .scale => (-1 : ℚ)
  | .scaleFilter => ScaleFilterMode.default
  | .transform => (-1 : Int)
  | .subpixel => Subpixel.unknown
  | .maxRenderTime => (-1 : Int)
  | .adaptiveSync => (-1 : Int)
  | .renderBitDepth => RenderBitDepth.default
  | .colorProfile => ColorSetting.mk .default none
  | .allowTearing => (-1 : Int)
  | .hdr => (-1 : Int)
  | .background => (none : Option String)
  | .backgroundOption => (none : Option String)
  | .backgroundFallback => (none : Option String)

/-- The comparison by which `supersede_output_config` and `merge_output_config` see that a field
is set. -/
def OutputField.isSet : (f : OutputField) → f.Value → Bool
  | .enabled, (v : Int) => v != -1
  | .power, (v : Int) => v != -1
  | .width, (v : Int) => v != -1
  | .height, (v : Int) => v != -1
  | .refreshRate, (v : ℚ) => v != -1
  | .customMode, (v : Int) => v != -1
  | .drmMode, (v : DrmModeInfo) => v.type != 0xFFFFFFFF
  | .x, (v : Int) => v != 2147483647
  | .y, (v : Int) => v != 2147483647
  | .scale, (v : ℚ) => v != -1
  | .scaleFilter, (v : ScaleFilterMode) => v != ScaleFilterMode.default
  | .transform, (v : Int) => v != -1
  | .subpixel, (v : Subpixel) => v != Subpixel.unknown
  | .maxRenderTime, (v : Int) => v != -1
  | .adaptiveSync, (v : Int) => v != -1
  | .renderBitDepth, (v : RenderBitDepth) => v != RenderBitDepth.default
  | .colorProfile, (v : ColorSetting) => v.colorProfile != ColorProfile.default
  | .allowTearing, (v : Int) => v != -1
  | .hdr, (v : Int) => v != -1
  | .background, (v : Option String) => v.isSome
  | .backgroundOption, (v : Option String) => v.isSome
  | .backgroundFallback, (v : Option String) => v.isSome

/-- The value of a field after `supersede_output_config` has cleared it. Of a mode line only the
type is. -/
def OutputField.clear : (f : OutputField) → f.Value → f.Value
  | .drmMode, (v : DrmModeInfo) => { v with type := 0xFFFFFFFF }
  | f, _ => f.unset

/-- A cleared field is not set. -/
theorem OutputField.isSet_clear (f : OutputField) (v : f.Value) : f.isSet (f.clear v) = false := by
  cases f <;> rfl

/-! ## Configurations -/

/-- `struct output_config` -/
structure OutputConfig where
  name : String
  get : (f : OutputField) → f.Value

/-- `new_output_config` -/
def newOutputConfig (name : String) : OutputConfig := ⟨name, OutputField.unset⟩

/-- A configuration with another value of one field. -/
def OutputConfig.set (oc : OutputConfig) (f : OutputField) (v : f.Value) : OutputConfig :=
  { oc with get := Function.update oc.get f v }

/-- The configuration sets a field. -/
def OutputConfig.Sets (oc : OutputConfig) (f : OutputField) : Prop := f.isSet (oc.get f) = true

instance (oc : OutputConfig) (f : OutputField) : Decidable (oc.Sets f) :=
  inferInstanceAs (Decidable (_ = true))

/-- `supersede_output_config` -/
def supersedeOutputConfig (dst src : OutputConfig) : OutputConfig :=
  { dst with get := fun f => if src.Sets f then f.clear (dst.get f) else dst.get f }

/-- `merge_output_config` -/
def mergeOutputConfig (dst src : OutputConfig) : OutputConfig :=
  { dst with get := fun f => if src.Sets f then src.get f else dst.get f }

/-! ## Outputs -/

/-- What an output is known by. -/
structure OutputIdentity where
  name : String
  make : Option String
  model : Option String
  serial : Option String
  deriving DecidableEq

/-- `output_get_identifier`, into a buffer of 128 bytes. -/
def OutputIdentity.identifier (o : OutputIdentity) : String :=
  String.ofList ((o.make.getD "Unknown" ++ " " ++ o.model.getD "Unknown" ++ " " ++
    o.serial.getD "Unknown").toList.take 127)

/-- `output_match_name_or_id`, on the parts of an output that are its names. -/
def OutputIdentity.matches (o : OutputIdentity) (nameOrId : String) : Bool :=
  decide (nameOrId = "*") || sameIgnoringCase o.identifier nameOrId ||
    sameIgnoringCase o.name nameOrId

/-- `all_output_by_name_or_id` -/
def allOutputByNameOrId (outputs : List OutputIdentity) (nameOrId : String) :
    Option OutputIdentity :=
  outputs.find? fun o => o.matches nameOrId

/-- What `store_output_config` does to a stored configuration. -/
def storeInto (outputs : List OutputIdentity) (oc old : OutputConfig) : OutputConfig :=
  let wildcard := decide (oc.name = "*")
  let output := if wildcard then none else allOutputByNameOrId outputs oc.name
  if old.name = oc.name then mergeOutputConfig old oc
  else if wildcard then supersedeOutputConfig old oc
  else
    match output with
    | some o =>
        if old.name = o.identifier ∧ oc.name = o.name then supersedeOutputConfig old oc else old
    | none => old

/-- `store_output_config` -/
def storeOutputConfig (outputs : List OutputIdentity) (configs : List OutputConfig)
    (oc : OutputConfig) : List OutputConfig :=
  let stored := configs.map (storeInto outputs oc)
  -- merged into an existing configuration, or added to the list
  if configs.any (fun old => old.name = oc.name) then stored else stored ++ [oc]

/-- One round of `find_output_config_from_list`: what is stored under a name is merged in order. -/
def mergeNamed (configs : List OutputConfig) (result : OutputConfig) (name : String) :
    OutputConfig :=
  configs.foldl (fun result oc => if oc.name = name then mergeOutputConfig result oc else result)
    result

/-- `find_output_config` -/
def findOutputConfig (configs : List OutputConfig) (o : OutputIdentity) : OutputConfig :=
  ["*", o.name, o.identifier].foldl (mergeNamed configs) (newOutputConfig o.name)

/-! ## What is stored under a name -/

/-- The value of a field that a configuration stores under a name, if it does. -/
def OutputConfig.entry (oc : OutputConfig) (name : String) (f : OutputField) : Option f.Value :=
  if oc.name = name ∧ oc.Sets f then some (oc.get f) else none

/-- The value of a field that is stored under a name: the last one, if there is one. -/
def storedField (configs : List OutputConfig) (name : String) (f : OutputField) : Option f.Value :=
  configs.foldl (fun v oc => (oc.entry name f).or v) none

theorem OutputConfig.entry_of_ne {oc : OutputConfig} {name : String} (h : oc.name ≠ name)
    (f : OutputField) : oc.entry name f = none := if_neg fun he => h he.1

theorem OutputConfig.entry_of_not_sets {oc : OutputConfig} {f : OutputField} (h : ¬ oc.Sets f)
    (name : String) : oc.entry name f = none := if_neg fun he => h he.2

theorem OutputConfig.entry_self {oc : OutputConfig} {f : OutputField} (h : oc.Sets f) :
    oc.entry oc.name f = some (oc.get f) := if_pos ⟨rfl, h⟩

theorem storedField_foldl (configs : List OutputConfig) (name : String) (f : OutputField)
    (v : Option f.Value) :
    configs.foldl (fun v oc => (oc.entry name f).or v) v = (storedField configs name f).or v := by
  unfold storedField
  induction configs generalizing v with
  | nil => rfl
  | cons oc configs ih =>
      rw [List.foldl_cons, List.foldl_cons, ih, ih ((oc.entry name f).or none), Option.or_none,
        Option.or_assoc]

theorem storedField_cons (oc : OutputConfig) (configs : List OutputConfig) (name : String)
    (f : OutputField) :
    storedField (oc :: configs) name f = (storedField configs name f).or (oc.entry name f) := by
  rw [storedField, List.foldl_cons, Option.or_none]
  exact storedField_foldl configs name f _

theorem storedField_append (configs configs' : List OutputConfig) (name : String)
    (f : OutputField) :
    storedField (configs ++ configs') name f =
      (storedField configs' name f).or (storedField configs name f) := by
  rw [storedField, List.foldl_append]
  exact storedField_foldl configs' name f _

/-- A round of `find_output_config` takes what is stored under the name. -/
theorem mergeNamed_get (configs : List OutputConfig) (result : OutputConfig) (name : String)
    (f : OutputField) :
    (mergeNamed configs result name).get f = (storedField configs name f).getD (result.get f) := by
  unfold mergeNamed
  induction configs generalizing result with
  | nil => rfl
  | cons oc configs ih =>
      rw [List.foldl_cons, ih, storedField_cons]
      cases hs : storedField configs name f with
      | some v => rfl
      | none =>
          by_cases hname : oc.name = name
          · subst hname
            rw [if_pos rfl]
            by_cases hset : oc.Sets f
            · rw [OutputConfig.entry_self hset]
              exact if_pos hset
            · rw [OutputConfig.entry_of_not_sets hset]
              exact if_neg hset
          · rw [if_neg hname, OutputConfig.entry_of_ne hname]
            rfl

/-- **What is found for an output**: under its identifier, else under its name, else under the
wildcard. -/
theorem findOutputConfig_get (configs : List OutputConfig) (o : OutputIdentity) (f : OutputField) :
    (findOutputConfig configs o).get f =
      (storedField configs o.identifier f).getD ((storedField configs o.name f).getD
        ((storedField configs "*" f).getD f.unset)) := by
  unfold findOutputConfig
  simp only [List.foldl_cons, List.foldl_nil, mergeNamed_get]
  rfl

/-- The name of the entry that a command by the name of an output clears, besides merging into its
own. -/
def supersededName (outputs : List OutputIdentity) (oc : OutputConfig) : Option String :=
  ((allOutputByNameOrId outputs oc.name).filter fun o => oc.name = o.name).map
    OutputIdentity.identifier

/-- The entry under another name is cleared where the command sets something. -/
def Superseded (outputs : List OutputIdentity) (oc : OutputConfig) (name : String) : Prop :=
  oc.name = "*" ∨ supersededName outputs oc = some name

instance (outputs : List OutputIdentity) (oc : OutputConfig) (name : String) :
    Decidable (Superseded outputs oc name) := inferInstanceAs (Decidable (_ ∨ _))

/-- What storing does to one entry. -/
theorem storeInto_eq (outputs : List OutputIdentity) (oc old : OutputConfig) :
    storeInto outputs oc old =
      if old.name = oc.name then mergeOutputConfig old oc
      else if Superseded outputs oc old.name then supersedeOutputConfig old oc
      else old := by
  unfold storeInto Superseded supersededName
  by_cases hname : old.name = oc.name
  · simp only [if_pos hname]
  · simp only [if_neg hname]
    by_cases hwild : oc.name = "*"
    · simp only [hwild, decide_true, if_true, true_or]
    · simp only [hwild, decide_false, Bool.false_eq_true, if_false, false_or]
      cases allOutputByNameOrId outputs oc.name with
      | none => simp
      | some o =>
          by_cases ho : oc.name = o.name
          · by_cases hid : o.identifier = old.name
            · simp [Option.filter, ho, hid]
            · have hid' : ¬ old.name = o.identifier := fun h => hid h.symm
              simp [Option.filter, ho, hid, hid']
          · simp [Option.filter, ho]

/-- What storing does to what one configuration stores under a name. -/
theorem entry_storeInto (outputs : List OutputIdentity) (oc old : OutputConfig) (name : String)
    (f : OutputField) :
    (storeInto outputs oc old).entry name f =
      if oc.Sets f then
        if name = oc.name then if old.name = oc.name then some (oc.get f) else none
        else if Superseded outputs oc name then none
        else old.entry name f
      else old.entry name f := by
  have hkeeps : (storeInto outputs oc old).name = old.name := by
    rw [storeInto_eq]
    split
    · rfl
    · split <;> rfl
  by_cases hname : old.name = name
  · subst hname
    by_cases hset : oc.Sets f
    · rw [if_pos hset, storeInto_eq]
      by_cases hown : old.name = oc.name
      · -- merged into its own entry
        have hget : (mergeOutputConfig old oc).get f = oc.get f := if_pos hset
        have hsets : (mergeOutputConfig old oc).Sets f := by
          show f.isSet ((mergeOutputConfig old oc).get f) = true
          rwa [hget]
        rw [if_pos hown, if_pos hown, if_pos hown, ← hget]
        exact OutputConfig.entry_self hsets
      · rw [if_neg hown, if_neg hown]
        by_cases hsup : Superseded outputs oc old.name
        · -- cleared
          have hget : (supersedeOutputConfig old oc).get f = f.clear (old.get f) := if_pos hset
          rw [if_pos hsup, if_pos hsup]
          apply OutputConfig.entry_of_not_sets
          show ¬ f.isSet ((supersedeOutputConfig old oc).get f) = true
          rw [hget, OutputField.isSet_clear]
          decide
        · rw [if_neg hsup, if_neg hsup]
    · -- the command does not set the field
      have hget : (storeInto outputs oc old).get f = old.get f := by
        rw [storeInto_eq]
        split
        · exact if_neg hset
        · split
          · exact if_neg hset
          · rfl
      rw [if_neg hset]
      unfold OutputConfig.entry OutputConfig.Sets
      simp only [hkeeps, hget]
  · have hnone : old.entry name f = none := OutputConfig.entry_of_ne hname f
    rw [OutputConfig.entry_of_ne (hkeeps ▸ hname), hnone]
    split
    · split
      · rename_i hoc
        rw [if_neg (fun h => hname (h.trans hoc.symm))]
      · split <;> rfl
    · rfl

/-- **What storing does to what is stored under a name.** -/
theorem storedField_store (outputs : List OutputIdentity) (configs : List OutputConfig)
    (oc : OutputConfig) (name : String) (f : OutputField) :
    storedField (storeOutputConfig outputs configs oc) name f =
      if oc.Sets f then
        if name = oc.name then some (oc.get f)
        else if Superseded outputs oc name then none
        else storedField configs name f
      else storedField configs name f := by
  have hmap : storedField (configs.map (storeInto outputs oc)) name f =
      if oc.Sets f then
        if name = oc.name then
          if configs.any (fun old => old.name = oc.name) then some (oc.get f) else none
        else if Superseded outputs oc name then none
        else storedField configs name f
      else storedField configs name f := by
    induction configs with
    | nil =>
        have hnil : storedField [] name f = none := rfl
        rw [List.map_nil, hnil]
        simp only [List.any_nil, Bool.false_eq_true, if_false, ite_self]
    | cons old configs ih =>
        rw [List.map_cons, storedField_cons, storedField_cons, ih, entry_storeInto]
        by_cases hset : oc.Sets f
        · simp only [if_pos hset]
          by_cases hname : name = oc.name
          · simp only [if_pos hname, List.any_cons, Bool.or_eq_true, decide_eq_true_eq]
            by_cases hown : old.name = oc.name
            · rw [if_pos hown, if_pos (Or.inl hown)]
              split <;> rfl
            · rw [if_neg hown, Option.or_none]
              simp only [hown, false_or]
          · simp only [if_neg hname]
            by_cases hsup : Superseded outputs oc name
            · simp only [if_pos hsup, Option.or_none]
            · simp only [if_neg hsup]
        · simp only [if_neg hset]
  have hnil : storedField [oc] name f = oc.entry name f := by
    rw [storedField_cons]
    rfl
  unfold storeOutputConfig
  by_cases hany : configs.any (fun old => old.name = oc.name) = true
  · simp only [hany, if_true]
    rw [hmap, hany]
    simp only [if_true]
  · have hany' := Bool.eq_false_iff.2 hany
    simp only [hany', Bool.false_eq_true, if_false]
    rw [storedField_append, hmap, hany', hnil]
    by_cases hset : oc.Sets f
    · simp only [if_pos hset, Bool.false_eq_true, if_false]
      by_cases hname : name = oc.name
      · subst hname
        rw [if_pos rfl, if_pos rfl, OutputConfig.entry_self hset]
        rfl
      · have hne : oc.name ≠ name := fun h => hname h.symm
        rw [if_neg hname, if_neg hname, OutputConfig.entry_of_ne hne, Option.none_or]
    · rw [if_neg hset, if_neg hset, OutputConfig.entry_of_not_sets hset, Option.none_or]

/-! ## The last writer -/

/-- The command is addressed to an output. -/
def OutputConfig.Addresses (oc : OutputConfig) (o : OutputIdentity) : Prop :=
  oc.name = "*" ∨ oc.name = o.name ∨ oc.name = o.identifier

instance (oc : OutputConfig) (o : OutputIdentity) : Decidable (oc.Addresses o) :=
  inferInstanceAs (Decidable (_ ∨ _))

/-- The value of a field after a command, if the last writer wins. -/
def lastWrite (o : OutputIdentity) (f : OutputField) (v : f.Value) (oc : OutputConfig) : f.Value :=
  if oc.Addresses o ∧ oc.Sets f then oc.get f else v

/-- The value that the most recent command addressed to the output has set the field to, and the
default if there is none. -/
def lastWritten (o : OutputIdentity) (f : OutputField) (commands : List OutputConfig) : f.Value :=
  commands.foldl (lastWrite o f) f.unset

/-- Nothing is stored under a name that the command sets. -/
def Disjoint (configs : List OutputConfig) (name : String) (oc : OutputConfig) : Prop :=
  ∀ f, oc.Sets f → storedField configs name f = none

/-- **What a command relies on**: an output whose name it gives has nothing stored under its
identifier that the command sets, unless that is the entry it clears, and the entry it clears
holds nothing that the command sets for an output that it is not addressed to. -/
def ClearsOwn (outputs : List OutputIdentity) (configs : List OutputConfig) (oc : OutputConfig) :
    Prop :=
  ∀ o ∈ outputs, oc.name ≠ "*" →
    (oc.name = o.name → oc.name ≠ o.identifier → supersededName outputs oc = some o.identifier ∨
      Disjoint configs o.identifier oc) ∧
    (¬ oc.Addresses o → ∀ name, name = o.name ∨ name = o.identifier →
      supersededName outputs oc = some name → Disjoint configs name oc)

/-- An identifier has more than one character. -/
theorem OutputIdentity.identifier_ne_wildcard (o : OutputIdentity) : o.identifier ≠ "*" := by
  intro h
  have hlen := congrArg String.length h
  unfold identifier at hlen
  simp only [String.length_ofList, List.length_take, String.toList_append, List.length_append]
    at hlen
  have hspace : " ".toList.length = 1 := rfl
  have hstar : "*".length = 1 := rfl
  rw [hspace, hstar] at hlen
  omega

/-- The stored configurations give every output the values in `w`. -/
def Gives (outputs : List OutputIdentity) (configs : List OutputConfig)
    (w : OutputIdentity → (f : OutputField) → f.Value) : Prop :=
  ∀ o ∈ outputs, ∀ f, (findOutputConfig configs o).get f = w o f

/-- **The step**: storing a command makes it the last writer. -/
theorem Gives.store {outputs : List OutputIdentity} {configs : List OutputConfig}
    {w : OutputIdentity → (f : OutputField) → f.Value} (h : Gives outputs configs w)
    {oc : OutputConfig} (hoc : ClearsOwn outputs configs oc) :
    Gives outputs (storeOutputConfig outputs configs oc) fun o f => lastWrite o f (w o f) oc := by
  intro o ho f
  have hold := h o ho f
  rw [findOutputConfig_get] at hold ⊢
  simp only [storedField_store]
  by_cases hset : oc.Sets f
  · have hwrite : oc.Addresses o → lastWrite o f (w o f) oc = oc.get f := fun ha =>
      if_pos ⟨ha, hset⟩
    simp only [if_pos hset]
    by_cases hid : o.identifier = oc.name
    · -- the identifier is merged last
      rw [if_pos hid, hwrite (Or.inr (Or.inr hid.symm))]
      rfl
    · rw [if_neg hid]
      by_cases hwild : oc.name = "*"
      · have hsup : ∀ name, Superseded outputs oc name := fun _ => Or.inl hwild
        rw [if_pos (hsup _), hwrite (Or.inl hwild)]
        by_cases hname : o.name = oc.name
        · rw [if_pos hname]
          rfl
        · rw [if_neg hname, if_pos (hsup _), if_pos hwild.symm]
          rfl
      · obtain ⟨hown, hothers⟩ := hoc o ho hwild
        have hsup : ∀ name, Superseded outputs oc name ↔ supersededName outputs oc = some name :=
          fun _ => or_iff_right hwild
        have hstar : ¬ supersededName outputs oc = some "*" := by
          unfold supersededName
          cases (allOutputByNameOrId outputs oc.name).filter fun o => oc.name = o.name with
          | none => simp
          | some p =>
              intro heq
              exact p.identifier_ne_wildcard (Option.some.inj heq)
        by_cases hname : o.name = oc.name
        · -- addressed by name: nothing under the identifier may shadow it
          have hnone : (if Superseded outputs oc o.identifier then none
              else storedField configs o.identifier f) = none := by
            rcases hown hname.symm (fun he => hid he.symm) with hown | hown
            · rw [if_pos ((hsup _).2 hown)]
            · rw [hown f hset, ite_self]
          rw [hnone, if_pos hname, hwrite (Or.inr (Or.inl hname.symm))]
          rfl
        · -- not addressed: what is cleared was not there
          have hnot : ¬ oc.Addresses o := by
            rintro (he | he | he)
            · exact hwild he
            · exact hname he.symm
            · exact hid he.symm
          have hkeep : ∀ name, name = o.name ∨ name = o.identifier →
              (if Superseded outputs oc name then none else storedField configs name f) =
                storedField configs name f := by
            intro name hn
            by_cases hs : Superseded outputs oc name
            · rw [if_pos hs, hothers hnot name hn ((hsup _).1 hs) f hset]
            · rw [if_neg hs]
          rw [hkeep _ (Or.inr rfl), if_neg hname, hkeep _ (Or.inl rfl),
            if_neg (fun he => hwild he.symm), if_neg (fun hs => hstar ((hsup _).1 hs)), hold]
          exact (if_neg fun he => hnot he.1).symm
  · simp only [if_neg hset]
    rw [hold]
    exact (if_neg fun he => hset he.2).symm

/-- **The last writer wins**, while every command clears no more and no less than its own. -/
theorem findOutputConfig_lastWritten (outputs : List OutputIdentity) (commands : List OutputConfig)
    (h : Allowed (storeOutputConfig outputs) (ClearsOwn outputs) [] commands) (o : OutputIdentity)
    (ho : o ∈ outputs) (f : OutputField) :
    (findOutputConfig (commands.foldl (storeOutputConfig outputs) []) o).get f =
      lastWritten o f commands := by
  have hrun : ∀ (configs : List OutputConfig) (w : OutputIdentity → (f : OutputField) → f.Value),
      Gives outputs configs w →
      Allowed (storeOutputConfig outputs) (ClearsOwn outputs) configs commands →
      Gives outputs (commands.foldl (storeOutputConfig outputs) configs)
        fun o f => commands.foldl (lastWrite o f) (w o f) := by
    clear h
    induction commands with
    | nil => exact fun _ _ hw _ => hw
    | cons oc commands ih =>
        intro configs w hw hallowed
        exact ih _ _ (hw.store hallowed.1) hallowed.2
  exact hrun [] (fun _ f => f.unset) (fun o _ f => findOutputConfig_get [] o f) h o ho f

/-! ## Outputs that are told apart -/

/-- Every output is found by its name, and no identifier stands for two outputs. -/
structure ToldApart (outputs : List OutputIdentity) : Prop where
  found : ∀ o ∈ outputs, allOutputByNameOrId outputs o.name = some o
  apart : ∀ o ∈ outputs, ∀ p ∈ outputs, o.identifier = p.name ∨ o.identifier = p.identifier → o = p

/-- Then no command clears anything of another output. -/
theorem ToldApart.clearsOwn {outputs : List OutputIdentity} (h : ToldApart outputs)
    (configs : List OutputConfig) (oc : OutputConfig) : ClearsOwn outputs configs oc := by
  intro o ho _
  constructor
  · intro hname _
    left
    unfold supersededName
    rw [hname, h.found o ho]
    simp [Option.filter]
  · intro hnot name hn hsup
    exfalso
    unfold supersededName at hsup
    obtain ⟨q, hq, hid⟩ := Option.map_eq_some_iff.1 hsup
    obtain ⟨hfind, hname⟩ := Option.filter_eq_some_iff.1 hq
    have hmem : q ∈ outputs := List.mem_of_find?_eq_some hfind
    have hqo : q = o := by
      apply h.apart q hmem o ho
      rcases hn with hn | hn
      · exact Or.inl (hid.trans hn)
      · exact Or.inr (hid.trans hn)
    subst hqo
    exact hnot (Or.inr (Or.inl (of_decide_eq_true hname)))

theorem ToldApart.allowed {outputs : List OutputIdentity} (h : ToldApart outputs)
    (configs : List OutputConfig) (commands : List OutputConfig) :
    Allowed (storeOutputConfig outputs) (ClearsOwn outputs) configs commands := by
  induction commands generalizing configs with
  | nil => trivial
  | cons oc commands ih => exact ⟨h.clearsOwn configs oc, ih _⟩

/-- A laptop panel and a screen with a serial number. -/
def panelAndScreen : List OutputIdentity :=
  [⟨"eDP-1", some "BOE", none, none⟩, ⟨"DP-1", some "Dell", some "U2720Q", some "7"⟩]

theorem panelAndScreen_toldApart : ToldApart panelAndScreen where
  found := by decide +kernel
  apart := by decide +kernel

/-- A position for all, and one for the screen. -/
def moveScreen : List OutputConfig :=
  [(newOutputConfig "*").set .x (5 : Int), (newOutputConfig "DP-1").set .x (7 : Int)]

theorem findOutputConfig_lastWritten_moveScreen :
    (findOutputConfig (moveScreen.foldl (storeOutputConfig panelAndScreen) [])
        ⟨"DP-1", some "Dell", some "U2720Q", some "7"⟩).get .x =
      lastWritten ⟨"DP-1", some "Dell", some "U2720Q", some "7"⟩ .x moveScreen :=
  findOutputConfig_lastWritten panelAndScreen moveScreen
    (panelAndScreen_toldApart.allowed [] moveScreen) _ (by decide) .x

/-- Two screens that tell nothing about themselves. -/
def twoScreens : List OutputIdentity := [⟨"DP-1", none, none, none⟩, ⟨"DP-2", none, none, none⟩]

/-- A position for both by identifier, then another one for the first by name. -/
def moveFirstScreen : List OutputConfig :=
  [(newOutputConfig "Unknown Unknown Unknown").set .x (5 : Int),
    (newOutputConfig "DP-1").set .x (7 : Int)]

/-- The second screen loses its position. -/
theorem moveFirstScreen_loses :
    (findOutputConfig (moveFirstScreen.foldl (storeOutputConfig twoScreens) [])
        ⟨"DP-2", none, none, none⟩).get .x ≠
      lastWritten ⟨"DP-2", none, none, none⟩ .x moveFirstScreen := by
  decide +kernel

end Swirl

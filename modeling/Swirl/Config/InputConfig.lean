import Swirl.Lib.Upsert

set_option autoImplicit false

/-! # The configs of input devices

A config is stored for one device, for a type of devices or, with `*`, for all of them. The configs
are kept merged: a new config is merged on those that exist and apply to fewer devices, and a first
config for a device begins as a copy of the one for its type, or of the one for all.
-/

namespace Swirl

/-! ## Configs -/

/-- The members of `struct input_config` that are merged in one and the same way. -/
inductive InputField where
  | accelProfile | clickMethod | clickfingerButtonMap | drag3fg | drag | dragLock | dwt | dwtp
  | leftHanded | middleEmulation | naturalScroll | rotationAngle | pointerAccel | scrollFactor
  | repeatDelay | repeatRate | scrollMethod | scrollButton | scrollButtonLock | sendEvents | tap
  | tapButtonMap | xkbLayout | xkbModel | xkbOptions | xkbRules | xkbVariant | xkbNumlock
  | xkbCapslock | mappedFromRegion | mappedTo | mappedToOutput | mappedToRegion
  | calibrationMatrix
  /-- the mode of the tools of a type -/
  | tool (type : Nat)
  deriving DecidableEq

/-- `struct input_config`. A member that is not set is `INT_MIN`, `FLT_MIN`, 0 or `NULL`; the
keymap file may also be set to none. -/
structure InputConfig (V : Type) where
  identifier : List Char
  inputType : Option (List Char) := none
  settings : InputField → Option V := fun _ => none
  xkbFile : Option (Option V) := none

/-- `struct sway_input_device`: the identifier begins with a number. -/
structure InputDevice where
  identifier : List Char
  type : List Char
  digit : (identifier.head?.elim false Char.isDigit) = true
  deriving DecidableEq

/-- `config->input_configs`, `config->input_type_configs` and `server.input->devices` -/
structure InputConfigs (V : Type) where
  inputConfigs : List (InputConfig V) := []
  typeConfigs : List (InputConfig V) := []
  devices : List InputDevice := []

def wildcardId : List Char := ['*']
def typePrefix : List Char := "type:".toList

section Model

variable {V : Type}

/-- `new_input_config` -/
def newInputConfig (identifier : List Char) : InputConfig V := { identifier }

/-- `merge_input_config` -/
def mergeInputConfig (dst src : InputConfig V) : InputConfig V :=
  { dst with
    settings := fun field => src.settings field <|> dst.settings field
    xkbFile := match src.xkbFile with
      | some file => file.map some
      | none => dst.xkbFile }

/-- `validate_xkb_merge` -/
def validateXkbMerge (compiles : InputConfig V → Bool) (dest : Option (InputConfig V))
    (src : InputConfig V) : Bool :=
  let temp := newInputConfig "temp".toList
  compiles (mergeInputConfig (dest.elim temp (mergeInputConfig temp)) src)

/-- `validate_wildcard_on_all` -/
def validateWildcardOnAll (compiles : InputConfig V → Bool) (s : InputConfigs V)
    (wildcard : InputConfig V) : Bool :=
  (s.inputConfigs.all fun ic =>
    decide (ic.identifier = wildcard.identifier) || validateXkbMerge compiles (some ic) wildcard) &&
  s.typeConfigs.all fun ic => validateXkbMerge compiles (some ic) wildcard

/-- One config after `merge_wildcard_on_all`. -/
def mergeWildcard (wildcard ic : InputConfig V) : InputConfig V :=
  if ic.identifier = wildcard.identifier then ic else mergeInputConfig ic wildcard

/-- A config is for a device of the type: `input_type` is known and the one behind the prefix. -/
def hasType (typeWildcard ic : InputConfig V) : Bool :=
  decide (ic.inputType = some (typeWildcard.identifier.drop 5))

/-- `validate_type_on_existing` -/
def validateTypeOnExisting (compiles : InputConfig V → Bool) (s : InputConfigs V)
    (typeWildcard : InputConfig V) : Bool :=
  s.inputConfigs.all fun ic =>
    !hasType typeWildcard ic || validateXkbMerge compiles (some ic) typeWildcard

/-- One config after `merge_type_on_existing`. -/
def mergeType (typeWildcard ic : InputConfig V) : InputConfig V :=
  if hasType typeWildcard ic then mergeInputConfig ic typeWildcard else ic

/-- `list_seq_find` with `input_identifier_cmp` -/
def findConfig (configs : List (InputConfig V)) (identifier : List Char) :
    Option (InputConfig V) :=
  configs.find? fun ic => ic.identifier = identifier

/-- The first config for a type. -/
def findTypeConfig (s : InputConfigs V) (type : List Char) : Option (InputConfig V) :=
  s.typeConfigs.find? fun tc => tc.identifier.drop 5 = type

/-- `set_input_type` -/
def setInputType (s : InputConfigs V) (ic : InputConfig V) : InputConfig V :=
  match s.devices.find? fun device => device.identifier = ic.identifier with
  | some device => { ic with inputType := some device.type }
  | none => ic

/-- What a first config is merged on: a copy of the config for the type, or of the one for all. -/
def freshConfig (s : InputConfigs V) (ic : InputConfig V) (single : Bool) :
    Option (InputConfig V) :=
  (if single then ic.inputType.bind fun type => (findTypeConfig s type).map fun tc =>
      mergeInputConfig { newInputConfig ic.identifier with inputType := some type } tc
    else none).or
  ((findConfig s.inputConfigs wildcardId).map (mergeInputConfig (newInputConfig ic.identifier)))

/-- What is in the list in the end: `xkb_file_is_set` stays where there is a file. -/
def storedConfig (current : Option (InputConfig V)) (ic : InputConfig V) : InputConfig V :=
  let ic := current.elim ic fun current => mergeInputConfig current ic
  { ic with xkbFile := ic.xkbFile.join.map some }

def sameIdentifier (a b : InputConfig V) : Bool := decide (a.identifier = b.identifier)

/-- `store_input_config`, where `error` tells whether the keymap is to be compiled: `none` where it
does not compile. -/
def storeInputConfig (compiles : InputConfig V → Bool) (s : InputConfigs V) (ic : InputConfig V)
    (error : Bool) : Option (InputConfigs V) :=
  let wildcard := decide (ic.identifier = wildcardId)
  let type := typePrefix.isPrefixOf ic.identifier
  if wildcard && error && !validateWildcardOnAll compiles s ic then none
  else if type && error && !validateTypeOnExisting compiles s ic then none
  else
    let found := findConfig (if type then s.typeConfigs else s.inputConfigs) ic.identifier
    let single := !wildcard && !type
    let ic := if found.isNone && single then setInputType s ic else ic
    let current := found <|> freshConfig s ic single
    if error && !validateXkbMerge compiles current ic then none
    else
      let inputConfigs := if wildcard then s.inputConfigs.map (mergeWildcard ic)
        else if type then s.inputConfigs.map (mergeType ic) else s.inputConfigs
      let typeConfigs := if wildcard then s.typeConfigs.map fun c => mergeInputConfig c ic
        else s.typeConfigs
      let stored := storedConfig current ic
      some (if type then { s with
          inputConfigs, typeConfigs := (Lib.upsert sameIdentifier stored typeConfigs).1 }
        else { s with
          typeConfigs, inputConfigs := (Lib.upsert sameIdentifier stored inputConfigs).1 })

/-- `apply_input_type_config` -/
def applyInputTypeConfig (s : InputConfigs V) (device : InputDevice) : InputConfigs V :=
  match findTypeConfig s device.type, findConfig s.inputConfigs device.identifier with
  | some typeConfig, some ic =>
      let current :=
        { mergeInputConfig (mergeInputConfig (newInputConfig ic.identifier) typeConfig) ic with
          inputType := some device.type }
      { s with inputConfigs := (Lib.upsert sameIdentifier current s.inputConfigs).1 }
  | _, _ => s

/-- `input_device_get_config` -/
def inputDeviceGetConfig (s : InputConfigs V) (device : InputDevice) : Option (InputConfig V) :=
  findConfig s.inputConfigs device.identifier <|> findTypeConfig s device.type <|>
    s.inputConfigs.reverse.find? fun ic => ic.identifier = wildcardId

/-! ## Runs -/

inductive InputEvent (V : Type) where
  /-- a config is stored, its keymap compiled before or not -/
  | store (ic : InputConfig V) (error : Bool)
  /-- a device is connected, or a virtual one created -/
  | connect (device : InputDevice) (isVirtual : Bool)
  | disconnect (device : InputDevice)

/-- The configs, and what has been stored since they were empty. -/
structure InputRun (V : Type) where
  configs : InputConfigs V := {}
  stored : List (InputConfig V) := []

def InputRun.step (compiles : InputConfig V → Bool) (r : InputRun V) : InputEvent V → InputRun V
  | .store ic error =>
      -- nothing sets the type of a new config before it is stored
      let ic := { ic with inputType := none }
      match storeInputConfig compiles r.configs ic error with
      | none => r
      | some configs => { configs, stored := r.stored ++ [ic] }
  | .connect device isVirtual =>
      let configs := { r.configs with devices := device :: r.configs.devices }
      { r with configs := if isVirtual then configs else applyInputTypeConfig configs device }
  | .disconnect device =>
      { r with configs := { r.configs with devices := r.configs.devices.erase device } }

end Model

/-! ## Settings -/

inductive InputSetting where
  | field (f : InputField)
  | xkbFile
  deriving DecidableEq

section Settings

variable {V : Type}

/-- What a config that is merged on another one sets, which may be to none. -/
def InputConfig.sets (c : InputConfig V) : InputSetting → Option (Option V)
  | .field f => (c.settings f).map some
  | .xkbFile => c.xkbFile

def InputConfig.value (c : InputConfig V) (k : InputSetting) : Option V := (c.sets k).join

/-- The setting from the last of the configs that apply and set it. -/
def lastSetting (applies : List Char → Bool) (stored : List (InputConfig V)) (k : InputSetting) :
    Option V :=
  stored.foldl (fun v c => if applies c.identifier then (c.sets k).getD v else v) none

variable {applies applies' : List Char → Bool} {stored : List (InputConfig V)} {k : InputSetting}

theorem value_merge (dst src : InputConfig V) (k : InputSetting) :
    (mergeInputConfig dst src).value k = (src.sets k).getD (dst.value k) := by
  unfold InputConfig.value
  cases k with
  | field f =>
      change ((src.settings f <|> dst.settings f).map some).join = _
      cases hsrc : src.settings f <;> simp [InputConfig.sets, hsrc]
  | xkbFile =>
      cases hsrc : src.xkbFile with
      | none => simp [InputConfig.sets, mergeInputConfig, hsrc]
      | some file => cases file <;> simp [InputConfig.sets, mergeInputConfig, hsrc]

theorem value_new (identifier : List Char) (k : InputSetting) :
    (newInputConfig identifier : InputConfig V).value k = none := by
  cases k <;> rfl

theorem value_stored (current : Option (InputConfig V)) (ic : InputConfig V) (k : InputSetting) :
    (storedConfig current ic).value k = (ic.sets k).getD (current.bind (·.value k)) := by
  have hfinish : ∀ c : InputConfig V,
      ({ c with xkbFile := c.xkbFile.join.map some } : InputConfig V).value k = c.value k := by
    intro c
    cases k with
    | field f => rfl
    | xkbFile =>
        change (c.xkbFile.join.map some).join = c.xkbFile.join
        cases c.xkbFile.join <;> rfl
  unfold storedConfig
  dsimp only
  rw [hfinish]
  cases current with
  | none =>
      change (ic.sets k).join = (ic.sets k).getD none
      cases ic.sets k <;> rfl
  | some c => exact value_merge c ic k

theorem lastSetting_concat (c : InputConfig V) :
    lastSetting applies (stored ++ [c]) k =
      if applies c.identifier then (c.sets k).getD (lastSetting applies stored k)
      else lastSetting applies stored k := by
  unfold lastSetting
  rw [List.foldl_append]
  rfl

theorem lastSetting_congr (h : ∀ c ∈ stored, applies c.identifier = applies' c.identifier) :
    lastSetting applies stored k = lastSetting applies' stored k := by
  induction stored using List.reverseRecOn with
  | nil => rfl
  | append_singleton stored c ih =>
      rw [lastSetting_concat, lastSetting_concat, h c (by simp),
        ih fun c' hc' => h c' (List.mem_append_left _ hc')]

theorem lastSetting_none (h : ∀ c ∈ stored, applies c.identifier = false) :
    lastSetting applies stored k = none := by
  have hfalse : lastSetting applies stored k = lastSetting (fun _ => false) stored k :=
    lastSetting_congr h
  have hkeep : ∀ l : List (InputConfig V), l.foldl (fun v _ => v) (none : Option V) = none := by
    intro l
    induction l with
    | nil => rfl
    | cons c l ih => exact ih
  exact hfalse.trans (hkeep stored)

/-- Where no config sets it to none, a setting is missing only if none of the configs sets it. -/
theorem lastSetting_mono (hkeep : ∀ c ∈ stored, c.sets k ≠ some none)
    (himp : ∀ identifier, applies identifier = true → applies' identifier = true)
    (h : lastSetting applies' stored k = none) : lastSetting applies stored k = none := by
  induction stored using List.reverseRecOn with
  | nil => rfl
  | append_singleton stored c ih =>
      have hih := ih fun c' hc' => hkeep c' (List.mem_append_left _ hc')
      rw [lastSetting_concat] at h ⊢
      by_cases hc : applies' c.identifier = true
      · rw [if_pos hc] at h
        have hsets : c.sets k = none := by
          cases hcase : c.sets k with
          | none => rfl
          | some v =>
              rw [hcase] at h
              exact absurd (hcase.trans (congrArg some h)) (hkeep c (by simp))
        rw [hsets] at h ⊢
        rw [hih h]
        exact ite_self _
      · rw [if_neg hc] at h
        rw [if_neg fun happlies => hc (himp _ happlies)]
        exact hih h

end Settings

/-! ## The configs in the lists -/

section Lists

variable {V : Type} {l : List (InputConfig V)} {identifier : List Char}

theorem findConfig_map {f : InputConfig V → InputConfig V}
    (hf : ∀ c, (f c).identifier = c.identifier) :
    findConfig (l.map f) identifier = (findConfig l identifier).map f :=
  Lib.find?_map_key InputConfig.identifier hf l identifier

theorem findConfig_upsert (c : InputConfig V) :
    findConfig (Lib.upsert sameIdentifier c l).1 identifier =
      if c.identifier = identifier then some c else findConfig l identifier :=
  Lib.find?_upsert InputConfig.identifier c l identifier

theorem identifier_of_findConfig {c : InputConfig V} (h : findConfig l identifier = some c) :
    c.identifier = identifier := by
  have hc := List.find?_some h
  simpa using hc

theorem sameIdentifier_equiv : Lib.SameEquiv (sameIdentifier (V := V)) where
  symm a b := by simp [sameIdentifier, eq_comm]
  trans a b c hab hbc := by
    have hab := of_decide_eq_true hab
    have hbc := of_decide_eq_true hbc
    exact decide_eq_true (hab.trans hbc)

/-- Where identifiers are distinct, the first config found is the last one. -/
theorem find_reverse (h : Lib.Distinct sameIdentifier l) :
    l.reverse.find? (fun ic => ic.identifier = identifier) = findConfig l identifier := by
  unfold findConfig
  induction l with
  | nil => rfl
  | cons a l ih =>
      obtain ⟨ha, hl⟩ := List.pairwise_cons.mp h
      rw [List.reverse_cons, List.find?_append, ih hl]
      by_cases hid : a.identifier = identifier
      · have hnone : l.find? (fun ic => decide (ic.identifier = identifier)) = none := by
          rw [List.find?_eq_none]
          intro b hb hbid
          have hb' := of_decide_eq_false (ha b hb)
          exact hb' (hid.trans (of_decide_eq_true hbid).symm)
        simp [hnone, hid]
      · simp [hid]

theorem findTypeConfig_eq {s : InputConfigs V} (type : List Char)
    (h : ∀ c ∈ s.typeConfigs, typePrefix.isPrefixOf c.identifier = true) :
    findTypeConfig s type = findConfig s.typeConfigs (typePrefix ++ type) := by
  unfold findTypeConfig findConfig
  refine List.find?_congr fun c hc => ?_
  obtain ⟨t, ht⟩ := List.isPrefixOf_iff_prefix.mp (h c hc)
  rw [← ht]
  simp [typePrefix]

end Lists

/-! ## What storing does -/

section Store

variable {V : Type} {compiles : InputConfig V → Bool} {s s' : InputConfigs V}
  {ic : InputConfig V} {error : Bool}

theorem store_wildcard (hid : ic.identifier = wildcardId)
    (h : storeInputConfig compiles s ic error = some s') :
    s' = { s with
      inputConfigs := (Lib.upsert sameIdentifier
        (storedConfig (findConfig s.inputConfigs wildcardId) ic)
        (s.inputConfigs.map (mergeWildcard ic))).1
      typeConfigs := s.typeConfigs.map fun c => mergeInputConfig c ic } := by
  have htype : typePrefix.isPrefixOf wildcardId = false := by decide
  have hcurrent : (findConfig s.inputConfigs wildcardId <|> freshConfig s ic false) =
      findConfig s.inputConfigs wildcardId := by
    unfold freshConfig
    cases findConfig s.inputConfigs wildcardId <;> rfl
  unfold storeInputConfig at h
  simp only [hid, htype, decide_true, Bool.not_true, Bool.false_and, Bool.and_false,
    Bool.false_eq_true, if_false, if_true, hcurrent] at h
  split_ifs at h
  all_goals exact (Option.some.inj h).symm

theorem store_type (htype : typePrefix.isPrefixOf ic.identifier = true)
    (h : storeInputConfig compiles s ic error = some s') :
    s' = { s with
      inputConfigs := s.inputConfigs.map (mergeType ic)
      typeConfigs := (Lib.upsert sameIdentifier
        (storedConfig (findConfig s.typeConfigs ic.identifier <|>
          (findConfig s.inputConfigs wildcardId).map
            (mergeInputConfig (newInputConfig ic.identifier))) ic) s.typeConfigs).1 } := by
  have hid : ic.identifier ≠ wildcardId := by
    intro hid
    rw [hid] at htype
    cases htype
  unfold storeInputConfig at h
  simp only [hid, htype, decide_false, Bool.not_true, Bool.false_and, Bool.and_false,
    Bool.false_eq_true, if_false, if_true] at h
  split_ifs at h
  all_goals exact (Option.some.inj h).symm

theorem store_single (hid : ic.identifier ≠ wildcardId)
    (htype : typePrefix.isPrefixOf ic.identifier = false)
    (h : storeInputConfig compiles s ic error = some s') :
    ∃ ic', (ic' = if (findConfig s.inputConfigs ic.identifier).isNone then setInputType s ic
        else ic) ∧
      s' = { s with inputConfigs := (Lib.upsert sameIdentifier (storedConfig
        (findConfig s.inputConfigs ic.identifier <|> freshConfig s ic' true) ic')
        s.inputConfigs).1 } := by
  refine ⟨_, rfl, ?_⟩
  unfold storeInputConfig at h
  simp only [hid, htype, decide_false, Bool.not_false, Bool.false_and, Bool.and_true,
    Bool.false_eq_true, if_false] at h
  split_ifs at h
  all_goals simp_all

end Store

end Swirl

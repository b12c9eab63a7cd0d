import Swirl.Config.InputConfig

set_option autoImplicit false

/-! # The last config counts

What a device is configured with is the config for the device, else the one for its type, else the
one for all. Each setting of it comes from the last config that applies to the device and sets it,
as long as the configs for the device and for its type know of each other (`OrderlyStep`): a config
for a device that is not there begins without the one for its type, and one that began so, or as a
copy of the one for all devices, has no type, so that no later config for the type is merged on it.
-/

namespace Swirl

section Layers

variable {V : Type}

def appliesToType (type identifier : List Char) : Bool :=
  identifier = wildcardId || identifier = typePrefix ++ type

/-- A config with the identifier applies to the device. -/
def InputDevice.applies (d : InputDevice) (identifier : List Char) : Bool :=
  appliesToType d.type identifier || identifier = d.identifier

/-- The config with an identifier has its settings from the last configs, and is there if one with
that identifier was stored. -/
structure ConfigLayer (l : List (InputConfig V)) (identifier : List Char)
    (applies : List Char → Bool) (stored : List (InputConfig V)) (k : InputSetting) : Prop where
  found : ∀ c, findConfig l identifier = some c → c.value k = lastSetting applies stored k
  absent : findConfig l identifier = none → ∀ c ∈ stored, c.identifier ≠ identifier

variable {l l' : List (InputConfig V)} {identifier : List Char} {applies : List Char → Bool}
  {stored : List (InputConfig V)} {k : InputSetting} {c ic : InputConfig V}

theorem ConfigLayer.put (hfind : findConfig l identifier = some c)
    (hvalue : c.value k = lastSetting applies stored k) :
    ConfigLayer l identifier applies stored k where
  found c' h := by
    obtain rfl := Option.some.inj (hfind.symm.trans h)
    exact hvalue
  absent h := by
    rw [hfind] at h
    cases h

/-- A config with another identifier is stored, and merged if it applies. -/
theorem ConfigLayer.keep {f : InputConfig V → InputConfig V}
    (h : ConfigLayer l identifier applies stored k)
    (hfind : findConfig l' identifier = (findConfig l identifier).map f)
    (hid : ic.identifier ≠ identifier)
    (hvalue : ∀ c, findConfig l identifier = some c → (f c).value k =
      if applies ic.identifier then (ic.sets k).getD (c.value k) else c.value k) :
    ConfigLayer l' identifier applies (stored ++ [ic]) k where
  found c' hc' := by
    rw [hfind] at hc'
    obtain ⟨c, hc, rfl⟩ := Option.map_eq_some_iff.mp hc'
    rw [hvalue c hc, h.found c hc, lastSetting_concat]
  absent hnone c' hc' := by
    rw [hfind, Option.map_eq_none_iff] at hnone
    rcases List.mem_append.mp hc' with hc' | hc'
    · exact h.absent hnone c' hc'
    · obtain rfl := List.mem_singleton.mp hc'
      exact hid

/-- A config that does not apply is stored. -/
theorem ConfigLayer.pass (h : ConfigLayer l identifier applies stored k)
    (hfind : findConfig l' identifier = findConfig l identifier)
    (hid : ic.identifier ≠ identifier) (happlies : applies ic.identifier = false) :
    ConfigLayer l' identifier applies (stored ++ [ic]) k :=
  h.keep (f := id) (by rw [hfind, Option.map_id_fun, id]) hid fun c _ => by rw [happlies]; rfl

theorem ConfigLayer.same (h : ConfigLayer l identifier applies stored k)
    (hfind : findConfig l' identifier = findConfig l identifier) :
    ConfigLayer l' identifier applies stored k where
  found c hc := h.found c (hfind ▸ hc)
  absent hnone := h.absent (hfind ▸ hnone)

end Layers

section Runs

variable {V : Type} {d : InputDevice} {k : InputSetting} {compiles : InputConfig V → Bool}

theorem InputDevice.identifier_ne_wildcard (d : InputDevice) : d.identifier ≠ wildcardId := by
  intro h
  have hdigit := d.digit
  rw [h] at hdigit
  cases hdigit

theorem InputDevice.identifier_no_type (d : InputDevice) :
    typePrefix.isPrefixOf d.identifier = false := by
  rw [Bool.eq_false_iff]
  intro h
  obtain ⟨t, ht⟩ := List.isPrefixOf_iff_prefix.mp h
  have hdigit := d.digit
  rw [← ht] at hdigit
  cases hdigit

theorem prefix_type (type : List Char) : typePrefix.isPrefixOf (typePrefix ++ type) = true :=
  List.isPrefixOf_iff_prefix.mpr (List.prefix_append _ _)

theorem type_ne_wildcard (type : List Char) : typePrefix ++ type ≠ wildcardId := by
  intro h
  have hprefix := prefix_type type
  rw [h] at hprefix
  cases hprefix

theorem value_of_new (identifier : List Char) (type : Option (List Char)) (c : InputConfig V) :
    (mergeInputConfig { newInputConfig identifier with inputType := type } c).value k =
      c.value k := by
  rw [value_merge]
  unfold InputConfig.value
  cases k with
  | field f => cases hf : c.settings f <;> simp [InputConfig.sets, hf, newInputConfig]
  | xkbFile => cases hf : c.xkbFile <;> simp [InputConfig.sets, hf, newInputConfig]

theorem value_map_new (o : Option (InputConfig V)) (identifier : List Char)
    (type : Option (List Char)) :
    (o.map (mergeInputConfig { newInputConfig identifier with inputType := type })).bind
      (·.value k) = o.bind (·.value k) := by
  cases o with
  | none => rfl
  | some c => exact value_of_new identifier type c

variable (d k) in
/-- What a device is configured with at any time. -/
structure InputInv (r : InputRun V) : Prop where
  distinct : Lib.Distinct sameIdentifier r.configs.inputConfigs
  prefixed : ∀ c ∈ r.configs.typeConfigs, typePrefix.isPrefixOf c.identifier = true
  devices : ∀ device ∈ r.configs.devices, device.identifier = d.identifier → device.type = d.type
  untyped : ∀ c, findConfig r.configs.inputConfigs wildcardId = some c → c.inputType = none
  typed : ∀ c, findConfig r.configs.inputConfigs d.identifier = some c →
    ∀ type, c.inputType = some type → type = d.type
  wildcard : ConfigLayer r.configs.inputConfigs wildcardId (fun i => i = wildcardId) r.stored k
  type : ConfigLayer r.configs.typeConfigs (typePrefix ++ d.type) (appliesToType d.type) r.stored k
  single : ConfigLayer r.configs.inputConfigs d.identifier d.applies r.stored k

/-- Where there is no config for a type, the one for all is what counts. -/
theorem lastSetting_of_no_type {stored : List (InputConfig V)} {type : List Char}
    (h : ∀ c ∈ stored, c.identifier ≠ typePrefix ++ type) :
    lastSetting (appliesToType type) stored k = lastSetting (fun i => i = wildcardId) stored k :=
  lastSetting_congr fun c hc => by simp [appliesToType, h c hc]

theorem lastSetting_of_no_single {stored : List (InputConfig V)}
    (h : ∀ c ∈ stored, c.identifier ≠ d.identifier) :
    lastSetting d.applies stored k = lastSetting (appliesToType d.type) stored k :=
  lastSetting_congr fun c hc => by simp [InputDevice.applies, h c hc]

theorem InputInv.wildcard_spec {r : InputRun V} (h : InputInv d k r) :
    (findConfig r.configs.inputConfigs wildcardId).bind (·.value k) =
      lastSetting (fun i => i = wildcardId) r.stored k := by
  cases hall : findConfig r.configs.inputConfigs wildcardId with
  | none => exact (lastSetting_none fun c hc => decide_eq_false (h.wildcard.absent hall c hc)).symm
  | some w => exact h.wildcard.found w hall

/-- What a config for the type of the device is merged on. -/
theorem InputInv.type_spec {r : InputRun V} (h : InputInv d k r) :
    (findConfig r.configs.typeConfigs (typePrefix ++ d.type) <|>
      (findConfig r.configs.inputConfigs wildcardId).map
        (mergeInputConfig (newInputConfig (typePrefix ++ d.type)))).bind (·.value k) =
      lastSetting (appliesToType d.type) r.stored k := by
  cases hfound : findConfig r.configs.typeConfigs (typePrefix ++ d.type) with
  | some c => exact h.type.found c hfound
  | none =>
      rw [lastSetting_of_no_type (h.type.absent hfound), ← h.wildcard_spec]
      exact value_map_new _ _ none

theorem distinct_map {l : List (InputConfig V)} {f : InputConfig V → InputConfig V}
    (hf : ∀ c, (f c).identifier = c.identifier) (h : Lib.Distinct sameIdentifier l) :
    Lib.Distinct sameIdentifier (l.map f) := by
  unfold Lib.Distinct
  rw [List.pairwise_map]
  exact h.imp fun {a b} hab => by rwa [sameIdentifier, hf, hf]

theorem mergeWildcard_identifier (w c : InputConfig V) :
    (mergeWildcard w c).identifier = c.identifier := by
  unfold mergeWildcard
  split_ifs <;> rfl

theorem mergeType_identifier (t c : InputConfig V) : (mergeType t c).identifier = c.identifier := by
  unfold mergeType
  split_ifs <;> rfl

theorem mergeType_inputType (t c : InputConfig V) : (mergeType t c).inputType = c.inputType := by
  unfold mergeType
  split_ifs <;> rfl

theorem storedConfig_identifier {current : Option (InputConfig V)} {ic : InputConfig V}
    (h : ∀ c, current = some c → c.identifier = ic.identifier) :
    (storedConfig current ic).identifier = ic.identifier := by
  cases current with
  | none => rfl
  | some c => exact h c rfl

theorem storedType_identifier (s : InputConfigs V) (ic : InputConfig V) :
    (storedConfig (findConfig s.typeConfigs ic.identifier <|>
      (findConfig s.inputConfigs wildcardId).map
        (mergeInputConfig (newInputConfig ic.identifier))) ic).identifier = ic.identifier := by
  refine storedConfig_identifier fun c hc => ?_
  cases hfound : findConfig s.typeConfigs ic.identifier with
  | some c' =>
      rw [hfound] at hc
      obtain rfl := Option.some.inj hc
      exact identifier_of_findConfig hfound
  | none =>
      rw [hfound] at hc
      obtain ⟨w, -, rfl⟩ := Option.map_eq_some_iff.mp hc
      rfl

variable (d) in
/-- A first config for the device is stored when the device is there, or nothing for its type yet;
and one for its type when the config for the device knows the type. Devices of one name are of one
type. -/
def OrderlyStep (s : InputConfigs V) : InputEvent V → Prop
  | .store ic _ =>
      (ic.identifier = d.identifier → findConfig s.inputConfigs d.identifier = none →
        (∃ device ∈ s.devices, device.identifier = d.identifier) ∨
          findTypeConfig s d.type = none) ∧
      (ic.identifier = typePrefix ++ d.type → ∀ c,
        findConfig s.inputConfigs d.identifier = some c → c.inputType = some d.type)
  | .connect device _ => device.identifier = d.identifier → device.type = d.type
  | .disconnect _ => True

variable {r : InputRun V} {ic : InputConfig V} {error : Bool} {s' : InputConfigs V}

theorem InputInv.store_wildcard (h : InputInv d k r) (hnew : ic.inputType = none)
    (hid : ic.identifier = wildcardId)
    (hstore : storeInputConfig compiles r.configs ic error = some s') :
    InputInv d k ⟨s', r.stored ++ [ic]⟩ := by
  obtain rfl := Swirl.store_wildcard hid hstore
  have hstored : (storedConfig (findConfig r.configs.inputConfigs wildcardId) ic).identifier =
      wildcardId :=
    (storedConfig_identifier fun c hc => (identifier_of_findConfig hc).trans hid.symm).trans hid
  have hfind : ∀ i, findConfig (Lib.upsert sameIdentifier
      (storedConfig (findConfig r.configs.inputConfigs wildcardId) ic)
      (r.configs.inputConfigs.map (mergeWildcard ic))).1 i = if wildcardId = i then
        some (storedConfig (findConfig r.configs.inputConfigs wildcardId) ic)
      else (findConfig r.configs.inputConfigs i).map (mergeWildcard ic) := by
    intro i
    rw [findConfig_upsert, hstored, findConfig_map (mergeWildcard_identifier ic)]
  have hne := d.identifier_ne_wildcard.symm
  refine
    { distinct := Lib.distinct_upsert sameIdentifier_equiv _
        (distinct_map (mergeWildcard_identifier ic) h.distinct)
      prefixed := ?_, devices := h.devices, untyped := ?_, typed := ?_, wildcard := ?_
      type := ?_, single := ?_ }
  · intro c hc
    obtain ⟨c, hmem, rfl⟩ := List.mem_map.mp hc
    exact h.prefixed c hmem
  · intro c hc
    rw [hfind, if_pos rfl] at hc
    obtain rfl := Option.some.inj hc
    cases hfound : findConfig r.configs.inputConfigs wildcardId with
    | none => exact hnew
    | some c => exact h.untyped c hfound
  · intro c hc
    rw [hfind, if_neg hne] at hc
    obtain ⟨c, hfound, rfl⟩ := Option.map_eq_some_iff.mp hc
    unfold mergeWildcard
    split_ifs
    · exact h.typed c hfound
    · exact h.typed c hfound
  · refine .put ((hfind _).trans (if_pos rfl)) ?_
    rw [value_stored, lastSetting_concat, if_pos (decide_eq_true hid), h.wildcard_spec]
  · refine h.type.keep (findConfig_map fun _ => rfl) (hid ▸ (type_ne_wildcard d.type).symm)
      fun c _ => ?_
    rw [value_merge, if_pos (by simp [appliesToType, hid])]
  · refine h.single.keep ((hfind _).trans (if_neg hne)) (hid ▸ hne) fun c hc => ?_
    have hother : c.identifier ≠ ic.identifier := by
      rw [identifier_of_findConfig hc, hid]
      exact d.identifier_ne_wildcard
    rw [mergeWildcard, if_neg hother, value_merge,
      if_pos (by simp [InputDevice.applies, appliesToType, hid])]

/-- A config for the type of the device is merged into the config of the device. -/
theorem InputInv.hasType_iff (h : InputInv d k r) {c : InputConfig V}
    (htype : typePrefix.isPrefixOf ic.identifier = true)
    (horderly : OrderlyStep d r.configs (.store ic error))
    (hc : findConfig r.configs.inputConfigs d.identifier = some c) :
    hasType ic c = true ↔ ic.identifier = typePrefix ++ d.type := by
  obtain ⟨t, ht⟩ := List.isPrefixOf_iff_prefix.mp htype
  have hdrop : ic.identifier.drop 5 = t := by
    rw [← ht]
    rfl
  rw [hasType, hdrop, decide_eq_true_iff]
  constructor
  · intro hsome
    rw [← ht, h.typed c hc t hsome]
  · intro hsame
    rw [horderly.2 hsame c hc, List.append_cancel_left (ht.trans hsame)]

theorem InputInv.store_type (h : InputInv d k r)
    (htype : typePrefix.isPrefixOf ic.identifier = true)
    (horderly : OrderlyStep d r.configs (.store ic error))
    (hstore : storeInputConfig compiles r.configs ic error = some s') :
    InputInv d k ⟨s', r.stored ++ [ic]⟩ := by
  obtain rfl := Swirl.store_type htype hstore
  have hwild : ic.identifier ≠ wildcardId := by
    intro heq
    rw [heq] at htype
    cases htype
  have hsingle : ic.identifier ≠ d.identifier := by
    intro heq
    rw [heq, d.identifier_no_type] at htype
    cases htype
  have hstored := storedType_identifier r.configs ic
  have hmap : ∀ i, findConfig (r.configs.inputConfigs.map (mergeType ic)) i =
      (findConfig r.configs.inputConfigs i).map (mergeType ic) :=
    fun i => findConfig_map (mergeType_identifier ic)
  refine
    { distinct := distinct_map (mergeType_identifier ic) h.distinct
      prefixed := ?_, devices := h.devices, untyped := ?_, typed := ?_, wildcard := ?_
      type := ?_, single := ?_ }
  · intro c hc
    rcases Lib.mem_of_mem_upsert hc with rfl | hc
    · rwa [hstored]
    · exact h.prefixed c hc
  · intro c hc
    obtain ⟨c, hfound, rfl⟩ := Option.map_eq_some_iff.mp ((hmap _).symm.trans hc)
    rw [mergeType_inputType]
    exact h.untyped c hfound
  · intro c hc
    obtain ⟨c, hfound, rfl⟩ := Option.map_eq_some_iff.mp ((hmap _).symm.trans hc)
    rw [mergeType_inputType]
    exact h.typed c hfound
  · -- the config for all has no type
    refine h.wildcard.keep (hmap _) hwild fun c hc => ?_
    rw [if_neg (by simpa using hwild), mergeType,
      if_neg (by simp [hasType, h.untyped c hc])]
  · by_cases hsame : ic.identifier = typePrefix ++ d.type
    · refine .put ((findConfig_upsert _).trans (if_pos (hstored.trans hsame))) ?_
      rw [value_stored, lastSetting_concat, if_pos (by simp [appliesToType, hsame]), hsame,
        h.type_spec]
    · refine h.type.pass ((findConfig_upsert _).trans (if_neg fun heq =>
        hsame (hstored.symm.trans heq))) hsame ?_
      simp [appliesToType, hwild, hsame]
  · refine h.single.keep (hmap _) hsingle fun c hc => ?_
    have hiff := h.hasType_iff htype horderly hc
    by_cases hsame : ic.identifier = typePrefix ++ d.type
    · rw [mergeType, if_pos (hiff.mpr hsame), value_merge,
        if_pos (by simp [InputDevice.applies, appliesToType, hsame])]
    · rw [mergeType, if_neg (hiff.not.mpr hsame),
        if_neg (by simp [InputDevice.applies, appliesToType, hsame, hwild, hsingle])]

theorem freshConfig_identifier {s : InputConfigs V} {single : Bool} {c : InputConfig V}
    (h : freshConfig s ic single = some c) : c.identifier = ic.identifier := by
  unfold freshConfig at h
  rcases Option.or_eq_some_iff.mp h with h | ⟨-, h⟩
  · split_ifs at h
    obtain ⟨type, -, h⟩ := Option.bind_eq_some_iff.mp h
    obtain ⟨tc, -, rfl⟩ := Option.map_eq_some_iff.mp h
    rfl
  · obtain ⟨w, -, rfl⟩ := Option.map_eq_some_iff.mp h
    rfl

/-- The type of a first config is the one of its device. -/
theorem freshConfig_type {s : InputConfigs V} {c : InputConfig V} {type : List Char}
    (h : freshConfig s ic true = some c) (htype : c.inputType = some type) :
    ic.inputType = some type := by
  unfold freshConfig at h
  rcases Option.or_eq_some_iff.mp h with h | ⟨-, h⟩
  · obtain ⟨type', htype', h⟩ := Option.bind_eq_some_iff.mp h
    obtain ⟨tc, -, rfl⟩ := Option.map_eq_some_iff.mp h
    exact htype'.trans htype
  · obtain ⟨w, -, rfl⟩ := Option.map_eq_some_iff.mp h
    cases htype

theorem InputInv.setInputType_type (h : InputInv d k r) (hnew : ic.inputType = none)
    (hid : ic.identifier = d.identifier) :
    (∀ type, (setInputType r.configs ic).inputType = some type → type = d.type) ∧
      ((∃ device ∈ r.configs.devices, device.identifier = d.identifier) →
        (setInputType r.configs ic).inputType = some d.type) := by
  unfold setInputType
  cases hfound : r.configs.devices.find? fun device => device.identifier = ic.identifier with
  | none =>
      refine ⟨fun type htype => ?_, fun ⟨device, hdevice, hname⟩ => ?_⟩
      · rw [hnew] at htype
        cases htype
      · have hno := List.find?_eq_none.mp hfound device hdevice
        exact absurd (decide_eq_true (hname.trans hid.symm)) hno
  | some device =>
      have heq : device.identifier = ic.identifier := by simpa using List.find?_some hfound
      have htype := h.devices device (List.mem_of_find?_eq_some hfound) (heq.trans hid)
      exact ⟨fun type hsome => (Option.some.inj hsome).symm.trans htype,
        fun _ => congrArg some htype⟩

/-- What the first config for the device is merged on. -/
theorem InputInv.freshConfig_spec (h : InputInv d k r) (hnew : ic.inputType = none)
    (hid : ic.identifier = d.identifier)
    (hnone : findConfig r.configs.inputConfigs d.identifier = none)
    (horderly : OrderlyStep d r.configs (.store ic error)) :
    (freshConfig r.configs (setInputType r.configs ic) true).bind (·.value k) =
      lastSetting d.applies r.stored k := by
  obtain ⟨hsome, hknown⟩ := h.setInputType_type hnew hid
  have hbase := horderly.1 hid hnone
  rw [lastSetting_of_no_single (h.single.absent hnone)]
  unfold freshConfig
  rw [if_pos rfl]
  cases htype : findTypeConfig r.configs d.type with
  | some c =>
      have hconnected := hbase.resolve_right (by rw [htype]; exact Option.some_ne_none c)
      rw [hknown hconnected, Option.bind_some, htype]
      change (mergeInputConfig _ c).value k = _
      rw [value_of_new, h.type.found c ((findTypeConfig_eq _ h.prefixed).symm.trans htype)]
  | none =>
      have hno : ((setInputType r.configs ic).inputType.bind fun type =>
          (findTypeConfig r.configs type).map fun tc => mergeInputConfig
            { newInputConfig (setInputType r.configs ic).identifier with inputType := some type }
            tc) = none := by
        cases hcase : (setInputType r.configs ic).inputType with
        | none => rfl
        | some type => rw [Option.bind_some, hsome type hcase, htype]; rfl
      rw [hno, Option.none_or, lastSetting_of_no_type
        (h.type.absent ((findTypeConfig_eq _ h.prefixed).symm.trans htype)), ← h.wildcard_spec]
      exact value_map_new _ _ none

theorem InputInv.store_single (h : InputInv d k r) (hnew : ic.inputType = none)
    (hid : ic.identifier ≠ wildcardId)
    (htype : typePrefix.isPrefixOf ic.identifier = false)
    (horderly : OrderlyStep d r.configs (.store ic error))
    (hstore : storeInputConfig compiles r.configs ic error = some s') :
    InputInv d k ⟨s', r.stored ++ [ic]⟩ := by
  obtain ⟨ic', hic', rfl⟩ := Swirl.store_single hid htype hstore
  have hsame : ic'.identifier = ic.identifier ∧ ic'.sets = ic.sets := by
    rw [hic']
    unfold setInputType
    split
    · split
      · exact ⟨rfl, funext fun k => by cases k <;> rfl⟩
      · exact ⟨rfl, rfl⟩
    · exact ⟨rfl, rfl⟩
  generalize hcurrent : (findConfig r.configs.inputConfigs ic.identifier <|>
    freshConfig r.configs ic' true) = current
  have hstored : (storedConfig current ic').identifier = ic.identifier := by
    refine (storedConfig_identifier fun c hc => ?_).trans hsame.1
    cases hfound : findConfig r.configs.inputConfigs ic.identifier with
    | some c' =>
        rw [hfound] at hcurrent
        obtain rfl := Option.some.inj (hcurrent.trans hc)
        exact (identifier_of_findConfig hfound).trans hsame.1.symm
    | none =>
        rw [hfound] at hcurrent
        exact freshConfig_identifier (hcurrent.trans hc)
  have hfind := fun i => @findConfig_upsert V r.configs.inputConfigs i (storedConfig current ic')
  have hnoType : ic.identifier ≠ typePrefix ++ d.type := by
    intro heq
    rw [heq, prefix_type] at htype
    cases htype
  have hwild := h.wildcard.pass ((hfind _).trans (if_neg (hstored ▸ hid))) hid
    (decide_eq_false hid)
  refine
    { distinct := Lib.distinct_upsert sameIdentifier_equiv _ h.distinct
      prefixed := h.prefixed, devices := h.devices, untyped := ?_, typed := ?_
      wildcard := hwild, type := h.type.pass rfl hnoType (by simp [appliesToType, hid, hnoType])
      single := ?_ }
  · intro c hc
    exact h.untyped c ((if_neg (hstored ▸ hid)).symm.trans ((hfind _).symm.trans hc))
  · intro c hc type hctype
    rw [hfind] at hc
    split_ifs at hc with heq
    · obtain rfl := Option.some.inj hc
      have hid' : ic.identifier = d.identifier := hstored.symm.trans heq
      rw [hid'] at hcurrent hic'
      cases hfound : findConfig r.configs.inputConfigs d.identifier with
      | some c =>
          rw [hfound] at hcurrent
          obtain rfl : some c = current := hcurrent
          exact h.typed c hfound type hctype
      | none =>
          rw [hfound] at hcurrent hic'
          obtain rfl : ic' = setInputType r.configs ic := hic'
          obtain rfl : freshConfig r.configs (setInputType r.configs ic) true = current := hcurrent
          refine (h.setInputType_type hnew hid').1 type ?_
          cases hcase : freshConfig r.configs (setInputType r.configs ic) true with
          | none =>
              rw [hcase] at hctype
              exact hctype
          | some c =>
              rw [hcase] at hctype
              exact freshConfig_type hcase hctype
    · exact h.typed c hc type hctype
  · by_cases hid' : ic.identifier = d.identifier
    · refine .put ((hfind _).trans (if_pos (hstored.trans hid'))) ?_
      rw [value_stored, lastSetting_concat, if_pos (by simp [InputDevice.applies, hid']), hsame.2,
        ← hcurrent]
      rw [hid'] at hic' ⊢
      refine congrArg _ ?_
      cases hfound : findConfig r.configs.inputConfigs d.identifier with
      | some c => exact h.single.found c hfound
      | none =>
          rw [hfound] at hic'
          obtain rfl : ic' = setInputType r.configs ic := hic'
          exact h.freshConfig_spec hnew hid' hfound horderly
    · refine h.single.pass ((hfind _).trans (if_neg (hstored ▸ hid'))) hid' ?_
      simp [InputDevice.applies, appliesToType, hid, hid', hnoType]

theorem InputInv.connect (h : InputInv d k r) {device : InputDevice} {isVirtual : Bool}
    (horderly : OrderlyStep d r.configs (.connect device isVirtual))
    (hkeep : ∀ c ∈ r.stored, c.sets k ≠ some none) :
    InputInv d k (r.step compiles (.connect device isVirtual)) := by
  have hdevices : ∀ other ∈ device :: r.configs.devices, other.identifier = d.identifier →
      other.type = d.type := by
    intro other hother
    rcases List.mem_cons.mp hother with rfl | hother
    · exact horderly
    · exact h.devices other hother
  have hlisted : InputInv d k
      { r with configs := { r.configs with devices := device :: r.configs.devices } } :=
    { h with devices := hdevices }
  unfold InputRun.step
  dsimp only
  cases isVirtual with
  | true => exact hlisted
  | false =>
      change InputInv d k ⟨applyInputTypeConfig _ device, r.stored⟩
      unfold applyInputTypeConfig
      split
      next tc ic htc hic =>
        have hname := identifier_of_findConfig hic
        have hfind := fun i => @findConfig_upsert V r.configs.inputConfigs i
          { mergeInputConfig (mergeInputConfig (newInputConfig ic.identifier) tc) ic with
            inputType := some device.type }
        have hother : ∀ i, device.identifier ≠ i → _ :=
          fun i hi => (hfind i).trans (if_neg fun heq => hi (hname.symm.trans heq))
        refine
          { distinct := Lib.distinct_upsert sameIdentifier_equiv _ h.distinct
            prefixed := h.prefixed, devices := hdevices, untyped := ?_, typed := ?_
            wildcard := h.wildcard.same (hother _ device.identifier_ne_wildcard)
            type := h.type, single := ?_ }
        · intro c hc
          exact h.untyped c ((hother _ device.identifier_ne_wildcard).symm.trans hc)
        · intro c hc type htype
          by_cases hid : device.identifier = d.identifier
          · obtain rfl := Option.some.inj
              (((hfind _).trans (if_pos (hname.trans hid))).symm.trans hc)
            exact (Option.some.inj htype).symm.trans (horderly hid)
          · exact h.typed c ((hother _ hid).symm.trans hc) type htype
        · by_cases hid : device.identifier = d.identifier
          · refine .put ((hfind _).trans (if_pos (hname.trans hid))) ?_
            have hvalue := h.single.found ic (hid ▸ hic)
            have htype : tc.value k = lastSetting (appliesToType d.type) r.stored k := by
              have htc' := (findTypeConfig_eq _ h.prefixed).symm.trans htc
              rw [horderly hid] at htc'
              exact h.type.found tc htc'
            change (mergeInputConfig (mergeInputConfig (newInputConfig _) tc) ic).value k = _
            rw [value_merge, ← hvalue]
            cases hsets : ic.sets k with
            | some v => simp [InputConfig.value, hsets]
            | none =>
                -- what the config does not set, no config before it did
                have hnone : ic.value k = none := by simp [InputConfig.value, hsets]
                rw [hnone] at hvalue ⊢
                have htypeNone : lastSetting (appliesToType d.type) r.stored k = none :=
                  lastSetting_mono hkeep (fun i hi => by simp [InputDevice.applies, hi])
                    hvalue.symm
                exact (value_of_new ic.identifier none tc).trans (htype.trans htypeNone)
          · exact h.single.same (hother _ hid)
      next => exact hlisted

variable (d compiles) in
/-- The runs in which every step is orderly. -/
inductive InputRuns : InputRun V → Prop
  | start (devices : List InputDevice)
      (h : ∀ device ∈ devices, device.identifier = d.identifier → device.type = d.type) :
      InputRuns ⟨{ devices }, []⟩
  | step {r : InputRun V} (e : InputEvent V) : InputRuns r → OrderlyStep d r.configs e →
      InputRuns (r.step compiles e)

theorem InputInv.step (h : InputInv d k r) (e : InputEvent V)
    (horderly : OrderlyStep d r.configs e)
    (hkeep : ∀ c ∈ (r.step compiles e).stored, c.sets k ≠ some none) :
    InputInv d k (r.step compiles e) := by
  cases e with
  | store ic error =>
      unfold InputRun.step
      dsimp only
      cases hstore : storeInputConfig compiles r.configs { ic with inputType := none } error with
      | none => exact h
      | some s' =>
          by_cases hid : ic.identifier = wildcardId
          · exact h.store_wildcard rfl hid hstore
          · cases htype : typePrefix.isPrefixOf ic.identifier with
            | true => exact h.store_type htype horderly hstore
            | false => exact h.store_single rfl hid htype horderly hstore
  | connect device isVirtual => exact h.connect horderly hkeep
  | disconnect device =>
      have hdevices : ∀ other ∈ r.configs.devices.erase device,
          other.identifier = d.identifier → other.type = d.type :=
        fun other hother => h.devices other (List.mem_of_mem_erase hother)
      exact { h with devices := hdevices }

theorem stored_step (r : InputRun V) (e : InputEvent V) :
    r.stored ⊆ (r.step compiles e).stored := by
  cases e with
  | store ic error =>
      unfold InputRun.step
      dsimp only
      split
      · exact List.Subset.refl _
      · exact List.subset_append_left _ _
  | connect device isVirtual => exact List.Subset.refl _
  | disconnect device => exact List.Subset.refl _

theorem InputRuns.inv (h : InputRuns d compiles r) (hkeep : ∀ c ∈ r.stored, c.sets k ≠ some none) :
    InputInv d k r := by
  induction h with
  | start devices hdevices =>
      have hnone : ∀ identifier applies,
          ConfigLayer ([] : List (InputConfig V)) identifier applies [] k :=
        fun _ _ => ⟨fun _ hc => (by cases hc), fun _ _ hc => (by cases hc)⟩
      exact
        { distinct := Lib.distinct_nil
          prefixed := fun _ hc => (by cases hc)
          devices := hdevices
          untyped := fun _ hc => (by cases hc)
          typed := fun _ hc => (by cases hc)
          wildcard := hnone _ _
          type := hnone _ _
          single := hnone _ _ }
  | step e hr horderly ih =>
      exact (ih fun c hc => hkeep c (stored_step _ e hc)).step e horderly hkeep

/-- **The last config counts**: in every orderly run, whatever is stored, refused, connected and
disconnected, a device has each setting from the last config stored that applies to it, by its
name, its type or as one for all, and sets it; the keymap file where none was set to none. -/
theorem inputDeviceGetConfig_last (hr : InputRuns d compiles r)
    (hkeep : ∀ c ∈ r.stored, c.sets k ≠ some none) :
    (inputDeviceGetConfig r.configs d).bind (·.value k) = lastSetting d.applies r.stored k := by
  have h := hr.inv hkeep
  unfold inputDeviceGetConfig
  rw [findTypeConfig_eq _ h.prefixed, find_reverse h.distinct]
  cases hsingle : findConfig r.configs.inputConfigs d.identifier with
  | some c => exact h.single.found c hsingle
  | none =>
      rw [lastSetting_of_no_single (h.single.absent hsingle)]
      cases htype : findConfig r.configs.typeConfigs (typePrefix ++ d.type) with
      | some c => exact h.type.found c htype
      | none =>
          rw [lastSetting_of_no_type (h.type.absent htype)]
          exact h.wildcard_spec

/-- No setting but the keymap file is set to none. -/
theorem sets_field (c : InputConfig V) (f : InputField) : c.sets (.field f) ≠ some none := by
  cases hf : c.settings f with
  | none => simp [InputConfig.sets, hf]
  | some v => simp [InputConfig.sets, hf]

/-- A config for all devices comes after one for the type and before one for the device. -/
theorem inputDeviceGetConfig_last_tap :
    let d : InputDevice := ⟨"1:2:pad".toList, "touchpad".toList, by decide⟩
    let tap : List Char → Nat → InputEvent Nat := fun identifier v =>
      .store { identifier, settings := fun f => if f = .tap then some v else none } true
    let r : InputRun Nat := (((InputRun.mk { devices := [d] } []).step (fun _ => true)
      (tap "type:touchpad".toList 1)).step (fun _ => true) (tap wildcardId 2)).step (fun _ => true)
        (.store { identifier := d.identifier } true)
    (inputDeviceGetConfig r.configs d).bind (·.value (.field .tap)) = some 2 := by
  intro d tap r
  have hstart : InputRuns d (fun _ => true) (InputRun.mk (V := Nat) { devices := [d] } []) :=
    .start [d] fun device hdevice _ => by rw [List.mem_singleton.mp hdevice]
  have hr : InputRuns d (fun _ => true) r :=
    .step _ (.step _ (.step _ hstart ⟨fun hid => absurd hid (by decide), fun _ c hc => by cases hc⟩)
      ⟨fun hid => absurd hid (by decide), fun hid => absurd hid (by decide)⟩)
      ⟨fun _ _ => .inl ⟨d, List.mem_singleton_self d, rfl⟩, fun hid => absurd hid (by decide)⟩
  exact (inputDeviceGetConfig_last hr fun c _ => sets_field c .tap).trans rfl

end Runs

end Swirl

import Swirl.Lib.Upsert

set_option autoImplicit false

/-! # The devices of the seats

The configs say which devices a seat is for: those it is attached to by name, or all of them, and
where it is a fallback those that no seat is attached to. `input_manager_apply_seat_config` goes
over all devices and all seats, while a device that is connected is only added where it belongs.
Either way each seat has exactly the devices it is for, whatever happens in between, and where no
config refuses to be a fallback, every device is on a seat.

A client can put a virtual device on any seat; it stays there until a config is applied.
-/

namespace Swirl

/-! ## Configs -/

/-- What `struct seat_config` says about devices; a `fallback` of -1 is none. -/
structure SeatConfig where
  name : List Char
  fallback : Option Bool := none
  attachments : List (List Char) := []

/-- `merge_seat_config` -/
def mergeSeatConfig (dest source : SeatConfig) : SeatConfig :=
  { dest with
    fallback := source.fallback <|> dest.fallback
    attachments := source.attachments.foldl
      (fun attachments a => if a ∈ attachments then attachments else attachments ++ [a])
      dest.attachments }

def allSeats : List Char := ['*']

def sameSeat (a b : SeatConfig) : Bool := decide (a.name = b.name)

def findSeatConfig (configs : List SeatConfig) (name : List Char) : Option SeatConfig :=
  configs.find? fun sc => sc.name = name

/-- `store_seat_config`: the configs, and the one that is stored. -/
def storeSeatConfig (configs : List SeatConfig) (sc : SeatConfig) :
    List SeatConfig × SeatConfig :=
  let configs := if sc.name = allSeats then
      configs.map fun other => if other.name = allSeats then other else mergeSeatConfig other sc
    else configs
  let base := match findSeatConfig configs sc.name with
    | some current => some current
    | none =>
        if sc.name = allSeats then none
        else (findSeatConfig configs allSeats).map (mergeSeatConfig { name := sc.name })
  let stored := base.elim sc fun current => mergeSeatConfig current sc
  ((Lib.upsert sameSeat stored configs).1, stored)

/-! ## Seats -/

/-- `struct sway_input_device`, with its address. -/
structure SeatInputDevice where
  address : Nat
  identifier : List Char
  isVirtual : Bool
  deriving DecidableEq

/-- `struct sway_seat` with its name and the devices of its `seat_device`s. -/
structure InputSeat where
  name : List Char
  devices : List SeatInputDevice := []

/-- `server.input` and `config->seat_configs` -/
structure SeatInput where
  seats : List InputSeat := []
  devices : List SeatInputDevice := []
  configs : List SeatConfig := []

/-- `seat_add_device` -/
def seatAddDevice (seat : InputSeat) (d : SeatInputDevice) : InputSeat :=
  if d ∈ seat.devices then seat else { seat with devices := d :: seat.devices }

/-- `seat_remove_device`; a device is on a seat once at most. -/
def seatRemoveDevice (seat : InputSeat) (d : SeatInputDevice) : InputSeat :=
  { seat with devices := seat.devices.filter (· ≠ d) }

/-- `seat_config_get_attachment` for the device or for all, in the config of a seat. -/
def hasAttachment (configs : List SeatConfig) (seat : InputSeat) (d : SeatInputDevice) : Bool :=
  (findSeatConfig configs seat.name).elim false fun sc =>
    decide (allSeats ∈ sc.attachments) || decide (d.identifier ∈ sc.attachments)

/-- The config of a seat makes it a fallback. -/
def isFallback (configs : List SeatConfig) (seat : InputSeat) : Bool :=
  (findSeatConfig configs seat.name).elim false fun sc => decide (sc.fallback = some true)

def defaultSeat : List Char := "seat0".toList

/-- `input_manager_get_seat`, which creates the seat. -/
def getSeat (seats : List InputSeat) (name : List Char) : List InputSeat :=
  if seats.any fun seat => seat.name = name then seats else { name } :: seats

/-- The seats after a turn of the loop over the devices. -/
def placeDevice (configs : List SeatConfig) (seats : List InputSeat) (d : SeatInputDevice) :
    List InputSeat :=
  let belongs := if seats.any fun seat => hasAttachment configs seat d then
      fun seat => hasAttachment configs seat d
    else isFallback configs
  seats.map fun seat => if belongs seat then seatAddDevice seat d else seatRemoveDevice seat d

/-- `input_manager_apply_seat_config` -/
def applySeatConfig (m : SeatInput) (sc : SeatConfig) : SeatInput :=
  let seats := if sc.name = allSeats then m.seats else getSeat m.seats sc.name
  { m with seats := m.devices.foldl (placeDevice m.configs) seats }

/-- `input_has_seat_fallback_configuration` -/
def hasSeatFallbackConfiguration (m : SeatInput) : Bool :=
  m.seats.any fun seat => (findSeatConfig m.configs seat.name).elim false fun sc =>
    decide (sc.name ≠ allSeats) && sc.fallback.isSome

/-- What `seat` does outside of the config file: the config is stored and applied. -/
def storeAndApply (m : SeatInput) (sc : SeatConfig) : SeatInput :=
  let stored := storeSeatConfig m.configs sc
  applySeatConfig { m with configs := stored.1 } stored.2

/-- `input_manager_verify_fallback_seat` -/
def verifyFallbackSeat (m : SeatInput) : SeatInput :=
  if hasSeatFallbackConfiguration m then m
  else storeAndApply { m with seats := getSeat m.seats defaultSeat }
    { name := defaultSeat, fallback := some true }

/-- `handle_new_input` -/
def handleNewInput (m : SeatInput) (d : SeatInputDevice) : SeatInput :=
  let m := verifyFallbackSeat { m with devices := d :: m.devices }
  let added := m.seats.any fun seat => hasAttachment m.configs seat d
  let seats := m.seats.map fun seat =>
    if hasAttachment m.configs seat d then seatAddDevice seat d else seat
  { m with seats := if added then seats else
      seats.map fun seat => if isFallback m.configs seat then seatAddDevice seat d else seat }

/-- `handle_virtual_keyboard` and `handle_virtual_pointer`, for a seat or the default one. -/
def handleVirtualInput (m : SeatInput) (d : SeatInputDevice) (seat : Option (List Char)) :
    SeatInput :=
  let name := seat.getD defaultSeat
  let seats := if seat.isSome then m.seats else getSeat m.seats defaultSeat
  { m with
    devices := d :: m.devices
    seats := seats.map fun seat => if seat.name = name then seatAddDevice seat d else seat }

/-- `handle_device_destroy` -/
def handleDeviceDestroy (m : SeatInput) (d : SeatInputDevice) : SeatInput :=
  { m with
    devices := m.devices.filter (· ≠ d)
    seats := m.seats.map fun seat => seatRemoveDevice seat d }

/-- `destroy_removed_seats` -/
def destroyRemovedSeats (old : List SeatConfig) (m : SeatInput) : SeatInput :=
  { m with seats := m.seats.filter fun seat =>
      !((old.any fun sc => decide (sc.name ≠ allSeats) && decide (sc.name = seat.name)) &&
        (findSeatConfig m.configs seat.name).isNone) }

/-- What `load_main_config` does to the seats, for the `seat` commands of the file. -/
def loadSeatConfigs (m : SeatInput) (commands : List SeatConfig) : SeatInput :=
  let read := commands.foldl (fun configs sc => (storeSeatConfig configs sc).1) []
  let verified := verifyFallbackSeat { m with configs := read }
  destroyRemovedSeats m.configs (verified.configs.foldl applySeatConfig verified)

inductive SeatEvent where
  | newInput (d : SeatInputDevice)
  | virtualInput (d : SeatInputDevice) (seat : Option (List Char))
  | destroyed (d : SeatInputDevice)
  | seatCommand (sc : SeatConfig)
  | load (commands : List SeatConfig)
  /-- `input_manager_get_default_seat` -/
  | getDefaultSeat

def SeatInput.step (m : SeatInput) : SeatEvent → SeatInput
  | .newInput d => handleNewInput m d
  | .virtualInput d seat => handleVirtualInput m d seat
  | .destroyed d => handleDeviceDestroy m d
  | .seatCommand sc => storeAndApply m sc
  | .load commands => loadSeatConfigs m commands
  | .getDefaultSeat => { m with seats := getSeat m.seats defaultSeat }

/-! ## Where devices belong -/

/-- The device belongs on the seat. -/
def assigned (configs : List SeatConfig) (seats : List InputSeat) (seat : InputSeat)
    (d : SeatInputDevice) : Bool :=
  if seats.any fun other => hasAttachment configs other d then hasAttachment configs seat d
  else isFallback configs seat

section Placing

variable {configs : List SeatConfig} {seats seats' : List InputSeat} {seat seat' : InputSeat}
  {d x : SeatInputDevice}

@[simp] theorem seatAddDevice_name : (seatAddDevice seat d).name = seat.name := by
  unfold seatAddDevice
  split_ifs <;> rfl

@[simp] theorem seatRemoveDevice_name : (seatRemoveDevice seat d).name = seat.name := rfl

theorem mem_seatAddDevice : x ∈ (seatAddDevice seat d).devices ↔ x = d ∨ x ∈ seat.devices := by
  unfold seatAddDevice
  split_ifs with hd
  · constructor
    · exact .inr
    · rintro (rfl | hx)
      · exact hd
      · exact hx
  · exact List.mem_cons

theorem mem_seatRemoveDevice :
    x ∈ (seatRemoveDevice seat d).devices ↔ x ≠ d ∧ x ∈ seat.devices := by
  simp [seatRemoveDevice, and_comm]

theorem hasAttachment_congr (h : seat.name = seat'.name) :
    hasAttachment configs seat d = hasAttachment configs seat' d := by
  unfold hasAttachment
  rw [h]

theorem isFallback_congr (h : seat.name = seat'.name) :
    isFallback configs seat = isFallback configs seat' := by
  unfold isFallback
  rw [h]

/-- Only names tell where a device belongs. -/
theorem assigned_map {g : InputSeat → InputSeat} (hg : ∀ s, (g s).name = s.name) :
    assigned configs (seats.map g) (g seat) d = assigned configs seats seat d := by
  have hany : (seats.map g).any (fun other => hasAttachment configs other d) =
      seats.any fun other => hasAttachment configs other d := by
    rw [List.any_map]
    exact congrArg seats.any (funext fun s => hasAttachment_congr (hg s))
  unfold assigned
  rw [hany, hasAttachment_congr (hg seat), isFallback_congr (hg seat)]

/-- What a seat gets of the devices, by where they belong. -/
def takeDevices (belongs : SeatInputDevice → Bool) (devices : List SeatInputDevice)
    (seat : InputSeat) : InputSeat :=
  devices.foldl (fun s d => if belongs d then seatAddDevice s d else seatRemoveDevice s d) seat

theorem takeDevices_name (belongs : SeatInputDevice → Bool) (devices : List SeatInputDevice)
    (seat : InputSeat) : (takeDevices belongs devices seat).name = seat.name := by
  unfold takeDevices
  induction devices generalizing seat with
  | nil => rfl
  | cons e devices ih =>
      rw [List.foldl_cons, ih]
      split_ifs <;> simp

theorem mem_takeDevices (belongs : SeatInputDevice → Bool) (devices : List SeatInputDevice)
    (seat : InputSeat) : x ∈ (takeDevices belongs devices seat).devices ↔
      if x ∈ devices then belongs x = true else x ∈ seat.devices := by
  unfold takeDevices
  induction devices generalizing seat with
  | nil => simp
  | cons e devices ih =>
      rw [List.foldl_cons, ih]
      by_cases hx : x ∈ devices
      · simp [hx]
      · by_cases hxe : x = e
        · subst hxe
          cases belongs x <;> simp [hx, mem_seatAddDevice, mem_seatRemoveDevice]
        · cases belongs e <;> simp [hx, hxe, mem_seatAddDevice, mem_seatRemoveDevice]

/-- Going over the devices and the seats, every seat takes the devices that belong on it. -/
theorem placeAll (devices : List SeatInputDevice) :
    devices.foldl (placeDevice configs) seats =
      seats.map fun seat => takeDevices (assigned configs seats seat) devices seat := by
  induction devices generalizing seats with
  | nil => exact (List.map_id' seats).symm
  | cons d devices ih =>
      have hplace : placeDevice configs seats d = seats.map fun seat =>
          if assigned configs seats seat d then seatAddDevice seat d
          else seatRemoveDevice seat d := by
        unfold placeDevice assigned
        dsimp only
        split_ifs <;> rfl
      have hname : ∀ s, (if assigned configs seats s d = true then seatAddDevice s d
          else seatRemoveDevice s d).name = s.name := by
        intro s
        split_ifs <;> simp
      rw [List.foldl_cons, hplace, ih, List.map_map]
      refine List.map_congr_left fun s _ => ?_
      have hsame : assigned configs (seats.map fun seat => if assigned configs seats seat d = true
            then seatAddDevice seat d else seatRemoveDevice seat d)
          (if assigned configs seats s d = true then seatAddDevice s d
            else seatRemoveDevice s d) = assigned configs seats s :=
        funext fun e => assigned_map hname
      change takeDevices (assigned configs _ _) devices _ = _
      rw [hsame]
      rfl

end Placing

/-! ## The seats at any time -/

variable {m : SeatInput} {sc : SeatConfig} {d : SeatInputDevice}

/-- Each seat has the devices that belong on it. -/
def SeatInput.Placed (m : SeatInput) : Prop :=
  ∀ seat ∈ m.seats, ∀ d ∈ m.devices, d.isVirtual = false →
    (d ∈ seat.devices ↔ assigned m.configs m.seats seat d = true)

structure SeatInv (m : SeatInput) : Prop where
  placed : m.Placed
  known : ∀ seat ∈ m.seats, ∀ d ∈ seat.devices, d ∈ m.devices
  housed : ∀ sc ∈ m.configs, sc.name ≠ allSeats → ∃ seat ∈ m.seats, seat.name = sc.name
  fallback : (∃ d ∈ m.devices, d.isVirtual = false) → hasSeatFallbackConfiguration m = true

theorem getSeat_subset (seats : List InputSeat) (name : List Char) :
    seats ⊆ getSeat seats name := by
  unfold getSeat
  split_ifs
  · exact List.Subset.refl _
  · exact List.subset_cons_self _ _

theorem exists_getSeat (seats : List InputSeat) (name : List Char) :
    ∃ seat ∈ getSeat seats name, seat.name = name := by
  unfold getSeat
  split_ifs with h
  · simpa using h
  · exact ⟨_, List.mem_cons_self, rfl⟩

theorem mem_getSeat {seats : List InputSeat} {name : List Char} {seat : InputSeat}
    (h : seat ∈ getSeat seats name) : seat ∈ seats ∨
      (seat = { name } ∧ ∀ other ∈ seats, other.name ≠ name) := by
  unfold getSeat at h
  split_ifs at h with hany
  · exact .inl h
  · rcases List.mem_cons.mp h with rfl | h
    · exact .inr ⟨rfl, by simpa using hany⟩
    · exact .inl h

theorem hasFallback_iff : hasSeatFallbackConfiguration m = true ↔
    ∃ seat ∈ m.seats, ∃ sc, findSeatConfig m.configs seat.name = some sc ∧
      sc.name ≠ allSeats ∧ sc.fallback.isSome = true := by
  unfold hasSeatFallbackConfiguration
  rw [List.any_eq_true]
  refine exists_congr fun seat => and_congr_right fun _ => ?_
  cases findSeatConfig m.configs seat.name with
  | none => simp
  | some sc => simp

theorem findSeatConfig_name {configs : List SeatConfig} {name : List Char}
    (h : findSeatConfig configs name = some sc) : sc ∈ configs ∧ sc.name = name :=
  ⟨List.mem_of_find?_eq_some h, by simpa using List.find?_some h⟩

theorem findSeatConfig_none {configs : List SeatConfig} {name : List Char}
    (h : ∀ sc ∈ configs, sc.name ≠ name) : findSeatConfig configs name = none := by
  unfold findSeatConfig
  rw [List.find?_eq_none]
  intro sc hsc
  simpa using h sc hsc

/-! ## Applying a config -/

/-- The seats after a config is applied. -/
theorem applySeatConfig_seats : ∃ seats, m.seats ⊆ seats ∧
    (∀ seat ∈ seats, seat ∈ m.seats ∨ seat.devices = []) ∧
    (sc.name ≠ allSeats → ∃ seat ∈ seats, seat.name = sc.name) ∧
    (applySeatConfig m sc).seats =
      seats.map fun seat => takeDevices (assigned m.configs seats seat) m.devices seat := by
  refine ⟨if sc.name = allSeats then m.seats else getSeat m.seats sc.name, ?_, ?_, ?_, placeAll _⟩
  · split_ifs
    · exact List.Subset.refl _
    · exact getSeat_subset _ _
  · intro seat hseat
    split_ifs at hseat
    · exact .inl hseat
    · exact (mem_getSeat hseat).imp_right fun h => by rw [h.1]
  · intro hname
    rw [if_neg hname]
    exact exists_getSeat _ _

theorem placed_applySeatConfig : (applySeatConfig m sc).Placed := by
  obtain ⟨seats, -, -, -, hseats⟩ := @applySeatConfig_seats m sc
  intro seat hseat e he _
  rw [hseats] at hseat ⊢
  obtain ⟨seat, -, rfl⟩ := List.mem_map.mp hseat
  have he' : e ∈ m.devices := he
  rw [mem_takeDevices, if_pos he']
  exact Eq.congr (assigned_map fun s => takeDevices_name _ _ s).symm rfl

theorem known_applySeatConfig (h : ∀ seat ∈ m.seats, ∀ d ∈ seat.devices, d ∈ m.devices) :
    ∀ seat ∈ (applySeatConfig m sc).seats, ∀ d ∈ seat.devices, d ∈ m.devices := by
  obtain ⟨seats, -, hold, -, hseats⟩ := @applySeatConfig_seats m sc
  intro seat hseat e he
  rw [hseats] at hseat
  obtain ⟨seat, hmem, rfl⟩ := List.mem_map.mp hseat
  by_contra hno
  rw [mem_takeDevices, if_neg hno] at he
  rcases hold seat hmem with hmem | hempty
  · exact hno (h seat hmem e he)
  · rw [hempty] at he
    cases he

/-- No seat is lost, and the config has a seat. -/
theorem names_applySeatConfig {name : List Char}
    (h : (∃ seat ∈ m.seats, seat.name = name) ∨ (sc.name = name ∧ name ≠ allSeats)) :
    ∃ seat ∈ (applySeatConfig m sc).seats, seat.name = name := by
  obtain ⟨seats, hsub, -, hhoused, hseats⟩ := @applySeatConfig_seats m sc
  have hexists : ∃ seat ∈ seats, seat.name = name := by
    rcases h with ⟨seat, hseat, hname⟩ | ⟨rfl, hne⟩
    · exact ⟨seat, hsub hseat, hname⟩
    · exact hhoused hne
  obtain ⟨seat, hseat, hname⟩ := hexists
  rw [hseats]
  exact ⟨_, List.mem_map_of_mem hseat, (takeDevices_name _ _ seat).trans hname⟩

/-! ## Storing a config -/

/-- A merged config says whether the seat is a fallback if the first config does, -/
theorem isSome_fallback_merge {a : SeatConfig} (b : SeatConfig) (ha : a.fallback.isSome = true) :
    (mergeSeatConfig a b).fallback.isSome = true := by
  change (b.fallback <|> a.fallback).isSome = true
  cases b.fallback with
  | none => exact ha
  | some v => rfl

/-- and says what the second one does. -/
theorem fallback_merge (a : SeatConfig) {b : SeatConfig} (hb : b.fallback.isSome = true) :
    (mergeSeatConfig a b).fallback = b.fallback := by
  change (b.fallback <|> a.fallback) = b.fallback
  obtain ⟨v, hv⟩ := Option.isSome_iff_exists.mp hb
  rw [hv]
  rfl

theorem storeSeatConfig_spec (configs : List SeatConfig) (sc : SeatConfig) :
    ∃ (g : SeatConfig → SeatConfig) (stored : SeatConfig),
      (∀ c, (g c).name = c.name ∧ (c.fallback.isSome = true → (g c).fallback.isSome = true)) ∧
      (storeSeatConfig configs sc).1 = (Lib.upsert sameSeat stored (configs.map g)).1 ∧
      stored.name = sc.name ∧ (storeSeatConfig configs sc).2 = stored ∧
      (∀ c, findSeatConfig configs sc.name = some c → c.fallback.isSome = true →
        stored.fallback.isSome = true) ∧
      (sc.fallback.isSome = true → stored.fallback = sc.fallback) := by
  have hg : ∀ c, (if sc.name = allSeats ∧ c.name ≠ allSeats then mergeSeatConfig c sc
        else c).name = c.name ∧ (c.fallback.isSome = true →
      (if sc.name = allSeats ∧ c.name ≠ allSeats then mergeSeatConfig c sc
        else c).fallback.isSome = true) := by
    intro c
    split_ifs
    · exact ⟨rfl, isSome_fallback_merge sc⟩
    · exact ⟨rfl, id⟩
  have hmap : (if sc.name = allSeats then
        configs.map fun other => if other.name = allSeats then other else mergeSeatConfig other sc
      else configs) =
      configs.map fun c => if sc.name = allSeats ∧ c.name ≠ allSeats then mergeSeatConfig c sc
        else c := by
    by_cases hall : sc.name = allSeats
    · rw [if_pos hall]
      refine List.map_congr_left fun c _ => ?_
      by_cases hc : c.name = allSeats <;> simp [hall, hc]
    · rw [if_neg hall]
      simp [hall]
  refine ⟨_, _, hg, by unfold storeSeatConfig; dsimp only; rw [hmap], ?_, rfl, ?_, ?_⟩
  all_goals
    unfold storeSeatConfig
    dsimp only
    rw [hmap]
  · split
    next current hcurrent => exact (findSeatConfig_name hcurrent).2
    next => split_ifs with hall
            · rfl
            · cases findSeatConfig _ allSeats <;> rfl
  · intro c hc hsome
    have hfound := Lib.find?_map_key SeatConfig.name (fun c => (hg c).1) configs sc.name
    change findSeatConfig _ sc.name = (findSeatConfig configs sc.name).map _ at hfound
    rw [hc] at hfound
    rw [hfound]
    exact isSome_fallback_merge sc ((hg c).2 hsome)
  · intro hsome
    split
    · exact fallback_merge _ hsome
    · split_ifs
      · rfl
      · cases findSeatConfig _ allSeats with
        | none => rfl
        | some c => exact fallback_merge _ hsome

theorem name_mem_store {configs : List SeatConfig} {c : SeatConfig}
    (h : c ∈ (storeSeatConfig configs sc).1) :
    c.name = sc.name ∨ ∃ c' ∈ configs, c'.name = c.name := by
  obtain ⟨g, stored, hg, hstore, hname, -⟩ := storeSeatConfig_spec configs sc
  rw [hstore] at h
  rcases Lib.mem_of_mem_upsert h with rfl | h
  · exact .inl hname
  · obtain ⟨c', hc', rfl⟩ := List.mem_map.mp h
    exact .inr ⟨c', hc', (hg c').1.symm⟩

theorem name_store (configs : List SeatConfig) (sc : SeatConfig) :
    (storeSeatConfig configs sc).2.name = sc.name := by
  obtain ⟨_, _, _, _, hname, hstored, _⟩ := storeSeatConfig_spec configs sc
  rw [hstored, hname]

/-- A config that says whether it is a fallback goes on to do so. -/
theorem find_store {configs : List SeatConfig} {c : SeatConfig} {name : List Char}
    (h : findSeatConfig configs name = some c) (hc : c.fallback.isSome = true) :
    ∃ c', findSeatConfig (storeSeatConfig configs sc).1 name = some c' ∧
      c'.fallback.isSome = true := by
  obtain ⟨g, stored, hg, hstore, hname, -, hkept, -⟩ := storeSeatConfig_spec configs sc
  have hfind : findSeatConfig (storeSeatConfig configs sc).1 name =
      if stored.name = name then some stored else (findSeatConfig configs name).map g := by
    rw [hstore]
    exact (Lib.find?_upsert SeatConfig.name stored _ name).trans
      (congrArg _ (Lib.find?_map_key SeatConfig.name (fun c => (hg c).1) configs name))
  rw [hfind]
  split_ifs with hsame
  · obtain rfl := hname.symm.trans hsame
    exact ⟨stored, rfl, hkept c h hc⟩
  · rw [h]
    exact ⟨g c, rfl, (hg c).2 hc⟩

theorem hasFallback_mono {m' : SeatInput} (h : hasSeatFallbackConfiguration m = true)
    (hseats : ∀ seat ∈ m.seats, ∀ c, findSeatConfig m.configs seat.name = some c →
      ∃ seat' ∈ m'.seats, seat'.name = seat.name)
    (hconfigs : ∀ name c, findSeatConfig m.configs name = some c → c.fallback.isSome = true →
      ∃ c', findSeatConfig m'.configs name = some c' ∧ c'.fallback.isSome = true) :
    hasSeatFallbackConfiguration m' = true := by
  obtain ⟨seat, hseat, c, hc, hname, hsome⟩ := hasFallback_iff.mp h
  obtain ⟨seat', hseat', heq⟩ := hseats seat hseat c hc
  obtain ⟨c', hc', hsome'⟩ := hconfigs _ c hc hsome
  refine hasFallback_iff.mpr ⟨seat', hseat', c', heq ▸ hc', ?_, hsome'⟩
  rwa [(findSeatConfig_name hc').2, ← (findSeatConfig_name hc).2]

/-! ## Every step -/

/-- A config is stored and applied. -/
theorem storeAndApply_spec (hknown : ∀ seat ∈ m.seats, ∀ d ∈ seat.devices, d ∈ m.devices)
    (hhoused : ∀ sc ∈ m.configs, sc.name ≠ allSeats → ∃ seat ∈ m.seats, seat.name = sc.name) :
    (storeAndApply m sc).Placed ∧
      (∀ seat ∈ (storeAndApply m sc).seats, ∀ d ∈ seat.devices, d ∈ m.devices) ∧
      (∀ c ∈ (storeAndApply m sc).configs, c.name ≠ allSeats →
        ∃ seat ∈ (storeAndApply m sc).seats, seat.name = c.name) ∧
      (hasSeatFallbackConfiguration m = true →
        hasSeatFallbackConfiguration (storeAndApply m sc) = true) := by
  refine ⟨placed_applySeatConfig, ?_, ?_, ?_⟩
  · exact known_applySeatConfig hknown
  · intro c hc hne
    refine names_applySeatConfig ?_
    rcases name_mem_store hc with hname | ⟨c', hc', hname⟩
    · exact .inr ⟨(name_store m.configs sc).trans hname.symm, hne⟩
    · rw [← hname] at hne ⊢
      exact .inl (hhoused c' hc' hne)
  · intro h
    exact hasFallback_mono h
      (fun seat hseat _ _ => names_applySeatConfig (.inl ⟨seat, hseat, rfl⟩))
      fun _ _ hc hsome => find_store hc hsome

/-- After `input_manager_verify_fallback_seat` there is a config that says what the fallback is. -/
theorem verifyFallbackSeat_has (m : SeatInput) :
    hasSeatFallbackConfiguration (verifyFallbackSeat m) = true := by
  unfold verifyFallbackSeat
  split_ifs with h
  · exact h
  · obtain ⟨g, stored, -, hstore, hname, -, -, hset⟩ :=
      storeSeatConfig_spec m.configs { name := defaultSeat, fallback := some true }
    obtain ⟨seat, hseat, hseatName⟩ := exists_getSeat m.seats defaultSeat
    have hfound : findSeatConfig (storeSeatConfig m.configs
        { name := defaultSeat, fallback := some true }).1 defaultSeat = some stored := by
      rw [hstore]
      exact (Lib.find?_upsert SeatConfig.name stored _ defaultSeat).trans (if_pos hname)
    obtain ⟨seat', hseat', hname'⟩ := @names_applySeatConfig
      { m with
        seats := getSeat m.seats defaultSeat
        configs := (storeSeatConfig m.configs { name := defaultSeat, fallback := some true }).1 }
      (storeSeatConfig m.configs { name := defaultSeat, fallback := some true }).2 defaultSeat
      (.inl ⟨seat, hseat, hseatName⟩)
    refine hasFallback_iff.mpr ⟨seat', hseat', stored, hname' ▸ hfound, ?_, ?_⟩
    · rw [hname]
      decide
    · rw [hset rfl]
      rfl

theorem no_config_of_no_seat (h : SeatInv m) {name : List Char} (hne : name ≠ allSeats)
    (hno : ∀ seat ∈ m.seats, seat.name ≠ name) : findSeatConfig m.configs name = none := by
  refine findSeatConfig_none fun sc hsc hname => ?_
  obtain ⟨seat, hseat, heq⟩ := h.housed sc hsc (hname ▸ hne)
  exact hno seat hseat (heq.trans hname)

/-- A seat that is created has no config yet. -/
theorem SeatInv.getSeat (h : SeatInv m) {name : List Char} (hne : name ≠ allSeats) :
    SeatInv { m with seats := Swirl.getSeat m.seats name } := by
  unfold Swirl.getSeat
  split_ifs with hany
  · exact h
  · have hno : ∀ seat ∈ m.seats, seat.name ≠ name := by simpa using hany
    have hnone := no_config_of_no_seat h hne hno
    have hnew : ∀ e, assigned m.configs ({ name } :: m.seats) { name } e = false := by
      intro e
      simp [assigned, hasAttachment, isFallback, hnone]
    have hold : ∀ seat e, assigned m.configs ({ name } :: m.seats) seat e =
        assigned m.configs m.seats seat e := by
      intro seat e
      simp [assigned, hasAttachment, hnone]
    constructor
    · intro seat hseat e he hreal
      rcases List.mem_cons.mp hseat with rfl | hseat
      · exact iff_of_false (fun hmem => by cases hmem)
          (fun hassigned => by rw [hnew] at hassigned; cases hassigned)
      · change e ∈ seat.devices ↔ assigned m.configs ({ name } :: m.seats) seat e = true
        rw [hold]
        exact h.placed seat hseat e he hreal
    · intro seat hseat e he
      rcases List.mem_cons.mp hseat with rfl | hseat
      · cases he
      · exact h.known seat hseat e he
    · intro sc hsc hall
      obtain ⟨seat, hseat, hname⟩ := h.housed sc hsc hall
      exact ⟨seat, List.mem_cons_of_mem _ hseat, hname⟩
    · exact fun hreal => hasFallback_mono (h.fallback hreal)
        (fun seat hseat _ _ => ⟨seat, List.mem_cons_of_mem _ hseat, rfl⟩)
        fun _ c hc hsome => ⟨c, hc, hsome⟩

/-- The devices of the seats change, but not where they belong. -/
theorem SeatInv.map (h : SeatInv m) {g : InputSeat → InputSeat} {devices : List SeatInputDevice}
    (hname : ∀ s, (g s).name = s.name)
    (hplaced : ∀ s ∈ m.seats, ∀ e ∈ devices, e.isVirtual = false →
      (e ∈ (g s).devices ↔ assigned m.configs m.seats s e = true))
    (hknown : ∀ s ∈ m.seats, ∀ e ∈ (g s).devices, e ∈ devices)
    (hfallback : (∃ e ∈ devices, e.isVirtual = false) → hasSeatFallbackConfiguration m = true) :
    SeatInv { m with seats := m.seats.map g, devices } := by
  constructor
  · intro seat hseat e he hreal
    obtain ⟨s, hs, rfl⟩ := List.mem_map.mp hseat
    change e ∈ (g s).devices ↔ assigned m.configs (m.seats.map g) (g s) e = true
    rw [assigned_map hname]
    exact hplaced s hs e he hreal
  · intro seat hseat e he
    obtain ⟨s, hs, rfl⟩ := List.mem_map.mp hseat
    exact hknown s hs e he
  · intro sc hsc hne
    obtain ⟨seat, hseat, heq⟩ := h.housed sc hsc hne
    exact ⟨g seat, List.mem_map_of_mem hseat, (hname seat).trans heq⟩
  · exact fun hreal => hasFallback_mono (hfallback hreal)
      (fun seat hseat _ _ => ⟨g seat, List.mem_map_of_mem hseat, hname seat⟩)
      fun _ c hc hsome => ⟨c, hc, hsome⟩

theorem SeatInv.virtualInput (h : SeatInv m) (hd : d.isVirtual = true) (seat : Option (List Char)) :
    SeatInv (handleVirtualInput m d seat) := by
  have hseats : SeatInv { m with
      seats := if seat.isSome then m.seats else Swirl.getSeat m.seats defaultSeat } := by
    split_ifs
    · exact h
    · exact h.getSeat (by decide)
  have hother : ∀ e ∈ d :: m.devices, e.isVirtual = false → e ≠ d ∧ e ∈ m.devices := by
    intro e he hreal
    have hne : e ≠ d := by
      rintro rfl
      rw [hd] at hreal
      cases hreal
    exact ⟨hne, (List.mem_cons.mp he).resolve_left hne⟩
  refine hseats.map (fun s => by split_ifs <;> simp) (fun s hs e he hreal => ?_)
    (fun s hs e he => ?_) fun ⟨e, he, hreal⟩ => hseats.fallback ⟨e, (hother e he hreal).2, hreal⟩
  · obtain ⟨hne, hmem⟩ := hother e he hreal
    rw [← hseats.placed s hs e hmem hreal]
    split_ifs
    · simp [mem_seatAddDevice, hne]
    · exact Iff.rfl
  · split_ifs at he
    · rcases mem_seatAddDevice.mp he with rfl | he
      · exact List.mem_cons_self
      · exact List.mem_cons_of_mem _ (hseats.known s hs e he)
    · exact List.mem_cons_of_mem _ (hseats.known s hs e he)

theorem SeatInv.destroyed (h : SeatInv m) (d : SeatInputDevice) :
    SeatInv (handleDeviceDestroy m d) := by
  have hmem : ∀ e ∈ m.devices.filter (· ≠ d), e ≠ d ∧ e ∈ m.devices := by
    intro e he
    simpa [and_comm] using he
  refine h.map (fun s => rfl) (fun s hs e he hreal => ?_) (fun s hs e he => ?_)
    fun ⟨e, he, hreal⟩ => h.fallback ⟨e, (hmem e he).2, hreal⟩
  · rw [← h.placed s hs e (hmem e he).2 hreal, mem_seatRemoveDevice, and_iff_right (hmem e he).1]
  · obtain ⟨hne, he⟩ := mem_seatRemoveDevice.mp he
    simpa [hne] using h.known s hs e he

theorem verifyFallbackSeat_known (m : SeatInput)
    (h : ∀ seat ∈ m.seats, ∀ d ∈ seat.devices, d ∈ m.devices) :
    (verifyFallbackSeat m).devices = m.devices ∧
      ∀ seat ∈ (verifyFallbackSeat m).seats, ∀ d ∈ seat.devices, d ∈ m.devices := by
  unfold verifyFallbackSeat
  split_ifs
  · exact ⟨rfl, h⟩
  · refine ⟨rfl, known_applySeatConfig fun seat hseat e he => ?_⟩
    rcases mem_getSeat hseat with hseat | ⟨rfl, -⟩
    · exact h seat hseat e he
    · cases he

/-- A device that is connected is added where it belongs. -/
theorem handleNewInput_eq (m : SeatInput) (d : SeatInputDevice) :
    handleNewInput m d =
      let m := verifyFallbackSeat { m with devices := d :: m.devices }
      { m with seats := m.seats.map fun seat =>
          if assigned m.configs m.seats seat d then seatAddDevice seat d else seat } := by
  unfold handleNewInput
  generalize verifyFallbackSeat { m with devices := d :: m.devices } = m'
  dsimp only
  unfold assigned
  cases hany : m'.seats.any fun other => hasAttachment m'.configs other d with
  | true => rfl
  | false =>
      have hnone : ∀ s ∈ m'.seats, hasAttachment m'.configs s d = false := by simpa using hany
      have hsame : (m'.seats.map fun seat => if hasAttachment m'.configs seat d = true then
          seatAddDevice seat d else seat) = m'.seats := by
        refine (List.map_congr_left fun s hs => ?_).trans (List.map_id m'.seats)
        rw [hnone s hs]
        rfl
      simp only [hsame, Bool.false_eq_true, if_false]

theorem SeatInv.newInput (h : SeatInv m) (hfresh : d ∉ m.devices) :
    SeatInv (handleNewInput m d) := by
  have hname : ∀ (m' : SeatInput) (s : InputSeat), (if assigned m'.configs m'.seats s d = true
      then seatAddDevice s d else s).name = s.name := by
    intro m' s
    split_ifs <;> simp
  have hmem : ∀ (m' : SeatInput) (s : InputSeat) (e : SeatInputDevice),
      e ∈ (if assigned m'.configs m'.seats s d = true then seatAddDevice s d else s).devices ↔
        (e = d ∧ assigned m'.configs m'.seats s d = true) ∨ e ∈ s.devices := by
    intro m' s e
    split_ifs with hassigned <;> simp [mem_seatAddDevice, hassigned]
  rw [handleNewInput_eq]
  by_cases hhas : hasSeatFallbackConfiguration { m with devices := d :: m.devices } = true
  · -- the device is on no seat yet
    unfold verifyFallbackSeat
    rw [if_pos hhas]
    refine h.map (hname m) (fun s hs e he hreal => ?_) (fun s hs e he => ?_) fun _ => hhas
    · rw [hmem]
      by_cases hed : e = d
      · subst hed
        have hno : e ∉ s.devices := fun hin => hfresh (h.known s hs e hin)
        simp [hno]
      · simp [hed, h.placed s hs e ((List.mem_cons.mp he).resolve_left hed) hreal]
    · rcases (hmem m s e).mp he with ⟨rfl, -⟩ | he
      · exact List.mem_cons_self
      · exact List.mem_cons_of_mem _ (h.known s hs e he)
  · -- a config for the default seat has just been applied, to this device as well
    have hcreated := h.getSeat (show defaultSeat ≠ allSeats by decide)
    obtain ⟨hplaced, hknown, hhoused, -⟩ := @storeAndApply_spec { m with
      seats := Swirl.getSeat m.seats defaultSeat, devices := d :: m.devices }
      { name := defaultSeat, fallback := some true }
      (fun seat hseat e he => List.mem_cons_of_mem _ (hcreated.known seat hseat e he))
      hcreated.housed
    have hstill := verifyFallbackSeat_has { m with devices := d :: m.devices }
    unfold verifyFallbackSeat at hstill ⊢
    rw [if_neg hhas] at hstill ⊢
    generalize hm' : storeAndApply { m with
      seats := Swirl.getSeat m.seats defaultSeat, devices := d :: m.devices }
      { name := defaultSeat, fallback := some true } = m' at *
    have hdevices : m'.devices = d :: m.devices := by
      rw [← hm']
      rfl
    have h' : SeatInv m' := ⟨hplaced, hdevices ▸ hknown, hhoused, fun _ => hstill⟩
    refine h'.map (hname m') (fun s hs e he hreal => ?_) (fun s hs e he => ?_) fun _ => hstill
    · rw [hmem, h'.placed s hs e he hreal]
      constructor
      · rintro (⟨rfl, hassigned⟩ | hassigned)
        · exact hassigned
        · exact hassigned
      · exact .inr
    · rcases (hmem m' s e).mp he with ⟨rfl, -⟩ | he
      · rw [hdevices]
        exact List.mem_cons_self
      · exact h'.known s hs e he

theorem foldl_applySeatConfig (l : List SeatConfig) (m : SeatInput) :
    (l.foldl applySeatConfig m).configs = m.configs ∧
      (l.foldl applySeatConfig m).devices = m.devices ∧
      ((∀ seat ∈ m.seats, ∀ d ∈ seat.devices, d ∈ m.devices) →
        ∀ seat ∈ (l.foldl applySeatConfig m).seats, ∀ d ∈ seat.devices, d ∈ m.devices) ∧
      (∀ name, (∃ seat ∈ m.seats, seat.name = name) ∨
          (∃ sc ∈ l, sc.name = name ∧ name ≠ allSeats) →
        ∃ seat ∈ (l.foldl applySeatConfig m).seats, seat.name = name) ∧
      (m.Placed ∨ l ≠ [] → (l.foldl applySeatConfig m).Placed) := by
  induction l generalizing m with
  | nil => exact ⟨rfl, rfl, id, fun name h => h.resolve_right (by simp), fun h => by simpa using h⟩
  | cons sc l ih =>
      obtain ⟨hconfigs, hdevices, hknown, hnames, hplaced⟩ := ih (applySeatConfig m sc)
      refine ⟨hconfigs, hdevices, fun h => hknown (known_applySeatConfig h), fun name h => ?_,
        fun _ => hplaced (.inl placed_applySeatConfig)⟩
      rcases h with h | ⟨sc', hsc', hname, hne⟩
      · exact hnames name (.inl (names_applySeatConfig (.inl h)))
      · rcases List.mem_cons.mp hsc' with rfl | hsc'
        · exact hnames name (.inl (names_applySeatConfig (.inr ⟨hname, hne⟩)))
        · exact hnames name (.inr ⟨sc', hsc', hname, hne⟩)

/-- A seat that is destroyed has no config any more, and so no device. -/
theorem SeatInv.destroyRemovedSeats (h : SeatInv m) (old : List SeatConfig) :
    SeatInv (Swirl.destroyRemovedSeats old m) := by
  unfold Swirl.destroyRemovedSeats
  generalize hkeep : (fun seat : InputSeat => !((old.any fun sc => decide (sc.name ≠ allSeats) &&
    decide (sc.name = seat.name)) && (findSeatConfig m.configs seat.name).isNone)) = keep
  have hsome : ∀ seat c, findSeatConfig m.configs seat.name = some c → keep seat = true := by
    intro seat c hc
    rw [← hkeep]
    simp [hc]
  have hkept : ∀ seat ∈ m.seats, ∀ c, findSeatConfig m.configs seat.name = some c →
      ∃ seat' ∈ m.seats.filter keep, seat'.name = seat.name :=
    fun seat hseat c hc => ⟨seat, List.mem_filter.mpr ⟨hseat, hsome seat c hc⟩, rfl⟩
  have hany : ∀ e, (m.seats.filter keep).any (fun other => hasAttachment m.configs other e) =
      m.seats.any fun other => hasAttachment m.configs other e := by
    intro e
    rw [List.any_filter]
    refine congrArg m.seats.any (funext fun seat => ?_)
    cases hc : findSeatConfig m.configs seat.name with
    | none => simp [hasAttachment, hc]
    | some c => rw [hsome seat c hc, Bool.true_and]
  constructor
  · intro seat hseat e he hreal
    rw [h.placed seat (List.mem_filter.mp hseat).1 e he hreal]
    change _ ↔ assigned m.configs (m.seats.filter keep) seat e = true
    unfold assigned
    rw [hany]
  · exact fun seat hseat e he => h.known seat (List.mem_filter.mp hseat).1 e he
  · intro sc hsc hne
    obtain ⟨seat, hseat, hname⟩ := h.housed sc hsc hne
    cases hc : findSeatConfig m.configs seat.name with
    | none =>
        have hno := List.find?_eq_none.mp hc sc hsc
        exact absurd (decide_eq_true hname.symm) hno
    | some c =>
        obtain ⟨seat', hseat', hname'⟩ := hkept seat hseat c hc
        exact ⟨seat', hseat', hname'.trans hname⟩
  · exact fun hreal => hasFallback_mono (h.fallback hreal) hkept fun _ c hc hfb => ⟨c, hc, hfb⟩

theorem SeatInv.load (h : SeatInv m) (commands : List SeatConfig) :
    SeatInv (loadSeatConfigs m commands) := by
  unfold loadSeatConfigs
  dsimp only
  generalize commands.foldl (fun configs sc => (storeSeatConfig configs sc).1) [] = read
  obtain ⟨hdevices, hknown⟩ := verifyFallbackSeat_known { m with configs := read } h.known
  have hhas := verifyFallbackSeat_has { m with configs := read }
  generalize verifyFallbackSeat { m with configs := read } = m' at *
  obtain ⟨hconfigs', hdevices', hknown', hnames', hplaced'⟩ := foldl_applySeatConfig m'.configs m'
  have hsome : m'.configs ≠ [] := by
    obtain ⟨seat, -, c, hc, -⟩ := hasFallback_iff.mp hhas
    exact List.ne_nil_of_mem (findSeatConfig_name hc).1
  have happlied : SeatInv (m'.configs.foldl applySeatConfig m') := by
    constructor
    · exact hplaced' (.inr hsome)
    · rw [hdevices']
      exact hknown' (hdevices ▸ hknown)
    · intro sc hsc hne
      exact hnames' sc.name (.inr ⟨sc, hconfigs' ▸ hsc, rfl, hne⟩)
    · exact fun _ => hasFallback_mono hhas
        (fun seat hseat _ _ => hnames' seat.name (.inl ⟨seat, hseat, rfl⟩))
        fun name c hc hfb => ⟨c, hconfigs'.symm ▸ hc, hfb⟩
  exact happlied.destroyRemovedSeats m.configs

/-! ## Runs -/

/-- A device that is connected is new. -/
def FreshStep (m : SeatInput) : SeatEvent → Prop
  | .newInput d => d ∉ m.devices
  | .virtualInput d _ => d.isVirtual = true
  | .destroyed _ | .seatCommand _ | .load _ | .getDefaultSeat => True

inductive SeatRuns : SeatInput → Prop
  | start : SeatRuns {}
  | step {m : SeatInput} (e : SeatEvent) : SeatRuns m → FreshStep m e → SeatRuns (m.step e)

theorem SeatRuns.inv (h : SeatRuns m) : SeatInv m := by
  induction h with
  | start =>
      exact ⟨fun _ h => (by cases h), fun _ h => (by cases h), fun _ h => (by cases h),
        fun ⟨_, h, _⟩ => (by cases h)⟩
  | step e _ hfresh ih =>
      cases e with
      | newInput d => exact ih.newInput hfresh
      | virtualInput d seat => exact ih.virtualInput hfresh seat
      | destroyed d => exact ih.destroyed d
      | seatCommand sc =>
          obtain ⟨hplaced, hknown, hhoused, hfallback⟩ := storeAndApply_spec ih.known ih.housed
          exact ⟨hplaced, hknown, hhoused, fun hreal => hfallback (ih.fallback hreal)⟩
      | load commands => exact ih.load commands
      | getDefaultSeat => exact ih.getSeat (by decide)

/-- **Every device is where the configs say**: after any connecting and disconnecting, any `seat`
commands and reloads, a seat has a device that is not virtual exactly when its config attaches the
device, or when no seat's config does and its config makes it a fallback. So no device is on no
seat, unless a config refuses to be a fallback. -/
theorem seat_devices_assigned (h : SeatRuns m) :
    (∀ seat ∈ m.seats, ∀ d ∈ m.devices, d.isVirtual = false →
      (d ∈ seat.devices ↔ assigned m.configs m.seats seat d = true)) ∧
    ((∀ sc ∈ m.configs, sc.fallback ≠ some false) → ∀ d ∈ m.devices, d.isVirtual = false →
      ∃ seat ∈ m.seats, d ∈ seat.devices) := by
  have hinv := h.inv
  refine ⟨hinv.placed, fun hwilling d hd hreal => ?_⟩
  cases hany : m.seats.any fun other => hasAttachment m.configs other d with
  | true =>
      obtain ⟨seat, hseat, hattached⟩ := List.any_eq_true.mp hany
      refine ⟨seat, hseat, (hinv.placed seat hseat d hd hreal).mpr ?_⟩
      rw [assigned, if_pos hany]
      exact hattached
  | false =>
      obtain ⟨seat, hseat, c, hc, -, hsome⟩ := hasFallback_iff.mp (hinv.fallback ⟨d, hd, hreal⟩)
      refine ⟨seat, hseat, (hinv.placed seat hseat d hd hreal).mpr ?_⟩
      obtain ⟨willing, hwill⟩ := Option.isSome_iff_exists.mp hsome
      have htrue : willing = true := by
        cases willing with
        | true => rfl
        | false => exact absurd hwill (hwilling c (findSeatConfig_name hc).1)
      rw [assigned, if_neg (by rw [hany]; exact Bool.false_ne_true), isFallback, hc]
      simp [hwill, htrue]

/-- The first keyboard is on the default seat, without any config. -/
theorem seat_devices_assigned_first :
    let keyboard : SeatInputDevice := ⟨0, "1:1:keyboard".toList, false⟩
    let m := SeatInput.step {} (.newInput keyboard)
    ∃ seat ∈ m.seats, keyboard ∈ seat.devices := by
  intro keyboard m
  have hruns : SeatRuns m := .step _ .start List.not_mem_nil
  exact (seat_devices_assigned hruns).2 (by decide) keyboard (by decide) rfl

end Swirl

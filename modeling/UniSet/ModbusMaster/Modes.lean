/-
**The modes of the devices and the sensors that set them.**

A device may have a sensor for its mode and one for its safe mode. The master subscribes to them, hears
of their changes, and reads them in every cycle if the shared memory is another process.

* `askSensors` — the subscription. With `force_out` it ends behind the first device.
* `sensorInfo` — a message. It ends at the first device that writes the sensor.
* `updateSM` — the values of the memory. A safe mode sensor is read only if there is a mode sensor.
* `Follows` — every device has the modes its sensors were last seen with.
* `Separate` — what it takes: no sensor of a device is written by an earlier one.
* **`modes_follow_iff`** — the sensors are subscribed and the modes follow them, for every sequence of
  messages and cycles, exactly if the configuration avoids the three early ends.
-/

import UniSet.Lib.Machine
import UniSet.ModbusMaster.Config

namespace UniSet.ModbusMaster

/-- `SensorMessage`. -/
structure SensorMessage where
  id : ObjectId
  node : ObjectId
  value : Int
deriving DecidableEq, Repr

/-! ### The three loops -/

/-- The sensors of the devices that `askSensors` subscribes to, one after the other. -/
def askDevices (forceOut : Bool) : List RTUDevice → List ObjectId
  | [] => []
  | d :: rest => d.sensors ++ if forceOut then [] else d.written ++ askDevices forceOut rest

/-- **`MBExchange::askSensors`.** -/
def askSensors (forceOut : Bool) (sidExchangeMode : Option ObjectId) (devices : List RTUDevice) :
    List ObjectId :=
  sidExchangeMode.toList ++ askDevices forceOut devices

/-- The safe mode for a value of its sensor. -/
def RTUDevice.safeModeFor (d : RTUDevice) (value : Int) : Int :=
  if value = d.safemodeValue then safeExternalControl else safeNone

/-- The modes of a device after a message. -/
def RTUDevice.setModes (m : SensorMessage) (d : RTUDevice) : RTUDevice :=
  { d with
    mode := if d.modeId = some m.id then m.value else d.mode
    safeMode := if d.safemodeId = some m.id then d.safeModeFor m.value else d.safeMode }

/-- The register takes the message: one of its sensors is written and is the sensor of the message. -/
def RegInfo.takes (m : SensorMessage) (r : RegInfo) : Bool :=
  r.mbfunc.isWriteFunction && r.mbInitOK && r.slst.any fun p => p.si = ⟨m.id, m.node⟩

/-- The value is kept for the sensor. -/
def RegInfo.setValue (m : SensorMessage) (r : RegInfo) : RegInfo :=
  { r with slst := r.slst.map fun p => if p.si = ⟨m.id, m.node⟩ then { p with value := m.value } else p }

/-- The first register that takes the message is given the value. -/
def takeFirst (m : SensorMessage) : List RegInfo → List RegInfo
  | [] => []
  | r :: rest => if r.takes m then r.setValue m :: rest else r :: takeFirst m rest

/-- **`MBExchange::sensorInfo`**, the loop over the devices. -/
def sensorInfo (forceOut : Bool) (m : SensorMessage) : List RTUDevice → List RTUDevice
  | [] => []
  | d :: rest =>
    if forceOut then d.setModes m :: sensorInfo forceOut m rest
    else if d.regs.any fun r => r.takes m then
      { d.setModes m with regs := takeFirst m d.regs } :: rest
    else d.setModes m :: sensorInfo forceOut m rest

/-- The modes of a device in `updateSM`; `none` is a value that cannot be read. -/
def RTUDevice.readModes (localGetValue : ObjectId → Option Int) (d : RTUDevice) : RTUDevice :=
  match d.modeId with
  | none => d
  | some id =>
    { d with
      mode := (localGetValue id).getD d.mode
      safeMode := match d.safemodeId.bind localGetValue with
        | none => d.safeMode
        | some value => d.safeModeFor value }

/-- **`MBExchange::updateSM`**, as far as the modes are concerned. -/
def updateSM (isLocalwork : Bool) (localGetValue : ObjectId → Option Int)
    (devices : List RTUDevice) : List RTUDevice :=
  if isLocalwork then devices else devices.map (RTUDevice.readModes localGetValue)

/-! ### The system -/

/-- The devices, with the last value every sensor was seen with. -/
structure Master where
  devices : List RTUDevice
  last : ObjectId → Option Int

inductive Event
  | sensorInfo (m : SensorMessage)
  | updateSM (localGetValue : ObjectId → Option Int)
  /-- The first exchange with a register succeeds (`mb_initOK`). -/
  | initialised (device reg : Nat)

/-- The first exchange with a register succeeds. -/
def RTUDevice.initialise (reg : Nat) (d : RTUDevice) : RTUDevice :=
  { d with regs := d.regs.modify reg fun r => { r with mbInitOK := true } }

def Master.step (forceOut isLocalwork : Bool) (s : Master) : Event → Master
  | .sensorInfo m =>
    { devices := UniSet.ModbusMaster.sensorInfo forceOut m s.devices
      last := fun id => if id = m.id then some m.value else s.last id }
  | .updateSM localGetValue =>
    { devices := UniSet.ModbusMaster.updateSM isLocalwork localGetValue s.devices
      last := fun id => if isLocalwork then s.last id else (localGetValue id).or (s.last id) }
  | .initialised device reg =>
    { s with devices := s.devices.modify device (RTUDevice.initialise reg) }

/-- **The devices have the modes of their sensors**, as far as these were seen. -/
structure RTUDevice.Follows (last : ObjectId → Option Int) (d : RTUDevice) : Prop where
  mode : ∀ id value, d.modeId = some id → last id = some value → d.mode = value
  safeMode : ∀ id value, d.safemodeId = some id → last id = some value →
    d.safeMode = d.safeModeFor value

def Master.Follows (s : Master) : Prop := ∀ d ∈ s.devices, d.Follows s.last

/-- **A master**, from the moment its devices are configured. -/
def modes (forceOut isLocalwork : Bool) : Lib.Machine Master Event where
  start s := s.last = fun _ => none
  step s event := some (s.step forceOut isLocalwork event)

/-- **The configuration avoids the early ends**: with `force_out` no sensor is needed behind the first
device, without it no device has a mode sensor that an earlier device writes, and a safe mode sensor
that is read has a mode sensor beside it. -/
structure Separate (forceOut isLocalwork : Bool) (sidExchangeMode : Option ObjectId)
    (devices : List RTUDevice) : Prop where
  asked : forceOut = true → ∀ d ∈ devices, ∀ id ∈ d.sensors,
    id ∈ sidExchangeMode.toList ++ (devices.head?.toList.flatMap RTUDevice.sensors)
  heard : forceOut = false →
    devices.Pairwise fun d later => ∀ id ∈ later.sensors, id ∉ d.written
  read : isLocalwork = false → ∀ d ∈ devices, d.safemodeId ≠ none → d.modeId ≠ none

/-! ### What no step changes -/

/-- The sensors of a device. -/
def RTUDevice.shape (d : RTUDevice) : Option ObjectId × Option ObjectId × List ObjectId :=
  (d.modeId, d.safemodeId, d.written)

theorem writtenBy_cons (r : RegInfo) (rest : List RegInfo) :
    writtenBy (r :: rest) =
      (if r.mbfunc.isWriteFunction then r.slst.map fun p => p.si.id else []) ++ writtenBy rest :=
  List.flatMap_cons

theorem writtenBy_takeFirst (m : SensorMessage) (regs : List RegInfo) :
    writtenBy (takeFirst m regs) = writtenBy regs := by
  induction regs with
  | nil => rfl
  | cons r rest ih =>
    rw [takeFirst]
    split
    · have ids : (r.setValue m).slst.map (fun p => p.si.id) = r.slst.map fun p => p.si.id := by
        simp only [RegInfo.setValue, List.map_map]
        refine List.map_congr_left fun p _ => ?_
        simp only [Function.comp_apply]
        split
        · rfl
        · rfl
      rw [writtenBy_cons, writtenBy_cons, ids]
      rfl
    · rw [writtenBy_cons, writtenBy_cons, ih]

theorem writtenBy_modify (regs : List RegInfo) (reg : Nat) :
    writtenBy (regs.modify reg fun r => { r with mbInitOK := true }) = writtenBy regs := by
  induction regs generalizing reg with
  | nil => rw [List.modify_nil]
  | cons r rest ih =>
    cases reg with
    | zero => rw [List.modify_zero_cons, writtenBy_cons, writtenBy_cons]
    | succ reg => rw [List.modify_succ_cons, writtenBy_cons, writtenBy_cons, ih]

theorem shape_sensorInfo (forceOut : Bool) (m : SensorMessage) (devices : List RTUDevice) :
    (sensorInfo forceOut m devices).map RTUDevice.shape = devices.map RTUDevice.shape := by
  induction devices with
  | nil => rfl
  | cons d rest ih =>
    rw [sensorInfo]
    split_ifs
    · rw [List.map_cons, List.map_cons, ih]
      rfl
    · have same : ({ d.setModes m with regs := takeFirst m d.regs } : RTUDevice).written = d.written :=
        writtenBy_takeFirst m d.regs
      rw [List.map_cons, List.map_cons, RTUDevice.shape, same]
      rfl
    · rw [List.map_cons, List.map_cons, ih]
      rfl

theorem shape_readModes (localGetValue : ObjectId → Option Int) (d : RTUDevice) :
    (d.readModes localGetValue).shape = d.shape := by
  unfold RTUDevice.readModes
  split
  · rfl
  · rename_i id mode
    simp only [RTUDevice.shape, mode]
    rfl

theorem shape_modify (devices : List RTUDevice) (device reg : Nat) :
    (devices.modify device (RTUDevice.initialise reg)).map RTUDevice.shape =
      devices.map RTUDevice.shape := by
  induction devices generalizing device with
  | nil => rw [List.modify_nil]
  | cons d rest ih =>
    cases device with
    | zero =>
      have same : (d.initialise reg).written = d.written := writtenBy_modify d.regs reg
      rw [List.modify_zero_cons, List.map_cons, List.map_cons, RTUDevice.shape, same]
      rfl
    | succ device => rw [List.modify_succ_cons, List.map_cons, List.map_cons, ih]

/-- **No step changes the sensors of the devices.** -/
theorem shape_step (forceOut isLocalwork : Bool) (s : Master) (event : Event) :
    (s.step forceOut isLocalwork event).devices.map RTUDevice.shape =
      s.devices.map RTUDevice.shape := by
  cases event with
  | sensorInfo m => exact shape_sensorInfo forceOut m s.devices
  | updateSM localGetValue =>
    simp only [Master.step, updateSM]
    split_ifs
    · rfl
    · rw [List.map_map]
      exact List.map_congr_left fun d _ => shape_readModes localGetValue d
  | initialised device reg => exact shape_modify s.devices device reg

variable {devices : List RTUDevice} {id : ObjectId} {d : RTUDevice}

theorem Separate.congr {forceOut isLocalwork : Bool} {sidExchangeMode : Option ObjectId}
    {others : List RTUDevice} (separate : Separate forceOut isLocalwork sidExchangeMode devices)
    (same : others.map RTUDevice.shape = devices.map RTUDevice.shape) :
    (forceOut = false → others.Pairwise fun d later => ∀ id ∈ later.sensors, id ∉ d.written) ∧
      (isLocalwork = false → ∀ d ∈ others, d.safemodeId ≠ none → d.modeId ≠ none) := by
  constructor
  · intro unforced
    have pairwise : (devices.map RTUDevice.shape).Pairwise fun a b =>
        ∀ id ∈ b.1.toList ++ b.2.1.toList, id ∉ a.2.2 :=
      List.pairwise_map.mpr (separate.heard unforced)
    rw [← same] at pairwise
    exact List.pairwise_map.mp pairwise
  · intro remote
    have read : ∀ a ∈ devices.map RTUDevice.shape, a.2.1 ≠ none → a.1 ≠ none :=
      List.forall_mem_map.mpr (separate.read remote)
    rw [← same] at read
    exact List.forall_mem_map.mp read

/-! ### One step -/

section Step

variable {last : ObjectId → Option Int} {d : RTUDevice}

theorem RTUDevice.Follows.unconcerned (follows : d.Follows last) (unconcerned : id ∉ d.sensors)
    (value : Int) :
    d.Follows fun id' => if id' = id then some value else last id' := by
  have mode : d.modeId ≠ some id := by
    intro same
    exact unconcerned (List.mem_append_left _ (by rw [same]; exact List.mem_singleton_self id))
  have safemode : d.safemodeId ≠ some id := by
    intro same
    exact unconcerned (List.mem_append_right _ (by rw [same]; exact List.mem_singleton_self id))
  refine ⟨fun id' value' sensor seen => ?_, fun id' value' sensor seen => ?_⟩
  · have other : id' ≠ id := fun same => mode (by rw [← same]; exact sensor)
    rw [if_neg other] at seen
    exact follows.mode id' value' sensor seen
  · have other : id' ≠ id := fun same => safemode (by rw [← same]; exact sensor)
    rw [if_neg other] at seen
    exact follows.safeMode id' value' sensor seen

theorem RTUDevice.Follows.setModes (follows : d.Follows last) (m : SensorMessage) :
    (d.setModes m).Follows fun id => if id = m.id then some m.value else last id := by
  refine ⟨fun id value sensor seen => ?_, fun id value sensor seen => ?_⟩
  · change d.modeId = some id at sensor
    change (if d.modeId = some m.id then m.value else d.mode) = value
    rw [sensor]
    by_cases same : id = m.id
    · rw [if_pos same] at seen
      rw [if_pos (congrArg some same)]
      exact Option.some.inj seen
    · rw [if_neg same] at seen
      rw [if_neg (fun equal => same (Option.some.inj equal))]
      exact follows.mode id value sensor seen
  · change d.safemodeId = some id at sensor
    change (if d.safemodeId = some m.id then d.safeModeFor m.value else d.safeMode) =
      d.safeModeFor value
    rw [sensor]
    by_cases same : id = m.id
    · rw [if_pos same] at seen
      rw [if_pos (congrArg some same), Option.some.inj seen]
    · rw [if_neg same] at seen
      rw [if_neg (fun equal => same (Option.some.inj equal))]
      exact follows.safeMode id value sensor seen

theorem RTUDevice.Follows.readModes (follows : d.Follows last)
    (localGetValue : ObjectId → Option Int) (both : d.safemodeId ≠ none → d.modeId ≠ none) :
    (d.readModes localGetValue).Follows fun id => (localGetValue id).or (last id) := by
  cases mode : d.modeId with
  | none =>
    -- Without a mode sensor there is no safe mode sensor either.
    have safemode : d.safemodeId = none := by
      by_contra present
      exact both present mode
    rw [RTUDevice.readModes, mode]
    refine ⟨fun id value sensor => ?_, fun id value sensor => ?_⟩
    · rw [mode] at sensor
      cases sensor
    · rw [safemode] at sensor
      cases sensor
  | some modeId =>
    rw [RTUDevice.readModes, mode]
    refine ⟨fun id value sensor seen => ?_, fun id value sensor seen => ?_⟩
    · dsimp only at sensor seen ⊢
      obtain rfl : modeId = id := Option.some.inj sensor
      cases read : localGetValue modeId with
      | none =>
        rw [read] at seen
        exact follows.mode modeId value mode seen
      | some value' =>
        rw [read] at seen
        exact Option.some.inj seen
    · dsimp only at sensor seen ⊢
      rw [sensor, Option.bind_some]
      cases read : localGetValue id with
      | none =>
        rw [read] at seen
        exact follows.safeMode id value sensor seen
      | some value' =>
        rw [read] at seen
        rw [← Option.some.inj seen]
        rfl

theorem mem_written {r : RegInfo} {m : SensorMessage} (taken : r ∈ d.regs)
    (takes : r.takes m = true) : m.id ∈ d.written := by
  simp only [RegInfo.takes, Bool.and_eq_true, List.any_eq_true, decide_eq_true_eq] at takes
  obtain ⟨⟨write, -⟩, p, listed, same⟩ := takes
  refine List.mem_flatMap.mpr ⟨r, taken, ?_⟩
  rw [if_pos write]
  exact List.mem_map.mpr ⟨p, listed, by rw [same]⟩

end Step

/-- **A message reaches every device it concerns**, if no device has a sensor that an earlier device
writes. -/
theorem sensorInfo_follows {forceOut : Bool} {last : ObjectId → Option Int}
    (heard : forceOut = false →
      devices.Pairwise fun d later => ∀ id ∈ later.sensors, id ∉ d.written)
    (follows : ∀ d ∈ devices, d.Follows last) (m : SensorMessage) :
    ∀ d ∈ sensorInfo forceOut m devices,
      d.Follows fun id => if id = m.id then some m.value else last id := by
  induction devices with
  | nil => exact fun d none => absurd none List.not_mem_nil
  | cons d rest ih =>
    obtain ⟨here, later⟩ := List.forall_mem_cons.mp follows
    have tail := ih (fun unforced => (List.pairwise_cons.mp (heard unforced)).2) later
    rw [sensorInfo]
    split_ifs with forced taken
    · exact List.forall_mem_cons.mpr ⟨here.setModes m, tail⟩
    · -- The loop ends here: the devices behind must not be concerned.
      have unforced : forceOut = false := Bool.eq_false_iff.mpr forced
      obtain ⟨r, member, takes⟩ := List.any_eq_true.mp taken
      have writes := mem_written member takes
      refine List.forall_mem_cons.mpr ⟨?_, fun e behind => ?_⟩
      · have modes := here.setModes m
        exact ⟨modes.mode, modes.safeMode⟩
      · refine (later e behind).unconcerned (fun concerned => ?_) m.value
        exact (List.pairwise_cons.mp (heard unforced)).1 e behind m.id concerned writes
    · exact List.forall_mem_cons.mpr ⟨here.setModes m, tail⟩

/-- **One step** of a separate configuration. -/
theorem step_follows {forceOut isLocalwork : Bool} {s : Master}
    (heard : forceOut = false →
      s.devices.Pairwise fun d later => ∀ id ∈ later.sensors, id ∉ d.written)
    (read : isLocalwork = false → ∀ d ∈ s.devices, d.safemodeId ≠ none → d.modeId ≠ none)
    (follows : s.Follows) (event : Event) : (s.step forceOut isLocalwork event).Follows := by
  cases event with
  | sensorInfo m => exact sensorInfo_follows heard follows m
  | updateSM localGetValue =>
    intro d member
    cases isLocalwork with
    | true => exact follows d member
    | false =>
      obtain ⟨e, listed, rfl⟩ := List.mem_map.mp member
      exact (follows e listed).readModes localGetValue (read rfl e listed)
  | initialised device reg =>
    intro d member
    obtain ⟨i, inside, rfl⟩ := List.mem_iff_getElem.mp member
    simp only [Master.step, List.length_modify] at inside
    simp only [Master.step, List.getElem_modify]
    have before := follows _ (List.getElem_mem inside)
    split
    · exact ⟨before.mode, before.safeMode⟩
    · exact before

/-! ### What goes wrong otherwise -/

/-- A value that asks for another safe mode than the device has. -/
theorem exists_other_safeMode (d : RTUDevice) : ∃ value, d.safeMode ≠ d.safeModeFor value := by
  by_cases external : d.safeMode = safeExternalControl
  · refine ⟨d.safemodeValue + 1, ?_⟩
    rw [external, RTUDevice.safeModeFor, if_neg (by omega)]
    decide
  · refine ⟨d.safemodeValue, ?_⟩
    rw [RTUDevice.safeModeFor, if_pos rfl]
    exact external

/-- A device that does not follow one of its sensors. -/
theorem exists_not_follows (sensor : id ∈ d.sensors) :
    ∃ value, ∀ last : ObjectId → Option Int, last id = some value → ¬ d.Follows last := by
  rcases List.mem_append.mp sensor with mode | safemode
  · refine ⟨d.mode + 1, fun last seen follows => ?_⟩
    have := follows.mode id _ (Option.mem_toList.mp mode) seen
    omega
  · obtain ⟨value, other⟩ := exists_other_safeMode d
    exact ⟨value, fun last seen follows =>
      other (follows.safeMode id value (Option.mem_toList.mp safemode) seen)⟩

/-- A device behind one that takes the message is not reached. -/
theorem sensorInfo_unreached {m : SensorMessage} {i j : Nat} (behind : i < j)
    (there : devices[i]? = some d) (taken : (d.regs.any fun r => r.takes m) = true) :
    (sensorInfo false m devices)[j]? = devices[j]? := by
  induction devices generalizing i j with
  | nil => cases there
  | cons e rest ih =>
    obtain ⟨j, rfl⟩ := Nat.exists_eq_succ_of_ne_zero (Nat.ne_zero_of_lt behind)
    rw [sensorInfo, if_neg Bool.false_ne_true]
    split_ifs with first
    · rfl
    · cases i with
      | zero =>
        cases there
        exact absurd taken first
      | succ i => exact ih (Nat.lt_of_succ_lt_succ behind) there

/-- With `force_out` the subscription ends behind the first device. -/
theorem askDevices_forced (devices : List RTUDevice) :
    askDevices true devices = devices.head?.toList.flatMap RTUDevice.sensors := by
  cases devices with
  | nil => rfl
  | cons d rest => rfl

/-- Without it every sensor of every device is subscribed. -/
theorem mem_askDevices (member : d ∈ devices) (sensor : id ∈ d.sensors) :
    id ∈ askDevices false devices := by
  induction devices with
  | nil => exact absurd member List.not_mem_nil
  | cons e rest ih =>
    rw [askDevices]
    rcases List.mem_cons.mp member with rfl | later
    · exact List.mem_append_left _ sensor
    · exact List.mem_append_right _ (List.mem_append_right _ (ih later))

/-! ### Whole runs -/

section Runs

variable {forceOut isLocalwork : Bool} {sidExchangeMode : Option ObjectId} {devices : List RTUDevice}

/-- A separate configuration follows its sensors in every run. -/
theorem Separate.follows (separate : Separate forceOut isLocalwork sidExchangeMode devices)
    (events : List Event) {s : Master}
    (ran : (modes forceOut isLocalwork).run ⟨devices, fun _ => none⟩ events = some s) :
    s.Follows := by
  have keeps : ∀ (s : Master) (event : Event) (t : Master),
      (s.Follows ∧ s.devices.map RTUDevice.shape = devices.map RTUDevice.shape) → True →
      (modes forceOut isLocalwork).step s event = some t →
      (t.Follows ∧ t.devices.map RTUDevice.shape = devices.map RTUDevice.shape) := by
    rintro s event t ⟨follows, same⟩ - stepped
    obtain ⟨heard, read⟩ := separate.congr same
    cases stepped
    exact ⟨step_follows heard read follows event, (shape_step ..).trans same⟩
  have initially : Master.Follows ⟨devices, fun _ => none⟩ := by
    intro d _
    refine ⟨fun _ _ _ seen => ?_, fun _ _ _ seen => ?_⟩
    · cases seen
    · cases seen
  exact (Lib.Machine.run_invariant keeps ⟨initially, rfl⟩ (Lib.Machine.meets_true events) ran).1

/-- A register that is written and was exchanged takes a message of its sensor. -/
theorem initialise_takes (writes : id ∈ d.written) :
    ∃ reg node, ∀ value,
      ((d.initialise reg).regs.any fun r => r.takes ⟨id, node, value⟩) = true := by
  obtain ⟨r, member, listed⟩ := List.mem_flatMap.mp writes
  by_cases write : r.mbfunc.isWriteFunction = true
  · rw [if_pos write] at listed
    obtain ⟨p, sensor, rfl⟩ := List.mem_map.mp listed
    obtain ⟨k, inside, rfl⟩ := List.mem_iff_getElem.mp member
    refine ⟨k, p.si.node, fun value => List.any_eq_true.mpr
      ⟨{ d.regs[k] with mbInitOK := true }, ?_, ?_⟩⟩
    · refine List.mem_of_getElem? (i := k) ?_
      rw [RTUDevice.initialise, List.getElem?_modify_eq, List.getElem?_eq_getElem inside]
      rfl
    · simp only [RegInfo.takes, write, Bool.true_and, List.any_eq_true, decide_eq_true_eq]
      exact ⟨p, sensor, rfl⟩
  · rw [if_neg write] at listed
    exact absurd listed List.not_mem_nil

/-- A sensor of a device that an earlier device writes: one message is enough. -/
theorem heard_of_follows
    (follows : ∀ events s, (modes false isLocalwork).run ⟨devices, fun _ => none⟩ events = some s →
      s.Follows) :
    devices.Pairwise fun d later => ∀ id ∈ later.sensors, id ∉ d.written := by
  refine List.pairwise_iff_getElem.mpr fun i j inside inside' behind id sensor writes => ?_
  obtain ⟨reg, node, takes⟩ := initialise_takes writes
  obtain ⟨value, lost⟩ := exists_not_follows sensor
  have here : (devices.modify i (RTUDevice.initialise reg))[i]? =
      some (devices[i].initialise reg) := by
    rw [List.getElem?_modify_eq, List.getElem?_eq_getElem inside]
    rfl
  have there : (sensorInfo false ⟨id, node, value⟩
      (devices.modify i (RTUDevice.initialise reg)))[j]? = some devices[j] := by
    rw [sensorInfo_unreached behind here (takes value),
      List.getElem?_modify_ne _ _ (Nat.ne_of_lt behind), List.getElem?_eq_getElem inside']
  have after := follows [.initialised i reg, .sensorInfo ⟨id, node, value⟩] _ rfl devices[j]
    (List.mem_of_getElem? there)
  exact lost _ (if_pos rfl) after

/-- A safe mode sensor without a mode sensor: one cycle is enough. -/
theorem read_of_follows
    (follows : ∀ events s, (modes forceOut false).run ⟨devices, fun _ => none⟩ events = some s →
      s.Follows) (d : RTUDevice) (member : d ∈ devices) (safemode : d.safemodeId ≠ none) :
    d.modeId ≠ none := by
  intro none
  obtain ⟨id, present⟩ := Option.ne_none_iff_exists'.mp safemode
  have sensor : id ∈ d.sensors :=
    List.mem_append_right _ (by rw [present]; exact List.mem_singleton_self id)
  obtain ⟨value, lost⟩ := exists_not_follows sensor
  have unread : d.readModes (fun _ => some value) = d := by
    rw [RTUDevice.readModes, none]
  have after := follows [.updateSM fun _ => some value] _ rfl d
    (List.mem_map.mpr ⟨d, member, unread⟩)
  exact lost _ rfl after

/-- **The sensors are subscribed and the modes follow them, whatever is heard and read, exactly if the
configuration avoids the early ends of the three loops.** -/
theorem modes_follow_iff (forceOut isLocalwork : Bool) (sidExchangeMode : Option ObjectId)
    (devices : List RTUDevice) :
    ((∀ d ∈ devices, ∀ id ∈ d.sensors, id ∈ askSensors forceOut sidExchangeMode devices) ∧
        ∀ events s, (modes forceOut isLocalwork).run ⟨devices, fun _ => none⟩ events = some s →
          s.Follows) ↔
      Separate forceOut isLocalwork sidExchangeMode devices := by
  constructor
  · rintro ⟨asked, follows⟩
    refine ⟨?_, ?_, ?_⟩
    · rintro rfl d member id sensor
      have subscribed := asked d member id sensor
      rwa [askSensors, askDevices_forced] at subscribed
    · rintro rfl
      exact heard_of_follows follows
    · rintro rfl
      exact read_of_follows follows
  · intro separate
    refine ⟨fun d member id sensor => ?_, fun events s ran => separate.follows events ran⟩
    cases forced : forceOut with
    | true =>
      rw [askSensors, askDevices_forced]
      exact separate.asked forced d member id sensor
    | false => exact List.mem_append_right _ (mem_askDevices member sensor)

end Runs

/-- A device with a mode sensor and no register. -/
def moded (modeId : ObjectId) : RTUDevice := ⟨[], some modeId, 0, none, 1, 0⟩

/-- **With `force_out` the mode sensor of the second device is not subscribed.** -/
theorem second_device_unsubscribed :
    ¬ ∀ d ∈ [moded 1, moded 2], ∀ id ∈ d.sensors, id ∈ askSensors true none [moded 1, moded 2] := by
  decide

end UniSet.ModbusMaster

/-
**The sensor list: what `IOConfig_XML::read` builds.**

* `getSensorInfo` — one `<item>` to the fixed part and the first state of a sensor. An item without
  an identifier, with an unknown `iotype` or with an unknown `depend` name is refused.
* `readList` — the items in document order into `ioList`; `emplace` keeps the first of two items
  with one identifier.
* `initDependsSignals` — every dependant connects `checkDepend` to the `sigChange` of its depend
  sensor, in the order in which the hash map is walked.
* `IOList` — the list as the store uses it. `ids` is the walk of `activateInit` over the hash map,
  `sigChange` the slots of every sensor in connection order; both orders are arbitrary. The fields
  carry what reading guarantees, so no other list can be built; `IOList.ofRead` builds one from
  every list that `readList` returns and every two orders of its keys.
-/

import UniSet.Lib.Cascade
import UniSet.Processes.Sensor
import Mathlib.Data.List.Nodup
import Mathlib.Logic.Function.Basic

namespace UniSet.Processes

/-- The attributes of a `<item>` of the `<sensors>` section that the functions below read, after
`getBaseInfo` and `getSensorID` resolved the names. A numeric attribute that is absent reads as
`0` (`getIntProp`), except where the code asks whether it is there. -/
structure SensorItem where
  id : ObjectId
  node : ObjectId := 0
  priority : String := ""
  iotype : String
  rmin : Int := 0
  rmax : Int := 0
  cmin : Int := 0
  cmax : Int := 0
  precision : Int := 0
  defaultVal : Int := 0
  dbignore : Int := 0
  readonly : Int := 0
  frozenValue : Option Int := none
  /-- The identifier of the sensor named by `depend`; `defaultObjectId` if there is no such name. -/
  depend : Option ObjectId := none
  dependValue : Option Int := none
  dependOffValue : Option Int := none

def getIOType : String → IOType
  | "DI" | "di" => .DI
  | "AI" | "ai" => .AI
  | "DO" | "do" => .DO
  | "AO" | "ao" => .AO
  | _ => .UnknownIOType

def getPriority : String → Priority
  | "Low" => .mpLow
  | "Medium" => .mpMedium
  | "High" => .mpHigh
  | _ => .mpMedium

/-- The calibration attributes are read for analog sensors only. -/
def SensorItem.calibration (it : SensorItem) : CalibrateInfo :=
  if getIOType it.iotype = .AI ∨ getIOType it.iotype = .AO then
    ⟨it.rmin, it.rmax, it.cmin, it.cmax, it.precision⟩
  else ⟨0, 0, 0, 0, 0⟩

/-- **`IOConfig_XML::getSensorInfo`.** -/
def getSensorInfo (now : Timespec) (it : SensorItem) :
    Except UException (SensorConf × USensorInfo) :=
  if it.id = defaultObjectId then .error (.systemError "getBaseInfo" it.id)
  else if getIOType it.iotype = .UnknownIOType then .error (.systemError "getSensorInfo" it.id)
  else if it.depend = some defaultObjectId then .error (.systemError "getSensorInfo" it.id)
  else .ok
    ({ node := it.node
       type := getIOType it.iotype
       priority := getPriority it.priority
       ci := it.calibration
       defaultVal := it.defaultVal
       dbignore := it.dbignore != 0
       readonly := it.readonly != 0
       dependSid := it.depend.getD defaultObjectId
       dValue := if it.depend.isSome then it.dependValue.getD 1 else 1
       dOffValue := if it.depend.isSome then it.dependOffValue.getD 0 else 0 },
     { value := it.frozenValue.getD it.defaultVal
       realValue := it.defaultVal
       blocked := false
       frozen := it.frozenValue.isSome
       frozenValue := it.frozenValue.getD 0
       supplier := defaultObjectId
       ts := now
       nchanges := 0 })

/-- **The first state of a sensor**: unblocked, the default stored, and the visible-value rule. -/
theorem getSensorInfo_spec {now : Timespec} {it : SensorItem} {conf : SensorConf} {u : USensorInfo}
    (read : getSensorInfo now it = .ok (conf, u)) :
    it.id ≠ defaultObjectId ∧ u.blocked = false ∧ u.realValue = conf.defaultVal ∧
      u.VisibleOk conf := by
  unfold getSensorInfo at read
  split at read
  · cases read
  rename_i named
  split at read
  · cases read
  split at read
  · cases read
  cases read
  refine ⟨named, rfl, rfl, ?_⟩
  cases it.frozenValue <;> simp [USensorInfo.VisibleOk, USensorInfo.shown]

/-- One entry of `ioList`. -/
structure Entry where
  id : ObjectId
  conf : SensorConf
  usi : USensorInfo

/-- `unordered_map::emplace`: an identifier that is already there keeps its entry. -/
def emplace (entries : List Entry) (entry : Entry) : List Entry :=
  if entry.id ∈ entries.map Entry.id then entries else entries ++ [entry]

/-- **`IOConfig_XML::read_list`**, from the entries read so far. -/
def readList (now : Timespec) : List Entry → List SensorItem → Except UException (List Entry)
  | entries, [] => .ok entries
  | entries, it :: rest =>
    match getSensorInfo now it with
    | .error ex => .error ex
    | .ok (conf, u) => readList now (emplace entries ⟨it.id, conf, u⟩) rest

/-- Every entry was read from an item, and no identifier occurs twice. -/
structure Entries (now : Timespec) (entries : List Entry) : Prop where
  nodup : (entries.map Entry.id).Nodup
  fromItem : ∀ entry ∈ entries, ∃ it, it.id = entry.id ∧ getSensorInfo now it = .ok (entry.conf, entry.usi)

theorem Entries.nil (now : Timespec) : Entries now [] :=
  ⟨List.nodup_nil, fun _ member => nomatch member⟩

variable {entries : List Entry}

theorem Entries.emplace {now : Timespec} (read : Entries now entries) {entry : Entry}
    (item : ∃ it, it.id = entry.id ∧ getSensorInfo now it = .ok (entry.conf, entry.usi)) :
    Entries now (emplace entries entry) := by
  unfold Processes.emplace
  split
  · exact read
  · rename_i fresh
    refine ⟨?_, fun other member => ?_⟩
    · rw [List.map_append, List.map_singleton]
      exact List.nodup_append.mpr ⟨read.nodup, List.nodup_singleton _, fun a inside b single same =>
        fresh (by rw [List.mem_singleton.mp single] at same; exact same ▸ inside)⟩
    · rcases List.mem_append.mp member with old | new
      · exact read.fromItem other old
      · rw [List.mem_singleton.mp new]
        exact item

theorem readList_entries {now : Timespec} {result : List Entry} {items : List SensorItem}
    (before : Entries now entries) (read : readList now entries items = .ok result) :
    Entries now result := by
  induction items generalizing entries with
  | nil =>
    cases read
    exact before
  | cons it rest ih =>
    simp only [readList] at read
    split at read
    · cases read
    · rename_i conf u ok
      exact ih (before.emplace ⟨it, rfl, ok⟩) read

/-! ### The depend signals -/

/-- **`IOConfig_XML::init_depends_signals`**: the slots of every `sigChange`, when the hash map with
the keys `ids` is walked in the given order. -/
def initDependsSignals (ids : List ObjectId) (info : ObjectId → SensorConf)
    (order : List ObjectId) : ObjectId → List ObjectId :=
  order.foldl (fun slots s =>
    if (info s).dependSid = defaultObjectId then slots
    else if (info s).dependSid ∈ ids then
      Function.update slots (info s).dependSid (slots (info s).dependSid ++ [s])
    else slots) fun _ => []

/-- The walk of `initDependsSignals` from any slots appends the dependants in walk order. -/
theorem initDependsSignals_walk (ids : List ObjectId) (info : ObjectId → SensorConf)
    (order : List ObjectId) (slots : ObjectId → List ObjectId) (d : ObjectId) :
    order.foldl (fun slots s =>
      if (info s).dependSid = defaultObjectId then slots
      else if (info s).dependSid ∈ ids then
        Function.update slots (info s).dependSid (slots (info s).dependSid ++ [s])
      else slots) slots d =
      slots d ++ order.filter fun s =>
        (info s).dependSid = d ∧ d ≠ defaultObjectId ∧ d ∈ ids := by
  induction order generalizing slots with
  | nil => simp
  | cons s rest ih =>
    rw [List.foldl_cons, ih]
    by_cases none : (info s).dependSid = defaultObjectId
    · have skip : ¬ ((info s).dependSid = d ∧ d ≠ defaultObjectId ∧ d ∈ ids) := fun ⟨same, other, _⟩ =>
        other (same ▸ none)
      rw [if_pos none, List.filter_cons_of_neg (by simpa using skip)]
    · by_cases listed : (info s).dependSid ∈ ids
      · rw [if_neg none, if_pos listed]
        by_cases same : (info s).dependSid = d
        · subst same
          rw [Function.update_self, List.filter_cons_of_pos (by simp [none, listed]),
            List.append_assoc, List.singleton_append]
        · rw [Function.update_of_ne (Ne.symm same),
            List.filter_cons_of_neg (by simp [same])]
      · have skip : ¬ ((info s).dependSid = d ∧ d ≠ defaultObjectId ∧ d ∈ ids) :=
          fun ⟨same, _, inside⟩ => listed (same ▸ inside)
        rw [if_neg none, if_neg listed, List.filter_cons_of_neg (by simpa using skip)]

theorem initDependsSignals_eq (ids : List ObjectId) (info : ObjectId → SensorConf)
    (order : List ObjectId) (d : ObjectId) :
    initDependsSignals ids info order d =
      order.filter fun s => (info s).dependSid = d ∧ d ≠ defaultObjectId ∧ d ∈ ids := by
  rw [initDependsSignals, initDependsSignals_walk, List.nil_append]

/-! ### The list the store works on -/

/-- A threshold of an analog sensor: its limits and the discrete sensor it drives
(`defaultObjectId` for none). -/
structure ThresholdConf where
  sid : ObjectId
  lowlimit : Value
  hilimit : Value
  invert : Bool
deriving DecidableEq, Repr

/-- **The sensor list**, with what reading the configuration guarantees. -/
structure IOList where
  /-- `getId()` of the controller that owns the list. -/
  owner : ObjectId
  /-- The keys of the hash map, in the order in which it is walked. -/
  ids : List ObjectId
  info : ObjectId → SensorConf
  /-- The state `getSensorInfo` leaves. -/
  first : ObjectId → USensorInfo
  /-- The dependants connected to the `sigChange` of a sensor, in connection order. -/
  sigChange : ObjectId → List ObjectId
  thresholds : ObjectId → List ThresholdConf
  nodup : ids.Nodup
  fromItem : ∀ s ∈ ids, ∃ now it, it.id = s ∧ getSensorInfo now it = .ok (info s, first s)
  connected : ∀ d s, s ∈ sigChange d ↔
    s ∈ ids ∧ (info s).dependSid = d ∧ d ≠ defaultObjectId ∧ d ∈ ids

namespace IOList

/-- The entry of an identifier in a list that was read. -/
def entryOf (entries : List Entry) (s : ObjectId) : Option Entry :=
  entries.find? fun entry => entry.id = s

theorem entryOf_isSome {s : ObjectId} (member : s ∈ entries.map Entry.id) :
    ∃ entry ∈ entries, entry.id = s ∧ entryOf entries s = some entry := by
  obtain ⟨entry, inside, same⟩ := List.mem_map.mp member
  have some : (entryOf entries s).isSome := by
    rw [entryOf, List.find?_isSome]
    exact ⟨entry, inside, by simpa using same⟩
  obtain ⟨found, foundEq⟩ := Option.isSome_iff_exists.mp some
  exact ⟨found, List.mem_of_find?_eq_some foundEq, by simpa using List.find?_some foundEq, foundEq⟩

/-- The fixed part of a sensor that is not in the list; nothing reads it. -/
def noConf : SensorConf :=
  ⟨0, .UnknownIOType, .mpMedium, ⟨0, 0, 0, 0, 0⟩, 0, false, false, defaultObjectId, 1, 0⟩

/-- The state of a sensor that is not in the list; nothing reads it. -/
def noSensor : USensorInfo := ⟨0, 0, false, false, 0, defaultObjectId, ⟨0, 0⟩, 0⟩

/-- **`IOConfig_XML::read`**: the list of every configuration that `readList` accepts, for every walk
of the hash map by `init_depends_signals` (`connect`) and by `activateInit` (`visit`). -/
def ofRead {now : Timespec} {items : List SensorItem} {entries : List Entry}
    (read : readList now [] items = .ok entries) (visit connect : List ObjectId)
    (visited : visit.Perm (entries.map Entry.id)) (walked : connect.Perm (entries.map Entry.id))
    (owner : ObjectId) (thresholds : ObjectId → List ThresholdConf) : IOList where
  owner := owner
  ids := visit
  info s := (entryOf entries s).elim noConf Entry.conf
  first s := (entryOf entries s).elim noSensor Entry.usi
  sigChange := initDependsSignals visit (fun s => (entryOf entries s).elim noConf Entry.conf) connect
  thresholds := thresholds
  nodup := visited.nodup_iff.mpr (readList_entries (.nil now) read).nodup
  fromItem s member := by
    obtain ⟨entry, inside, named, found⟩ := entryOf_isSome (visited.mem_iff.mp member)
    obtain ⟨it, same, item⟩ := (readList_entries (.nil now) read).fromItem entry inside
    exact ⟨now, it, same.trans named, by rw [found]; exact item⟩
  connected d s := by
    rw [initDependsSignals_eq, List.mem_filter, walked.mem_iff, ← visited.mem_iff]
    simp

variable (io : IOList)

/-- `s` depends on `d` and both are in the list: the 'depend' relation, from `d` to `s`. -/
def Depends (d s : ObjectId) : Prop := s ∈ io.sigChange d

/-- The sensors whose value a change of `d` may rewrite: its dependants and the discrete sensors of
its thresholds. -/
def Feeds (d s : ObjectId) : Prop :=
  s ∈ io.sigChange d ∨ (s ∈ io.ids ∧ ∃ t ∈ io.thresholds d, t.sid = s)

variable {io}

/-- A listed sensor has an identifier, and starts unblocked, with its default, obeying the rule. -/
theorem first_spec {s : ObjectId} (member : s ∈ io.ids) :
    s ≠ defaultObjectId ∧ (io.first s).blocked = false ∧
      (io.first s).realValue = (io.info s).defaultVal ∧
      (io.first s).VisibleOk (io.info s) := by
  obtain ⟨now, it, rfl, read⟩ := io.fromItem s member
  exact getSensorInfo_spec read

theorem mem_of_slot {d s : ObjectId} (slot : s ∈ io.sigChange d) : s ∈ io.ids :=
  ((io.connected d s).mp slot).1

/-- A number that grows from every listed sensor to its dependants makes the 'depend' relation
acyclic. -/
theorem acyclic_of_slots (rank : ObjectId → Nat)
    (grows : ∀ d ∈ io.ids, ∀ s ∈ io.sigChange d, rank d < rank s) : Lib.Acyclic io.Depends :=
  Lib.acyclic_of_rank rank fun d s slot =>
    grows d ((io.connected d s).mp slot).2.2.2 s slot

end IOList

end UniSet.Processes

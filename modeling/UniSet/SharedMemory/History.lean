/-
**`SharedMemory`: the history of sensors before an event.**

A `<History>` element names the sensors it records by a filter attribute and the sensor that sets it off.
A timer appends a sample of every recorded sensor; when the fuse sensor changes to a value that sets it
off, the history is handed over as it stands.

* `buildHistoryList`, `checkHistoryFilter` — the histories of the configuration and their sensors.
* `saveToHistory`, `checkFuse` — a sample of every sensor, and the histories that a change sets off.
* `recorder` — whole runs of changes and samples.
* `buffer` — what is recorded of a sensor: its last values at the samples, behind them its default.
* **`dumps_eq`** — over every run, the histories handed over are exactly those whose fuse a change sets
  off, each with the last samples of its sensors.
-/

import Mathlib.Data.List.Basic
import Mathlib.Logic.Function.Basic
import UniSet.Lib.Machine
import UniSet.Lib.Window
import UniSet.Processes.Sensor

namespace UniSet.SharedMemory

open UniSet.Processes

/-! ### Configuration -/

/-- An `<item>` of the `<History>` section; `fuseId` is the identifier of the sensor it names. -/
structure HistoryElement where
  id : Int
  size : Int
  filter : String
  fuseId : ObjectId
  fuseInvert : Int := 0
  /-- `none` where there is no such attribute. -/
  fuseValue : Option Int := none

/-- `HistoryItem`. -/
structure HistoryItem where
  id : ObjectId
  buf : List Value
deriving DecidableEq, Repr

/-- `HistoryItem::add`: `pop_front` and `push_back`. -/
def HistoryItem.add (item : HistoryItem) (val : Value) : HistoryItem :=
  { item with buf := item.buf.tail ++ [val] }

/-- `HistoryInfo`. -/
structure HistoryInfo where
  id : Int
  hlst : List HistoryItem
  size : UInt64
  filter : String
  fuseId : ObjectId
  fuseInvert : Bool
  fuseUseVal : Bool
  fuseVal : Value
  fuseTm : Timespec
deriving DecidableEq, Repr

/-- **`buildHistoryList`.** A negative size is a very large one. -/
def buildHistoryList (now : Timespec) (elements : List HistoryElement) : List HistoryInfo :=
  elements.filterMap fun it =>
    if UInt64.ofInt it.size ≤ 0 then none
    else if it.filter = "" then none
    else if it.fuseId = defaultObjectId then none
    else some
      { id := it.id
        hlst := []
        size := UInt64.ofInt it.size
        filter := it.filter
        fuseId := it.fuseId
        fuseInvert := it.fuseInvert != (0 : Int)
        fuseUseVal := it.fuseValue.isSome
        fuseVal := it.fuseValue.getD 0
        fuseTm := now }

/-- An `<item>` of the `<sensors>` section. -/
structure RecordedItem where
  /-- The attributes that are not empty. -/
  props : List String
  id : Option Int
  /-- The identifier by the name. -/
  sensorId : ObjectId
  defaultVal : Int := 0

/-- A history with one more sensor. -/
def HistoryInfo.emplace (it : HistoryInfo) (id : ObjectId) (default : Value) : HistoryInfo :=
  { it with hlst := it.hlst ++ [⟨id, List.replicate it.size.toNat default⟩] }

/-- **`checkHistoryFilter`.** -/
def checkHistoryFilter (hist : List HistoryInfo) (xit : RecordedItem) : List HistoryInfo :=
  hist.map fun it =>
    if it.filter ∉ xit.props then it
    else if let some id := xit.id then it.emplace id xit.defaultVal
    else if xit.sensorId = defaultObjectId then it
    else it.emplace xit.sensorId xit.defaultVal

/-- The histories after the configuration has been read. -/
def configured (now : Timespec) (elements : List HistoryElement) (items : List RecordedItem) :
    List HistoryInfo :=
  items.foldl checkHistoryFilter (buildHistoryList now elements)

/-! ### Samples and events -/

/-- The shared memory; `dumps` are the histories `m_historySignal` was emitted with. -/
structure Recorder where
  values : ObjectId → Value
  hist : List HistoryInfo
  dumps : List HistoryInfo

/-- A change of a sensor with its time, and the timer of the samples. -/
inductive HistoryLabel
  | change (sid : ObjectId) (value : Value) (ts : Timespec)
  | tmHistory
deriving DecidableEq

section Steps

variable (types : ObjectId → Option IOType) (m : Recorder)

/-- `localGetValue`, which throws for an unknown sensor. -/
def Recorder.localGetValue (id : ObjectId) : Option Value :=
  if (types id).isSome then some (m.values id) else none

/-- **`saveToHistory`.** -/
def Recorder.saveToHistory : Recorder :=
  { m with hist := m.hist.map fun it => { it with
      hlst := it.hlst.map fun hit =>
        match m.localGetValue types hit.id with
        | some value => hit.add value
        | none => hit } }

/-- Whether a value of the fuse sensor sets a history off. -/
def HistoryInfo.fused (it : HistoryInfo) (type : IOType) (value : Value) : Bool :=
  match type with
  | .DI | .DO => xor (value != 0) it.fuseInvert
  | .AI | .AO => if it.fuseUseVal then value == it.fuseVal else xor (value != 0) it.fuseInvert
  | .UnknownIOType => false

/-- The histories of a fuse sensor that a value sets off. -/
def HistoryInfo.sets (it : HistoryInfo) (sid : ObjectId) (type : IOType) (value : Value) : Bool :=
  it.fuseId == sid && it.fused type value

/-- **`checkFuse`.** -/
def Recorder.checkFuse (sid : ObjectId) (type : IOType) (value : Value) (ts : Timespec) : Recorder :=
  { m with
    hist := m.hist.map fun it => if it.sets sid type value then { it with fuseTm := ts } else it
    dumps := m.dumps ++ (m.hist.filter (·.sets sid type value)).map fun it => { it with fuseTm := ts } }

/-- A step. An unknown sensor does not change. -/
def Recorder.step : HistoryLabel → Option Recorder
  | .change sid value ts => (types sid).map fun type =>
    { m with values := Function.update m.values sid value }.checkFuse sid type value ts
  | .tmHistory => some (m.saveToHistory types)

end Steps

/-- **The recorder** of a configuration. -/
def recorder (types : ObjectId → Option IOType) (hist : List HistoryInfo) :
    Lib.Machine Recorder HistoryLabel where
  start m := m.hist = hist ∧ m.dumps = []
  step := Recorder.step types

/-! ### What is recorded -/

section Recorded

variable (types : ObjectId → Option IOType)

/-- The values at the samples, oldest first. -/
def samples (id : ObjectId) : (ObjectId → Value) → List HistoryLabel → List Value
  | _, [] => []
  | values, .change sid value _ :: rest => samples id (Function.update values sid value) rest
  | values, .tmHistory :: rest => values id :: samples id values rest

/-- **The buffer of a sensor**: its last `size` samples, before them its default. A sensor that is not
there keeps its default. -/
def buffer (values : ObjectId → Value) (past : List HistoryLabel) (size : Nat) (id : ObjectId)
    (default : Value) : List Value :=
  (Lib.newest size (if (types id).isSome then (samples id values past).reverse else []) default).reverse

/-- The sensors of a filter, with their defaults. -/
def sensorsOf (filter : String) (items : List RecordedItem) : List (ObjectId × Value) :=
  items.filterMap fun xit =>
    if filter ∉ xit.props then none
    else if let some id := xit.id then some (id, xit.defaultVal)
    else if xit.sensorId = defaultObjectId then none
    else some (xit.sensorId, xit.defaultVal)

/-- A history of the configuration, with what is recorded after some steps. -/
def HistoryInfo.recorded (items : List RecordedItem) (values : ObjectId → Value)
    (past : List HistoryLabel) (it : HistoryInfo) : HistoryInfo :=
  { it with hlst := (sensorsOf it.filter items).map fun s =>
      ⟨s.1, buffer types values past it.size.toNat s.1 s.2⟩ }

/-- The histories that a step hands over. -/
def dumpsAt (hist : List HistoryInfo) (items : List RecordedItem) (values : ObjectId → Value)
    (past : List HistoryLabel) : HistoryLabel → List HistoryInfo
  | .change sid value ts => (hist.filter fun it =>
      (types sid).any fun type => it.sets sid type value).map fun it =>
        { it.recorded types items values past with fuseTm := ts }
  | .tmHistory => []

end Recorded

/-! ### The configuration is read -/

/-- A history with more sensors. -/
def HistoryInfo.extend (sensors : List (ObjectId × Value)) (it : HistoryInfo) : HistoryInfo :=
  { it with hlst := it.hlst ++ sensors.map fun s => ⟨s.1, List.replicate it.size.toNat s.2⟩ }

theorem foldl_checkHistoryFilter (items : List RecordedItem) (hist : List HistoryInfo) :
    items.foldl checkHistoryFilter hist = hist.map fun it => it.extend (sensorsOf it.filter items) := by
  induction items generalizing hist with
  | nil => simp [sensorsOf, HistoryInfo.extend]
  | cons xit rest ih =>
    rw [List.foldl_cons, ih, checkHistoryFilter, List.map_map]
    refine List.map_congr_left fun it _ => ?_
    by_cases named : it.filter ∈ xit.props
    · cases id : xit.id with
      | some id => simp [sensorsOf, HistoryInfo.extend, HistoryInfo.emplace, named, id]
      | none =>
        by_cases unknown : xit.sensorId = defaultObjectId
        · simp [sensorsOf, HistoryInfo.extend, named, id, unknown]
        · simp [sensorsOf, HistoryInfo.extend, HistoryInfo.emplace, named, id, unknown]
    · simp [sensorsOf, HistoryInfo.extend, named]

theorem size_pos {now : Timespec} {elements : List HistoryElement} {it : HistoryInfo}
    (member : it ∈ buildHistoryList now elements) : it.size.toNat ≠ 0 ∧ it.hlst = [] := by
  obtain ⟨element, -, built⟩ := List.mem_filterMap.mp member
  simp only [Option.ite_none_left_eq_some] at built
  obtain ⟨size, -, -, same⟩ := built
  cases same
  refine ⟨fun zero => size ?_, rfl⟩
  rw [UInt64.le_iff_toNat_le, zero]
  exact Nat.zero_le _

/-! ### Steps -/

section Steps

variable {types : ObjectId → Option IOType} {now : Timespec} {elements : List HistoryElement}
  {items : List RecordedItem} {values : ObjectId → Value} {past : List HistoryLabel}

/-- The values after some steps. -/
def valuesAfter (values : ObjectId → Value) : List HistoryLabel → ObjectId → Value
  | [] => values
  | .change sid value _ :: rest => valuesAfter (Function.update values sid value) rest
  | .tmHistory :: rest => valuesAfter values rest

theorem valuesAfter_concat (label : HistoryLabel) :
    valuesAfter values (past ++ [label]) = valuesAfter (valuesAfter values past) [label] := by
  induction past generalizing values with
  | nil => rfl
  | cons first rest ih => cases first <;> exact ih

theorem samples_concat (id : ObjectId) (label : HistoryLabel) :
    samples id values (past ++ [label]) =
      samples id values past ++ samples id (valuesAfter values past) [label] := by
  induction past generalizing values with
  | nil => rfl
  | cons first rest ih =>
    cases first with
    | change sid value ts => exact ih
    | tmHistory => exact congrArg (values id :: ·) ih

theorem buffer_nil (size : Nat) (id : ObjectId) (default : Value) :
    buffer types values [] size id default = List.replicate size default := by
  cases known : (types id).isSome <;>
    simp [buffer, samples, known, Lib.newest_nil]

/-- **A sample** is what `add` does. -/
theorem buffer_sample {size : Nat} (room : size ≠ 0) (id : ObjectId) (default : Value)
    (known : (types id).isSome = true) :
    (HistoryItem.mk id (buffer types values past size id default)).add (valuesAfter values past id) =
      ⟨id, buffer types values (past ++ [.tmHistory]) size id default⟩ := by
  have grown : (samples id values (past ++ [.tmHistory])).reverse =
      valuesAfter values past id :: (samples id values past).reverse := by
    rw [samples_concat]
    exact List.reverse_append
  unfold HistoryItem.add buffer
  rw [if_pos known, grown, if_pos known, Lib.newest_push room]
  simp

theorem buffer_change (sid : ObjectId) (value : Value) (ts : Timespec) (size : Nat) (id : ObjectId)
    (default : Value) :
    buffer types values (past ++ [.change sid value ts]) size id default =
      buffer types values past size id default := by
  unfold buffer
  rw [samples_concat]
  simp [samples]

/-- A sensor that is not there keeps its default. -/
theorem buffer_unknown {size : Nat} (id : ObjectId) (default : Value) (unknown : (types id).isSome = false)
    (more : List HistoryLabel) :
    buffer types values more size id default = buffer types values past size id default := by
  simp [buffer, unknown]

/-- **The invariant**: the histories hold what was recorded, and were handed over where they should. -/
structure Recording (types : ObjectId → Option IOType) (hist : List HistoryInfo)
    (items : List RecordedItem) (values : ObjectId → Value) (past : List HistoryLabel) (m : Recorder) :
    Prop where
  current : m.values = valuesAfter values past
  held : ∃ tm : HistoryInfo → Timespec, m.hist = hist.map fun it =>
    { it.recorded types items values past with fuseTm := tm it }
  dumps : m.dumps = (List.range past.length).flatMap fun k =>
    past[k]?.elim [] (dumpsAt types hist items values (past.take k))

/-- What was handed over before stays; the new step adds its own. -/
theorem dumps_concat (hist : List HistoryInfo) (label : HistoryLabel) :
    ((List.range (past ++ [label]).length).flatMap fun k =>
      (past ++ [label])[k]?.elim [] (dumpsAt types hist items values ((past ++ [label]).take k))) =
    ((List.range past.length).flatMap fun k =>
      past[k]?.elim [] (dumpsAt types hist items values (past.take k))) ++
      dumpsAt types hist items values past label := by
  rw [List.length_append, List.length_singleton, List.range_succ, List.flatMap_append,
    List.flatMap_singleton, List.getElem?_concat_length, List.take_left]
  congr 1
  refine List.flatMap_congr fun k member => ?_
  have inside := List.mem_range.mp member
  rw [List.getElem?_append_left inside, List.take_append_of_le_length (Nat.le_of_lt inside)]

variable {hist : List HistoryInfo}

/-- **A sample.** -/
theorem Recording.tmHistory {m : Recorder} (recording : Recording types hist items values past m)
    (room : ∀ it ∈ hist, it.size.toNat ≠ 0) :
    Recording types hist items values (past ++ [.tmHistory]) (m.saveToHistory types) := by
  obtain ⟨current, ⟨tm, held⟩, dumps⟩ := recording
  refine ⟨?_, ⟨tm, ?_⟩, ?_⟩
  · rw [valuesAfter_concat]
    exact current
  · show m.hist.map _ = _
    rw [held, List.map_map]
    refine List.map_congr_left fun it member => ?_
    unfold HistoryInfo.recorded
    simp only [Function.comp_apply, List.map_map, HistoryInfo.mk.injEq, true_and, and_true]
    refine List.map_congr_left fun s _ => ?_
    unfold Recorder.localGetValue
    rw [Function.comp_apply]
    cases known : (types s.1).isSome
    · rw [if_neg (by simp), buffer_unknown s.1 s.2 known]
    · rw [if_pos rfl, current]
      exact buffer_sample (room it member) s.1 s.2 known
  · rw [dumps_concat, ← dumps]
    exact (List.append_nil _).symm

/-- **A change.** -/
theorem Recording.change {m : Recorder} (recording : Recording types hist items values past m)
    {sid : ObjectId} {type : IOType} (known : types sid = some type) (value : Value)
    (ts : Timespec) :
    Recording types hist items values (past ++ [.change sid value ts])
      ({ m with values := Function.update m.values sid value }.checkFuse sid type value ts) := by
  obtain ⟨current, ⟨tm, held⟩, dumps⟩ := recording
  have same : ∀ it : HistoryInfo, it.recorded types items values (past ++ [.change sid value ts]) =
      it.recorded types items values past := fun it => by
    simp only [HistoryInfo.recorded, buffer_change]
  have sets : ∀ (it : HistoryInfo) tm, HistoryInfo.sets
      { it.recorded types items values past with fuseTm := tm } sid type value = it.sets sid type value :=
    fun _ _ => rfl
  refine ⟨?_, ⟨fun it => if it.sets sid type value then ts else tm it, ?_⟩, ?_⟩
  · rw [valuesAfter_concat, ← current]
    rfl
  · show m.hist.map _ = _
    rw [held, List.map_map]
    refine List.map_congr_left fun it _ => ?_
    rw [Function.comp_apply, sets, same]
    dsimp only
    split <;> rfl
  · show m.dumps ++ _ = _
    rw [dumps_concat, ← dumps, dumpsAt, known, held, List.filter_map, List.map_map]
    rfl

theorem Recording.step {m t : Recorder} (recording : Recording types hist items values past m)
    (room : ∀ it ∈ hist, it.size.toNat ≠ 0) {label : HistoryLabel}
    (stepped : m.step types label = some t) :
    Recording types hist items values (past ++ [label]) t := by
  cases label with
  | change sid value ts =>
    obtain ⟨type, known, rfl⟩ := Option.map_eq_some_iff.mp stepped
    exact recording.change known value ts
  | tmHistory =>
    cases stepped
    exact recording.tmHistory room

end Steps

/-- **The histories that are handed over.** For every configuration and every run, they are those whose
fuse sensor changes to a value that sets them off, at each such change in the order of the
configuration, with the last samples of the sensors of their filter. -/
theorem dumps_eq (types : ObjectId → Option IOType) (now : Timespec) (elements : List HistoryElement)
    (items : List RecordedItem) {first m : Recorder}
    (start : (recorder types (configured now elements items)).start first) {labels : List HistoryLabel}
    (ran : (recorder types (configured now elements items)).run first labels = some m) :
    m.dumps = (List.range labels.length).flatMap fun k => labels[k]?.elim []
      (dumpsAt types (buildHistoryList now elements) items first.values (labels.take k)) := by
  obtain ⟨hist, dumps⟩ := start
  have begun : Recording types (buildHistoryList now elements) items first.values [] first := by
    refine ⟨rfl, ⟨HistoryInfo.fuseTm, ?_⟩, dumps⟩
    rw [hist, configured, foldl_checkHistoryFilter]
    refine List.map_congr_left fun it member => ?_
    unfold HistoryInfo.extend HistoryInfo.recorded
    simp only [(size_pos member).2, buffer_nil, List.nil_append]
  have room : ∀ it ∈ buildHistoryList now elements, it.size.toNat ≠ 0 := fun it member =>
    (size_pos member).1
  have recording := Lib.Machine.run_past
    (P := fun past m => Recording types (buildHistoryList now elements) items first.values past m)
    (fun past u label t recording _ stepped => recording.step room stepped) begun
    (Lib.Machine.meets_true labels) ran
  exact recording.dumps

/-- A history of two samples of the sensors with `rec`, set off by sensor `7` becoming `3`. -/
def twoSamples : List HistoryElement := [{ id := 1, size := 2, filter := "rec", fuseId := 7, fuseValue := some 3 }]

/-- One sensor with the filter, and the fuse. -/
def recordedItems : List RecordedItem :=
  [{ props := ["rec"], id := some 5, sensorId := defaultObjectId, defaultVal := 9 },
   { props := [], id := some 7, sensorId := defaultObjectId }]

def analog (id : ObjectId) : Option IOType := if id = 5 ∨ id = 7 then some .AI else none

def emptyRecorder : Recorder := ⟨fun _ => 0, configured ⟨0, 0⟩ twoSamples recordedItems, []⟩

def oneSample : List HistoryLabel := [.change 5 4 ⟨1, 0⟩, .tmHistory, .change 5 6 ⟨2, 0⟩, .change 7 3 ⟨3, 0⟩]

/-- The default and the sample are handed over. -/
theorem one_sample_dumped :
    ((recorder analog (configured ⟨0, 0⟩ twoSamples recordedItems)).run emptyRecorder oneSample).isSome = true ∧
      ∀ m, (recorder analog (configured ⟨0, 0⟩ twoSamples recordedItems)).run emptyRecorder oneSample = some m →
        m.dumps = [⟨1, [⟨5, [9, 4]⟩], 2, "rec", 7, false, true, 3, ⟨3, 0⟩⟩] := by
  refine ⟨by decide +kernel, fun m ran => ?_⟩
  rw [dumps_eq analog ⟨0, 0⟩ twoSamples recordedItems ⟨rfl, rfl⟩ ran]
  decide +kernel

end UniSet.SharedMemory

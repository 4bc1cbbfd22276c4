/-
**The sensor of an exchange process and the conversions of its value.**

* `IOBase` — a sensor of the configuration with the process's own copy of its value. Calibration,
  filters and the detection of fronts are functions of the item.
* `processingAsAI`, `processingAsDI` — a value received from the exchange goes to SharedMemory.
* `processingAsAO`, `processingAsDO` — a value of SharedMemory goes to the exchange. Without `force`
  it is the copy that goes.

An item with a calibration diagram also keeps its last conversion. That is left out here and followed by
`DiagramItem`.
-/

import Mathlib.Logic.Function.Basic
import UniSet.ModbusMaster.Config

namespace UniSet

open ModbusMaster (ObjectId SensorInfo IOType)

/-- The values of the sensors in SharedMemory. -/
abbrev SMValues := ObjectId → Int

/-- A sensor another one depends on, the value it must have and the value without it. -/
structure Depend where
  dId : ObjectId
  /-- `UnknownIOType` is none. -/
  dIotype : Option IOType
  dValue : Int
  dOffValue : Int
deriving DecidableEq, Repr

/-- The calibration and the precision of an item: from a raw value and back to it. -/
structure Calibration where
  fromRaw : Int → Int
  toRaw : Int → Int
  /-- A calibration diagram makes them, and the item keeps the last conversion. -/
  diagram : Bool

/-- **`IOBase`.** -/
structure IOBase where
  si : SensorInfo
  stype : IOType
  value : Int
  invert : Bool
  rawdata : Bool
  depend : Option Depend
  /-- The digital filter: what it answers once it has got these values, the last one first. None
  with `nofilter` and for one of size one. -/
  filter : Option (List Int → Int)
  filtered : List Int
  cal : Option Calibration
  /-- What the debounce filter, the delays and the choice of a front make of a state now. -/
  debounced : Bool → Bool

namespace IOBase

/-- `IOBase::make_iobase_copy`: timers and the choice of a front are not copied. -/
def makeIobaseCopy (it : IOBase) : IOBase := { it with debounced := id }

/-- Whether the item is a discrete one. -/
def isDiscrete (it : IOBase) : Bool := it.stype = .DI || it.stype = .DO

/-- `IOBase::check_depend`. -/
def checkDepend (it : IOBase) (sm : SMValues) : Bool :=
  match it.depend with
  | none => true
  | some d =>
    match d.dIotype with
    | some .DI | some .DO => decide ((sm d.dId ≠ 0) ↔ (d.dValue ≠ 0))
    | some .AI | some .AO => decide (sm d.dId = d.dValue)
    | none => true

/-- `d_off_value`. -/
def dOffValue (it : IOBase) : Int := it.depend.elim 0 Depend.dOffValue

/-- What the filter gets on a value received. -/
def feed (it : IOBase) (val : Int) (sm : SMValues) : IOBase :=
  if !it.isDiscrete && it.checkDepend sm && it.filter.isSome then
    { it with filtered := val :: it.filtered }
  else it

/-- The value `processingAsAI` makes of a value received. -/
def fromAI (it : IOBase) (val : Int) (sm : SMValues) : Int :=
  if it.isDiscrete then if val ≠ 0 then 1 else 0
  else if !it.checkDepend sm then it.dOffValue
  else
    let val := it.filter.elim val fun df => df (val :: it.filtered)
    if it.rawdata then val else it.cal.elim val fun cal => cal.fromRaw val

/-- The end of `processingAsAI`: a changed value is saved. -/
def save (it : IOBase) (val : Int) (sm : SMValues) (force : Bool) : IOBase × SMValues :=
  if force || it.value ≠ val then ({ it with value := val }, Function.update sm it.si.id val)
  else (it, sm)

/-- **`IOBase::processingAsAI`.** -/
def processingAsAI (it : IOBase) (val : Int) (sm : SMValues) (force : Bool) : IOBase × SMValues :=
  (it.feed val sm).save (it.fromAI val sm) sm force

/-- The state `processingAsDI` makes of a state received. -/
def fromDI (it : IOBase) (set : Bool) (sm : SMValues) : Bool :=
  it.debounced (if !it.checkDepend sm then decide (it.dOffValue ≠ 0) else set ^^ it.invert)

/-- **`IOBase::processingAsDI`**: a changed state is saved. -/
def processingAsDI (it : IOBase) (set : Bool) (sm : SMValues) (force : Bool) : IOBase × SMValues :=
  let val : Int := if it.fromDI set sm then 1 else 0
  if force || decide (it.value ≠ 0) ≠ it.fromDI set sm then
    ({ it with value := val }, Function.update sm it.si.id val)
  else (it, sm)

/-- The copy of the value after a read. -/
def refresh (it : IOBase) (sm : SMValues) (force : Bool) : IOBase :=
  if it.checkDepend sm && force then { it with value := sm it.si.id } else it

/-- **`IOBase::processingAsAO`**: the value that is read. -/
def processingAsAO (it : IOBase) (sm : SMValues) (force : Bool) : Int :=
  if !it.checkDepend sm then it.dOffValue
  else
    let val := if force then sm it.si.id else it.value
    if it.rawdata || it.isDiscrete then val else it.cal.elim val fun cal => cal.toRaw val

/-- **`IOBase::processingAsDO`.** -/
def processingAsDO (it : IOBase) (sm : SMValues) (force : Bool) : Bool :=
  if !it.checkDepend sm then decide (it.dOffValue ≠ 0)
  else decide ((if force then sm it.si.id else it.value) ≠ 0) ^^ it.invert

/-! ### What the conversions leave as it is -/

/-- The item with another copy of the value and another state of its filters. -/
def withState (it : IOBase) (value : Int) (filtered : List Int) (debounced : Bool → Bool) : IOBase :=
  { it with value := value, filtered := filtered, debounced := debounced }

/-- **Items that differ in the copy of the value and the state of the filters only.** -/
def SameItem (it it' : IOBase) : Prop := it' = it.withState it'.value it'.filtered it'.debounced

theorem SameItem.refl (it : IOBase) : it.SameItem it := rfl

variable {it' : IOBase} {id : ObjectId}

theorem SameItem.trans {it it'' : IOBase} (first : it.SameItem it') (second : it'.SameItem it'') :
    it.SameItem it'' := by
  rw [SameItem] at first second ⊢
  rw [second, first]
  rfl

theorem SameItem.symm {it : IOBase} (sameItem : it.SameItem it') : it'.SameItem it := by
  rw [SameItem] at sameItem ⊢
  rw [sameItem]
  rfl

theorem SameItem.si {it : IOBase} (sameItem : it.SameItem it') : it'.si = it.si := by rw [sameItem]; rfl

theorem SameItem.checkDepend {it : IOBase} (sameItem : it.SameItem it') (sm : SMValues) :
    it'.checkDepend sm = it.checkDepend sm := by rw [sameItem]; rfl

theorem feed_sameItem (it : IOBase) (val : Int) (sm : SMValues) : it.SameItem (it.feed val sm) := by
  rw [feed]
  split
  · rfl
  · rfl

theorem save_sameItem (it : IOBase) (val : Int) (sm : SMValues) (force : Bool) :
    it.SameItem (it.save val sm force).1 := by
  rw [save]
  split
  · rfl
  · rfl

theorem processingAsAI_sameItem (it : IOBase) (val : Int) (sm : SMValues) (force : Bool) :
    it.SameItem (it.processingAsAI val sm force).1 :=
  (feed_sameItem it val sm).trans (save_sameItem _ _ _ _)

theorem processingAsDI_sameItem (it : IOBase) (set : Bool) (sm : SMValues) (force : Bool) :
    it.SameItem (it.processingAsDI set sm force).1 := by
  rw [processingAsDI]
  split
  · rfl
  · rfl

theorem refresh_sameItem (it : IOBase) (sm : SMValues) (force : Bool) :
    it.SameItem (it.refresh sm force) := by
  rw [refresh]
  split
  · rfl
  · rfl

theorem save_frame (it : IOBase) (val : Int) (sm : SMValues) (force : Bool) (apart : id ≠ it.si.id) :
    (it.save val sm force).2 id = sm id := by
  rw [save]
  split
  · exact Function.update_of_ne apart _ _
  · rfl

theorem processingAsAI_frame (it : IOBase) (val : Int) (sm : SMValues) (force : Bool)
    (apart : id ≠ it.si.id) : (it.processingAsAI val sm force).2 id = sm id := by
  apply save_frame
  rw [(feed_sameItem it val sm).si]
  exact apart

theorem processingAsDI_frame (it : IOBase) (set : Bool) (sm : SMValues) (force : Bool)
    (apart : id ≠ it.si.id) : (it.processingAsDI set sm force).2 id = sm id := by
  rw [processingAsDI]
  split
  · exact Function.update_of_ne apart _ _
  · rfl

theorem save_value (it : IOBase) (val : Int) (sm : SMValues) (force : Bool) :
    (it.save val sm force).1.value = val := by
  rw [save]
  split
  · rfl
  · next quiet =>
    simp only [Bool.or_eq_true, decide_eq_true_eq, not_or, not_not] at quiet
    exact quiet.2

/-- With `force` the saved value is in SharedMemory. -/
theorem save_force (it : IOBase) (val : Int) (sm : SMValues) :
    (it.save val sm true).2 = Function.update sm it.si.id val := rfl

theorem processingAsAI_value (it : IOBase) (val : Int) (sm : SMValues) (force : Bool) :
    (it.processingAsAI val sm force).1.value = it.fromAI val sm := save_value _ _ _ _

/-! ### What the conversions use of SharedMemory -/

/-- The sensors the item reads: its own one and the one it depends on. -/
def Reads (it : IOBase) (id : ObjectId) : Prop :=
  id = it.si.id ∨ ∃ d, it.depend = some d ∧ d.dId = id

variable {it : IOBase} {sm sm' : SMValues}

theorem checkDepend_congr (same : ∀ id, it.Reads id → sm' id = sm id) :
    it.checkDepend sm' = it.checkDepend sm := by
  rw [checkDepend, checkDepend]
  split
  · rfl
  · next d found => rw [same d.dId (Or.inr ⟨d, found, rfl⟩)]

theorem fromAI_congr (same : ∀ id, it.Reads id → sm' id = sm id) (val : Int) :
    it.fromAI val sm' = it.fromAI val sm := by
  rw [fromAI, fromAI, checkDepend_congr same]

theorem processingAsAI_congr (same : ∀ id, it.Reads id → sm' id = sm id) (val : Int) (force : Bool)
    (reads : it.Reads id) :
    (it.processingAsAI val sm' force).2 id = (it.processingAsAI val sm force).2 id := by
  have fed : it.feed val sm' = it.feed val sm := by rw [feed, feed, checkDepend_congr same]
  rw [processingAsAI, processingAsAI, fed, fromAI_congr same, save, save]
  split
  · show Function.update sm' _ _ id = Function.update sm _ _ id
    by_cases self : id = (it.feed val sm).si.id
    · rw [self, Function.update_self, Function.update_self]
    · rw [Function.update_of_ne self, Function.update_of_ne self, same id reads]
  · exact same id reads

/-- With `force` SharedMemory has the value made of the one received. -/
theorem processingAsAI_force (val : Int) :
    (it.processingAsAI val sm true).2 it.si.id = it.fromAI val sm := by
  rw [processingAsAI, save_force, (feed_sameItem it val sm).si, Function.update_self]

/-- An item whose values are not converted is read as it is. -/
theorem processingAsAO_asIs (either : it.cal = none ∨ it.rawdata = true) (force : Bool) :
    it.processingAsAO sm force =
      if it.checkDepend sm then (if force then sm it.si.id else it.value) else it.dOffValue := by
  rw [processingAsAO]
  rcases either with either | either <;> cases it.checkDepend sm <;> simp [either]

end IOBase

end UniSet

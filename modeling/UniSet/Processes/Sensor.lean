/-
**One sensor of the store: `IOController::USensorInfo` and its lock-protected sections.**

`SensorConf` is the part of a sensor that the configuration fixes (`ioList` is built once and never
changes), `USensorInfo` the part that runs change. The sections below are the code between the lock
and the unlock of `val_lock`:

* `writeSection` / `writeResult` — the write of `IOController::localSetValue` and the value it
  returns; `fires` is `changed || blockChanged || freezeChanged`.
* `freezeSection` — the flag section of `IOController::localFreezeValue`.
* `dependSection` — the flag section of `USensorInfo::checkDepend`.

`VisibleOk` is the rule that ties `value` to the flags: frozen shows `frozenValue`, else blocked
shows `dOffValue`, else the sensor shows `realValue`. A write establishes it whatever the state was,
provided a write that does not fire was not needed (`Settled`); freezing and blocking flip the flags
first and leave a settled sensor (`settled_freezeSection`, `settled_dependSection`).
-/

import Mathlib.Logic.Basic

namespace UniSet.Processes

/-- `uniset3::ObjectId`, a signed 64-bit identifier; the code only compares identifiers. -/
abbrev ObjectId := Int

/-- `DefaultObjectId`: no object. -/
def defaultObjectId : ObjectId := -1

/-- A sensor value (`long`, `int64`); the store only copies and compares values. -/
abbrev Value := Int

structure Timespec where
  sec : Nat
  nsec : Nat
deriving DecidableEq, Repr

inductive IOType
  | UnknownIOType | DI | DO | AI | AO
deriving DecidableEq, Repr

inductive Priority
  | mpLow | mpMedium | mpHigh
deriving DecidableEq, Repr

structure CalibrateInfo where
  minRaw : Int
  maxRaw : Int
  minCal : Int
  maxCal : Int
  precision : Int
deriving DecidableEq, Repr

/-- The exceptions of the modelled functions, with the function that throws and the sensor named in
the text. -/
inductive UException
  | nameNotFound (thrower : String) (sid : ObjectId)
  | ioBadParam (thrower : String) (sid : ObjectId)
  | systemError (thrower : String) (sid : ObjectId)
deriving DecidableEq, Repr

/-- **What the configuration fixes of a sensor.** -/
structure SensorConf where
  node : ObjectId
  type : IOType
  priority : Priority
  ci : CalibrateInfo
  defaultVal : Value
  dbignore : Bool
  readonly : Bool
  /-- `defaultObjectId` when the sensor depends on nothing. -/
  dependSid : ObjectId
  /-- The value of the depend sensor that lets this one work. -/
  dValue : Value
  /-- The value shown while the sensor is blocked. -/
  dOffValue : Value
deriving DecidableEq, Repr

/-- **What runs change of a sensor.** -/
structure USensorInfo where
  value : Value
  realValue : Value
  blocked : Bool
  frozen : Bool
  frozenValue : Value
  supplier : ObjectId
  ts : Timespec
  nchanges : Nat
deriving DecidableEq, Repr

/-- The message `USensorInfo::makeSensorMessage` builds. -/
structure SensorMessage where
  priority : Priority
  node : ObjectId
  supplier : ObjectId
  ts : Timespec
  id : ObjectId
  sensorType : IOType
  value : Value
  smTs : Timespec
  ci : CalibrateInfo
deriving DecidableEq, Repr

namespace USensorInfo

variable (conf : SensorConf) (u : USensorInfo)

def makeSensorMessage (sid : ObjectId) (now : Timespec) : SensorMessage where
  priority := conf.priority
  node := conf.node
  supplier := u.supplier
  ts := now
  id := sid
  sensorType := conf.type
  value := u.value
  smTs := u.ts
  ci := conf.ci

/-! ### The sections -/

/-- The value the flags select when the stored real value is `real`. -/
def shown (real : Value) : Value :=
  if u.frozen then u.frozenValue else if u.blocked then conf.dOffValue else real

/-- `changed || blockChanged || freezeChanged` of `IOController::localSetValue`. -/
def fires (v : Value) : Bool :=
  u.realValue != v || u.blocked != (u.value == conf.dOffValue)
    || u.frozen != (u.value == u.frozenValue)

/-- **The write section** of `IOController::localSetValue`. -/
def writeSection (now : Timespec) (v : Value) (sup : ObjectId) : USensorInfo :=
  if fires conf u v then
    { u with
      supplier := sup
      realValue := v
      value := shown conf u v
      nchanges := u.nchanges + 1
      ts := now }
  else { u with supplier := sup }

/-- `retValue` of `IOController::localSetValue`: the argument itself when nothing fires. -/
def writeResult (v : Value) : Value :=
  if fires conf u v then shown conf u v else v

/-- **The flag section** of `IOController::localFreezeValue`. -/
def freezeSection (set : Bool) (value : Value) : USensorInfo :=
  { u with
    frozen := set
    frozenValue := if set then value else u.value }

/-- **The flag section** of `USensorInfo::checkDepend`, at the value of the depend sensor. -/
def dependSection (dependValue : Value) : USensorInfo :=
  { u with blocked := dependValue != conf.dValue }

/-! ### The visible-value rule -/

/-- **The visible-value rule.** -/
def VisibleOk : Prop := u.value = shown conf u u.realValue

instance : Decidable (VisibleOk conf u) := inferInstanceAs (Decidable (_ = _))

/-- A write of `v` that does not fire leaves a sensor that already obeys the rule. -/
def Settled (v : Value) : Prop := fires conf u v = false → VisibleOk conf u

variable {conf u} {now : Timespec} {v : Value} {sup : ObjectId}

theorem fires_eq_false : fires conf u v = false ↔
    u.realValue = v ∧ u.blocked = (u.value == conf.dOffValue) ∧
      u.frozen = (u.value == u.frozenValue) := by
  simp [fires, and_assoc]

@[simp] theorem writeSection_realValue : (writeSection conf u now v sup).realValue = v := by
  unfold writeSection
  split
  · rfl
  · rename_i quiet
    exact (fires_eq_false.mp (Bool.eq_false_iff.mpr quiet)).1

@[simp] theorem writeSection_blocked : (writeSection conf u now v sup).blocked = u.blocked := by
  unfold writeSection
  split <;> rfl

@[simp] theorem writeSection_frozen : (writeSection conf u now v sup).frozen = u.frozen := by
  unfold writeSection
  split <;> rfl

@[simp] theorem writeSection_frozenValue :
    (writeSection conf u now v sup).frozenValue = u.frozenValue := by
  unfold writeSection
  split <;> rfl

theorem writeSection_value_of_fires (fired : fires conf u v = true) :
    (writeSection conf u now v sup).value = shown conf u v := by
  simp [writeSection, fired]

theorem writeSection_value_of_quiet (quiet : fires conf u v = false) :
    (writeSection conf u now v sup).value = u.value := by
  simp [writeSection, quiet]

/-- **A write of a settled sensor leaves it obeying the rule.** -/
theorem writeSection_visibleOk (settled : Settled conf u v) :
    VisibleOk conf (writeSection conf u now v sup) := by
  unfold VisibleOk shown
  simp only [writeSection_frozen, writeSection_frozenValue, writeSection_blocked,
    writeSection_realValue]
  cases fired : fires conf u v with
  | true => exact writeSection_value_of_fires fired
  | false =>
    rw [writeSection_value_of_quiet fired, settled fired, shown, (fires_eq_false.mp fired).1]

/-- A sensor that obeys the rule is settled for every write. -/
theorem VisibleOk.settled (ok : VisibleOk conf u) : Settled conf u v := fun _ => ok

/-- **Freezing and unfreezing leave a settled sensor.** A set flag fires unless the shown value is
already the frozen one; a cleared flag has just copied the shown value and always fires. -/
theorem settled_freezeSection (set : Bool) (value : Value) :
    Settled conf (freezeSection u set value) v := by
  intro quiet
  obtain ⟨-, -, freeze⟩ := fires_eq_false.mp quiet
  cases set with
  | true => simpa [VisibleOk, shown, freezeSection] using freeze
  | false => simp [freezeSection] at freeze

/-- **Blocking and unblocking leave a settled sensor**: a newly blocked sensor fires unless it
already shows the off value, a newly unblocked one showed the off value and fires. -/
theorem settled_dependSection (dependValue : Value) (ok : VisibleOk conf u)
    (flipped : u.blocked ≠ (dependSection conf u dependValue).blocked) :
    Settled conf (dependSection conf u dependValue) v := by
  intro quiet
  obtain ⟨-, block, -⟩ := fires_eq_false.mp quiet
  unfold VisibleOk shown at ok ⊢
  by_cases frozen : u.frozen = true
  · rw [if_pos frozen] at ok
    rwa [if_pos (show (dependSection conf u dependValue).frozen = true from frozen)]
  · rw [if_neg frozen] at ok
    rw [if_neg (show ¬ (dependSection conf u dependValue).frozen = true from frozen)]
    by_cases blocked : u.blocked = true
    · rw [if_pos blocked] at ok
      have stays : (dependSection conf u dependValue).blocked = true := by
        rw [block]
        exact beq_iff_eq.mpr ok
      exact absurd (blocked.trans stays.symm) flipped
    · have off : (dependSection conf u dependValue).blocked = true := by
        rw [Bool.eq_false_iff.mpr blocked] at flipped
        exact (Bool.not_eq_false _).mp fun no => flipped no.symm
      rw [if_pos off]
      rw [off] at block
      exact beq_iff_eq.mp block.symm

/-- A flag section that flips nothing keeps the rule. -/
theorem dependSection_of_same (dependValue : Value)
    (same : u.blocked = (dependSection conf u dependValue).blocked) :
    dependSection conf u dependValue = u := by
  cases u
  simp only [dependSection] at same ⊢
  rw [← same]

end USensorInfo

end UniSet.Processes

/-
**`IOController`: the sensor store, its writes and the cascades they trigger.**

`localSetValue` is virtual: `checkDepend` and the freeze call it through the object, so every
function below takes the virtual function as `self : LocalSetValue`, and `dispatch` ties the knot
for a controller whose class is `IOController` itself. A call is `none` only if the allowed nesting
does not suffice; `dispatch_isSome`: on an acyclic 'depend' relation it always does.

* `checkDepend`, `emitChange` — one slot of `sigChange`, and the emission: the slots run in
  connection order, and an exception of a slot ends the emission and is swallowed by the caller.
* `localSetValue`, `localFreezeValue` — the write and the freeze, with the `readonly` refusals.
* `setValue`, `freezeValue`, `activateInit`, `Op`, `run` — the requests and whole runs.

`localSetValue_cases`, `checkDepend_cases` and `emitChange_keeps` say once what a call can do; the
invariants are derived from them.
-/

import UniSet.Processes.IOConfig

namespace UniSet.Processes

/-- `IOController::ThresholdState`. -/
inductive ThresholdState
  | LowThreshold | NormalThreshold | HiThreshold
deriving DecidableEq, Repr

/-- A message handed over by `IONotifyController::localSetValue`: to the database server, or to the
consumer list of a sensor. -/
inductive Notice
  | logging (sm : SensorMessage)
  | send (sm : SensorMessage)
deriving DecidableEq, Repr

/-- The sensor a notice is about. -/
def Notice.sid : Notice → ObjectId
  | .logging sm | .send sm => sm.id

/-- **The state of a controller.** -/
structure Store where
  usi : ObjectId → USensorInfo
  /-- What `now_to_timespec` reads. -/
  clock : Timespec
  /-- The emissions of `sigAnyChange`, oldest first. -/
  anyChange : List ObjectId
  /-- `uterminate` was called. -/
  terminated : Bool
  /-- The sensors for which `ask` has put a consumer list into the user data. -/
  hasConsumers : ObjectId → Bool
  /-- The messages handed over, oldest first. -/
  notices : List Notice
  /-- The state of every threshold of every sensor. -/
  tstate : ObjectId → Nat → ThresholdState

namespace Store

/-- Replace the state of one sensor. -/
def setUsi (st : Store) (sid : ObjectId) (u : USensorInfo) : Store :=
  { st with usi := Function.update st.usi sid u }

variable (st : Store) (sid : ObjectId) (u : USensorInfo)

@[simp] theorem setUsi_self : (st.setUsi sid u).usi sid = u :=
  Function.update_self ..

@[simp] theorem setUsi_of_ne {other : ObjectId} (different : other ≠ sid) :
    (st.setUsi sid u).usi other = st.usi other :=
  Function.update_of_ne different ..

end Store

/-- The result of a call: the state it leaves, and its value or the exception it throws. -/
abbrev Outcome (α : Type) := Store × Except UException α

/-- The arguments of `localSetValue`, with the state it is called in. -/
structure SetCall where
  store : Store
  sid : ObjectId
  value : Value
  sup : ObjectId

/-- The virtual member function `localSetValue`. -/
abbrev LocalSetValue := SetCall → Option (Outcome Value)

namespace IOController

variable (io : IOList) (self : LocalSetValue)

/-- **`USensorInfo::checkDepend`** of `s`, called with its depend sensor `d`. -/
def checkDepend (st : Store) (s d : ObjectId) : Option (Outcome Unit) :=
  let u := st.usi s
  let flagged := u.dependSection (io.info s) (st.usi d).value
  let st' := st.setUsi s flagged
  if u.blocked = flagged.blocked then some (st', .ok ())
  else (self ⟨st', s, flagged.realValue, (st.usi d).supplier⟩).map fun out =>
    (out.1, out.2.map fun _ => ())

/-- **`sigChange.emit`** of `d` over its slots, under the `catch(...)` of the caller. -/
def emitChange (d : ObjectId) : Store → List ObjectId → Option Store
  | st, [] => some st
  | st, s :: rest =>
    match checkDepend io self st s d with
    | none => none
    | some (st', .error _) => some st'
    | some (st', .ok _) => emitChange d st' rest

/-- **`IOController::localSetValue`.** -/
def localSetValue (a : SetCall) : Option (Outcome Value) :=
  let conf := io.info a.sid
  let u := a.store.usi a.sid
  if conf.readonly then some (a.store, .error (.ioBadParam "localSetValue" a.sid))
  else
    let written := a.store.setUsi a.sid (u.writeSection conf a.store.clock a.value a.sup)
    let ret := u.writeResult conf a.value
    if u.fires conf a.value then
      (emitChange io self a.sid written (io.sigChange a.sid)).map fun st =>
        ({ st with anyChange := st.anyChange ++ [a.sid] }, .ok ret)
    else some (written, .ok ret)

/-- **`localSetValue` of a controller of class `IOController`**: the virtual call reaches the
function itself. No chain of dependants is longer than the list. -/
def dispatch : LocalSetValue := Lib.unroll (localSetValue io) (io.ids.length + 1)

/-- **`IOController::localFreezeValue`.** -/
def localFreezeValue (st : Store) (sid : ObjectId) (set : Bool) (value : Value) (sup : ObjectId) :
    Option (Outcome Unit) :=
  if (io.info sid).readonly then some (st, .error (.ioBadParam "localFreezeValue" sid))
  else
    let flagged := (st.usi sid).freezeSection set value
    (self ⟨st.setUsi sid flagged, sid, flagged.realValue, sup⟩).map fun out =>
      (out.1, out.2.map fun _ => ())

/-- The supplier a request without one is attributed to. -/
def supplierOf (sup : ObjectId) : ObjectId := if sup = defaultObjectId then io.owner else sup

/-- **`IOController::localSetValueIt`**, by identifier. -/
def localSetValueIt (a : SetCall) : Option (Outcome Value) :=
  if a.sid ≠ defaultObjectId ∧ a.sid ∈ io.ids then self { a with sup := supplierOf io a.sup }
  else some (a.store, .error (.nameNotFound "localSetValue" a.sid))

/-- **`IOController::localFreezeValueIt`**, by identifier. -/
def localFreezeValueIt (st : Store) (sid : ObjectId) (set : Bool) (value : Value)
    (sup : ObjectId) : Option (Outcome Unit) :=
  if sid ≠ defaultObjectId ∧ sid ∈ io.ids then
    localFreezeValue io self st sid set value (supplierOf io sup)
  else some (st, .error (.nameNotFound "localFreezeValue" sid))

/-! ### Requests and runs -/

/-- `grpc::StatusCode`, as far as the requests below answer with it. -/
inductive Status
  | OK | INVALID_ARGUMENT | NOT_FOUND | INTERNAL
deriving DecidableEq, Repr

/-- The status of `setValue`: `catch(IOBadParam)` and then `catch(...)`. -/
def setStatus {α : Type} : Except UException α → Status
  | .ok _ => .OK
  | .error (.ioBadParam ..) => .INVALID_ARGUMENT
  | .error _ => .NOT_FOUND

/-- The status of `freezeValue`. -/
def freezeStatus {α : Type} : Except UException α → Status
  | .ok _ => .OK
  | .error (.ioBadParam ..) => .INVALID_ARGUMENT
  | .error _ => .INTERNAL

/-- **`IOController::setValue`**, of a request that is not cancelled. -/
def setValue (st : Store) (sid : ObjectId) (value : Value) (sup : ObjectId) :
    Option (Store × Status) :=
  (localSetValueIt io self ⟨st, sid, value, sup⟩).map fun out => (out.1, setStatus out.2)

/-- **`IOController::freezeValue`**, of a request that is not cancelled. -/
def freezeValue (st : Store) (sid : ObjectId) (set : Bool) (value : Value) (sup : ObjectId) :
    Option (Store × Status) :=
  (localFreezeValueIt io self st sid set value sup).map fun out => (out.1, freezeStatus out.2)

/-- One sensor of **`IOController::activateInit`**: its depend check and `sigInit`. An exception is
caught for each sensor, asks the process to terminate and lets the walk go on. -/
def initSensor (sigInit : Store → ObjectId → Option Store) (st : Store) (s : ObjectId) :
    Option Store :=
  let d := (io.info s).dependSid
  if d ≠ defaultObjectId ∧ d ∈ io.ids then
    match checkDepend io self st s d with
    | none => none
    | some (st', .error _) => some { st' with terminated := true }
    | some (st', .ok _) => sigInit st' s
  else sigInit st s

/-- **`IOController::activateInit`** over the sensors still to visit. -/
def activateInit (sigInit : Store → ObjectId → Option Store) : Store → List ObjectId → Option Store
  | st, [] => some st
  | st, s :: rest => (initSensor io self sigInit st s).bind fun st' => activateInit sigInit st' rest

/-- The store before activation: every sensor as `getSensorInfo` left it. -/
def loaded (now : Timespec) : Store where
  usi := io.first
  clock := now
  anyChange := []
  terminated := false
  hasConsumers _ := false
  notices := []
  tstate _ _ := .NormalThreshold

/-- One step of a run: a request, or time that passes. -/
inductive Op
  | setValue (sid : ObjectId) (value : Value) (sup : ObjectId)
  | freezeValue (sid : ObjectId) (set : Bool) (value : Value) (sup : ObjectId)
  | tick (now : Timespec)
deriving DecidableEq, Repr

def Op.apply (st : Store) : Op → Option Store
  | .setValue sid value sup => (IOController.setValue io self st sid value sup).map Prod.fst
  | .freezeValue sid set value sup =>
    (IOController.freezeValue io self st sid set value sup).map Prod.fst
  | .tick now => some { st with clock := now }

/-- The store after a list of requests. -/
def runOps : Store → List Op → Option Store
  | st, [] => some st
  | st, op :: rest => (op.apply io self st).bind fun st' => runOps st' rest

/-- **A run of a controller of class `IOController`**: load, activate, serve the requests. -/
def run (now : Timespec) (ops : List Op) : Option Store :=
  (activateInit io (dispatch io) (fun st _ => some st) (loaded io now) io.ids).bind fun st =>
    runOps io (dispatch io) st ops

/-! ### What a call can do -/

variable {io self}

theorem localSetValue_cases {a : SetCall} {out : Outcome Value}
    (ran : localSetValue io self a = some out) :
    ((io.info a.sid).readonly = true ∧
      out = (a.store, .error (.ioBadParam "localSetValue" a.sid))) ∨
    ((io.info a.sid).readonly = false ∧ (a.store.usi a.sid).fires (io.info a.sid) a.value = false ∧
      out = (a.store.setUsi a.sid
          ((a.store.usi a.sid).writeSection (io.info a.sid) a.store.clock a.value a.sup),
        .ok a.value)) ∨
    ((io.info a.sid).readonly = false ∧ (a.store.usi a.sid).fires (io.info a.sid) a.value = true ∧
      ∃ st, emitChange io self a.sid (a.store.setUsi a.sid
          ((a.store.usi a.sid).writeSection (io.info a.sid) a.store.clock a.value a.sup))
          (io.sigChange a.sid) = some st ∧
        out = ({ st with anyChange := st.anyChange ++ [a.sid] },
          .ok ((a.store.usi a.sid).shown (io.info a.sid) a.value))) := by
  simp only [localSetValue] at ran
  split at ran
  · rename_i readonly
    cases ran
    exact .inl ⟨readonly, rfl⟩
  · rename_i writable
    have writable := Bool.eq_false_iff.mpr writable
    split at ran
    · rename_i fired
      obtain ⟨st, emitted, rfl⟩ := Option.map_eq_some_iff.mp ran
      exact .inr (.inr ⟨writable, fired, st, emitted, by rw [USensorInfo.writeResult, if_pos fired]⟩)
    · rename_i quiet
      cases ran
      exact .inr (.inl ⟨writable, Bool.eq_false_iff.mpr quiet, by
        rw [USensorInfo.writeResult, if_neg quiet]⟩)

variable {st : Store} {d : ObjectId}

theorem checkDepend_cases {s : ObjectId} {out : Outcome Unit}
    (ran : checkDepend io self st s d = some out) :
    ((st.usi s).blocked = ((st.usi s).dependSection (io.info s) (st.usi d).value).blocked ∧
      out = (st.setUsi s ((st.usi s).dependSection (io.info s) (st.usi d).value), .ok ())) ∨
    ((st.usi s).blocked ≠ ((st.usi s).dependSection (io.info s) (st.usi d).value).blocked ∧
      ∃ called, self ⟨st.setUsi s ((st.usi s).dependSection (io.info s) (st.usi d).value), s,
          (st.usi s).realValue, (st.usi d).supplier⟩ = some called ∧
        out = (called.1, called.2.map fun _ => ())) := by
  simp only [checkDepend] at ran
  split at ran
  · rename_i same
    cases ran
    exact .inl ⟨same, rfl⟩
  · rename_i flipped
    obtain ⟨called, ok, rfl⟩ := Option.map_eq_some_iff.mp ran
    exact .inr ⟨flipped, called, ok, rfl⟩

theorem localSetValueIt_cases {a : SetCall} {out : Outcome Value}
    (ran : localSetValueIt io self a = some out) :
    (a.sid ∈ io.ids ∧ self { a with sup := supplierOf io a.sup } = some out) ∨
    (¬ (a.sid ≠ defaultObjectId ∧ a.sid ∈ io.ids) ∧
      out = (a.store, .error (.nameNotFound "localSetValue" a.sid))) := by
  simp only [localSetValueIt] at ran
  by_cases listed : a.sid ≠ defaultObjectId ∧ a.sid ∈ io.ids
  · rw [if_pos listed] at ran
    exact .inl ⟨listed.2, ran⟩
  · rw [if_neg listed] at ran
    cases ran
    exact .inr ⟨listed, rfl⟩

/-- A request reaches a listed sensor, is refused without any change, or is no request. -/
theorem Op.apply_cases {st' : Store} {op : Op} (ran : op.apply io self st = some st') :
    (∃ now, op = .tick now ∧ st' = { st with clock := now }) ∨
    (∃ sid value sup out, op = .setValue sid value sup ∧
      self ⟨st, sid, value, supplierOf io sup⟩ = some out ∧ st' = out.1) ∨
    (∃ sid set value sup out, op = .freezeValue sid set value sup ∧
      (io.info sid).readonly = false ∧
      self ⟨st.setUsi sid ((st.usi sid).freezeSection set value), sid, (st.usi sid).realValue,
        supplierOf io sup⟩ = some out ∧ st' = out.1) ∨
    (st' = st ∧ ∀ sid value sup, op = .setValue sid value sup →
      ¬ (sid ≠ defaultObjectId ∧ sid ∈ io.ids)) := by
  cases op with
  | tick now =>
    cases ran
    exact .inl ⟨now, rfl, rfl⟩
  | setValue sid value sup =>
    simp only [Op.apply, IOController.setValue, Option.map_map] at ran
    obtain ⟨out, called, left⟩ := Option.map_eq_some_iff.mp ran
    rcases localSetValueIt_cases called with ⟨-, called⟩ | ⟨unknown, rfl⟩
    · exact .inr (.inl ⟨sid, value, sup, out, rfl, called, left.symm⟩)
    · refine .inr (.inr (.inr ⟨left.symm, fun other v p same => ?_⟩))
      cases same
      exact unknown
  | freezeValue sid set value sup =>
    simp only [Op.apply, IOController.freezeValue, localFreezeValueIt, localFreezeValue,
      Option.map_map] at ran
    obtain ⟨frozen, called, left⟩ := Option.map_eq_some_iff.mp ran
    have refused : ∀ other v p, Op.freezeValue sid set value sup = .setValue other v p →
        ¬ (other ≠ defaultObjectId ∧ other ∈ io.ids) := fun _ _ _ same => nomatch same
    split at called
    · split at called
      · cases called
        exact .inr (.inr (.inr ⟨left.symm, refused⟩))
      · rename_i writable
        obtain ⟨out, ran, same⟩ := Option.map_eq_some_iff.mp called
        subst same
        exact .inr (.inr (.inl ⟨sid, set, value, sup, out, rfl, Bool.eq_false_iff.mpr writable, ran,
          left.symm⟩))
    · cases called
      exact .inr (.inr (.inr ⟨left.symm, refused⟩))

/-- **The emission rule.** What every slot keeps, the emission keeps. -/
theorem emitChange_keeps {P : Store → Prop} {slots : List ObjectId}
    (keeps : ∀ st s out, s ∈ slots → checkDepend io self st s d = some out → P st → P out.1)
    {st' : Store} (ran : emitChange io self d st slots = some st') (holds : P st) : P st' := by
  induction slots generalizing st with
  | nil =>
    cases ran
    exact holds
  | cons s rest ih =>
    simp only [emitChange] at ran
    split at ran
    · cases ran
    · rename_i mid ex checked
      cases ran
      exact keeps st s _ List.mem_cons_self checked holds
    · rename_i mid ok checked
      exact ih (fun st s out member => keeps st s out (List.mem_cons_of_mem _ member)) ran
        (keeps st s _ List.mem_cons_self checked holds)

/-- **The request rule.** What every request keeps, a list of requests keeps. -/
theorem runOps_keeps {P : Store → Prop} {ops : List Op}
    (keeps : ∀ st, ∀ op ∈ ops, ∀ st', op.apply io self st = some st' → P st → P st') {st' : Store}
    (ran : runOps io self st ops = some st') (holds : P st) : P st' := by
  induction ops generalizing st with
  | nil =>
    cases ran
    exact holds
  | cons op rest ih =>
    obtain ⟨mid, applied, ran⟩ := Option.bind_eq_some_iff.mp ran
    exact ih (fun st op member => keeps st op (List.mem_cons_of_mem _ member)) ran
      (keeps st op List.mem_cons_self mid applied holds)

/-- **The activation rule.** What every depend check keeps, what `sigInit` keeps, and setting the
terminate request keeps, the activation keeps. -/
theorem activateInit_keeps {P : Store → Prop} {sigInit : Store → ObjectId → Option Store}
    {visit : List ObjectId} (keeps : ∀ st s out, s ∈ visit →
      checkDepend io self st s (io.info s).dependSid = some out → P st → P out.1)
    (inits : ∀ st s st', sigInit st s = some st' → P st → P st')
    (flag : ∀ st, P st → P { st with terminated := true }) {st' : Store}
    (ran : activateInit io self sigInit st visit = some st') (holds : P st) :
    P st' := by
  induction visit generalizing st with
  | nil =>
    cases ran
    exact holds
  | cons s rest ih =>
    obtain ⟨mid, inited, ran⟩ := Option.bind_eq_some_iff.mp ran
    refine ih (fun st s out member => keeps st s out (List.mem_cons_of_mem _ member)) ran ?_
    simp only [initSensor] at inited
    split at inited
    · split at inited
      · cases inited
      · rename_i checked
        cases inited
        exact flag _ (keeps st s _ List.mem_cons_self checked holds)
      · rename_i checked
        exact inits _ _ _ inited (keeps st s _ List.mem_cons_self checked holds)
    · exact inits _ _ _ inited holds

/-! ### Every call returns -/

theorem checkDepend_isSome {s : ObjectId} (returns : ∀ st v sup, (self ⟨st, s, v, sup⟩).isSome) :
    (checkDepend io self st s d).isSome := by
  simp only [checkDepend]
  split
  · rfl
  · rw [Option.isSome_map]
    exact returns _ _ _

theorem emitChange_isSome {slots : List ObjectId}
    (returns : ∀ s ∈ slots, ∀ st v sup, (self ⟨st, s, v, sup⟩).isSome) :
    (emitChange io self d st slots).isSome := by
  induction slots generalizing st with
  | nil => rfl
  | cons s rest ih =>
    have checked : (checkDepend io self st s d).isSome :=
      checkDepend_isSome (returns s List.mem_cons_self)
    simp only [emitChange]
    split
    · rename_i none
      rw [none] at checked
      cases checked
    · rfl
    · exact ih fun s member => returns s (List.mem_cons_of_mem _ member)

/-- A write whose dependants' writes return returns. -/
theorem localSetValue_isSome {a : SetCall}
    (returns : ∀ s ∈ io.sigChange a.sid, ∀ st v sup, (self ⟨st, s, v, sup⟩).isSome) :
    (localSetValue io self a).isSome := by
  simp only [localSetValue]
  split
  · rfl
  · split
    · rw [Option.isSome_map]
      exact emitChange_isSome returns
    · rfl

theorem localSetValueIt_isSome {a : SetCall}
    (returns : ∀ st v sup, a.sid ∈ io.ids → (self ⟨st, a.sid, v, sup⟩).isSome) :
    (localSetValueIt io self a).isSome := by
  simp only [localSetValueIt]
  by_cases listed : a.sid ≠ defaultObjectId ∧ a.sid ∈ io.ids
  · rw [if_pos listed]
    exact returns _ _ _ listed.2
  · rw [if_neg listed]
    rfl

/-- **On an acyclic 'depend' relation every write returns.** -/
theorem dispatch_isSome (acyclic : Lib.Acyclic io.Depends) (a : SetCall) :
    (dispatch io a).isSome := by
  refine Lib.unroll_isSome (fun a => Lib.height io.Depends io.ids a.sid) (fun call a smaller => ?_)
    _ a (Nat.lt_succ_of_le (Lib.height_le io.ids a.sid))
  exact localSetValue_isSome fun s slot st v sup =>
    smaller ⟨st, s, v, sup⟩ (Lib.height_lt acyclic slot (IOList.mem_of_slot slot))

theorem Op.apply_isSome (returns : ∀ a, (self a).isSome) (st : Store) (op : Op) :
    (op.apply io self st).isSome := by
  cases op with
  | setValue sid value sup =>
    simp only [Op.apply, IOController.setValue, Option.isSome_map]
    exact localSetValueIt_isSome fun st v sup _ => returns _
  | freezeValue sid set value sup =>
    simp only [Op.apply, IOController.freezeValue, localFreezeValueIt, localFreezeValue,
      Option.isSome_map]
    split
    · split
      · rfl
      · rw [Option.isSome_map]
        exact returns _
    · rfl
  | tick now => rfl

theorem runOps_isSome (returns : ∀ a, (self a).isSome) (st : Store) (ops : List Op) :
    (runOps io self st ops).isSome := by
  induction ops generalizing st with
  | nil => rfl
  | cons op rest ih =>
    obtain ⟨st', applied⟩ := Option.isSome_iff_exists.mp (Op.apply_isSome returns st op)
    rw [runOps, applied, Option.bind_some]
    exact ih st'

theorem activateInit_isSome (returns : ∀ a, (self a).isSome)
    {sigInit : Store → ObjectId → Option Store} (inits : ∀ st s, (sigInit st s).isSome) (st : Store)
    (visit : List ObjectId) : (activateInit io self sigInit st visit).isSome := by
  induction visit generalizing st with
  | nil => rfl
  | cons s rest ih =>
    have one : (initSensor io self sigInit st s).isSome := by
      simp only [initSensor]
      split
      · have checked : (checkDepend io self st s (io.info s).dependSid).isSome :=
          checkDepend_isSome fun st v sup => returns _
        split
        · rename_i none
          rw [none] at checked
          cases checked
        · rfl
        · exact inits _ _
      · exact inits _ _
    obtain ⟨st', inited⟩ := Option.isSome_iff_exists.mp one
    rw [activateInit, inited, Option.bind_some]
    exact ih st'

/-- **On an acyclic 'depend' relation every run completes.** -/
theorem run_isSome (acyclic : Lib.Acyclic io.Depends) (now : Timespec) (ops : List Op) :
    ∃ st, run io now ops = some st := by
  have activated : (activateInit io (dispatch io) (fun st _ => some st) (loaded io now)
      io.ids).isSome :=
    activateInit_isSome (dispatch_isSome acyclic) (fun _ _ => rfl) _ _
  obtain ⟨st, activatedEq⟩ := Option.isSome_iff_exists.mp activated
  rw [run, activatedEq, Option.bind_some]
  exact Option.isSome_iff_exists.mp (runOps_isSome (dispatch_isSome acyclic) st ops)

end IOController

end UniSet.Processes

/-
**`IONotifyController::localSetValue`: notifications and thresholds.**

The override reads the visible value, calls `IOController::localSetValue`, and only if the returned
value differs from the one read hands a `SensorMessage` to the database and to the consumer list of
the sensor (`notification`) and looks at the thresholds (`checkThreshold`), whose discrete sensors
it writes through the virtual function again.

* `Same z` — nothing of sensor `z` changed, no notice about it was added. `Frames`: a call leaves
  every sensor untouched that it does not feed, directly or through others.
* `NotifiesExactly` — the call returns the visible value it leaves and notifies exactly if the
  visible value changed.
* **`notifies_exactly_iff`** — this holds unless the sensor is writable and the write is a
  `MaskedRepeat`: the stored real value written again while the sensor shows something else and no
  comparison of the write section fires. Then `retValue` is the argument, not the visible value
  (`masked_repeat_notifies`).
-/

import UniSet.Processes.IOController

namespace UniSet.Processes

/-- The state of a threshold at a value: inside the limits it stays what it was. -/
def ThresholdConf.next (t : ThresholdConf) (state : ThresholdState) (value : Value) :
    ThresholdState :=
  if t.invert then
    if t.hilimit ≤ value then .NormalThreshold
    else if value ≤ t.lowlimit then .LowThreshold else state
  else
    if value ≤ t.lowlimit then .NormalThreshold
    else if t.hilimit ≤ value then .HiThreshold else state

/-- Replace the state of one threshold. -/
def Store.setThreshold (st : Store) (sid : ObjectId) (k : Nat) (state : ThresholdState) : Store :=
  { st with tstate := Function.update st.tstate sid (Function.update (st.tstate sid) k state) }

namespace IONotifyController

open USensorInfo

variable (io : IOList) (self : LocalSetValue)

/-- The messages of a change of `sid`: to the database unless the sensor is ignored there, and to
its consumers if it has a list. -/
def notification (st : Store) (sid : ObjectId) : List Notice :=
  let sm := (st.usi sid).makeSensorMessage (io.info sid) sid st.clock
  (if (io.info sid).dbignore then [] else [.logging sm]) ++
    (if st.hasConsumers sid then [.send sm] else [])

/-- The thresholds of **`IONotifyController::checkThreshold`** from the `k`-th on, at the value the
sensor had when the check began. The exception of a write is caught at its threshold. -/
def checkThresholds (sid : ObjectId) (value : Value) :
    Store → Nat → List ThresholdConf → Option Store
  | st, _, [] => some st
  | st, k, t :: rest =>
    let state := t.next (st.tstate sid k) value
    if st.tstate sid k = state then checkThresholds sid value st (k + 1) rest
    else
      let st' := st.setThreshold sid k state
      if t.sid = defaultObjectId then checkThresholds sid value st' (k + 1) rest
      else
        match IOController.localSetValueIt io self
            ⟨st', t.sid, if state ≠ .NormalThreshold then 1 else 0, (st'.usi sid).supplier⟩ with
        | none => none
        | some (st'', _) => checkThresholds sid value st'' (k + 1) rest

/-- **`IONotifyController::checkThreshold`.** -/
def checkThreshold (st : Store) (sid : ObjectId) : Option Store :=
  checkThresholds io self sid (st.usi sid).value st 0 (io.thresholds sid)

/-- **`IONotifyController::localSetValue`.** -/
def localSetValue (a : SetCall) : Option (Outcome Value) :=
  let prevValue := (a.store.usi a.sid).value
  match IOController.localSetValue io self a with
  | none => none
  | some (st, .error ex) => some (st, .error ex)
  | some (st, .ok curValue) =>
    if prevValue = curValue then some (st, .ok curValue)
    else
      (checkThreshold io self { st with notices := st.notices ++ notification io st a.sid }
        a.sid).map fun st' => (st', .ok curValue)

/-- **`localSetValue` of a controller of class `IONotifyController`.** -/
def dispatch : LocalSetValue := Lib.unroll (localSetValue io) (io.ids.length + 1)

/-! ### What a call leaves alone -/

/-- The notices about one sensor. -/
def noticesOf (z : ObjectId) (st : Store) : List Notice := st.notices.filter fun n => n.sid = z

/-- **Nothing of `z` changed**, nor the clock or the consumer lists. -/
structure Same (z : ObjectId) (st st' : Store) : Prop where
  usi : st'.usi z = st.usi z
  notices : noticesOf z st' = noticesOf z st
  consumers : st'.hasConsumers = st.hasConsumers
  clock : st'.clock = st.clock

theorem Same.refl (z : ObjectId) (st : Store) : Same z st st := ⟨rfl, rfl, rfl, rfl⟩

variable {z sid : ObjectId} {st st' : Store}

theorem Same.trans {st'' : Store} (first : Same z st st') (second : Same z st' st'') :
    Same z st st'' :=
  ⟨second.usi.trans first.usi, second.notices.trans first.notices,
    second.consumers.trans first.consumers, second.clock.trans first.clock⟩

theorem Same.setUsi {c : ObjectId} (other : z ≠ c) (st : Store) (u : USensorInfo) :
    Same z st (st.setUsi c u) :=
  ⟨Store.setUsi_of_ne _ _ _ other, rfl, rfl, rfl⟩

theorem Same.setThreshold (z : ObjectId) (st : Store) (sid : ObjectId) (k : Nat)
    (state : ThresholdState) : Same z st (st.setThreshold sid k state) :=
  ⟨rfl, rfl, rfl, rfl⟩

/-- A message about another sensor is no notice about `z`. -/
theorem notification_other (other : z ≠ sid) (st : Store) :
    (notification io st sid).filter (fun n => n.sid = z) = [] := by
  have apart : ¬ sid = z := fun same => other same.symm
  unfold notification
  simp only [List.filter_append, List.append_eq_nil_iff]
  constructor <;> split <;> simp [Notice.sid, makeSensorMessage, apart]

/-- Every message of a change of `sid` is about `sid`. -/
theorem notification_own (sid : ObjectId) (st : Store) :
    (notification io st sid).filter (fun n => n.sid = sid) = notification io st sid := by
  unfold notification
  simp only [List.filter_append]
  congr 1 <;> split <;> simp [Notice.sid, makeSensorMessage]

variable {io self}

/-- Calls that write `c` leave `z` alone. -/
def Leaves (self : LocalSetValue) (c z : ObjectId) : Prop :=
  ∀ st v sup out, self ⟨st, c, v, sup⟩ = some out → Same z st out.1

theorem emitChange_same {d : ObjectId} {slots : List ObjectId}
    (apart : ∀ c ∈ slots, z ≠ c ∧ Leaves self c z)
    (ran : IOController.emitChange io self d st slots = some st') : Same z st st' := by
  refine IOController.emitChange_keeps (P := fun mid => Same z st mid) ?_ ran (Same.refl z st)
  intro mid c out slot checked before
  obtain ⟨other, leaves⟩ := apart c slot
  refine before.trans ?_
  rcases IOController.checkDepend_cases checked with ⟨-, rfl⟩ | ⟨-, out', called, rfl⟩
  · exact Same.setUsi other _ _
  · exact (Same.setUsi other _ _).trans (leaves _ _ _ _ called)

/-- **The threshold rule**, for the thresholds from the `k`-th on. What a new state keeps, together
with the write of the discrete sensor if there is one, the check keeps. -/
theorem checkThresholds_keeps {P : Store → Prop} {value : Value} {thresholds : List ThresholdConf}
    {k : Nat} (index : ∀ i, thresholds[i]? = (io.thresholds sid)[k + i]?)
    (unlinked : ∀ st j t state, (io.thresholds sid)[j]? = some t → t.sid = defaultObjectId → P st →
      P (st.setThreshold sid j state))
    (linked : ∀ st j t state sup out, (io.thresholds sid)[j]? = some t →
      IOController.localSetValueIt io self ⟨st.setThreshold sid j state, t.sid,
        if state ≠ .NormalThreshold then 1 else 0, sup⟩ = some out → P st → P out.1)
    (ran : checkThresholds io self sid value st k thresholds = some st') (holds : P st) :
    P st' := by
  induction thresholds generalizing k st with
  | nil =>
    cases ran
    exact holds
  | cons t rest ih =>
    have here : (io.thresholds sid)[k]? = some t := by
      rw [← Nat.add_zero k, ← index 0]
      rfl
    have later : ∀ {st}, checkThresholds io self sid value st (k + 1) rest = some st' → P st →
        P st' := by
      refine fun {st} => @ih st (k + 1) fun i => ?_
      rw [Nat.add_assoc, Nat.add_comm 1 i, ← index (i + 1)]
      rfl
    simp only [checkThresholds] at ran
    split at ran
    · exact later ran holds
    · split at ran
      · rename_i none
        exact later ran (unlinked st k t _ here none holds)
      · split at ran
        · cases ran
        · rename_i written
          exact later ran (linked st k t _ _ _ here written holds)

theorem checkThresholds_same {value : Value}
    (apart : ∀ t ∈ io.thresholds sid, t.sid ∈ io.ids → Leaves self t.sid z)
    (ran : checkThresholds io self sid value st 0 (io.thresholds sid) = some st') :
    Same z st st' := by
  refine checkThresholds_keeps (P := fun mid => Same z st mid) (fun i => by rw [Nat.zero_add])
    ?_ ?_ ran (Same.refl z st)
  · intro mid j t state _ _ before
    exact before.trans (Same.setThreshold z mid sid j state)
  · intro mid j t state sup out member written before
    refine (before.trans (Same.setThreshold z mid sid j state)).trans ?_
    rcases IOController.localSetValueIt_cases written with ⟨listed, called⟩ | ⟨-, refused⟩
    · exact apart t (List.mem_of_getElem? member) listed _ _ _ _ called
    · cases refused
      exact Same.refl z _

/-- **A call leaves every sensor alone that it does not feed.** -/
def Frames (io : IOList) (self : LocalSetValue) : Prop :=
  ∀ c z, z ≠ c → ¬ Relation.TransGen io.Feeds c z → Leaves self c z

/-- What `sid` feeds leaves a sensor alone that `sid` does not reach. -/
theorem Frames.apart (frames : Frames io self) {c : ObjectId} (feeds : io.Feeds sid c)
    (unreached : ¬ Relation.TransGen io.Feeds sid z) : z ≠ c ∧ Leaves self c z := by
  have other : z ≠ c := fun same => unreached (same ▸ .single feeds)
  exact ⟨other, frames c z other fun reached => unreached (.head feeds reached)⟩

/-- **The base class** refuses a readonly sensor; of every sensor that its cascade leaves alone it
changes nothing but the written one. -/
theorem base_same {v : Value} {sup : ObjectId}
    (slots : ∀ s ∈ io.sigChange sid, z ≠ s ∧ Leaves self s z) {out : Outcome Value}
    (wrote : IOController.localSetValue io self ⟨st, sid, v, sup⟩ = some out) :
    ((io.info sid).readonly = true ∧ out.1 = st) ∨
    ((io.info sid).readonly = false ∧
      out.2 = .ok ((st.usi sid).writeResult (io.info sid) v) ∧
      Same z (st.setUsi sid ((st.usi sid).writeSection (io.info sid) st.clock v sup)) out.1) := by
  rcases IOController.localSetValue_cases wrote with
    ⟨readonly, rfl⟩ | ⟨writable, quiet, rfl⟩ | ⟨writable, fired, mid, emitted, rfl⟩
  · exact .inl ⟨readonly, rfl⟩
  · refine .inr ⟨writable, ?_, Same.refl z _⟩
    rw [writeResult, if_neg (Bool.eq_false_iff.mp quiet)]
  · have cascade := emitChange_same slots emitted
    refine .inr ⟨writable, ?_, cascade.usi, cascade.notices, cascade.consumers, cascade.clock⟩
    rw [writeResult, if_pos fired]

theorem localSetValue_frames (frames : Frames io self) : Frames io (localSetValue io self) := by
  intro c z other unreached st v sup out ran
  have slots : ∀ s ∈ io.sigChange c, z ≠ s ∧ Leaves self s z := fun s slot =>
    frames.apart (.inl slot) unreached
  have written : ∀ {out}, IOController.localSetValue io self ⟨st, c, v, sup⟩ = some out →
      Same z st out.1 := by
    intro out wrote
    rcases base_same slots wrote with ⟨-, unchanged⟩ | ⟨-, -, same⟩
    · rw [unchanged]
      exact Same.refl z st
    · exact (Same.setUsi other st _).trans same
  simp only [localSetValue] at ran
  split at ran
  · cases ran
  · rename_i wrote
    cases ran
    exact written wrote
  · rename_i mid cur wrote
    split at ran
    · cases ran
      exact written wrote
    · obtain ⟨st', checked, rfl⟩ := Option.map_eq_some_iff.mp ran
      have thresholds := checkThresholds_same (fun t member listed =>
        (frames.apart (.inr ⟨listed, t, member, rfl⟩) unreached).2) checked
      have before := written wrote
      have noted : Same z st { mid with notices := mid.notices ++ notification io mid c } := by
        refine ⟨before.usi, ?_, before.consumers, before.clock⟩
        rw [← before.notices]
        simp only [noticesOf, List.filter_append]
        rw [notification_other io other, List.append_nil]
      exact noted.trans thresholds

theorem unroll_frames (io : IOList) (n : Nat) : Frames io (Lib.unroll (localSetValue io) n) :=
  Lib.unroll_induct (fun _ _ _ _ _ _ _ _ ran => nomatch ran)
    (fun _ frames => localSetValue_frames frames) n

/-! ### Every call returns -/

theorem checkThresholds_isSome {value : Value} {thresholds : List ThresholdConf}
    (returns : ∀ t ∈ thresholds, t.sid ∈ io.ids → ∀ st v sup, (self ⟨st, t.sid, v, sup⟩).isSome)
    (st : Store) (k : Nat) : (checkThresholds io self sid value st k thresholds).isSome := by
  induction thresholds generalizing st k with
  | nil => rfl
  | cons t rest ih =>
    have later := ih fun t member => returns t (List.mem_cons_of_mem _ member)
    simp only [checkThresholds]
    split
    · exact later _ _
    · split
      · exact later _ _
      · have written : ∀ a : SetCall, a.sid = t.sid →
            (IOController.localSetValueIt io self a).isSome := fun a own =>
          IOController.localSetValueIt_isSome fun st v sup listed =>
            own ▸ returns t List.mem_cons_self (own ▸ listed) st v sup
        split
        · rename_i none
          exact absurd none (Option.isSome_iff_ne_none.mp (written _ rfl))
        · exact later _ _

/-- A call whose calls on the sensors it feeds return returns. -/
theorem localSetValue_isSome {a : SetCall}
    (returns : ∀ c ∈ io.ids, io.Feeds a.sid c → ∀ st v sup, (self ⟨st, c, v, sup⟩).isSome) :
    (localSetValue io self a).isSome := by
  have wrote : (IOController.localSetValue io self a).isSome :=
    IOController.localSetValue_isSome fun s slot =>
      returns s (IOList.mem_of_slot slot) (.inl slot)
  obtain ⟨out, wroteEq⟩ := Option.isSome_iff_exists.mp wrote
  simp only [localSetValue, wroteEq]
  split
  · rename_i none
    cases none
  · rfl
  · split
    · rfl
    · rw [Option.isSome_map]
      exact checkThresholds_isSome (fun t member listed =>
        returns t.sid listed (.inr ⟨listed, t, member, rfl⟩)) _ _

/-- **On acyclic feeding every write returns.** -/
theorem dispatch_isSome (acyclic : Lib.Acyclic io.Feeds) (a : SetCall) : (dispatch io a).isSome := by
  refine Lib.unroll_isSome (fun a => Lib.height io.Feeds io.ids a.sid) (fun call a smaller => ?_)
    _ a (Nat.lt_succ_of_le (Lib.height_le io.ids a.sid))
  exact localSetValue_isSome fun c listed feeds st v sup =>
    smaller ⟨st, c, v, sup⟩ (Lib.height_lt acyclic feeds listed)

/-! ### Notification exactness -/

/-- **The call returns the visible value it leaves and notifies exactly if that value changed.** The
call of a readonly sensor throws instead of returning; it must then change and send nothing. -/
def NotifiesExactly (io : IOList) (st : Store) (sid : ObjectId) (v : Value) (sup : ObjectId) :
    Prop :=
  ∃ out ∈ dispatch io ⟨st, sid, v, sup⟩,
    out.2 = (if (io.info sid).readonly then .error (.ioBadParam "localSetValue" sid)
      else .ok (out.1.usi sid).value) ∧
    noticesOf sid out.1 = noticesOf sid st ++
      (if (out.1.usi sid).value ≠ (st.usi sid).value then notification io out.1 sid else [])

/-- The stored real value is written again while the sensor shows something else, and no comparison
of the write section fires. -/
def MaskedRepeat (conf : SensorConf) (u : USensorInfo) (v : Value) : Prop :=
  u.realValue = v ∧ u.value ≠ v ∧ u.blocked = (u.value == conf.dOffValue) ∧
    u.frozen = (u.value == u.frozenValue)

theorem maskedRepeat_iff {conf : SensorConf} {u : USensorInfo} {v : Value} :
    MaskedRepeat conf u v ↔ fires conf u v = false ∧ u.value ≠ v := by
  rw [fires_eq_false]
  constructor
  · rintro ⟨real, hidden, block, freeze⟩
    exact ⟨⟨real, block, freeze⟩, hidden⟩
  · rintro ⟨⟨real, block, freeze⟩, hidden⟩
    exact ⟨real, hidden, block, freeze⟩

/-- The messages of a change depend on the sensor, the clock and the consumer lists only. -/
theorem Same.notification_eq (same : Same sid st st') :
    notification io st' sid = notification io st sid := by
  simp only [notification, same.usi, same.clock, same.consumers]

/-- **What a call does to its own sensor** when the sensor does not feed itself: the write section,
and the messages if the returned value differs from the one read before. -/
theorem localSetValue_own (frames : Frames io self) {v : Value} {sup : ObjectId}
    (uncycled : ¬ Relation.TransGen io.Feeds sid sid) (writable : (io.info sid).readonly = false)
    {out : Outcome Value} (ran : localSetValue io self ⟨st, sid, v, sup⟩ = some out) :
    out.2 = .ok ((st.usi sid).writeResult (io.info sid) v) ∧
    out.1.usi sid = (st.usi sid).writeSection (io.info sid) st.clock v sup ∧
    noticesOf sid out.1 = noticesOf sid st ++
      (if (st.usi sid).value = (st.usi sid).writeResult (io.info sid) v then []
        else notification io out.1 sid) := by
  have slots : ∀ s ∈ io.sigChange sid, sid ≠ s ∧ Leaves self s sid := fun s slot =>
    frames.apart (.inl slot) uncycled
  have base : ∀ {out}, IOController.localSetValue io self ⟨st, sid, v, sup⟩ = some out →
      out.2 = .ok ((st.usi sid).writeResult (io.info sid) v) ∧
      Same sid (st.setUsi sid ((st.usi sid).writeSection (io.info sid) st.clock v sup)) out.1 := by
    intro out wrote
    rcases base_same slots wrote with ⟨readonly, -⟩ | ⟨-, wrote⟩
    · rw [writable] at readonly
      cases readonly
    · exact wrote
  simp only [localSetValue] at ran
  split at ran
  · cases ran
  · rename_i wrote
    cases (base wrote).1
  · rename_i mid cur wrote
    obtain ⟨result, same⟩ := base wrote
    cases result
    have written := same.usi.trans (Store.setUsi_self ..)
    by_cases unchanged : (st.usi sid).value = (st.usi sid).writeResult (io.info sid) v
    · rw [if_pos unchanged] at ran
      cases ran
      refine ⟨rfl, written, ?_⟩
      rw [if_pos unchanged, List.append_nil]
      exact same.notices
    · rw [if_neg unchanged] at ran
      obtain ⟨last, checked, rfl⟩ := Option.map_eq_some_iff.mp ran
      have after := checkThresholds_same (fun t member listed =>
        (frames.apart (.inr ⟨listed, t, member, rfl⟩) uncycled).2) checked
      refine ⟨rfl, after.usi.trans written, ?_⟩
      have messages : notification io last sid = notification io mid sid := after.notification_eq
      rw [if_neg unchanged, messages, after.notices]
      simp only [noticesOf, List.filter_append, notification_own]
      exact congrArg (· ++ _) same.notices

/-- **Notification exactness.** A call is exact unless the sensor is writable and the write is a
masked repeat. -/
theorem notifies_exactly_iff (io : IOList) (acyclic : Lib.Acyclic io.Feeds) (st : Store)
    (sid : ObjectId) (v : Value) (sup : ObjectId) :
    NotifiesExactly io st sid v sup ↔
      ¬ ((io.info sid).readonly = false ∧ MaskedRepeat (io.info sid) (st.usi sid) v) := by
  obtain ⟨out, ran⟩ := Option.isSome_iff_exists.mp (dispatch_isSome acyclic ⟨st, sid, v, sup⟩)
  unfold NotifiesExactly
  simp only [ran, Option.mem_some_iff, exists_eq_left']
  cases writable : (io.info sid).readonly with
  | true =>
    have refused : out = (st, .error (.ioBadParam "localSetValue" sid)) := by
      simpa [dispatch, Lib.unroll, localSetValue, IOController.localSetValue, writable] using
        ran.symm
    subst refused
    simp
  | false =>
    obtain ⟨result, usi, notices⟩ := localSetValue_own (unroll_frames io _) (acyclic sid) writable ran
    rw [maskedRepeat_iff, result, notices, usi]
    cases fired : fires (io.info sid) (st.usi sid) v with
    | true =>
      rw [writeSection_value_of_fires fired, writeResult, if_pos fired]
      simp [eq_comm]
    | false =>
      rw [writeSection_value_of_quiet fired, writeResult, if_neg (Bool.eq_false_iff.mp fired)]
      by_cases same : (st.usi sid).value = v
      · simp [same]
      · simp [same, Ne.symm same]

/-! ### A frozen sensor -/

/-- One analog input. -/
def oneInput : IOList :=
  IOList.ofRead (rfl : readList ⟨0, 0⟩ [] [{ id := 1, iotype := "AI" }] = .ok _)
    [1] [1] (by decide) (by decide) 100 fun _ => []

theorem oneInput_acyclic : Lib.Acyclic oneInput.Feeds :=
  Lib.acyclic_of_rank (fun _ => 0) fun d s feeds => by
    rcases feeds with slot | ⟨-, t, none, -⟩
    · exact absurd ((oneInput.connected d s).mp slot) (by
        rintro ⟨member, depends, named, -⟩
        have only : s = 1 := by simpa [oneInput, IOList.ofRead] using member
        subst only
        exact named (depends.symm.trans (by decide +kernel)))
    · cases none

/-- The state after the input was frozen at `5`, with a consumer list. -/
def frozenInput : Option Store :=
  IOController.runOps oneInput (dispatch oneInput)
    { IOController.loaded oneInput ⟨0, 0⟩ with hasConsumers := fun _ => true }
    [.freezeValue 1 true 5 100]

/-- Writing a new value to the frozen sensor is exact. -/
theorem notifies_exactly_frozenInput : ∃ st ∈ frozenInput,
    NotifiesExactly oneInput st 1 8 100 := by
  obtain ⟨st, reached⟩ : ∃ st, frozenInput = some st :=
    Option.isSome_iff_exists.mp (by decide +kernel)
  have real : frozenInput.map (fun st => (st.usi 1).realValue) = some 0 := by decide +kernel
  rw [reached] at real
  refine ⟨st, reached, (notifies_exactly_iff oneInput oneInput_acyclic st 1 8 100).mpr ?_⟩
  rintro ⟨-, again, -⟩
  cases (Option.some.inj real).symm.trans again

/-- **A masked repeat is reported.** The frozen sensor shows `5` and stores `0`; writing `0` again
returns `0` and sends a message although the sensor shows `5` as before. -/
theorem masked_repeat_notifies : ∃ st ∈ frozenInput,
    VisibleOk (oneInput.info 1) (st.usi 1) ∧ (oneInput.info 1).readonly = false ∧
      ¬ NotifiesExactly oneInput st 1 0 100 := by
  unfold NotifiesExactly
  decide +kernel

end IONotifyController

end UniSet.Processes

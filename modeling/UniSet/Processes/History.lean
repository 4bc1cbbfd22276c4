/-
**The history of a sensor, recorded beside a run.**

A threshold is checked when a sensor is activated (`initItem`) and whenever `localSetValue` reports a
change, at the value the sensor shows by then. Every function of a run has a companion that records
what one sensor shows meanwhile.

* `exclusive` — `localSetValue` in a thread that holds the locks of the sensors it is about to
  change. A write that would take them again has no result.
* `run` — load, activate with `initItem`, serve the requests.
* `history` — the values that a sensor shows: at its activation, at every change, and at a write that
  reports its value as a change.
* `Shown` — what a call does to one sensor and one of its thresholds, said with the values it shows.
* **`history_shown`** — after every run a threshold is where the history of its sensor brings it.
-/

import UniSet.Lib.Latch
import UniSet.Processes.IONotifyController

namespace UniSet.Processes.IONotifyController

open USensorInfo

/-! ### Runs -/

/-- **`localSetValue` in one thread.** A sensor is busy while the thread emits its `sigChange`, under
`changeMutex`, or checks its thresholds, under `val_lock`; a nested write that changes it would take
the lock again and has no result. At most `n` calls are nested. -/
def exclusive (io : IOList) : Nat → List ObjectId → LocalSetValue
  | 0, _, _ => none
  | n + 1, busy, a =>
    if a.sid ∈ busy ∧ (io.info a.sid).readonly = false ∧
        (a.store.usi a.sid).fires (io.info a.sid) a.value = true then none
    else localSetValue io (exclusive io n (a.sid :: busy)) a

/-- **`IONotifyController::initItem`**, connected to `sigInit`. -/
def initItem (io : IOList) (n : Nat) (st : Store) (s : ObjectId) : Option Store :=
  if (io.info s).type = .AI ∨ (io.info s).type = .AO then checkThreshold io (exclusive io n [s]) st s
  else some st

/-- **The activation of a controller of class `IONotifyController`.** -/
def activate (io : IOList) (n : Nat) (now : Timespec) : Option Store :=
  IOController.activateInit io (exclusive io n []) (initItem io n) (IOController.loaded io now) io.ids

/-- **A run of a controller of class `IONotifyController`**: load, activate, serve the requests. -/
def run (io : IOList) (n : Nat) (now : Timespec) (ops : List IOController.Op) : Option Store :=
  (activate io n now).bind fun st => IOController.runOps io (exclusive io n []) st ops

/-! ### The history of a sensor -/

section History

variable (io : IOList) (self : LocalSetValue) (shows : SetCall → List Value) (z : ObjectId)

/-- The write section of a call, as far as `z` is concerned: its visible value if that changes, or if
the call returns something else than it showed. -/
def writeShows (a : SetCall) : List Value :=
  let u := a.store.usi a.sid
  let written := u.writeSection (io.info a.sid) a.store.clock a.value a.sup
  if a.sid = z ∧ (io.info z).readonly = false ∧
      (written.value ≠ u.value ∨ u.writeResult (io.info z) a.value ≠ u.value) then [written.value]
  else []

/-- What `z` shows during `USensorInfo::checkDepend`. -/
def dependShows (st : Store) (s d : ObjectId) : List Value :=
  let flagged := (st.usi s).dependSection (io.info s) (st.usi d).value
  if (st.usi s).blocked = flagged.blocked then []
  else shows ⟨st.setUsi s flagged, s, flagged.realValue, (st.usi d).supplier⟩

/-- What `z` shows during the emission of `sigChange`. -/
def emitShows (d : ObjectId) : Store → List ObjectId → List Value
  | _, [] => []
  | st, s :: rest =>
    dependShows io shows st s d ++
      match IOController.checkDepend io self st s d with
      | some (st', .ok _) => emitShows d st' rest
      | _ => []

/-- What `z` shows during `IOController::localSetValueIt`. -/
def itShows (a : SetCall) : List Value :=
  if a.sid ≠ defaultObjectId ∧ a.sid ∈ io.ids then
    shows { a with sup := IOController.supplierOf io a.sup }
  else []

/-- What `z` shows during the checks of thresholds. -/
def thresholdShows (sid : ObjectId) (value : Value) : Store → Nat → List ThresholdConf → List Value
  | _, _, [] => []
  | st, k, t :: rest =>
    let state := t.next (st.tstate sid k) value
    if st.tstate sid k = state then thresholdShows sid value st (k + 1) rest
    else
      let st' := st.setThreshold sid k state
      if t.sid = defaultObjectId then thresholdShows sid value st' (k + 1) rest
      else
        let a : SetCall :=
          ⟨st', t.sid, if state ≠ .NormalThreshold then 1 else 0, (st'.usi sid).supplier⟩
        itShows io shows a ++
          match IOController.localSetValueIt io self a with
          | some (st'', _) => thresholdShows sid value st'' (k + 1) rest
          | none => []

/-- What `z` shows during `IONotifyController::checkThreshold`. -/
def checkShows (st : Store) (sid : ObjectId) : List Value :=
  thresholdShows io self shows sid (st.usi sid).value st 0 (io.thresholds sid)

/-- What `z` shows during the cascade of `IOController::localSetValue`. -/
def cascadeShows (a : SetCall) : List Value :=
  let u := a.store.usi a.sid
  if (io.info a.sid).readonly = false ∧ u.fires (io.info a.sid) a.value = true then
    emitShows io self shows a.sid
      (a.store.setUsi a.sid (u.writeSection (io.info a.sid) a.store.clock a.value a.sup))
      (io.sigChange a.sid)
  else []

/-- What `z` shows during `IONotifyController::localSetValue`. -/
def callShows (a : SetCall) : List Value :=
  writeShows io z a ++ cascadeShows io self shows a ++
    match IOController.localSetValue io self a with
    | some (st, .ok curValue) =>
      if (a.store.usi a.sid).value = curValue then []
      else checkShows io self shows
        { st with notices := st.notices ++ notification io st a.sid } a.sid
    | _ => []

end History

/-- **The values that `z` shows during a call.** -/
def shows (io : IOList) (z : ObjectId) : Nat → List ObjectId → SetCall → List Value
  | 0, _, _ => []
  | n + 1, busy, a => callShows io (exclusive io n (a.sid :: busy)) (shows io z n (a.sid :: busy)) z a

/-- What `z` shows during `initItem`; at its own activation that begins with the value it has. -/
def itemShows (io : IOList) (z : ObjectId) (n : Nat) (st : Store) (s : ObjectId) : List Value :=
  if (io.info s).type = .AI ∨ (io.info s).type = .AO then
    (if s = z then [(st.usi z).value] else []) ++
      checkShows io (exclusive io n [s]) (shows io z n [s]) st s
  else []

/-- What `z` shows during the activation of one sensor. -/
def sensorShows (io : IOList) (z : ObjectId) (n : Nat) (st : Store) (s : ObjectId) : List Value :=
  let d := (io.info s).dependSid
  if d ≠ defaultObjectId ∧ d ∈ io.ids then
    dependShows io (shows io z n []) st s d ++
      match IOController.checkDepend io (exclusive io n []) st s d with
      | some (st', .ok _) => itemShows io z n st' s
      | _ => []
  else itemShows io z n st s

/-- What `z` shows during `IOController::activateInit`. -/
def activateShows (io : IOList) (z : ObjectId) (n : Nat) : Store → List ObjectId → List Value
  | _, [] => []
  | st, s :: rest =>
    sensorShows io z n st s ++
      match IOController.initSensor io (exclusive io n []) (initItem io n) st s with
      | some st' => activateShows io z n st' rest
      | none => []

/-- What `z` shows during one request. -/
def opShows (io : IOList) (z : ObjectId) (n : Nat) (st : Store) : IOController.Op → List Value
  | .setValue sid value sup => itShows io (shows io z n []) ⟨st, sid, value, sup⟩
  | .freezeValue sid set value sup =>
    let flagged := (st.usi sid).freezeSection set value
    if (sid ≠ defaultObjectId ∧ sid ∈ io.ids) ∧ (io.info sid).readonly = false then
      shows io z n [] ⟨st.setUsi sid flagged, sid, flagged.realValue, IOController.supplierOf io sup⟩
    else []
  | .tick _ => []

/-- What `z` shows during a list of requests. -/
def opsShows (io : IOList) (z : ObjectId) (n : Nat) : Store → List IOController.Op → List Value
  | _, [] => []
  | st, op :: rest =>
    opShows io z n st op ++
      match op.apply io (exclusive io n []) st with
      | some st' => opsShows io z n st' rest
      | none => []

/-- **The values that `z` shows in a run**, oldest first. -/
def history (io : IOList) (n : Nat) (now : Timespec) (ops : List IOController.Op) (z : ObjectId) :
    List Value :=
  activateShows io z n (IOController.loaded io now) io.ids ++
    match activate io n now with
    | some st => opsShows io z n st ops
    | none => []

/-! ### What a sensor and one of its thresholds see -/

/-- The state of one threshold, and the value that its sensor shows. -/
def watch (z : ObjectId) (k : Nat) (st : Store) : ThresholdState × Value :=
  (st.tstate z k, (st.usi z).value)

/-- The threshold after the sensor shows a value. -/
def see (t : ThresholdConf) (s : ThresholdState × Value) (v : Value) : ThresholdState × Value :=
  (t.next s.1 v, v)

section Shown

variable {t : ThresholdConf} {z : ObjectId} {k : Nat}

/-- **A threshold is a latch** with the lower limit as its reset, or the upper one if it is inverted. -/
theorem next_eq_latch (t : ThresholdConf) : t.next =
    if t.invert then
      Lib.latch (fun v => v ≤ t.lowlimit) (fun v => t.hilimit ≤ v) .LowThreshold .NormalThreshold
    else
      Lib.latch (fun v => t.hilimit ≤ v) (fun v => v ≤ t.lowlimit) .HiThreshold .NormalThreshold := by
  funext state v
  unfold ThresholdConf.next
  split <;> rfl

theorem next_next (t : ThresholdConf) (state : ThresholdState) (v : Value) :
    t.next (t.next state v) v = t.next state v := by
  rw [next_eq_latch]
  split
  · exact Lib.latch_latch state v
  · exact Lib.latch_latch state v

/-- Values that repeat the one shown leave the threshold or bring it to where that value does. -/
theorem see_still {v : Value} {vs : List Value} (still : ∀ w ∈ vs, w = v) (state : ThresholdState) :
    vs.foldl (see t) (state, v) = (state, v) ∨ vs.foldl (see t) (state, v) = (t.next state v, v) := by
  induction vs generalizing state with
  | nil => exact .inl rfl
  | cons w rest ih =>
    have same : w = v := still w List.mem_cons_self
    subst same
    have later := ih (fun x member => still x (List.mem_cons_of_mem _ member)) (t.next state w)
    rw [next_next, or_self] at later
    exact .inr later

/-- A value that is shown on brings the threshold to where it does at once. -/
theorem see_cons {v : Value} {vs : List Value} (still : ∀ w ∈ vs, w = v)
    (s : ThresholdState × Value) : (v :: vs).foldl (see t) s = (t.next s.1 v, v) := by
  have later := see_still (t := t) still (t.next s.1 v)
  rwa [next_next, or_self] at later

/-- **What a call does to the sensor `z` and its threshold `k`**, with the values that `z` shows
meanwhile; while the sensor is busy it shows only the value it has. -/
structure Shown (t : ThresholdConf) (z : ObjectId) (k : Nat) (busy : List ObjectId)
    (st st' : Store) (vs : List Value) : Prop where
  watched : watch z k st' = vs.foldl (see t) (watch z k st)
  still : z ∈ busy → ∀ v ∈ vs, v = (st.usi z).value

variable {busy : List ObjectId} {st st' st'' : Store} {vs ws : List Value}

theorem Shown.of_watch (same : watch z k st' = watch z k st) : Shown t z k busy st st' [] :=
  ⟨same, fun _ => nofun⟩

/-- A busy sensor keeps its value, and its threshold stays or goes where that value brings it. -/
theorem Shown.kept (shown : Shown t z k busy st st' vs) (own : z ∈ busy) :
    (st'.usi z).value = (st.usi z).value ∧ (st'.tstate z k = st.tstate z k ∨
      st'.tstate z k = t.next (st.tstate z k) (st.usi z).value) := by
  have watched := shown.watched
  rcases see_still (t := t) (shown.still own) (st.tstate z k) with same | next
  · have both := Prod.ext_iff.mp (watched.trans same)
    exact ⟨both.2, .inl both.1⟩
  · have both := Prod.ext_iff.mp (watched.trans next)
    exact ⟨both.2, .inr both.1⟩

theorem Shown.trans (first : Shown t z k busy st st' vs) (second : Shown t z k busy st' st'' ws) :
    Shown t z k busy st st'' (vs ++ ws) where
  watched := by rw [List.foldl_append, ← first.watched, second.watched]
  still own v member := by
    rcases List.mem_append.mp member with early | late
    · exact first.still own v early
    · exact (second.still own v late).trans (first.kept own).1

/-- A change that the sensor and its threshold do not see, before a call. -/
theorem Shown.after (same : watch z k st' = watch z k st) (shown : Shown t z k busy st' st'' vs) :
    Shown t z k busy st st'' vs :=
  (Shown.of_watch same).trans shown

end Shown

variable {st st' : Store} {s : ObjectId}

/-! ### One call -/

section Call

variable {io : IOList} {self : LocalSetValue} {shows : SetCall → List Value} {t : ThresholdConf}
  {z : ObjectId} {k : Nat} {busy : List ObjectId}

/-- The recorded values are those that the calls show. -/
def Records (self : LocalSetValue) (shows : SetCall → List Value) (t : ThresholdConf) (z : ObjectId)
    (k : Nat) (busy : List ObjectId) : Prop :=
  ∀ a out, self a = some out → Shown t z k busy a.store out.1 (shows a)

theorem watch_setUsi {u : USensorInfo} (same : s = z → u.value = (st.usi z).value) :
    watch z k (st.setUsi s u) = watch z k st := by
  unfold watch
  by_cases own : z = s
  · subst own
    rw [Store.setUsi_self, same rfl]
    rfl
  · rw [Store.setUsi_of_ne _ _ _ own]
    rfl

theorem dependShows_shown (records : Records self shows t z k busy) {d : ObjectId}
    {out : Outcome Unit} (ran : IOController.checkDepend io self st s d = some out) :
    Shown t z k busy st out.1 (dependShows io shows st s d) := by
  have flagged : watch z k (st.setUsi s ((st.usi s).dependSection (io.info s) (st.usi d).value)) =
      watch z k st := watch_setUsi fun own => by rw [own]; rfl
  unfold dependShows
  rcases IOController.checkDepend_cases ran with ⟨same, rfl⟩ | ⟨flipped, out', called, rfl⟩
  · rw [if_pos same]
    exact .of_watch flagged
  · rw [if_neg flipped]
    exact (records _ _ called).after flagged

theorem emitShows_shown (records : Records self shows t z k busy) {d : ObjectId}
    {slots : List ObjectId} (ran : IOController.emitChange io self d st slots = some st') :
    Shown t z k busy st st' (emitShows io self shows d st slots) := by
  induction slots generalizing st with
  | nil =>
    cases ran
    exact .of_watch rfl
  | cons s rest ih =>
    simp only [IOController.emitChange] at ran
    rw [emitShows]
    split at ran
    · cases ran
    · rename_i mid ex checked
      cases ran
      rw [checked]
      exact (dependShows_shown records checked).trans (.of_watch rfl)
    · rename_i mid ok checked
      rw [checked]
      exact (dependShows_shown records checked).trans (ih ran)

theorem itShows_shown (records : Records self shows t z k busy) {a : SetCall} {out : Outcome Value}
    (ran : IOController.localSetValueIt io self a = some out) :
    Shown t z k busy a.store out.1 (itShows io shows a) := by
  unfold IOController.localSetValueIt at ran
  unfold itShows
  split at ran
  · rename_i listed
    rw [if_pos listed]
    exact records _ _ ran
  · rename_i unknown
    rw [if_neg unknown]
    cases ran
    exact .of_watch rfl

theorem thresholdShows_other (records : Records self shows t z k busy) {sid : ObjectId}
    (other : z ≠ sid) {value : Value} {thresholds : List ThresholdConf} {j : Nat}
    (ran : checkThresholds io self sid value st j thresholds = some st') :
    Shown t z k busy st st' (thresholdShows io self shows sid value st j thresholds) := by
  induction thresholds generalizing j st with
  | nil =>
    cases ran
    exact .of_watch rfl
  | cons c rest ih =>
    have set : ∀ state, watch z k (st.setThreshold sid j state) = watch z k st := fun state => by
      unfold watch Store.setThreshold
      dsimp only
      rw [Function.update_of_ne other]
    simp only [checkThresholds] at ran
    simp only [thresholdShows]
    split at ran
    · rename_i unchanged
      rw [if_pos unchanged]
      exact ih ran
    · rename_i changed
      rw [if_neg changed]
      refine Shown.after (set (c.next (st.tstate sid j) value)) ?_
      split at ran
      · rename_i unlinked
        rw [if_pos unlinked]
        exact ih ran
      · rename_i linked
        rw [if_neg linked]
        split at ran
        · cases ran
        · rename_i written
          rw [written]
          exact (itShows_shown records written).trans (ih ran)

/-- What the check of its own thresholds does to a sensor that shows `v`. -/
structure Holds (t : ThresholdConf) (z : ObjectId) (k : Nat) (v : Value) (st st' : Store)
    (vs : List Value) : Prop where
  shown : (st'.usi z).value = v
  still : ∀ w ∈ vs, w = v
  state : st'.tstate z k = st.tstate z k ∨ st'.tstate z k = t.next (st.tstate z k) v

section Holds

variable {v : Value} {st mid st' : Store} {vs ws : List Value}

theorem Shown.holds (shown : Shown t z k busy st st' vs) (own : z ∈ busy)
    (value : (st.usi z).value = v) : Holds t z k v st st' vs := by
  subst value
  exact ⟨(shown.kept own).1, shown.still own, (shown.kept own).2⟩

theorem Holds.silent (shown : (st'.usi z).value = v)
    (state : st'.tstate z k = st.tstate z k ∨ st'.tstate z k = t.next (st.tstate z k) v) :
    Holds t z k v st st' [] :=
  ⟨shown, fun _ none => absurd none List.not_mem_nil, state⟩

/-- The threshold is brought to the same state as before. -/
theorem Holds.next (holds : Holds t z k v st st' vs) :
    t.next (st'.tstate z k) v = t.next (st.tstate z k) v := by
  rcases holds.state with same | next
  · rw [same]
  · rw [next, next_next]

theorem Holds.trans (first : Holds t z k v st mid vs) (second : Holds t z k v mid st' ws) :
    Holds t z k v st st' (vs ++ ws) where
  shown := second.shown
  still w member := (List.mem_append.mp member).elim (first.still w) (second.still w)
  state := by
    rcases second.state with same | next
    · rw [same]
      exact first.state
    · rw [next, first.next]
      exact .inr rfl

/-- One threshold and then the rest: the threshold `k` is checked now or later. -/
theorem Holds.checked {j : Nat} (first : Holds t z k v st mid [])
    (now : j = k → mid.tstate z k = t.next (st.tstate z k) v) (rest : Holds t z k v mid st' vs)
    (later : j + 1 ≤ k → st'.tstate z k = t.next (mid.tstate z k) v) :
    Holds t z k v st st' vs ∧ (j ≤ k → st'.tstate z k = t.next (st.tstate z k) v) := by
  refine ⟨first.trans rest, fun ahead => ?_⟩
  rcases Nat.lt_or_eq_of_le ahead with before | here
  · rw [later before, first.next]
  · rcases rest.state with same | next
    · rw [same, now here]
    · rw [next, now here, next_next]

end Holds

/-- **The thresholds of the sensor itself**, from the `j`-th on, while it is busy: it shows its value
on, and the threshold `k` comes to where the value brings it, unless it lies before. -/
theorem thresholdShows_own (records : Records self shows t z k busy) (own : z ∈ busy) {v : Value}
    {thresholds : List ThresholdConf} {j : Nat} (value : (st.usi z).value = v)
    (index : j ≤ k → thresholds[k - j]? = some t)
    (ran : checkThresholds io self z v st j thresholds = some st') :
    Holds t z k v st st' (thresholdShows io self shows z v st j thresholds) ∧
      (j ≤ k → st'.tstate z k = t.next (st.tstate z k) v) := by
  induction thresholds generalizing j st with
  | nil =>
    cases ran
    refine ⟨.silent value (.inl rfl), fun ahead => ?_⟩
    exact absurd (index ahead) (by simp)
  | cons c rest ih =>
    have here : j = k → c = t := by
      rintro rfl
      simpa using index (Nat.le_refl _)
    have indexRest : j + 1 ≤ k → rest[k - (j + 1)]? = some t := by
      intro ahead
      have listed := index (by omega)
      rwa [show k - j = k - (j + 1) + 1 by omega, List.getElem?_cons_succ] at listed
    simp only [checkThresholds] at ran
    simp only [thresholdShows]
    split at ran
    · rename_i unchanged
      rw [if_pos unchanged]
      obtain ⟨holds, later⟩ := ih value indexRest ran
      have first : Holds t z k v st st [] := .silent value (.inl rfl)
      refine first.checked (fun same => ?_) holds later
      rw [← here same, ← same]
      exact unchanged
    · rename_i changed
      rw [if_neg changed]
      have now : j = k → (st.setThreshold z j (c.next (st.tstate z j) v)).tstate z k =
          t.next (st.tstate z k) v := by
        intro same
        rw [← here same, ← same]
        simp [Store.setThreshold]
      have first : Holds t z k v st (st.setThreshold z j (c.next (st.tstate z j) v)) [] := by
        refine .silent value ?_
        by_cases same : j = k
        · exact .inr (now same)
        · exact .inl (by simp [Store.setThreshold, Function.update_of_ne (Ne.symm same)])
      split at ran
      · rename_i unlinked
        rw [if_pos unlinked]
        obtain ⟨holds, later⟩ := ih first.shown indexRest ran
        exact first.checked now holds later
      · rename_i linked
        rw [if_neg linked]
        split at ran
        · cases ran
        · rename_i written
          rw [written]
          have nested := (itShows_shown records written).holds own first.shown
          obtain ⟨holds, later⟩ := ih nested.shown indexRest ran
          refine first.checked now (nested.trans holds) fun ahead => ?_
          rw [later ahead, nested.next]

theorem Shown.mono {busy' : List ObjectId} {vs : List Value} (shown : Shown t z k busy' st st' vs)
    (fewer : z ∈ busy → z ∈ busy') :
    Shown t z k busy st st' vs :=
  ⟨shown.watched, fun own => shown.still (fewer own)⟩

/-- The base class, from its write section on. -/
theorem cascadeShows_shown (records : Records self shows t z k busy) {a : SetCall} {mid : Store}
    {cur : Value} (wrote : IOController.localSetValue io self a = some (mid, .ok cur)) :
    (io.info a.sid).readonly = false ∧
      cur = (a.store.usi a.sid).writeResult (io.info a.sid) a.value ∧
      Shown t z k busy (a.store.setUsi a.sid ((a.store.usi a.sid).writeSection (io.info a.sid)
        a.store.clock a.value a.sup)) mid (cascadeShows io self shows a) := by
  rcases IOController.localSetValue_cases wrote with
    ⟨-, refused⟩ | ⟨writable, quiet, done⟩ | ⟨writable, fired, st, emitted, done⟩
  · cases refused
  · cases done
    refine ⟨writable, ?_, ?_⟩
    · rw [writeResult, if_neg (Bool.eq_false_iff.mp quiet)]
    · rw [cascadeShows, if_neg fun both => Bool.eq_false_iff.mp quiet both.2]
      exact .of_watch rfl
  · cases done
    refine ⟨writable, ?_, ?_⟩
    · rw [writeResult, if_pos fired]
    · rw [cascadeShows, if_pos ⟨writable, fired⟩]
      exact ⟨(emitShows_shown records emitted).watched, (emitShows_shown records emitted).still⟩

/-- The visible value that a write section leaves is the returned one, if it fires, and the old one
otherwise. -/
theorem writeSection_value (conf : SensorConf) (u : USensorInfo) (now : Timespec) (v : Value)
    (sup : ObjectId) :
    (u.fires conf v = true ∧ (u.writeSection conf now v sup).value = u.writeResult conf v) ∨
      (u.fires conf v = false ∧ (u.writeSection conf now v sup).value = u.value) := by
  cases fired : u.fires conf v with
  | true =>
    refine .inl ⟨rfl, ?_⟩
    rw [writeSection_value_of_fires fired, writeResult, if_pos fired]
  | false => exact .inr ⟨rfl, writeSection_value_of_quiet fired⟩

/-- **A call on the sensor itself.** Its thresholds are checked exactly if the call reports a change;
a call that changes the visible value reports it. -/
theorem callShows_own {a : SetCall} (records : Records self shows t a.sid k (a.sid :: busy))
    (threshold : (io.thresholds a.sid)[k]? = some t)
    (free : ¬ (a.sid ∈ busy ∧ (io.info a.sid).readonly = false ∧
      (a.store.usi a.sid).fires (io.info a.sid) a.value = true))
    {mid : Store} {cur : Value}
    (wrote : IOController.localSetValue io self a = some (mid, .ok cur)) {out : Outcome Value}
    (ran : localSetValue io self a = some out) :
    Shown t a.sid k busy a.store out.1 (callShows io self shows a.sid a) := by
  obtain ⟨writable, rfl, cascade⟩ := cascadeShows_shown records wrote
  have section_ := writeSection_value (io.info a.sid) (a.store.usi a.sid) a.store.clock a.value a.sup
  simp only [localSetValue, wrote] at ran
  simp only [callShows, wrote]
  split at ran
  · rename_i unreported
    cases ran
    have same : ((a.store.usi a.sid).writeSection (io.info a.sid) a.store.clock a.value a.sup).value =
        (a.store.usi a.sid).value := by
      rcases section_ with ⟨-, fired⟩ | ⟨-, quiet⟩
      · exact fired.trans unreported.symm
      · exact quiet
    have unwritten : writeShows io a.sid a = [] := if_neg fun all =>
      all.2.2.elim (fun changed => changed same) fun reported => reported unreported.symm
    rw [if_pos unreported, unwritten, List.nil_append, List.append_nil]
    exact (cascade.mono (List.mem_cons_of_mem _)).after (watch_setUsi fun _ => same)
  · rename_i reported
    obtain ⟨last, checked, rfl⟩ := Option.map_eq_some_iff.mp ran
    have written : writeShows io a.sid a = [((a.store.usi a.sid).writeSection (io.info a.sid)
        a.store.clock a.value a.sup).value] :=
      if_pos ⟨rfl, writable, .inr (Ne.symm reported)⟩
    rw [if_neg reported, written, List.append_assoc, List.singleton_append]
    have emitted := cascade.holds List.mem_cons_self (congrArg USensorInfo.value
      (Store.setUsi_self ..))
    unfold checkThreshold at checked
    unfold checkShows
    dsimp only at checked ⊢
    rw [emitted.shown] at checked ⊢
    have noted : (Store.usi { mid with notices := mid.notices ++ notification io mid a.sid }
        a.sid).value = _ := emitted.shown
    obtain ⟨holds, reaches⟩ := thresholdShows_own records List.mem_cons_self (j := 0) noted
      (fun _ => threshold) checked
    have still := (emitted.trans ⟨holds.shown, holds.still, holds.state⟩).still
    refine ⟨?_, fun own v member => ?_⟩
    · rw [see_cons still]
      exact Prod.ext ((reaches (Nat.zero_le k)).trans emitted.next) holds.shown
    · -- a busy sensor is not changed by the call
      have quiet : ((a.store.usi a.sid).writeSection (io.info a.sid) a.store.clock a.value
          a.sup).value = (a.store.usi a.sid).value := by
        rcases section_ with ⟨fired, -⟩ | ⟨-, quiet⟩
        · exact absurd ⟨own, writable, fired⟩ free
        · exact quiet
      rcases List.mem_cons.mp member with here | later
      · exact here.trans quiet
      · exact (still v later).trans quiet

/-- **One call of `localSetValue`** on a sensor that is not busy, or that it does not change. -/
theorem callShows_shown {a : SetCall} (records : Records self shows t z k (a.sid :: busy))
    (threshold : (io.thresholds z)[k]? = some t)
    (free : ¬ (a.sid ∈ busy ∧ (io.info a.sid).readonly = false ∧
      (a.store.usi a.sid).fires (io.info a.sid) a.value = true))
    {out : Outcome Value} (ran : localSetValue io self a = some out) :
    Shown t z k busy a.store out.1 (callShows io self shows z a) := by
  have call := ran
  simp only [localSetValue] at ran
  split at ran
  · cases ran
  · rename_i wrote
    cases ran
    rcases IOController.localSetValue_cases wrote with ⟨readonly, refused⟩ | ⟨-, -, ok⟩ |
      ⟨-, -, st, -, ok⟩
    · cases refused
      have refuses : ¬ (io.info a.sid).readonly = false := fun writable =>
        Bool.false_ne_true (writable.symm.trans readonly)
      have unwritten : writeShows io z a = [] := by
        rw [writeShows, if_neg]
        rintro ⟨rfl, writable, -⟩
        exact refuses writable
      have unfired : cascadeShows io self shows a = [] := if_neg fun all => refuses all.1
      rw [callShows, unwritten, unfired, wrote]
      exact .of_watch rfl
    · cases ok
    · cases ok
  · rename_i mid cur wrote
    by_cases own : a.sid = z
    · subst own
      exact callShows_own records threshold free wrote call
    · obtain ⟨writable, rfl, cascade⟩ := cascadeShows_shown records wrote
      have fewer : z ∈ busy → z ∈ a.sid :: busy := List.mem_cons_of_mem _
      have unwritten : writeShows io z a = [] := if_neg fun both => own both.1
      have unseen : watch z k (a.store.setUsi a.sid ((a.store.usi a.sid).writeSection
          (io.info a.sid) a.store.clock a.value a.sup)) = watch z k a.store :=
        watch_setUsi fun same => absurd same own
      simp only [callShows, unwritten, wrote, List.nil_append]
      split at ran
      · rename_i unreported
        cases ran
        rw [if_pos unreported, List.append_nil]
        exact (cascade.mono fewer).after unseen
      · rename_i reported
        rw [if_neg reported]
        obtain ⟨last, checked, rfl⟩ := Option.map_eq_some_iff.mp ran
        have thresholds := thresholdShows_other records (Ne.symm own) checked
        have noted : watch z k { mid with notices := mid.notices ++ notification io mid a.sid } =
            watch z k mid := rfl
        exact ((cascade.trans (thresholds.after noted)).mono fewer).after unseen

end Call

/-! ### Whole runs -/

section Runs

variable {io : IOList} {t : ThresholdConf} {z : ObjectId} {k n : Nat}

/-- **Every call shows what is recorded.** -/
theorem exclusive_records (threshold : (io.thresholds z)[k]? = some t) (n : Nat)
    (busy : List ObjectId) : Records (exclusive io n busy) (shows io z n busy) t z k busy := by
  induction n generalizing busy with
  | zero => exact fun a out ran => nomatch ran
  | succ n ih =>
    intro a out ran
    simp only [exclusive] at ran
    split at ran
    · cases ran
    · rename_i free
      exact callShows_shown (ih (a.sid :: busy)) threshold free ran

theorem itemShows_shown (threshold : (io.thresholds z)[k]? = some t)
    (ran : initItem io n st s = some st') : Shown t z k [] st st' (itemShows io z n st s) := by
  have records := exclusive_records threshold n [s]
  unfold initItem at ran
  unfold itemShows
  split at ran
  · rename_i analog
    rw [if_pos analog]
    by_cases own : s = z
    · subst own
      obtain ⟨holds, reaches⟩ := thresholdShows_own records List.mem_cons_self (j := 0) rfl
        (fun _ => threshold) ran
      rw [if_pos rfl, List.singleton_append]
      refine ⟨?_, nofun⟩
      unfold checkShows
      rw [see_cons holds.still]
      exact Prod.ext (reaches (Nat.zero_le k)) holds.shown
    · rw [if_neg own]
      exact (thresholdShows_other records (Ne.symm own) ran).mono nofun
  · rename_i discrete
    cases ran
    rw [if_neg discrete]
    exact .of_watch rfl

theorem sensorShows_shown (threshold : (io.thresholds z)[k]? = some t)
    (ran : IOController.initSensor io (exclusive io n []) (initItem io n) st s = some st') :
    Shown t z k [] st st' (sensorShows io z n st s) := by
  have records := exclusive_records threshold n []
  simp only [IOController.initSensor] at ran
  simp only [sensorShows]
  by_cases depends : (io.info s).dependSid ≠ defaultObjectId ∧ (io.info s).dependSid ∈ io.ids
  · rw [if_pos depends] at ran ⊢
    split at ran
    · cases ran
    · rename_i checked
      cases ran
      rw [checked]
      exact (dependShows_shown records checked).trans (.of_watch rfl)
    · rename_i checked
      rw [checked]
      exact (dependShows_shown records checked).trans (itemShows_shown threshold ran)
  · rw [if_neg depends] at ran ⊢
    exact itemShows_shown threshold ran

theorem activateShows_shown (threshold : (io.thresholds z)[k]? = some t) {visit : List ObjectId}
    (ran : IOController.activateInit io (exclusive io n []) (initItem io n) st visit = some st') :
    Shown t z k [] st st' (activateShows io z n st visit) := by
  induction visit generalizing st with
  | nil =>
    cases ran
    exact .of_watch rfl
  | cons s rest ih =>
    obtain ⟨mid, inited, ran⟩ := Option.bind_eq_some_iff.mp ran
    rw [activateShows, inited]
    exact (sensorShows_shown threshold inited).trans (ih ran)

theorem opShows_shown (threshold : (io.thresholds z)[k]? = some t) {op : IOController.Op}
    (ran : op.apply io (exclusive io n []) st = some st') :
    Shown t z k [] st st' (opShows io z n st op) := by
  have records := exclusive_records threshold n []
  cases op with
  | setValue sid value sup =>
    simp only [IOController.Op.apply, IOController.setValue, Option.map_map] at ran
    obtain ⟨out, called, rfl⟩ := Option.map_eq_some_iff.mp ran
    exact itShows_shown records called
  | freezeValue sid set value sup =>
    simp only [IOController.Op.apply, IOController.freezeValue, Option.map_map] at ran
    obtain ⟨out, called, rfl⟩ := Option.map_eq_some_iff.mp ran
    simp only [IOController.localFreezeValueIt, IOController.localFreezeValue] at called
    simp only [opShows]
    split at called
    · rename_i listed
      split at called
      · rename_i readonly
        cases called
        rw [if_neg fun both => Bool.eq_false_iff.mp both.2 readonly]
        exact .of_watch rfl
      · rename_i writable
        obtain ⟨frozen, wrote, rfl⟩ := Option.map_eq_some_iff.mp called
        rw [if_pos ⟨listed, Bool.eq_false_iff.mpr writable⟩]
        have flagged : watch z k (st.setUsi sid ((st.usi sid).freezeSection set value)) =
            watch z k st := watch_setUsi fun own => by rw [own]; rfl
        exact (records _ _ wrote).after flagged
    · rename_i unknown
      cases called
      rw [if_neg fun both => unknown both.1]
      exact .of_watch rfl
  | tick now =>
    cases ran
    exact .of_watch rfl

theorem opsShows_shown (threshold : (io.thresholds z)[k]? = some t) {ops : List IOController.Op}
    (ran : IOController.runOps io (exclusive io n []) st ops = some st') :
    Shown t z k [] st st' (opsShows io z n st ops) := by
  induction ops generalizing st with
  | nil =>
    cases ran
    exact .of_watch rfl
  | cons op rest ih =>
    obtain ⟨mid, applied, ran⟩ := Option.bind_eq_some_iff.mp ran
    rw [opsShows, applied]
    exact (opShows_shown threshold applied).trans (ih ran)

/-- **A threshold is where the history of its sensor brings it.** -/
theorem history_shown (threshold : (io.thresholds z)[k]? = some t) {now : Timespec}
    {ops : List IOController.Op} (ran : run io n now ops = some st) :
    Shown t z k [] (IOController.loaded io now) st (history io n now ops z) := by
  obtain ⟨active, activated, served⟩ := Option.bind_eq_some_iff.mp ran
  rw [history, activated]
  exact (activateShows_shown threshold activated).trans (opsShows_shown threshold served)

end Runs

end UniSet.Processes.IONotifyController

/-
**Threshold hysteresis over whole runs.**

The history of an analog sensor decides the state of each of its thresholds, and the state decides the
discrete sensor that the threshold drives.

* `exclusive_keeps`, `run_keeps` — what a call keeps if the calls it makes keep it, and what a run
  keeps: the visible-value rule, the terminate request, the driven sensor.
* **`run_completes`** — on acyclic feeding every run has a result.
* `Passed` — some value of a history reaches the limit that trips a threshold, and no later one
  releases it.
* **`hysteresis`** — a threshold is tripped exactly if the history passes it, and then its discrete
  sensor shows 1.
-/

import UniSet.Processes.History
import UniSet.Processes.VisibleValue

namespace UniSet.Processes.IONotifyController

open USensorInfo

/-! ### What every call of a run keeps -/

section Keeps

variable {io : IOList} {self : LocalSetValue}

/-- **The nesting rule.** What `localSetValue` has if the calls it makes have it, every call has. -/
theorem exclusive_keeps {R : SetCall → Outcome Value → Prop}
    (step : ∀ self : LocalSetValue, (∀ a out, self a = some out → R a out) →
      ∀ a out, localSetValue io self a = some out → R a out) (n : Nat) (busy : List ObjectId) :
    ∀ a out, exclusive io n busy a = some out → R a out := by
  induction n generalizing busy with
  | zero => exact fun a out ran => nomatch ran
  | succ n ih =>
    intro a out ran
    simp only [exclusive] at ran
    split at ran
    · cases ran
    · exact step _ (ih (a.sid :: busy)) a out ran

/-- A call is a call of the base class, perhaps with messages and a check of the thresholds. -/
theorem localSetValue_cases {a : SetCall} {out : Outcome Value}
    (ran : localSetValue io self a = some out) :
    ∃ base, IOController.localSetValue io self a = some base ∧
      (out = base ∨ ∃ notices,
        checkThreshold io self { base.1 with notices := notices } a.sid = some out.1) := by
  simp only [localSetValue] at ran
  split at ran
  · cases ran
  · rename_i wrote
    exact ⟨_, wrote, .inl (Option.some.inj ran).symm⟩
  · rename_i mid cur wrote
    refine ⟨_, wrote, ?_⟩
    split at ran
    · exact .inl (Option.some.inj ran).symm
    · obtain ⟨last, checked, rfl⟩ := Option.map_eq_some_iff.mp ran
      exact .inr ⟨_, checked⟩

variable {st st' : Store} {sid s : ObjectId} {t : ThresholdConf} {ops : List IOController.Op}

/-- The threshold rule for all thresholds of a sensor. -/
theorem checkThreshold_keeps {P : Store → Prop}
    (unlinked : ∀ st j t state, (io.thresholds sid)[j]? = some t → t.sid = defaultObjectId → P st →
      P (st.setThreshold sid j state))
    (linked : ∀ st j t state sup out, (io.thresholds sid)[j]? = some t →
      IOController.localSetValueIt io self ⟨st.setThreshold sid j state, t.sid,
        if state ≠ .NormalThreshold then 1 else 0, sup⟩ = some out → P st → P out.1)
    (ran : checkThreshold io self st sid = some st') (holds : P st) : P st' :=
  checkThresholds_keeps (fun i => by rw [Nat.zero_add]) unlinked linked ran holds

/-! #### The visible-value rule -/

theorem checkThreshold_visible (keeps : IOController.KeepsVisible io self)
    (ran : checkThreshold io self st sid = some st') (writable : (io.info s).readonly = false)
    (ok : VisibleOk (io.info s) (st.usi s)) :
    VisibleOk (io.info s) (st'.usi s) := by
  refine checkThreshold_keeps (P := fun st => VisibleOk (io.info s) (st.usi s)) ?_ ?_ ran ok
  · exact fun st j t state _ _ ok => ok
  · intro st j t state sup out _ written ok
    rcases IOController.localSetValueIt_cases written with ⟨-, called⟩ | ⟨-, rfl⟩
    · exact keeps _ _ called s writable (fun _ => ok) fun _ => ok.settled
    · exact ok

theorem exclusive_visible (io : IOList) (n : Nat) (busy : List ObjectId) :
    IOController.KeepsVisible io (exclusive io n busy) := by
  refine exclusive_keeps (fun self keeps a out ran s writable others own => ?_) n busy
  obtain ⟨base, wrote, rfl | ⟨notices, checked⟩⟩ := localSetValue_cases ran
  · exact IOController.localSetValue_visible keeps a _ wrote s writable others own
  · exact checkThreshold_visible keeps checked writable
      (IOController.localSetValue_visible keeps a _ wrote s writable others own)

/-! #### The terminate request -/

theorem checkThreshold_terminated
    (keeps : ∀ a out, self a = some out → a.store.terminated = true → out.1.terminated = true)
    (ran : checkThreshold io self st sid = some st') (asked : st.terminated = true) :
    st'.terminated = true := by
  refine checkThreshold_keeps (P := fun st => st.terminated = true) ?_ ?_ ran asked
  · exact fun st j t state _ _ asked => asked
  · intro st j t state sup out _ written asked
    rcases IOController.localSetValueIt_cases written with ⟨-, called⟩ | ⟨-, rfl⟩
    · exact keeps _ _ called asked
    · exact asked

theorem checkDepend_terminated
    (keeps : ∀ a out, self a = some out → a.store.terminated = true → out.1.terminated = true)
    {d : ObjectId} {out : Outcome Unit} (ran : IOController.checkDepend io self st s d = some out)
    (asked : st.terminated = true) :
    out.1.terminated = true := by
  rcases IOController.checkDepend_cases ran with ⟨-, rfl⟩ | ⟨-, out', called, rfl⟩
  · exact asked
  · exact keeps _ _ called asked

theorem exclusive_terminated (io : IOList) (n : Nat) (busy : List ObjectId) :
    ∀ a out, exclusive io n busy a = some out → a.store.terminated = true →
      out.1.terminated = true := by
  refine exclusive_keeps (fun self keeps a out ran asked => ?_) n busy
  have base : ∀ out, IOController.localSetValue io self a = some out → out.1.terminated = true := by
    intro out wrote
    rcases IOController.localSetValue_cases wrote with ⟨-, rfl⟩ | ⟨-, -, rfl⟩ | ⟨-, -, st, emitted, rfl⟩
    · exact asked
    · exact asked
    · have kept : st.terminated = true :=
        IOController.emitChange_keeps (P := fun st => st.terminated = true)
          (fun _ _ _ _ checked => checkDepend_terminated keeps checked) emitted asked
      exact kept
  obtain ⟨_, wrote, rfl | ⟨notices, checked⟩⟩ := localSetValue_cases ran
  · exact base _ wrote
  · exact checkThreshold_terminated keeps checked (base _ wrote)

/-! #### The discrete sensor of a threshold -/

/-- **The threshold `k` of `z` drives the sensor `d`**: listed, with default 0, not readonly, and no
other threshold writes it. -/
structure Drives (io : IOList) (z : ObjectId) (k : Nat) (d : ObjectId) : Prop where
  listed : d ∈ io.ids
  default : (io.info d).defaultVal = 0
  writable : (io.info d).readonly = false
  sole : ∀ s j t, (io.thresholds s)[j]? = some t → t.sid = d → s = z ∧ j = k

/-- The real value of the driven sensor is the one that belongs to the state of the threshold. -/
def Driven (z : ObjectId) (k : Nat) (d : ObjectId) (st : Store) : Prop :=
  (st.usi d).realValue = if st.tstate z k ≠ .NormalThreshold then 1 else 0

/-- A call keeps the driven sensor, and a call on it brings the value of the state. -/
def KeepsDriven (self : LocalSetValue) (z : ObjectId) (k : Nat) (d : ObjectId) : Prop :=
  ∀ a out, self a = some out →
    (a.sid = d → a.value = if a.store.tstate z k ≠ .NormalThreshold then 1 else 0) →
    (a.sid ≠ d → Driven z k d a.store) → Driven z k d out.1

variable {z : ObjectId} {k : Nat} {d : ObjectId}

theorem driven_setUsi {u : USensorInfo} (driven : Driven z k d st)
    (same : s = d → u.realValue = (st.usi d).realValue) : Driven z k d (st.setUsi s u) := by
  unfold Driven at driven ⊢
  by_cases own : d = s
  · subst own
    rw [Store.setUsi_self, same rfl]
    exact driven
  · rw [Store.setUsi_of_ne _ _ _ own]
    exact driven

theorem checkDepend_driven (keeps : KeepsDriven self z k d) {e : ObjectId} {out : Outcome Unit}
    (ran : IOController.checkDepend io self st s e = some out) (driven : Driven z k d st) :
    Driven z k d out.1 := by
  have flagged : Driven z k d (st.setUsi s ((st.usi s).dependSection (io.info s) (st.usi e).value)) :=
    driven_setUsi driven fun own => by rw [own]; rfl
  rcases IOController.checkDepend_cases ran with ⟨-, rfl⟩ | ⟨-, out', called, rfl⟩
  · exact flagged
  · refine keeps _ _ called (fun own => ?_) fun _ => flagged
    dsimp only at own ⊢
    rw [own]
    exact driven

theorem checkThreshold_driven (drives : Drives io z k d) (keeps : KeepsDriven self z k d)
    (threshold : (io.thresholds z)[k]? = some t) (linked : t.sid = d)
    (ran : checkThreshold io self st sid = some st') (driven : Driven z k d st) :
    Driven z k d st' := by
  have named : d ≠ defaultObjectId := (IOList.first_spec drives.listed).1
  -- the state of another threshold
  have other : ∀ st j state, ¬ (sid = z ∧ j = k) → Driven z k d st →
      Driven z k d (st.setThreshold sid j state) := by
    intro st j state apart driven
    have same : (st.setThreshold sid j state).tstate z k = st.tstate z k := by
      unfold Store.setThreshold
      dsimp only
      by_cases sensor : z = sid
      · subst sensor
        rw [Function.update_self, Function.update_of_ne fun index => apart ⟨rfl, index.symm⟩]
      · rw [Function.update_of_ne sensor]
    unfold Driven
    rw [same]
    exact driven
  refine checkThreshold_keeps (P := Driven z k d) ?_ ?_ ran driven
  · intro st j c state member none driven
    refine other st j state (fun ⟨sensor, index⟩ => ?_) driven
    rw [sensor, index, threshold] at member
    cases member
    exact named (linked.symm.trans none)
  · intro st j c state sup out member written driven
    by_cases own : sid = z ∧ j = k
    · obtain ⟨rfl, rfl⟩ := own
      rw [threshold] at member
      cases member
      rcases IOController.localSetValueIt_cases written with ⟨-, called⟩ | ⟨unknown, -⟩
      · refine keeps _ _ called (fun _ => ?_) fun apart => absurd linked apart
        simp [Store.setThreshold]
      · exact absurd ⟨linked ▸ named, linked ▸ drives.listed⟩ unknown
    · have set := other st j state own driven
      rcases IOController.localSetValueIt_cases written with ⟨-, called⟩ | ⟨-, rfl⟩
      · exact keeps _ _ called (fun same => absurd (drives.sole sid j c member same) own) fun _ => set
      · exact set

theorem exclusive_driven (drives : Drives io z k d) (threshold : (io.thresholds z)[k]? = some t)
    (linked : t.sid = d) (n : Nat) (busy : List ObjectId) :
    KeepsDriven (exclusive io n busy) z k d := by
  refine exclusive_keeps (fun self keeps a out ran own others => ?_) n busy
  have written : (io.info a.sid).readonly = false → Driven z k d (a.store.setUsi a.sid
      ((a.store.usi a.sid).writeSection (io.info a.sid) a.store.clock a.value a.sup)) := by
    intro _
    by_cases here : a.sid = d
    · unfold Driven
      rw [← here, Store.setUsi_self, writeSection_realValue]
      exact own here
    · exact driven_setUsi (others here) fun same => absurd same here
  have base : ∀ out, IOController.localSetValue io self a = some out → Driven z k d out.1 := by
    intro out wrote
    rcases IOController.localSetValue_cases wrote with
      ⟨readonly, rfl⟩ | ⟨writable, -, rfl⟩ | ⟨writable, -, st, emitted, rfl⟩
    · refine others fun here => ?_
      rw [here, drives.writable] at readonly
      cases readonly
    · exact written writable
    · have kept : Driven z k d st := IOController.emitChange_keeps (P := Driven z k d)
        (fun _ _ _ _ checked => checkDepend_driven keeps checked) emitted (written writable)
      exact kept
  obtain ⟨_, wrote, rfl | ⟨notices, checked⟩⟩ := localSetValue_cases ran
  · exact base _ wrote
  · exact checkThreshold_driven drives keeps threshold linked checked (base _ wrote)

theorem Op.apply_driven (keeps : KeepsDriven self z k d) {op : IOController.Op}
    (ran : op.apply io self st = some st') (unwritten : ∀ value sup, op ≠ .setValue d value sup)
    (driven : Driven z k d st) : Driven z k d st' := by
  rcases IOController.Op.apply_cases ran with ⟨now, -, rfl⟩ |
    ⟨sid, value, sup, out, rfl, called, rfl⟩ | ⟨sid, set, value, sup, out, -, -, called, rfl⟩ | ⟨rfl, -⟩
  · exact driven
  · refine keeps _ _ called (fun own => ?_) fun _ => driven
    dsimp only at own
    rw [own] at unwritten
    exact absurd rfl (unwritten value sup)
  · have flagged : Driven z k d (st.setUsi sid ((st.usi sid).freezeSection set value)) :=
      driven_setUsi driven fun own => by rw [own]; rfl
    refine keeps _ _ called (fun own => ?_) fun _ => flagged
    dsimp only at own ⊢
    rw [own]
    exact driven
  · exact driven

/-! #### Whole runs -/

/-- **The rule for runs.** -/
theorem run_keeps {P : Store → Prop} {n : Nat} {now : Timespec}
    (depend : ∀ st s e out, IOController.checkDepend io (exclusive io n []) st s e = some out →
      P st → P out.1)
    (item : ∀ st s st', checkThreshold io (exclusive io n [s]) st s = some st' → P st → P st')
    (flag : ∀ st, P st → P { st with terminated := true })
    (request : ∀ st, ∀ op ∈ ops, ∀ st', op.apply io (exclusive io n []) st = some st' → P st → P st')
    (ran : run io n now ops = some st) (loaded : P (IOController.loaded io now)) :
    P st := by
  obtain ⟨active, activated, served⟩ := Option.bind_eq_some_iff.mp ran
  refine IOController.runOps_keeps request served ?_
  refine IOController.activateInit_keeps (fun st s out _ => depend st s _ out) ?_ flag activated loaded
  intro st s st' inited holds
  unfold initItem at inited
  split at inited
  · exact item st s st' inited holds
  · cases inited
    exact holds

/-- **The driven sensor shows the value of the state** while it is neither blocked nor frozen. -/
theorem run_driven (drives : Drives io z k d) (threshold : (io.thresholds z)[k]? = some t)
    (linked : t.sid = d) {n : Nat} {now : Timespec}
    (unwritten : ∀ value sup, .setValue d value sup ∉ ops) (ran : run io n now ops = some st)
    (unblocked : (st.usi d).blocked = false) (unfrozen : (st.usi d).frozen = false) :
    (st.usi d).value = if st.tstate z k ≠ .NormalThreshold then 1 else 0 := by
  obtain ⟨-, -, default, ok⟩ := IOList.first_spec drives.listed
  have visible : VisibleOk (io.info d) (st.usi d) :=
    run_keeps (P := fun st => VisibleOk (io.info d) (st.usi d))
      (fun _ _ _ _ checked =>
        IOController.checkDepend_visible (exclusive_visible io n []) checked drives.writable)
      (fun _ s _ checked => checkThreshold_visible (exclusive_visible io n [s]) checked drives.writable)
      (fun _ ok => ok)
      (fun _ _ _ _ applied =>
        IOController.Op.apply_visible (exclusive_visible io n []) applied drives.writable)
      ran ok
  have driven : Driven z k d st :=
    run_keeps (P := Driven z k d)
      (fun _ _ _ _ checked => checkDepend_driven (exclusive_driven drives threshold linked n []) checked)
      (fun _ s _ checked => checkThreshold_driven drives
        (exclusive_driven drives threshold linked n [s]) threshold linked checked)
      (fun _ driven => driven)
      (fun _ op member _ applied => Op.apply_driven (exclusive_driven drives threshold linked n [])
        applied fun value sup same => unwritten value sup (same ▸ member))
      ran (default.trans drives.default)
  rw [visible, shown, unfrozen, unblocked]
  exact driven

/-! #### The value at activation -/

variable {n : Nat}

theorem initItem_terminated (ran : initItem io n st s = some st') (asked : st.terminated = true) :
    st'.terminated = true := by
  unfold initItem at ran
  split at ran
  · exact checkThreshold_terminated (exclusive_terminated io n [s]) ran asked
  · cases ran
    exact asked

/-- A sensor that was not activated leaves a terminate request. -/
theorem activateShows_ne_nil (analog : (io.info z).type = .AI ∨ (io.info z).type = .AO)
    {visit : List ObjectId} (member : z ∈ visit)
    (ran : IOController.activateInit io (exclusive io n []) (initItem io n) st visit = some st')
    (runs : st'.terminated = false) : activateShows io z n st visit ≠ [] := by
  induction visit generalizing st with
  | nil => cases member
  | cons s rest ih =>
    obtain ⟨mid, inited, ran⟩ := Option.bind_eq_some_iff.mp ran
    rw [activateShows, inited]
    by_cases own : s = z
    · subst own
      have item : ∀ st, itemShows io s n st s ≠ [] := by
        intro st
        rw [itemShows, if_pos analog, if_pos rfl]
        exact List.cons_ne_nil _ _
      refine List.append_ne_nil_of_left_ne_nil ?_ _
      simp only [IOController.initSensor] at inited
      simp only [sensorShows]
      by_cases depends : (io.info s).dependSid ≠ defaultObjectId ∧ (io.info s).dependSid ∈ io.ids
      · rw [if_pos depends] at inited ⊢
        split at inited
        · cases inited
        · cases inited
          have asked : st'.terminated = true :=
            IOController.activateInit_keeps (P := fun st => st.terminated = true)
              (fun _ _ _ _ checked => checkDepend_terminated (exclusive_terminated io n []) checked)
              (fun _ _ _ => initItem_terminated) (fun _ _ => rfl) ran rfl
          rw [asked] at runs
          cases runs
        · rename_i checked
          rw [checked]
          exact List.append_ne_nil_of_right_ne_nil _ (item _)
      · rw [if_neg depends]
        exact item _
    · exact List.append_ne_nil_of_right_ne_nil _
        (ih ((List.mem_cons.mp member).resolve_left (Ne.symm own)) ran)

theorem Op.apply_terminated {op : IOController.Op}
    (ran : op.apply io (exclusive io n []) st = some st') (asked : st.terminated = true) :
    st'.terminated = true := by
  rcases IOController.Op.apply_cases ran with ⟨now, -, rfl⟩ |
    ⟨sid, value, sup, out, rfl, called, rfl⟩ | ⟨sid, set, value, sup, out, -, -, called, rfl⟩ | ⟨rfl, -⟩
  · exact asked
  · exact exclusive_terminated io n [] _ _ called asked
  · exact exclusive_terminated io n [] _ _ called asked
  · exact asked

/-- **The history of an activated sensor ends with the value that it shows.** -/
theorem history_getLast (threshold : (io.thresholds z)[k]? = some t) (listed : z ∈ io.ids)
    (analog : (io.info z).type = .AI ∨ (io.info z).type = .AO) {now : Timespec}
    (ran : run io n now ops = some st) (runs : st.terminated = false) :
    (history io n now ops z).getLast? = some (st.usi z).value := by
  have shows : history io n now ops z ≠ [] := by
    obtain ⟨active, activated, served⟩ := Option.bind_eq_some_iff.mp ran
    refine List.append_ne_nil_of_left_ne_nil (activateShows_ne_nil analog listed activated ?_) _
    refine Bool.eq_false_iff.mpr fun asked => ?_
    have asked : st.terminated = true :=
      IOController.runOps_keeps (P := fun st => st.terminated = true)
        (fun _ _ _ _ => Op.apply_terminated) served asked
    rw [asked] at runs
    cases runs
  have watched := (history_shown threshold ran).watched
  rcases List.eq_nil_or_concat (history io n now ops z) with none | ⟨before, v, split⟩
  · exact absurd none shows
  · rw [split, List.concat_eq_append, List.foldl_append] at watched
    rw [split, List.concat_eq_append, List.getLast?_concat]
    exact congrArg some (Prod.ext_iff.mp watched).2.symm

end Keeps

/-! ### Every run completes -/

/-- **On acyclic feeding every call has a result**: a busy sensor is not reached again. -/
theorem exclusive_isSome {io : IOList} (acyclic : Lib.Acyclic io.Feeds) (n : Nat)
    (busy : List ObjectId) (a : SetCall) (below : Lib.height io.Feeds io.ids a.sid < n)
    (above : ∀ b ∈ busy, Relation.TransGen io.Feeds b a.sid) : (exclusive io n busy a).isSome := by
  induction n generalizing busy a with
  | zero => exact absurd below (Nat.not_lt_zero _)
  | succ n ih =>
    rw [exclusive, if_neg fun again => acyclic a.sid (above a.sid again.1)]
    refine localSetValue_isSome fun c listed feeds st v sup => ih _ _ ?_ ?_
    · exact Nat.lt_of_lt_of_le (Lib.height_lt acyclic feeds listed) (Nat.lt_succ_iff.mp below)
    · intro b member
      rcases List.mem_cons.mp member with rfl | outer
      · exact .single feeds
      · exact (above b outer).tail feeds

/-- **On acyclic feeding every run completes.** -/
theorem run_completes (io : IOList) (acyclic : Lib.Acyclic io.Feeds) (now : Timespec)
    (ops : List IOController.Op) : ∃ st, run io (io.ids.length + 1) now ops = some st := by
  have returns : ∀ a, (exclusive io (io.ids.length + 1) [] a).isSome := fun a =>
    exclusive_isSome acyclic _ [] a (Nat.lt_succ_of_le (Lib.height_le io.ids a.sid)) nofun
  have inits : ∀ st s, (initItem io (io.ids.length + 1) st s).isSome := by
    intro st s
    unfold initItem
    split
    · refine checkThresholds_isSome (fun t member listed st v sup => ?_) _ _
      have feeds : io.Feeds s t.sid := .inr ⟨listed, t, member, rfl⟩
      refine exclusive_isSome acyclic _ [s] _ (Nat.lt_succ_of_le (Lib.height_le io.ids t.sid)) ?_
      intro b own
      rw [List.mem_singleton.mp own]
      exact .single feeds
    · rfl
  have activated : (activate io (io.ids.length + 1) now).isSome :=
    IOController.activateInit_isSome returns inits _ _
  obtain ⟨active, activatedEq⟩ := Option.isSome_iff_exists.mp activated
  have requests : (IOController.runOps io (exclusive io (io.ids.length + 1) []) active ops).isSome :=
    IOController.runOps_isSome returns active ops
  obtain ⟨st, served⟩ := Option.isSome_iff_exists.mp requests
  exact ⟨st, Option.bind_eq_some_iff.mpr ⟨active, activatedEq, served⟩⟩

/-! ### Hysteresis -/

/-- **The history passes the threshold**: some value reaches the limit that trips it, and no later one
reaches the other. -/
def Passed (t : ThresholdConf) (vs : List Value) : Prop :=
  if t.invert then Lib.Latched (fun v => v ≤ t.lowlimit) (fun v => t.hilimit ≤ v) vs
  else Lib.Latched (fun v => t.hilimit ≤ v) (fun v => v ≤ t.lowlimit) vs

theorem foldl_see (t : ThresholdConf) (vs : List Value) (s : ThresholdState × Value) :
    (vs.foldl (see t) s).1 = vs.foldl t.next s.1 := by
  induction vs generalizing s with
  | nil => rfl
  | cons v rest ih => exact ih (see t s v)

/-- The state of a threshold with ordered limits after a history. -/
theorem foldl_next (t : ThresholdConf) (limits : t.lowlimit < t.hilimit) (vs : List Value) :
    (vs.foldl t.next .NormalThreshold = (if t.invert then .LowThreshold else .HiThreshold) ↔
      Passed t vs) ∧
    (vs.foldl t.next .NormalThreshold = .NormalThreshold ↔ ¬ Passed t vs) := by
  rw [next_eq_latch]
  unfold Passed
  split
  · have apart : ∀ v, v ≤ t.lowlimit → ¬ t.hilimit ≤ v := fun v low high =>
      Int.not_lt.mpr low (Int.lt_of_lt_of_le limits high)
    have distinct : ThresholdState.LowThreshold ≠ .NormalThreshold := by decide
    exact ⟨Lib.foldl_latch_eq_on apart distinct vs, Lib.foldl_latch_eq_off apart distinct vs⟩
  · have apart : ∀ v, t.hilimit ≤ v → ¬ v ≤ t.lowlimit := fun v high low =>
      Int.not_lt.mpr low (Int.lt_of_lt_of_le limits high)
    have distinct : ThresholdState.HiThreshold ≠ .NormalThreshold := by decide
    exact ⟨Lib.foldl_latch_eq_on apart distinct vs, Lib.foldl_latch_eq_off apart distinct vs⟩

/-- **Threshold hysteresis.** In every run, for every threshold of an analog sensor: the history ends
with the value that the sensor shows; a threshold that is not inverted is in `HiThreshold` exactly if
some value of the history is at or above `hilimit` and no later one at or below `lowlimit`; an
inverted one is in `LowThreshold` exactly if some value is at or below `lowlimit` and no later one at
or above `hilimit`; and the discrete sensor that only the threshold writes shows 1 exactly in these
cases, while it is neither blocked nor frozen. -/
theorem hysteresis (io : IOList) (n : Nat) (now : Timespec) (ops : List IOController.Op) {st : Store}
    (ran : run io n now ops = some st) {z : ObjectId} (listed : z ∈ io.ids)
    (analog : (io.info z).type = .AI ∨ (io.info z).type = .AO) {k : Nat} {t : ThresholdConf}
    (threshold : (io.thresholds z)[k]? = some t) (limits : t.lowlimit < t.hilimit) :
    (st.terminated = false → (history io n now ops z).getLast? = some (st.usi z).value) ∧
    (t.invert = false →
      (st.tstate z k = .HiThreshold ↔ Passed t (history io n now ops z))) ∧
    (t.invert = true →
      (st.tstate z k = .LowThreshold ↔ Passed t (history io n now ops z))) ∧
    (Drives io z k t.sid → (∀ value sup, .setValue t.sid value sup ∉ ops) →
      (st.usi t.sid).blocked = false → (st.usi t.sid).frozen = false →
      ((st.usi t.sid).value = 1 ↔ Passed t (history io n now ops z))) := by
  have state : st.tstate z k = (history io n now ops z).foldl t.next .NormalThreshold :=
    (congrArg Prod.fst (history_shown threshold ran).watched).trans (foldl_see t _ _)
  obtain ⟨passed, normal⟩ := foldl_next t limits (history io n now ops z)
  rw [← state] at passed normal
  refine ⟨history_getLast threshold listed analog ran, fun plain => ?_, fun inverted => ?_, ?_⟩
  · rw [← passed, plain]
    rfl
  · rw [← passed, inverted]
    rfl
  · intro drives unwritten unblocked unfrozen
    rw [run_driven drives threshold rfl unwritten ran unblocked unfrozen]
    by_cases quiet : st.tstate z k = .NormalThreshold
    · simp [quiet, normal.mp quiet]
    · simp [quiet, not_not.mp (mt normal.mpr quiet)]

/-- The analog input of the tests of the shared memory, with its two thresholds. -/
def analogInput : IOList :=
  IOList.ofRead (rfl : readList ⟨0, 0⟩ []
      [{ id := 503, iotype := "AI" }, { id := 504, iotype := "DI" }, { id := 515, iotype := "DI" }] =
        .ok _)
    [515, 503, 504] [503, 504, 515] (by decide) (by decide) 100 fun s =>
      if s = 503 then [⟨504, 374, 376, false⟩, ⟨515, 25, 30, true⟩] else []

/-- The first threshold drives the first discrete input. -/
theorem analogInput_drives : Drives analogInput 503 0 504 where
  listed := by decide +kernel
  default := by decide +kernel
  writable := by decide +kernel
  sole s j t member linked := by
    change (if s = 503 then [⟨504, 374, 376, false⟩, ⟨515, 25, 30, true⟩] else [])[j]? = some t at member
    split at member
    · rename_i sensor
      match j with
      | 0 => exact ⟨sensor, rfl⟩
      | 1 =>
        cases member
        exact absurd linked (by decide)
    · cases member

/-- The input rises above the limit and is then frozen between the limits. -/
def riseAndFreeze : List IOController.Op :=
  [.setValue 503 400 100, .freezeValue 503 true 375 100, .setValue 503 7 100]

/-- No sensor that a threshold of the input writes feeds another one. -/
theorem analogInput_acyclic : Lib.Acyclic analogInput.Feeds := by
  refine Lib.acyclic_of_rank (fun s => if s = 503 then 0 else 1) fun a b feeds => ?_
  have alone : ∀ s ∈ analogInput.ids, (analogInput.info s).dependSid = defaultObjectId := by
    decide +kernel
  rcases feeds with dependant | ⟨-, t, member, rfl⟩
  · obtain ⟨listed, same, named, -⟩ := (analogInput.connected a b).mp dependant
    exact absurd (same.symm.trans (alone b listed)) named
  · change t ∈ (if a = 503 then [⟨504, 374, 376, false⟩, ⟨515, 25, 30, true⟩] else []) at member
    split_ifs at member with sensor
    · subst sensor
      rcases List.mem_cons.mp member with rfl | member
      · decide
      · rw [List.mem_singleton.mp member]
        decide
    · cases member

/-- The run of the input completes. -/
theorem analogInput_completes : ∃ st, run analogInput 4 ⟨0, 0⟩ riseAndFreeze = some st :=
  run_completes analogInput analogInput_acyclic ⟨0, 0⟩ riseAndFreeze

theorem hysteresis_analogInput : ∃ st, run analogInput 4 ⟨0, 0⟩ riseAndFreeze = some st ∧
    history analogInput 4 ⟨0, 0⟩ riseAndFreeze 503 = [0, 400, 375] ∧ (st.usi 504).value = 1 ∧
    (st.tstate 503 0 = .HiThreshold ↔ Passed ⟨504, 374, 376, false⟩ [0, 400, 375]) ∧
    ((st.usi 504).value = 1 ↔ Passed ⟨504, 374, 376, false⟩ [0, 400, 375]) := by
  obtain ⟨st, ran, shows, unblocked, unfrozen⟩ : ∃ st ∈ run analogInput 4 ⟨0, 0⟩ riseAndFreeze,
      (st.usi 504).value = 1 ∧ (st.usi 504).blocked = false ∧ (st.usi 504).frozen = false := by
    decide +kernel
  have values : history analogInput 4 ⟨0, 0⟩ riseAndFreeze 503 = [0, 400, 375] := by decide +kernel
  have unwritten : ∀ value sup, IOController.Op.setValue 504 value sup ∉ riseAndFreeze := by
    intro value sup member
    simp [riseAndFreeze] at member
  obtain ⟨-, plain, -, driven⟩ := hysteresis analogInput 4 ⟨0, 0⟩ riseAndFreeze ran (z := 503)
    (by decide +kernel) (by decide +kernel) (k := 0) (t := ⟨504, 374, 376, false⟩) rfl (by decide)
  rw [values] at plain driven
  exact ⟨st, ran, values, shows, plain rfl, driven analogInput_drives unwritten unblocked unfrozen⟩

end UniSet.Processes.IONotifyController

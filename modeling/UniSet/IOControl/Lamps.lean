/-
**The lists of blinking lamps over whole runs.**

* `Law` — the lists a lamp should be in after a pass.
* `Fits` — the condition on a round: the changes and the pass after them.
* `Inv` — what holds between the rounds.
* **`rounds_law_iff`**: the runs after whose passes every lamp is in the right lists are exactly those whose
  rounds meet the condition.
-/

import UniSet.IOControl.Moves
import UniSet.Lib.Machine

namespace UniSet.IOControl

open ModbusMaster (ObjectId IOType)

/-! ### What should hold and when it does -/

/-- **The lists after a pass.** Outside the test an analog lamp is in the list of its value and in no
other one; in the test every lamp that takes part is in `lstBlink` and in no other one. -/
structure Law (t : State) : Prop where
  value : ∀ i it, t.iomap[i]? = some it → it.stype = .AO → it.lamp = true →
    (t.trTestLamp.oldstate = false ∨ it.noTestlamp = true) → t.lists.marks i = belongs it.value
  test : ∀ i it, t.iomap[i]? = some it → it.takesPart = true → t.trTestLamp.oldstate = true →
    t.lists.marks i = {.lstBlink}

/-- The last value for a sensor in a round. -/
def Round.last (r : Round) (id : ObjectId) (value : Int) : Int := (valuesOf id r.changes).getLastD value

/-- The test as the pass of the round finds it. -/
def seenTest (c : Config) (s : State) (r : Round) : Bool :=
  match c.testLampS with
  | none => s.trTestLamp.oldstate
  | some id =>
    if c.forceOut then decide (r.last id (s.sm id) ≠ 0)
    else decide (r.last id (if s.isTestLamp then 1 else 0) ≠ 0)

/-- The test mode as the pass of the round finds it with `force_out`. -/
def seenMode (c : Config) (s : State) (r : Round) : Int :=
  match c.testModeAs with
  | none => s.testmode
  | some id => r.last id (s.sm id)

/-- The value of a lamp as the round leaves it: the last one of the messages, with `force_out` the one
in SharedMemory if the lamp is polled. -/
def seenValue (c : Config) (s : State) (r : Round) (it : IOInfo) : Int :=
  if c.forceOut then
    if seenMode c s r ≠ tmOffPoll ∧ it.readable c (seenMode c s r) = true then
      r.last it.si.id (s.sm it.si.id)
    else it.value
  else r.last it.si.id it.value

/-- **Nothing moves the lamp in the round**: with `force_out` the value is the one it has, or neither of
them blinks; without it all messages repeat the blinking value it has. -/
def Stays (c : Config) (s : State) (r : Round) (it : IOInfo) : Prop :=
  if c.forceOut then Steady it.value (seenValue c s r it)
  else ∀ v ∈ valuesOf it.si.id r.changes, Repeats it.value v

instance (c : Config) (s : State) (r : Round) (it : IOInfo) : Decidable (Stays c s r it) := by
  unfold Stays
  infer_instance

/-- **The condition for an analog lamp.** -/
structure LampFits (c : Config) (s : State) (r : Round) (i : Nat) (it : IOInfo) : Prop where
  /-- Outside the test something moves the lamp, or it is in the list of its value. -/
  outside : it.noTestlamp = true ∨ seenTest c s r = false ∧ s.trTestLamp.oldstate = false →
    Stays c s r it → s.lists.marks i = belongs it.value
  /-- In the test nothing moves it, or its value is `lmpBLINK`. -/
  during : it.noTestlamp = false → seenTest c s r = true →
    (s.trTestLamp.oldstate = true ∨ c.forceOut = true) → ¬ Stays c s r it →
      blinkOf (seenValue c s r it) = some .lstBlink
  /-- At the end of the test something moves it, or its value is not `lmpBLINK2` or `lmpBLINK3`. -/
  ends : it.noTestlamp = false → seenTest c s r = false → s.trTestLamp.oldstate = true →
    Stays c s r it → ∀ l, blinkOf (seenValue c s r it) = some l → l = .lstBlink

/-- **The condition**: it is met for every analog lamp. -/
def Fits (c : Config) (s : State) (r : Round) : Prop :=
  ∀ i it, s.iomap[i]? = some it → it.stype = .AO → it.lamp = true → LampFits c s r i it

/-- The values for analog lamps are commands for lamps. -/
def Valid (config : List IOInfo) (r : Round) : Prop :=
  ∀ it ∈ config, it.stype = .AO → it.lamp = true → ∀ v ∈ valuesOf it.si.id r.changes, LampValue v

/-- **What holds between the rounds.** -/
structure Inv (config : List IOInfo) (s : State) : Prop where
  config : s.config = config
  good : s.lists.Good
  values : ∀ (i : Nat) (it : IOInfo), s.iomap[i]? = some it → it.stype = .AO → it.lamp = true →
    LampValue it.value ∧ LampValue (s.sm it.si.id)
  tested : ∀ i it, s.iomap[i]? = some it → it.stype = .AO → it.lamp = true →
    it.noTestlamp = false → s.trTestLamp.oldstate = true → s.lists.marks i = {.lstBlink}
  /-- Before the first pass a lamp may be in no list. -/
  untested : ∀ i it, s.iomap[i]? = some it → it.stype = .AO → it.lamp = true →
    (it.noTestlamp = true ∨ s.trTestLamp.oldstate = false) →
      s.lists.marks i = belongs it.value ∨ s.lists.marks i = ∅
  discrete : ∀ i it, s.iomap[i]? = some it → it.stype = .DO → it.takesPart = true →
    s.lists.marks i = if s.trTestLamp.oldstate then {.lstBlink} else ∅

/-! ### One round -/

section Round

variable {c : Config} {s : State} {r : Round} {i : Nat} {it : IOInfo}

theorem last_lampValue {id : ObjectId} {v : Int} (values : ∀ w ∈ valuesOf id r.changes, LampValue w)
    (value : LampValue v) : LampValue (r.last id v) := by
  rcases List.mem_cons.mp (List.getLastD_mem_cons (l := valuesOf id r.changes) (a := v)) with h | h
  · rw [Round.last, h]
    exact value
  · exact values _ h

/-- Where nothing moves the lamp, the same lists belong to its value. -/
theorem Stays.belongs (stays : Stays c s r it) : belongs (seenValue c s r it) = belongs it.value := by
  unfold Stays at stays
  split at stays
  · rcases stays with same | ⟨before, after⟩
    · rw [same]
    · rw [belongs_eq_empty before, belongs_eq_empty after]
  · next notForced =>
    unfold seenValue Round.last
    rw [if_neg notForced]
    rcases List.mem_cons.mp
      (List.getLastD_mem_cons (l := valuesOf it.si.id r.changes) (a := it.value)) with h | h
    · rw [h]
    · rw [(stays _ h).1]

/-- The test as `check_testlamp` takes it. -/
def checkedTest (c : Config) (s : State) : Bool :=
  match c.testLampS with
  | none => s.trTestLamp.oldstate
  | some id => if c.forceOut then decide (s.sm id ≠ 0) else s.isTestLamp

theorem setTest_spec {s : State} (good : s.lists.Good) (on : Bool) :
    (s.setTest on).trTestLamp = ⟨on⟩ ∧ (s.setTest on).lists.Good ∧
      ∀ i it, s.iomap[i]? = some it → (s.setTest on).lists.marks i =
        if on = s.trTestLamp.oldstate then s.lists.marks i
        else testMarks on it (s.lists.marks i) := by
  unfold State.setTest
  dsimp only [Trigger.change]
  obtain ⟨good', marks'⟩ := State.testItems_marks on s.iomap 0 good
  by_cases same : on = s.trTestLamp.oldstate
  · have still : decide (s.trTestLamp.oldstate ≠ on) = false := by simp [same]
    rw [still]
    exact ⟨rfl, good, fun _ _ _ => (if_pos same).symm⟩
  · have edge : decide (s.trTestLamp.oldstate ≠ on) = true := by simpa using Ne.symm same
    rw [edge]
    refine ⟨rfl, good', fun i it hit => ?_⟩
    rw [if_neg same]
    refine (marks' i).trans ?_
    rw [if_pos (Nat.zero_le i), Nat.sub_zero, hit]
    rfl

/-- The trigger and the lists behind `check_testlamp`. -/
theorem checkTestlamp_spec (c : Config) {s : State} (good : s.lists.Good) :
    (s.checkTestlamp c).trTestLamp = ⟨checkedTest c s⟩ ∧ (s.checkTestlamp c).lists.Good ∧
      ∀ i it, s.iomap[i]? = some it → (s.checkTestlamp c).lists.marks i =
        if checkedTest c s = s.trTestLamp.oldstate then s.lists.marks i
        else testMarks (checkedTest c s) it (s.lists.marks i) := by
  unfold State.checkTestlamp checkedTest
  cases c.testLampS with
  | none => exact ⟨rfl, good, fun _ _ _ => (if_pos rfl).symm⟩
  | some id => exact setTest_spec good _

theorem checkTestlamp_rest (c : Config) (s : State) :
    (s.checkTestlamp c).iomap = s.iomap ∧ (s.checkTestlamp c).sm = s.sm ∧
      (s.checkTestlamp c).testmode = s.testmode := by
  unfold State.checkTestlamp
  split
  · exact ⟨rfl, rfl, rfl⟩
  · exact ⟨rfl, rfl, rfl⟩

theorem checkTestmode_eq (c : Config) (s : State) :
    ∃ mode, s.checkTestmode c = { s with testmode := mode } ∧
      (c.forceOut = true → mode = c.testModeAs.elim s.testmode s.sm) := by
  unfold State.checkTestmode
  split
  · next h => exact ⟨s.testmode, rfl, fun _ => by rw [h]; rfl⟩
  · next id h =>
    split
    · exact ⟨s.sm id, rfl, fun _ => by rw [h]; rfl⟩
    · next notForced => exact ⟨s.testmode, rfl, fun forced => absurd forced notForced⟩

/-- The lists behind `check_testlamp` in the round. -/
def testedMarks (c : Config) (s : State) (r : Round) (it : IOInfo) (m : Set BlinkList) :
    Set BlinkList :=
  if seenTest c s r = s.trTestLamp.oldstate then m else testMarks (seenTest c s r) it m

/-- The changes of a round and the check of the test: what `iopoll` starts from. -/
theorem checked_spec (good : s.lists.Good) :
    ∃ u : State, s.round c r = u.iopoll c r.inputs ∧ u.trTestLamp = ⟨seenTest c s r⟩ ∧
      u.config = s.config ∧ u.lists.Good ∧ (∀ id, u.sm id = r.last id (s.sm id)) ∧
      (c.forceOut = true → u.testmode = seenMode c s r) ∧
      u.iomap = (r.changes.foldl (State.change c) s).iomap ∧
      ∀ i it, (r.changes.foldl (State.change c) s).iomap[i]? = some it → u.lists.marks i =
        testedMarks c s r it ((r.changes.foldl (State.change c) s).lists.marks i) := by
  have frame := changes_frame r.changes c s
  have sm := changes_sm r.changes c s
  obtain ⟨mode, hmode, forcedMode⟩ := checkTestmode_eq c (r.changes.foldl (State.change c) s)
  obtain ⟨tr, good', marks⟩ := checkTestlamp_spec c
    (s := (r.changes.foldl (State.change c) s).checkTestmode c) (by rw [hmode]; exact frame.good good)
  obtain ⟨iomap, sm', mode'⟩ :=
    checkTestlamp_rest c ((r.changes.foldl (State.change c) s).checkTestmode c)
  have same : checkedTest c ((r.changes.foldl (State.change c) s).checkTestmode c) =
      seenTest c s r := by
    rw [hmode]
    unfold checkedTest seenTest
    cases sensor : c.testLampS with
    | none =>
      dsimp only
      rw [frame.trTestLamp]
    | some id =>
      dsimp only
      split
      · rw [sm id]
        rfl
      · next notForced =>
        rw [changes_test r.changes (Bool.eq_false_iff.mpr notForced) sensor]
        rfl
  refine ⟨_, rfl, by rw [tr, same], ?_, good', ?_, ?_, ?_, ?_⟩
  · unfold State.config
    rw [iomap, hmode]
    exact frame.config
  · intro id
    rw [sm', hmode]
    exact sm id
  · intro forced
    rw [mode', hmode]
    dsimp only
    rw [forcedMode forced]
    unfold seenMode
    obtain ⟨smAll, unchanged⟩ := changes_forced r.changes forced s
    cases c.testModeAs with
    | none => rw [unchanged]; rfl
    | some id => exact sm id
  · rw [iomap, hmode]
  · intro i it hit
    have item : ((r.changes.foldl (State.change c) s).checkTestmode c).iomap[i]? = some it := by
      rw [hmode]
      exact hit
    rw [marks i it item, same, hmode]
    dsimp only
    rw [frame.trTestLamp]
    rfl

/-- **An analog lamp in a round.** -/
theorem round_lamp (good : s.lists.Good) (unique : UniqueIds s.iomap)
    (hit : s.iomap[i]? = some it) (ao : it.stype = .AO) (lamp : it.lamp = true)
    (values : ∀ v ∈ valuesOf it.si.id r.changes, LampValue v) (value : LampValue (s.sm it.si.id)) :
    (s.round c r).iomap[i]? = some (it.withValue (seenValue c s r it)) ∧
      (s.round c r).sm it.si.id = r.last it.si.id (s.sm it.si.id) ∧
      (s.round c r).lists.marks i =
        if c.forceOut then
          if Stays c s r it then testedMarks c s r it (s.lists.marks i)
          else belongs (seenValue c s r it)
        else testedMarks c s r (it.withValue (seenValue c s r it))
          (if Stays c s r it then s.lists.marks i else belongs (seenValue c s r it)) := by
  obtain ⟨u, hround, -, config, good', sm, mode, iomap, marks⟩ := checked_spec (c := c) (r := r) good
  have unique' : UniqueIds u.iomap := by
    rw [← uniqueIds_config, config, uniqueIds_config]
    exact unique
  have value' : LampValue (u.sm it.si.id) := by
    rw [sm]
    exact last_lampValue values value
  rw [hround]
  rcases Bool.eq_false_or_eq_true c.forceOut with forced | notForced
  · obtain ⟨smAll, unchanged⟩ := changes_forced r.changes forced s
    have here : (r.changes.foldl (State.change c) s).iomap[i]? = some it := by
      rw [unchanged]
      exact hit
    obtain ⟨item, marks', sm'⟩ := iopoll_lamp (c := c) r.inputs good' unique'
      (iomap ▸ here) ao lamp value'
    have seen : polledValue c u it = seenValue c s r it := by
      unfold polledValue seenValue
      rw [mode forced, sm, if_pos forced]
      simp only [forced, true_and]
    have stays : Stays c s r it ↔ Steady it.value (seenValue c s r it) := by
      unfold Stays
      rw [if_pos forced]
    rw [seen] at item marks'
    refine ⟨item, sm'.trans (sm _), ?_⟩
    rw [marks', if_pos forced, marks i it here, unchanged]
    exact if_congr stays.symm rfl rfl
  · obtain ⟨here, moved⟩ := changes_lamp r.changes notForced good unique hit ao lamp values
    have seen : (valuesOf it.si.id r.changes).getLastD it.value = seenValue c s r it := by
      unfold seenValue
      rw [notForced]
      rfl
    rw [seen] at here moved
    have here' : u.iomap[i]? = some (it.withValue (seenValue c s r it)) := by rw [iomap, here]
    obtain ⟨item, marks', sm'⟩ := iopoll_lamp (c := c) r.inputs good' unique' here' ao lamp value'
    have still : polledValue c u (it.withValue (seenValue c s r it)) = seenValue c s r it := by
      unfold polledValue
      rw [notForced, if_neg fun h => by cases h.1]
      rfl
    have stays : Stays c s r it ↔ ∀ v ∈ valuesOf it.si.id r.changes, Repeats it.value v := by
      unfold Stays
      rw [notForced, if_neg Bool.false_ne_true]
    have steady : Steady (it.withValue (seenValue c s r it)).value (seenValue c s r it) := Or.inl rfl
    rw [still] at item marks'
    refine ⟨item, sm'.trans (sm _), ?_⟩
    rw [marks', if_pos steady, notForced, if_neg Bool.false_ne_true, marks i _ here, moved]
    congr 1
    exact if_congr stays.symm rfl rfl

theorem round_trTestLamp (good : s.lists.Good) :
    (s.round c r).trTestLamp = ⟨seenTest c s r⟩ ∧ (s.round c r).config = s.config ∧
      (s.round c r).lists.Good := by
  obtain ⟨u, hround, tr, config, good', -⟩ := checked_spec (c := c) (r := r) good
  have frame := iopoll_frame (c := c) r.inputs u
  rw [hround]
  exact ⟨frame.trTestLamp.trans tr, frame.config.trans config, frame.good good'⟩

/-- **A lamp of another type in a round**: only the test moves it. -/
theorem round_discrete (good : s.lists.Good) (hit : s.iomap[i]? = some it) (do' : it.stype = .DO) :
    (s.round c r).lists.marks i = testedMarks c s r it (s.lists.marks i) := by
  obtain ⟨u, hround, -, config, good', -, -, iomap, marks⟩ := checked_spec (c := c) (r := r) good
  have frame := changes_frame r.changes c s
  obtain ⟨it', hit', same⟩ := static_of_config frame.config.symm hit
  have stype : it'.stype = .DO := (congrArg (fun x => x.stype) same).symm.trans do'
  have part : it'.takesPart = it.takesPart := (congrArg IOInfo.takesPart same).symm
  have polled : (u.iopoll c r.inputs).lists.marks i = u.lists.marks i := by
    unfold State.iopoll
    split
    · rfl
    · exact reads_discrete _ _ good' (iomap ▸ hit') stype
  rw [hround, polled, marks i it' hit', changes_discrete r.changes good hit do']
  unfold testedMarks testMarks
  rw [part, stype, do']
  rfl

/-! ### What a round does to an analog lamp, by the state of the test -/

variable {m : Set BlinkList}

/-- The lists an analog lamp has behind a round. -/
def roundMarks (c : Config) (s : State) (r : Round) (it : IOInfo) (m : Set BlinkList) : Set BlinkList :=
  if c.forceOut then
    if Stays c s r it then testedMarks c s r it m else belongs (seenValue c s r it)
  else testedMarks c s r (it.withValue (seenValue c s r it))
    (if Stays c s r it then m else belongs (seenValue c s r it))

theorem testedMarks_none (it' : IOInfo) (part : it'.takesPart = false ∨
    seenTest c s r = s.trTestLamp.oldstate) : testedMarks c s r it' m = m := by
  unfold testedMarks testMarks
  rcases part with part | part
  · rw [part]
    split
    · rfl
    · rfl
  · rw [if_pos part]

theorem roundMarks_outside (outside : it.takesPart = false ∨
    seenTest c s r = s.trTestLamp.oldstate) :
    roundMarks c s r it m = if Stays c s r it then m else belongs (seenValue c s r it) := by
  have out : ((it.withValue (seenValue c s r it)).takesPart = false) ∨
      seenTest c s r = s.trTestLamp.oldstate := outside
  unfold roundMarks
  rw [testedMarks_none it outside, testedMarks_none _ out]
  split
  · rfl
  · rfl

theorem roundMarks_begins (ao : it.stype = .AO) (part : it.takesPart = true)
    (on : seenTest c s r = true) (off : s.trTestLamp.oldstate = false) :
    roundMarks c s r it m =
      if c.forceOut = true ∧ ¬ Stays c s r it then belongs (seenValue c s r it) else {.lstBlink} := by
  have edge : ∀ it' : IOInfo, it'.stype = .AO → it'.takesPart = true → ∀ m' : Set BlinkList,
      testedMarks c s r it' m' = {.lstBlink} := by
    intro it' ao' part' m'
    unfold testedMarks testMarks
    rw [on, off, if_neg (by decide), if_pos part', if_pos rfl, if_pos ao']
  unfold roundMarks
  rw [edge it ao part, edge (it.withValue (seenValue c s r it)) ao part]
  split_ifs <;> simp_all

/-- What the end of the test makes of the lists of a lamp with a value. -/
def endMarks (v : Int) (m : Set BlinkList) : Set BlinkList := if blinks v then m ∪ belongs v else ∅

theorem blinks_iff (v : Int) : blinks v = true ↔ (belongs v).Nonempty :=
  Option.isSome_iff_exists

theorem endMarks_congr {v w : Int} (same : belongs v = belongs w) : endMarks v m = endMarks w m := by
  unfold endMarks
  rw [same]
  exact if_congr (by rw [blinks_iff, blinks_iff, same]) rfl rfl

theorem endMarks_belongs (v : Int) : endMarks v (belongs v) = belongs v := by
  unfold endMarks
  split
  · exact Set.union_self _
  · next steady => exact (belongs_eq_empty (Bool.eq_false_iff.mpr steady)).symm

/-- A lamp of `lstBlink` is in the list of its value behind the end of the test, unless it blinks in
another one. -/
theorem endMarks_lstBlink (v : Int) : endMarks v {.lstBlink} = belongs v ↔
    ∀ l, blinkOf v = some l → l = .lstBlink := by
  unfold endMarks
  cases hl : blinkOf v with
  | none =>
    rw [blinks_of_none hl, belongs_eq_empty (blinks_of_none hl)]
    exact iff_of_true rfl fun l h => nomatch h
  | some l =>
    rw [blinks_of_some hl, belongs_eq_singleton hl, if_pos rfl]
    constructor
    · intro h l' hl'
      cases hl'
      have here : BlinkList.lstBlink ∈ ({l} : Set BlinkList) := by
        rw [← h]
        exact Or.inl rfl
      exact here.symm
    · intro h
      rw [h l rfl, Set.union_self]

theorem roundMarks_ends (ao : it.stype = .AO) (part : it.takesPart = true)
    (off : seenTest c s r = false) (on : s.trTestLamp.oldstate = true) :
    roundMarks c s r it m =
      if Stays c s r it then endMarks (seenValue c s r it) m else belongs (seenValue c s r it) := by
  have edge : ∀ it' : IOInfo, it'.stype = .AO → it'.takesPart = true → ∀ m' : Set BlinkList,
      testedMarks c s r it' m' = endMarks it'.value m' := by
    intro it' ao' part' m'
    unfold testedMarks testMarks endMarks
    rw [on, off, if_neg (by decide), if_pos part', if_neg (by decide), if_pos ao']
  unfold roundMarks
  rw [edge it ao part, edge (it.withValue (seenValue c s r it)) ao part]
  show (if c.forceOut then
      if Stays c s r it then endMarks it.value m else belongs (seenValue c s r it)
    else endMarks (seenValue c s r it) (if Stays c s r it then m else belongs (seenValue c s r it))) = _
  by_cases stays : Stays c s r it
  · rw [if_pos stays, if_pos stays, if_pos stays, endMarks_congr stays.belongs.symm]
    exact ite_self _
  · rw [if_neg stays, if_neg stays, if_neg stays, endMarks_belongs]
    exact ite_self _

/-! ### The property of a round and its condition -/

theorem belongs_eq_lstBlink (v : Int) : belongs v = {.lstBlink} ↔ blinkOf v = some .lstBlink := by
  constructor
  · intro h
    have here : BlinkList.lstBlink ∈ belongs v := by
      rw [h]
      rfl
    exact here
  · exact belongs_eq_singleton

variable {config : List IOInfo}

theorem takesPart_of_ao (ao : it.stype = .AO) (lamp : it.lamp = true) :
    it.takesPart = !it.noTestlamp := by
  unfold IOInfo.takesPart
  rw [ao, lamp]
  cases it.noTestlamp <;> rfl

/-- What `Law` says about an analog lamp behind the round. -/
def LampLaw (c : Config) (s : State) (r : Round) (i : Nat) (it : IOInfo) : Prop :=
  (seenTest c s r = false ∨ it.noTestlamp = true →
      (s.round c r).lists.marks i = belongs (seenValue c s r it)) ∧
    (it.noTestlamp = false → seenTest c s r = true → (s.round c r).lists.marks i = {.lstBlink})

/-- Outside the test the law asks for the list of the value. -/
theorem lampLaw_outside (outside : seenTest c s r = false ∨ it.noTestlamp = true) :
    LampLaw c s r i it ↔ (s.round c r).lists.marks i = belongs (seenValue c s r it) := by
  constructor
  · exact fun law => law.1 outside
  · intro value
    refine ⟨fun _ => value, fun part on => ?_⟩
    rcases outside with off | out
    · rw [on] at off
      cases off
    · rw [part] at out
      cases out

theorem lampLaw_test (part : it.noTestlamp = false) (on : seenTest c s r = true) :
    LampLaw c s r i it ↔ (s.round c r).lists.marks i = {.lstBlink} := by
  constructor
  · exact fun law => law.2 part on
  · intro test
    refine ⟨fun outside => ?_, fun _ _ => test⟩
    rcases outside with off | out
    · rw [on] at off
      cases off
    · rw [part] at out
      cases out

theorem lampFits_outside (outside : it.noTestlamp = true ∨
    seenTest c s r = false ∧ s.trTestLamp.oldstate = false) :
    LampFits c s r i it ↔ (Stays c s r it → s.lists.marks i = belongs it.value) := by
  constructor
  · exact fun fits => fits.outside outside
  · intro value
    refine ⟨fun _ => value, fun part on => ?_, fun part _ before => ?_⟩
    · rcases outside with out | ⟨off, -⟩
      · rw [part] at out
        cases out
      · rw [on] at off
        cases off
    · rcases outside with out | ⟨-, none⟩
      · rw [part] at out
        cases out
      · rw [before] at none
        cases none

theorem lampFits_test (part : it.noTestlamp = false) (on : seenTest c s r = true) :
    LampFits c s r i it ↔ ((s.trTestLamp.oldstate = true ∨ c.forceOut = true) → ¬ Stays c s r it →
      blinkOf (seenValue c s r it) = some .lstBlink) := by
  constructor
  · exact fun fits => fits.during part on
  · intro blinks
    refine ⟨fun outside => ?_, fun _ _ => blinks, fun _ off => ?_⟩
    · rcases outside with out | ⟨off, -⟩
      · rw [part] at out
        cases out
      · rw [on] at off
        cases off
    · rw [on] at off
      cases off

theorem lampFits_ends (part : it.noTestlamp = false) (off : seenTest c s r = false)
    (before : s.trTestLamp.oldstate = true) : LampFits c s r i it ↔
      (Stays c s r it → ∀ l, blinkOf (seenValue c s r it) = some l → l = .lstBlink) := by
  constructor
  · exact fun fits => fits.ends part off before
  · intro blinks
    refine ⟨fun outside => ?_, fun _ on => ?_, fun _ _ _ => blinks⟩
    · rcases outside with out | ⟨-, none⟩
      · rw [part] at out
        cases out
      · rw [before] at none
        cases none
    · rw [off] at on
      cases on

/-- Outside the test a lamp is in the list of its value exactly if something moves it or it was there. -/
theorem outside_iff (same : roundMarks c s r it m =
    if Stays c s r it then m else belongs (seenValue c s r it)) :
    roundMarks c s r it m = belongs (seenValue c s r it) ↔ (Stays c s r it → m = belongs it.value) := by
  rw [same]
  by_cases stays : Stays c s r it
  · rw [if_pos stays, stays.belongs]
    exact ⟨fun h _ => h, fun h => h stays⟩
  · rw [if_neg stays]
    exact iff_of_true rfl fun h => absurd h stays

/-- **The lists of an analog lamp are right behind a round exactly if the condition is met for it.** -/
theorem lampLaw_iff (inv : Inv config s) (hit : s.iomap[i]? = some it) (ao : it.stype = .AO)
    (lamp : it.lamp = true) (marks : (s.round c r).lists.marks i =
      roundMarks c s r it (s.lists.marks i)) : LampLaw c s r i it ↔ LampFits c s r i it := by
  have takes := takesPart_of_ao ao lamp
  cases part : it.noTestlamp with
  | true =>
    rw [part] at takes
    rw [lampLaw_outside (Or.inr part), lampFits_outside (Or.inl part), marks]
    exact outside_iff (roundMarks_outside (Or.inl takes))
  | false =>
    rw [part] at takes
    rcases Bool.eq_false_or_eq_true (seenTest c s r) with on | off <;>
      rcases Bool.eq_false_or_eq_true s.trTestLamp.oldstate with before | before
    · -- the test goes on
      rw [lampLaw_test part on, lampFits_test part on, marks,
        roundMarks_outside (Or.inr (on.trans before.symm)), inv.tested i it hit ao lamp part before]
      by_cases stays : Stays c s r it
      · rw [if_pos stays]
        exact iff_of_true rfl fun _ moved => absurd stays moved
      · rw [if_neg stays, belongs_eq_lstBlink]
        exact ⟨fun blinks _ _ => blinks, fun fits => fits (Or.inl before) stays⟩
    · -- it begins
      rw [lampLaw_test part on, lampFits_test part on, marks, roundMarks_begins ao takes on before]
      by_cases moved : c.forceOut = true ∧ ¬ Stays c s r it
      · rw [if_pos moved, belongs_eq_lstBlink]
        exact ⟨fun blinks _ _ => blinks, fun fits => fits (Or.inr moved.1) moved.2⟩
      · rw [if_neg moved]
        refine iff_of_true rfl fun forced stays => ?_
        rcases forced with was | force
        · rw [before] at was
          cases was
        · exact absurd ⟨force, stays⟩ moved
    · -- it ends
      rw [lampLaw_outside (Or.inl off), lampFits_ends part off before, marks,
        roundMarks_ends ao takes off before, inv.tested i it hit ao lamp part before]
      by_cases stays : Stays c s r it
      · rw [if_pos stays, endMarks_lstBlink]
        exact ⟨fun blinks _ => blinks, fun fits => fits stays⟩
      · rw [if_neg stays]
        exact iff_of_true rfl fun h => absurd h stays
    · -- there is none
      rw [lampLaw_outside (Or.inl off), lampFits_outside (Or.inr ⟨off, before⟩), marks]
      exact outside_iff (roundMarks_outside (Or.inr (off.trans before.symm)))

/-- A discrete lamp is in `lstBlink` during the test and in no list outside it. -/
theorem round_discrete_marks (inv : Inv config s) (hit : s.iomap[i]? = some it)
    (do' : it.stype = .DO) (part : it.takesPart = true) :
    (s.round c r).lists.marks i = if seenTest c s r then {.lstBlink} else ∅ := by
  rw [round_discrete inv.good hit do', inv.discrete i it hit do' part]
  unfold testedMarks testMarks
  rw [part, do']
  rcases Bool.eq_false_or_eq_true (seenTest c s r) with on | off <;>
    rcases Bool.eq_false_or_eq_true s.trTestLamp.oldstate with before | before
  · rw [on, before]
    rfl
  · rw [on, before]
    simp
  · rw [off, before]
    ext l
    simp
  · rw [off, before]
    rfl

/-- An item behind the round and the one before it. -/
theorem item_of_round (inv : Inv config s) {it' : IOInfo} (hit' : (s.round c r).iomap[i]? = some it') :
    ∃ it, s.iomap[i]? = some it ∧ it'.static = it.static :=
  static_of_config (round_trTestLamp inv.good).2.1 hit'

variable (unique : UniqueIds config) (valid : Valid config r) (inv : Inv config s)
include unique valid inv

/-- An analog lamp behind a round: its item, its lists and its sensor. -/
theorem lamp_of_round (hit : s.iomap[i]? = some it) (ao : it.stype = .AO) (lamp : it.lamp = true) :
    (s.round c r).iomap[i]? = some (it.withValue (seenValue c s r it)) ∧
      (s.round c r).lists.marks i = roundMarks c s r it (s.lists.marks i) ∧
      LampValue (seenValue c s r it) ∧ LampValue ((s.round c r).sm it.si.id) := by
  have unique' : UniqueIds s.iomap := by
    rw [← uniqueIds_config, inv.config]
    exact unique
  have member : it.static ∈ config := by
    rw [← inv.config]
    exact List.mem_map_of_mem (List.mem_of_getElem? hit)
  obtain ⟨value, smValue⟩ := inv.values i it hit ao lamp
  have values : ∀ v ∈ valuesOf it.si.id r.changes, LampValue v := valid it.static member ao lamp
  obtain ⟨item, sm, marks⟩ := round_lamp (c := c) inv.good unique' hit ao lamp values smValue
  refine ⟨item, marks, ?_, sm.symm ▸ last_lampValue values smValue⟩
  unfold seenValue
  split
  · split
    · exact last_lampValue values smValue
    · exact value
  · exact last_lampValue values value

/-- **The lists are right behind a round exactly if the condition is met.** -/
theorem law_round_iff : Law (s.round c r) ↔ Fits c s r := by
  have test : (s.round c r).trTestLamp.oldstate = seenTest c s r := by
    rw [(round_trTestLamp inv.good).1]
  constructor
  · intro law i it hit ao lamp
    obtain ⟨item, marks, -, -⟩ := lamp_of_round (c := c) unique valid inv hit ao lamp
    refine (lampLaw_iff inv hit ao lamp marks).mp ⟨fun h => ?_, fun out on => ?_⟩
    · exact law.value i _ item ao lamp (by rw [test]; exact h)
    · refine law.test i _ item ?_ (by rw [test]; exact on)
      exact (takesPart_of_ao ao lamp).trans (by rw [out]; rfl)
  · intro fits
    refine ⟨fun i it' hit' ao' lamp' h => ?_, fun i it' hit' part' on => ?_⟩
    · obtain ⟨it, hit, same⟩ := item_of_round inv hit'
      have ao : it.stype = .AO := (congrArg (fun x => x.stype) same).symm.trans ao'
      have lamp : it.lamp = true := (congrArg IOInfo.lamp same).symm.trans lamp'
      obtain ⟨item, marks, -, -⟩ := lamp_of_round (c := c) unique valid inv hit ao lamp
      rw [item] at hit'
      cases hit'
      rw [test] at h
      exact ((lampLaw_iff inv hit ao lamp marks).mpr (fits i it hit ao lamp)).1 h
    · obtain ⟨it, hit, same⟩ := item_of_round inv hit'
      have part : it.takesPart = true := (congrArg IOInfo.takesPart same).symm.trans part'
      rw [test] at on
      unfold IOInfo.takesPart at part
      simp only [Bool.and_eq_true, Bool.not_eq_true', Bool.or_eq_true, decide_eq_true_eq] at part
      obtain ⟨⟨lamp, out⟩, ao | do'⟩ := part
      · obtain ⟨-, marks, -, -⟩ := lamp_of_round (c := c) unique valid inv hit ao lamp
        exact ((lampLaw_iff inv hit ao lamp marks).mpr (fits i it hit ao lamp)).2 out on
      · rw [round_discrete_marks inv hit do' ((congrArg IOInfo.takesPart same).symm.trans part'), on]
        rfl

/-- A round with the right lists keeps the invariant. -/
theorem Inv.round (law : Law (s.round c r)) : Inv config (s.round c r) := by
  obtain ⟨tr, same, good⟩ := round_trTestLamp (c := c) (r := r) inv.good
  have before : ∀ (i : Nat) (it' : IOInfo), (s.round c r).iomap[i]? = some it' → it'.stype = .AO → it'.lamp = true →
      LampValue it'.value ∧ LampValue ((s.round c r).sm it'.si.id) := by
    intro i it' hit' ao' lamp'
    obtain ⟨it, hit, static⟩ := item_of_round inv hit'
    have ao : it.stype = .AO := (congrArg (fun x => x.stype) static).symm.trans ao'
    have lamp : it.lamp = true := (congrArg IOInfo.lamp static).symm.trans lamp'
    obtain ⟨item, -, value, sm⟩ := lamp_of_round (c := c) unique valid inv hit ao lamp
    rw [item] at hit'
    cases hit'
    exact ⟨value, sm⟩
  refine ⟨same.trans inv.config, good, before, ?_, ?_, ?_⟩
  · intro i it' hit' ao lamp out on
    exact law.test i it' hit' ((takesPart_of_ao ao lamp).trans (by rw [out]; rfl)) on
  · intro i it' hit' ao lamp h
    exact Or.inl (law.value i it' hit' ao lamp h.symm)
  · intro i it' hit' do'' part'
    obtain ⟨it, hit, static⟩ := item_of_round inv hit'
    have do' : it.stype = .DO := (congrArg (fun x => x.stype) static).symm.trans do''
    have part : it.takesPart = true := (congrArg IOInfo.takesPart static).symm.trans part'
    rw [round_discrete_marks inv hit do' part, tr]

end Round

/-! ### Runs -/

/-- **The states a run of passes starts from**: the configuration is read, every sensor has one item, the
values of the analog lamps are commands, and the channels have been polled once or not at all. -/
inductive Start (c : Config) : State → Prop
  | init (sm : SMValues) (iomap : List IOInfo) (unique : UniqueIds iomap)
      (values : ∀ it ∈ iomap, it.stype = .AO → it.lamp = true →
        LampValue it.value ∧ LampValue (sm it.si.id)) : Start c (State.init sm iomap)
  | polled (sm : SMValues) (iomap : List IOInfo) (inputs : Nat → Int) (unique : UniqueIds iomap)
      (values : ∀ it ∈ iomap, it.stype = .AO → it.lamp = true →
        LampValue it.value ∧ LampValue (sm it.si.id)) :
      Start c ((State.init sm iomap).iopoll { c with force := true } inputs)

theorem inv_init {sm : SMValues} {iomap : List IOInfo}
    (values : ∀ it ∈ iomap, it.stype = .AO → it.lamp = true →
      LampValue it.value ∧ LampValue (sm it.si.id)) :
    Inv (State.init sm iomap).config (State.init sm iomap) := by
  have empty : ∀ i, (State.init sm iomap).lists.marks i = ∅ := by
    intro i
    ext l
    exact iff_of_false (fun h => nomatch h) (fun h => h)
  refine ⟨rfl, fun _ => List.nodup_nil, ?_, ?_, ?_, ?_⟩
  · intro i it hit ao lamp
    exact values it (List.mem_of_getElem? hit) ao lamp
  · intro i it hit ao lamp out on
    cases on
  · intro i it hit ao lamp h
    exact Or.inr (empty i)
  · intro i it hit do' part
    exact empty i

theorem Inv.iopoll {config : List IOInfo} {s : State} (c : Config) (inputs : Nat → Int)
    (unique : UniqueIds config) (off : s.trTestLamp = ⟨false⟩) (inv : Inv config s) :
    Inv config (s.iopoll c inputs) := by
  have frame := iopoll_frame (c := c) inputs s
  have unique' : UniqueIds s.iomap := by
    rw [← uniqueIds_config, inv.config]
    exact unique
  have lamps : ∀ (i : Nat) (it' : IOInfo), (s.iopoll c inputs).iomap[i]? = some it' → it'.stype = .AO →
      it'.lamp = true → (LampValue it'.value ∧ LampValue ((s.iopoll c inputs).sm it'.si.id)) ∧
        ((s.iopoll c inputs).lists.marks i = belongs it'.value ∨
          (s.iopoll c inputs).lists.marks i = ∅) := by
    intro i it' hit' ao' lamp'
    obtain ⟨it, hit, static⟩ := static_of_config frame.config hit'
    have ao : it.stype = .AO := (congrArg (fun x => x.stype) static).symm.trans ao'
    have lamp : it.lamp = true := (congrArg IOInfo.lamp static).symm.trans lamp'
    obtain ⟨value, smValue⟩ := inv.values i it hit ao lamp
    obtain ⟨item, marks, sm⟩ := iopoll_lamp (c := c) inputs inv.good unique' hit ao lamp smValue
    rw [item] at hit'
    cases hit'
    have seen : LampValue (polledValue c s it) := by
      unfold polledValue
      split
      · exact smValue
      · exact value
    refine ⟨⟨seen, sm.symm ▸ smValue⟩, ?_⟩
    rw [marks]
    split
    · next steady =>
      have same : belongs (polledValue c s it) = belongs it.value := by
        rcases steady with h | ⟨h, h'⟩
        · rw [h]
        · rw [belongs_eq_empty h, belongs_eq_empty h']
      show s.lists.marks i = belongs (polledValue c s it) ∨ _
      rw [same]
      exact inv.untested i it hit ao lamp (Or.inr (by rw [off]))
    · exact Or.inl rfl
  refine ⟨frame.config.trans inv.config, frame.good inv.good, ?_, ?_, ?_, ?_⟩
  · intro i it' hit' ao lamp
    exact (lamps i it' hit' ao lamp).1
  · intro i it' hit' ao lamp out on
    rw [frame.trTestLamp, off] at on
    cases on
  · intro i it' hit' ao lamp h
    exact (lamps i it' hit' ao lamp).2
  · intro i it' hit' do'' part'
    obtain ⟨it, hit, static⟩ := static_of_config frame.config hit'
    have do' : it.stype = .DO := (congrArg (fun x => x.stype) static).symm.trans do''
    have part : it.takesPart = true := (congrArg IOInfo.takesPart static).symm.trans part'
    have still : (s.iopoll c inputs).lists.marks i = s.lists.marks i := by
      unfold State.iopoll
      split
      · rfl
      · exact reads_discrete _ _ inv.good hit do'
    rw [still, frame.trTestLamp]
    exact inv.discrete i it hit do' part

theorem Start.inv {c : Config} {s : State} (start : Start c s) :
    UniqueIds s.config ∧ Inv s.config s := by
  cases start with
  | init sm iomap unique values => exact ⟨uniqueIds_config.mpr unique, inv_init values⟩
  | polled sm iomap inputs unique values =>
    have unique' := (uniqueIds_config (s := State.init sm iomap)).mpr unique
    have frame := iopoll_frame (c := { c with force := true }) inputs (State.init sm iomap)
    rw [frame.config]
    exact ⟨unique', (inv_init values).iopoll _ inputs unique' rfl⟩

/-- **The controller as a machine**: a step is a round. -/
def machine (c : Config) : Lib.Machine State Round where
  start := Start c
  step := fun s r => some (s.round c r)

/-- **The lists are right behind every pass of a run exactly if every round meets the condition.** -/
theorem rounds_law_iff {c : Config} {s : State} (start : Start c s) {rounds : List Round}
    (valid : ∀ r ∈ rounds, Valid s.config r) :
    (machine c).Meets (fun s r => Law (s.round c r)) s rounds ↔
      (machine c).Meets (Fits c) s rounds := by
  obtain ⟨unique, inv⟩ := start.inv
  refine Lib.Machine.meets_iff_meets (P := Inv s.config) ?_ ?_ valid inv
  · intro t r held ok
    exact law_round_iff unique ok held
  · intro t r u held ok law stepped
    cases stepped
    exact Inv.round unique ok held law

/-! ### A test that ends while a lamp blinks in the second list -/

/-- Without `force_out`, with sensor 10 for the test. -/
def tested : Config where
  force := false
  forceOut := false
  testLampS := some 10
  testModeAs := none
  defCardNum := -1
  cards := [false, true]
  pmap := []
  maxHalf := 0

/-- A lamp on sensor 1. -/
def oneLamp : IOInfo where
  si := ⟨1, 0⟩
  stype := .AO
  value := 0
  invert := false
  rawdata := false
  depend := none
  filter := none
  filtered := []
  cal := none
  debounced := id
  ignore := false
  subdev := some 0
  channel := some 0
  ncard := 1
  lamp := true
  noTestlamp := false
  enableTestmode := false
  disableTestmode := false

/-- The lamp blinks in the second list, the test begins and ends. -/
def testRounds : List Round :=
  [⟨[(1, 3)], fun _ => 0⟩, ⟨[(10, 1)], fun _ => 0⟩, ⟨[(10, 0)], fun _ => 0⟩]

theorem oneLamp_start : Start tested (State.init (fun _ => 0) [oneLamp]) := by
  refine .init _ _ (List.nodup_singleton _) fun it hit _ _ => ?_
  rw [List.mem_singleton.mp hit]
  exact ⟨rfl, rfl⟩

theorem testRounds_valid :
    ∀ r ∈ testRounds, Valid (State.init (fun _ => 0) [oneLamp]).config r := by
  intro r hr it hit _ _ v hv
  rw [List.mem_singleton.mp hit] at hv
  unfold testRounds at hr
  simp only [List.mem_cons, List.not_mem_nil, or_false] at hr
  rcases hr with rfl | rfl | rfl
  · have value : v ∈ [3] := hv
    rw [List.mem_singleton.mp value]
    rfl
  · have value : v ∈ ([] : List Int) := hv
    cases value
  · have value : v ∈ ([] : List Int) := hv
    cases value

theorem testRounds_law : ¬ (machine tested).Meets (fun s r => Law (s.round tested r))
    (State.init (fun _ => 0) [oneLamp]) testRounds := by
  intro run
  have law := ((run.2 _ rfl).2 _ rfl).1
  have marks := law.value 0 _ rfl rfl rfl (Or.inl rfl)
  have here : BlinkList.lstBlink ∈ belongs 3 := by
    refine marks ▸ ?_
    show 0 ∈ (testRounds.foldl (State.round tested)
      (State.init (fun _ => 0) [oneLamp])).lists .lstBlink
    decide +kernel
  have away : ¬ blinkOf 3 = some .lstBlink := by decide
  exact away here

/-- A run may leave a lamp in a wrong list. -/
theorem left_in_lstBlink : ¬ ∀ (c : Config) (s : State) (rounds : List Round), Start c s →
    (∀ r ∈ rounds, Valid s.config r) →
      (machine c).Meets (fun s r => Law (s.round c r)) s rounds := fun holds =>
  testRounds_law (holds tested _ testRounds oneLamp_start testRounds_valid)

/-- The run of this test breaks the condition. -/
theorem testRounds_breaks :
    ¬ (machine tested).Meets (Fits tested) (State.init (fun _ => 0) [oneLamp]) testRounds := fun fits =>
  testRounds_law ((rounds_law_iff oneLamp_start testRounds_valid).mpr fits)

end UniSet.IOControl

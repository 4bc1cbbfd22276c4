/-
**`SharedMemory`: the heartbeat counters and the watchdog.**

A process confirms its existence by writing a positive number into its heartbeat counter, and
`checkHeartBeat` counts every counter down. An item with `heartbeat_reboot_msec` is to stop the
watchdog from being pinged once its counter has stayed at zero for so long.

* `readItem` — the heartbeat item of a sensor. Its timer is set to `WaitUpTime`.
* `checkHeartBeat` — the counters, the process states and the ping, over the store of
  `IONotifyController`.
* `machine` — whole runs: requests of any process, time that passes, checks, start and stop.
* **`ping_withheld_iff`** — a check arms the timer of an item only if the interval of the timer is
  not zero already, so no timer is ever armed: while the shared memory works the ping is withheld
  from no dead process (`dead_process_pinged`).
-/

import UniSet.Lib.Machine
import UniSet.Processes.History
import UniSet.Timers

namespace UniSet.SharedMemory

open Processes

/-- `HeartBeatInfo`. -/
structure HeartBeatInfo where
  /-- The analog counter. -/
  aSid : ObjectId
  /-- The discrete state of the process, `defaultObjectId` for none. -/
  dSid : ObjectId
  rebootMsec : Int
  timerRunning : Bool
  ptReboot : PassiveTimer
deriving DecidableEq, Repr

/-- The attributes of a `<item>` that `readItem` reads besides those of the sensor itself. -/
structure HeartBeatItem extends SensorItem where
  heartbeat : Option Int := none
  heartbeatNode : String := ""
  /-- The identifier of the sensor named by `heartbeat_ds_name`; `defaultObjectId` if there is no
  such name. -/
  heartbeatDs : Option ObjectId := none
  heartbeatRebootMsec : Int := 0

/-- **`SharedMemory::readItem`**, its heartbeat part. -/
def readItem (heartbeatNode : String) (now : Nat) (hblist : List HeartBeatInfo)
    (it : HeartBeatItem) : Except UException (List HeartBeatInfo) :=
  if heartbeatNode = "" ∨ it.heartbeat = none then .ok hblist
  else if heartbeatNode ≠ it.heartbeatNode then .ok hblist
  else if it.heartbeat.getD 0 ≤ 0 then .ok hblist
  else if it.iotype ≠ "AI" then .error (.systemError "readItem" it.id)
  else if it.heartbeatDs = some defaultObjectId then .error (.systemError "readItem" it.id)
  else if it.id ≤ 0 then .error (.systemError "readItem" it.id)
  else .ok (hblist ++ [
    { aSid := it.id
      dSid := it.heartbeatDs.getD defaultObjectId
      rebootMsec := it.heartbeatRebootMsec
      timerRunning := false
      ptReboot := .setTiming now waitUpTime }])

/-- The items of the document, in its order. -/
def readItems (heartbeatNode : String) (now : Nat) :
    List HeartBeatInfo → List HeartBeatItem → Except UException (List HeartBeatInfo)
  | hblist, [] => .ok hblist
  | hblist, it :: rest =>
    match readItem heartbeatNode now hblist it with
    | .error ex => .error ex
    | .ok hblist' => readItems heartbeatNode now hblist' rest

/-- The last part of a check of an item: its reboot timer, and whether the ping may go. -/
def HeartBeatInfo.checkReboot (hb : HeartBeatInfo) (wdt : Bool) (now : Nat) (val : Value) :
    HeartBeatInfo × Bool :=
  if wdt = true ∧ hb.ptReboot.getInterval ≠ 0 then
    if 0 < val then ({ hb with timerRunning := false }, true)
    else if hb.timerRunning then (hb, !hb.ptReboot.checkTime now)
    else ({ hb with timerRunning := true, ptReboot := .setTiming now hb.rebootMsec }, true)
  else (hb, true)

/-- What a check leaves of one item: the item, whether the ping may go, and the value of the counter
after the decrement (`none` if the counter could not be read). -/
structure ItemCheck where
  item : HeartBeatInfo
  pingOK : Bool
  found : Option Value
deriving DecidableEq, Repr

section Check

variable (io : IOList) (self : LocalSetValue) (wdt : Bool) (now : Nat)

/-- `IOController::localGetValue`, by identifier. -/
def localGetValue (st : Store) (sid : ObjectId) : Except UException Value :=
  if sid ≠ defaultObjectId ∧ sid ∈ io.ids then .ok (st.usi sid).value
  else .error (.nameNotFound "localGetValue" sid)

/-- The counter of an item, counted down and not below `-1`. -/
def countDown (value : Value) : Value := if value - 1 < -1 then -1 else value - 1

/-- One item of **`SharedMemory::checkHeartBeat`**. An exception is caught at its item and skips the
rest of it. -/
def checkItem (st : Store) (hb : HeartBeatInfo) : Option (Store × ItemCheck) :=
  match localGetValue io st hb.aSid with
  | .error _ => some (st, ⟨hb, true, none⟩)
  | .ok value =>
    let val := countDown value
    match IOController.localSetValueIt io self ⟨st, hb.aSid, val, io.owner⟩ with
    | none => none
    | some (st', .error _) => some (st', ⟨hb, true, some val⟩)
    | some (st', .ok _) =>
      match IOController.localSetValueIt io self
          ⟨st', hb.dSid, if 0 ≤ val then 1 else 0, io.owner⟩ with
      | none => none
      | some (st'', .error _) => some (st'', ⟨hb, true, some val⟩)
      | some (st'', .ok _) =>
        let reboot := hb.checkReboot wdt now val
        some (st'', ⟨reboot.1, reboot.2, some val⟩)

/-- The items of **`SharedMemory::checkHeartBeat`**, in list order. -/
def checkItems : Store → List HeartBeatInfo → Option (Store × List ItemCheck)
  | st, [] => some (st, [])
  | st, hb :: rest =>
    (checkItem io self wdt now st hb).bind fun checked =>
      (checkItems checked.1 rest).map fun later => (later.1, checked.2 :: later.2)

end Check

/-! ### Runs -/

/-- A check that was made. -/
structure Check where
  time : Nat
  workready : Bool
  found : List (Option Value)
  ping : Bool
deriving DecidableEq, Repr

structure State where
  store : Store
  hblist : List HeartBeatInfo
  workready : Bool
  /-- The steady clock, in nanoseconds. -/
  steady : Nat
  /-- The checks made so far, the newest first. -/
  checks : List Check

/-- **`SharedMemory::checkHeartBeat`.** An empty list pings without a look at any item. -/
def checkHeartBeat (io : IOList) (self : LocalSetValue) (wdt : Bool) (s : State) : Option State :=
  (checkItems io self wdt s.steady s.store s.hblist).map fun (store, checked) =>
    { s with
      store := store
      hblist := checked.map ItemCheck.item
      checks :=
        { time := s.steady
          workready := s.workready
          found := checked.map ItemCheck.found
          ping := wdt && checked.all ItemCheck.pingOK && s.workready } :: s.checks }

inductive Event
  /-- A request of some process. -/
  | request (op : IOController.Op)
  /-- Time passes. -/
  | pass (nsec : Nat)
  | tmHeartBeatCheck
  | tmEvent
  | deactivateObject
deriving DecidableEq, Repr

def step (io : IOList) (n : Nat) (wdt : Bool) (s : State) : Event → Option State
  | .request op =>
    (op.apply io (IONotifyController.exclusive io n []) s.store).map fun st => { s with store := st }
  | .pass nsec => some { s with steady := s.steady + nsec }
  | .tmHeartBeatCheck => checkHeartBeat io (IONotifyController.exclusive io n []) wdt s
  | .tmEvent => some { s with workready := true }
  | .deactivateObject => some { s with workready := false }

/-- **The shared memory**, from the state that activation leaves. At most `n` calls of
`localSetValue` are nested. -/
def machine (io : IOList) (n : Nat) (wdt : Bool) (heartbeatNode : String)
    (items : List HeartBeatItem) : Lib.Machine State Event where
  start s := s.workready = false ∧ s.checks = [] ∧
    (∃ now, IONotifyController.activate io n now = some s.store) ∧
    ∃ now, readItems heartbeatNode now [] items = .ok s.hblist
  step := step io n wdt

/-! ### No timer is ever armed -/

/-- The timer of the item is not set. -/
def HeartBeatInfo.Unarmed (hb : HeartBeatInfo) : Prop := hb.ptReboot.tMsec = waitUpTime

variable {hblist : List HeartBeatInfo} {heartbeatNode : String}

theorem readItem_unarmed {now : Nat} {hblist' : List HeartBeatInfo} {it : HeartBeatItem}
    (read : readItem heartbeatNode now hblist it = .ok hblist')
    (unarmed : ∀ hb ∈ hblist, hb.Unarmed) : ∀ hb ∈ hblist', hb.Unarmed := by
  unfold readItem at read
  repeat' split at read
  all_goals cases read
  all_goals try exact unarmed
  intro hb member
  rcases List.mem_append.mp member with old | new
  · exact unarmed hb old
  · rw [List.mem_singleton.mp new]
    rfl

theorem readItems_unarmed {now : Nat} {items : List HeartBeatItem} {hblist' : List HeartBeatInfo}
    (read : readItems heartbeatNode now hblist items = .ok hblist')
    (unarmed : ∀ hb ∈ hblist, hb.Unarmed) : ∀ hb ∈ hblist', hb.Unarmed := by
  induction items generalizing hblist with
  | nil =>
    cases read
    exact unarmed
  | cons it rest ih =>
    unfold readItems at read
    split at read
    · cases read
    · rename_i read'
      exact ih read (readItem_unarmed read' unarmed)

/-- The interval of an unarmed timer reads as zero, and the check leaves the timer alone. -/
theorem checkReboot_unarmed {hb : HeartBeatInfo} (unarmed : hb.Unarmed) (wdt : Bool) (now : Nat)
    (val : Value) : hb.checkReboot wdt now val = (hb, true) := by
  have zero : hb.ptReboot.getInterval = 0 := if_neg fun set => set unarmed
  exact if_neg fun both => both.2 zero

section Check

variable {io : IOList} {self : LocalSetValue} {wdt : Bool} {now : Nat}

theorem checkItem_unarmed {st st' : Store} {hb : HeartBeatInfo} {checked : ItemCheck}
    (unarmed : hb.Unarmed) (ran : checkItem io self wdt now st hb = some (st', checked)) :
    checked.item = hb ∧ checked.pingOK = true := by
  unfold checkItem at ran
  split at ran
  · cases ran
    exact ⟨rfl, rfl⟩
  · dsimp only at ran
    split at ran
    · cases ran
    · cases ran
      exact ⟨rfl, rfl⟩
    · split at ran
      · cases ran
      · cases ran
        exact ⟨rfl, rfl⟩
      · cases ran
        rw [checkReboot_unarmed unarmed]
        exact ⟨rfl, rfl⟩

theorem checkItems_unarmed {st st' : Store} {checked : List ItemCheck}
    (unarmed : ∀ hb ∈ hblist, hb.Unarmed)
    (ran : checkItems io self wdt now st hblist = some (st', checked)) :
    checked.map ItemCheck.item = hblist ∧ checked.all ItemCheck.pingOK = true := by
  induction hblist generalizing st checked with
  | nil =>
    cases ran
    exact ⟨rfl, rfl⟩
  | cons hb rest ih =>
    obtain ⟨⟨mid, first⟩, firstRan, ran⟩ := Option.bind_eq_some_iff.mp ran
    obtain ⟨⟨last, later⟩, laterRan, same⟩ := Option.map_eq_some_iff.mp ran
    cases same
    obtain ⟨item, ok⟩ := checkItem_unarmed (unarmed hb List.mem_cons_self) firstRan
    obtain ⟨items, oks⟩ := ih (fun hb member => unarmed hb (List.mem_cons_of_mem _ member)) laterRan
    constructor
    · rw [List.map_cons, item, items]
    · rw [List.all_cons, ok, oks]
      rfl

end Check

/-- No timer is armed, and every check pinged exactly if the shared memory was working. -/
structure AlwaysPings (wdt : Bool) (s : State) : Prop where
  unarmed : ∀ hb ∈ s.hblist, hb.Unarmed
  pings : ∀ c ∈ s.checks, c.ping = (wdt && c.workready)

theorem step_alwaysPings {io : IOList} {n : Nat} {wdt : Bool} {s t : State} {e : Event}
    (always : AlwaysPings wdt s) (stepped : step io n wdt s e = some t) : AlwaysPings wdt t := by
  cases e with
  | request op =>
    obtain ⟨st, -, rfl⟩ := Option.map_eq_some_iff.mp stepped
    exact ⟨always.unarmed, always.pings⟩
  | pass nsec =>
    cases stepped
    exact ⟨always.unarmed, always.pings⟩
  | tmEvent =>
    cases stepped
    exact ⟨always.unarmed, always.pings⟩
  | deactivateObject =>
    cases stepped
    exact ⟨always.unarmed, always.pings⟩
  | tmHeartBeatCheck =>
    obtain ⟨⟨store, checked⟩, ran, rfl⟩ := Option.map_eq_some_iff.mp stepped
    obtain ⟨items, oks⟩ := checkItems_unarmed always.unarmed ran
    refine ⟨?_, ?_⟩
    · dsimp only
      rw [items]
      exact always.unarmed
    · intro c member
      rcases List.mem_cons.mp member with rfl | old
      · dsimp only
        rw [oks, Bool.and_true]
      · exact always.pings c old

theorem run_alwaysPings {io : IOList} {n : Nat} {wdt : Bool} {items : List HeartBeatItem}
    {s t : State} {events : List Event} (started : (machine io n wdt heartbeatNode items).start s)
    (ran : (machine io n wdt heartbeatNode items).run s events = some t) : AlwaysPings wdt t := by
  obtain ⟨-, none, -, now, read⟩ := started
  refine Lib.Machine.run_invariant (fun s e t always _ stepped => step_alwaysPings always stepped)
    ⟨?_, ?_⟩ (Lib.Machine.meets_true events) ran
  · exact readItems_unarmed read fun hb member => absurd member List.not_mem_nil
  · rw [none]
    exact fun c member => absurd member List.not_mem_nil

/-! ### The watchdog of a dead process -/

/-- The check found the counter of the `i`-th item at zero or below. -/
def Check.FoundDead (c : Check) (i : Nat) : Prop := ∃ v, c.found[i]? = some (some v) ∧ v ≤ 0

/-- **At the newest check some item is dead**: an earlier check, at least `heartbeat_reboot_msec`
before, and every check since then found its counter at zero or below. -/
def Dead (hblist : List HeartBeatInfo) (checks : List Check) : Prop :=
  ∃ i hb, hblist[i]? = some hb ∧ 0 < hb.rebootMsec ∧
    ∃ c ∈ checks.head?, ∃ k c₀, checks[k]? = some c₀ ∧
      c₀.time + hb.rebootMsec.toNat * 1000000 ≤ c.time ∧
      ∀ c' ∈ checks.take (k + 1), c'.FoundDead i

/-- Every check at which some item was dead has the property. -/
def AtDeadChecks (hblist : List HeartBeatInfo) (checks : List Check) (P : Check → Prop) : Prop :=
  ∀ upto, upto <:+ checks → Dead hblist upto → ∀ c ∈ upto.head?, P c

/-- **The watchdog is withheld for a dead process exactly if no dead process is seen by a check while
the shared memory works.** -/
theorem ping_withheld_iff {io : IOList} {n : Nat} {heartbeatNode : String}
    {items : List HeartBeatItem} {s t : State} {events : List Event}
    (started : (machine io n true heartbeatNode items).start s)
    (ran : (machine io n true heartbeatNode items).run s events = some t) :
    AtDeadChecks s.hblist t.checks (fun c => c.ping = false) ↔
      AtDeadChecks s.hblist t.checks (fun c => c.workready = false) := by
  have always := run_alwaysPings started ran
  have same : ∀ upto, upto <:+ t.checks → ∀ c ∈ upto.head?, c.ping = c.workready := by
    intro upto suffix c head
    have member := List.mem_of_mem_head? head
    rw [always.pings c (suffix.subset member), Bool.true_and]
  constructor
  · intro withheld upto suffix dead c head
    rw [← same upto suffix c head]
    exact withheld upto suffix dead c head
  · intro idle upto suffix dead c head
    rw [same upto suffix c head]
    exact idle upto suffix dead c head

/-! ### A process that never starts -/

/-- A heartbeat counter with its process state, and a reboot time of one second. -/
def heartbeatItems : List HeartBeatItem :=
  [{ id := 1, iotype := "AI", heartbeat := some 5, heartbeatNode := "node", heartbeatDs := some 2,
     heartbeatRebootMsec := 1000 },
   { id := 2, iotype := "DI" }]

def heartbeatList : IOList :=
  IOList.ofRead (rfl : readList ⟨0, 0⟩ [] (heartbeatItems.map HeartBeatItem.toSensorItem) = .ok _)
    [1, 2] [1, 2] (by decide) (by decide) 100 fun _ => []

def heartbeatStart : State where
  store := (IONotifyController.activate heartbeatList 3 ⟨0, 0⟩).getD
    (IOController.loaded heartbeatList ⟨0, 0⟩)
  hblist := [⟨1, 2, 1000, false, ⟨waitUpTime, 0⟩⟩]
  workready := false
  steady := 0
  checks := []

theorem heartbeatStart_start :
    (machine heartbeatList 3 true "node" heartbeatItems).start heartbeatStart := by
  refine ⟨rfl, rfl, ⟨⟨0, 0⟩, ?_⟩, 0, rfl⟩
  have active : (IONotifyController.activate heartbeatList 3 ⟨0, 0⟩).isSome := by decide +kernel
  obtain ⟨store, activated⟩ := Option.isSome_iff_exists.mp active
  simp only [heartbeatStart, activated, Option.getD_some]

/-- The shared memory starts; the counter is checked, and again two seconds later. -/
def silentProcess : List Event :=
  [.tmEvent, .tmHeartBeatCheck, .pass 2000000000, .tmHeartBeatCheck]

/-- The same without a start: nothing is pinged. -/
def silentBeforeStart : List Event :=
  [.tmHeartBeatCheck, .pass 2000000000, .tmHeartBeatCheck]

/-- The checks of a silent process. -/
def silentChecks (workready : Bool) : List Check :=
  [⟨2000000000, workready, [some (-1)], workready⟩, ⟨0, workready, [some (-1)], workready⟩]

theorem silentChecks_dead (workready : Bool) :
    Dead heartbeatStart.hblist (silentChecks workready) := by
  have second : 0 + (1000 : Int).toNat * 1000000 ≤ 2000000000 := by decide
  refine ⟨0, _, rfl, by decide, _, rfl, 1, _, rfl, second, ?_⟩
  intro c member
  refine ⟨-1, ?_, by decide⟩
  rcases List.mem_cons.mp member with rfl | member
  · rfl
  · rw [List.mem_singleton.mp member]
    rfl

theorem ping_withheld_silentBeforeStart :
    ∃ t, (machine heartbeatList 3 true "node" heartbeatItems).run heartbeatStart
        silentBeforeStart = some t ∧
      Dead heartbeatStart.hblist t.checks ∧
      AtDeadChecks heartbeatStart.hblist t.checks (fun c => c.ping = false) := by
  obtain ⟨t, ran, checks⟩ : ∃ t ∈ (machine heartbeatList 3 true "node" heartbeatItems).run
      heartbeatStart silentBeforeStart, t.checks = silentChecks false := by
    decide +kernel
  refine ⟨t, ran, ?_, (ping_withheld_iff heartbeatStart_start ran).mpr ?_⟩
  · rw [checks]
    exact silentChecks_dead false
  · rw [checks]
    intro upto suffix _ c head
    have member := suffix.subset (List.mem_of_mem_head? head)
    rcases List.mem_cons.mp member with rfl | member
    · rfl
    · rw [List.mem_singleton.mp member]

/-- **A dead process does not stop the ping.** Two seconds of a counter at `-1` pass, with a reboot
time of one second, and the watchdog is pinged. -/
theorem dead_process_pinged :
    ∃ t, (machine heartbeatList 3 true "node" heartbeatItems).start heartbeatStart ∧
      (machine heartbeatList 3 true "node" heartbeatItems).run heartbeatStart
        silentProcess = some t ∧
      ¬ AtDeadChecks heartbeatStart.hblist t.checks (fun c => c.ping = false) := by
  obtain ⟨t, ran, checks⟩ : ∃ t ∈ (machine heartbeatList 3 true "node" heartbeatItems).run
      heartbeatStart silentProcess, t.checks = silentChecks true := by
    decide +kernel
  refine ⟨t, heartbeatStart_start, ran, fun withheld => ?_⟩
  rw [checks] at withheld
  have pinged := withheld _ List.suffix_rfl (silentChecks_dead true) _ rfl
  cases pinged

end UniSet.SharedMemory

/-
**The ClickHouse backend: its buffer and its timers.**

* `ClickHouse` — the rows that wait, the flag of the timer and the ordered timers.
* `sensorInfo`, `timerInfo`, `startUp`, `flushBuffer`, `reconnect` — the source's functions.
* `Law` — after `StartUp` a timer is pending while rows wait.
* **`law_iff`**: the runs that keep the law are those in which `tmFlushBuffer` is not used up in vain:
  by rows that stay with the connection alive, or by an empty buffer before the next row.
-/

import UniSet.Lib.Machine
import UniSet.Timers

namespace UniSet.BackendClickHouse

/-- `Timers`. -/
inductive Timers
  | tmFlushBuffer | tmReconnect
deriving DecidableEq, Repr

/-- A row of the columns. -/
structure Row where
  timestamp : Int
  value : Int
  name : String
  nodename : String
  producer : String
  tags : List (String × String)
deriving DecidableEq, Repr

/-- **The settings.** -/
structure Setup where
  bufSize : Nat
  bufMaxSize : Nat
  bufSyncTime : Nat
  reconnectTime : Nat
  bufSize_pos : 1 ≤ bufSize
  bufSize_le : bufSize ≤ bufMaxSize
  bufSyncTime_pos : 0 < bufSyncTime
  reconnectTime_pos : 0 < reconnectTime

/-- **`BackendClickHouse`**, and whether `StartUp` has come. -/
structure ClickHouse where
  rows : List Row
  connect_ok : Bool
  timerIsOn : Bool
  timers : LTObject Timers
  started : Bool

namespace ClickHouse

variable (h : Setup)

/-- `reconnect` with the result of `db->reconnect`. -/
def reconnect (s : ClickHouse) (ok : Bool) : ClickHouse := { s with connect_ok := ok }

/-- `flushBuffer` writes: there are rows and a connection, and `db->insert` succeeds. -/
def writes (s : ClickHouse) (insert : Bool) : Bool := !s.rows.isEmpty && s.connect_ok && insert

/-- **`flushBuffer`.** -/
def flushBuffer (s : ClickHouse) (insert : Bool) : ClickHouse :=
  if s.writes insert then { s with rows := [] } else s

/-- `askTimer`. -/
def askTimer (s : ClickHouse) (timerid : Timers) (timeMS : Nat) (ticks : Int) : ClickHouse :=
  { s with timers := s.timers.askTimer timerid timeMS ticks }

/-- The end of `sensorInfo`: the timer is ordered unless the flag says that it is. -/
def askFlush (s : ClickHouse) : ClickHouse :=
  if !s.timerIsOn then { s with timerIsOn := true }.askTimer .tmFlushBuffer h.bufSyncTime 1 else s

/-- **`sensorInfo`** of a sensor of the list. -/
def sensorInfo (s : ClickHouse) (row : Row) (insert : Bool) : ClickHouse :=
  let s := { s with rows := s.rows ++ [row] }
  if h.bufSize ≤ s.rows.length then
    if s.writes insert then s.flushBuffer insert
    else if h.bufMaxSize ≤ s.rows.length then { s with rows := [] }.askFlush h
    else s.askFlush h
  else s.askFlush h

/-- `timerInfo` of `tmFlushBuffer`. -/
def tmFlushBuffer (s : ClickHouse) (insert ping : Bool) : ClickHouse :=
  if s.writes insert then { s.flushBuffer insert with timerIsOn := false }
  else if !ping then
    { s.askTimer .tmFlushBuffer 0 (-1) with timerIsOn := false }.askTimer .tmReconnect
      h.reconnectTime (-1)
  else s

/-- `timerInfo` of `tmReconnect`. -/
def tmReconnect (s : ClickHouse) (ok insert : Bool) : ClickHouse :=
  if ok then
    { (((s.reconnect ok).askTimer .tmReconnect 0 (-1)).flushBuffer insert).askTimer .tmFlushBuffer
      h.bufSyncTime 1 with timerIsOn := true }
  else s.reconnect ok

/-- `sysCommand` of `StartUp`. -/
def startUp (s : ClickHouse) (ok : Bool) : ClickHouse :=
  let s := { s with started := true }
  if ok then s.reconnect ok else (s.reconnect ok).askTimer .tmReconnect h.reconnectTime (-1)

end ClickHouse

/-- What happens to the backend, with the results of its calls to the data base. -/
inductive Event
  | startUp (ok : Bool)
  | sensorInfo (row : Row) (insert : Bool)
  | tmFlushBuffer (insert ping : Bool)
  | tmReconnect (ok insert : Bool)

/-- The step of an event; a timer comes only while it is ordered. -/
def ClickHouse.step (h : Setup) (s : ClickHouse) : Event → Option ClickHouse
  | .startUp ok => some (s.startUp h ok)
  | .sensorInfo row insert => some (s.sensorInfo h row insert)
  | .tmFlushBuffer insert ping =>
    if s.timers.Pending .tmFlushBuffer then
      some ({ s with timers := s.timers.fire .tmFlushBuffer }.tmFlushBuffer h insert ping)
    else none
  | .tmReconnect ok insert =>
    if s.timers.Pending .tmReconnect then
      some ({ s with timers := s.timers.fire .tmReconnect }.tmReconnect h ok insert)
    else none

/-- **The backend as a machine.** -/
def machine (h : Setup) : Lib.Machine ClickHouse Event where
  start := fun s => s = ⟨[], false, false, .empty, false⟩
  step := ClickHouse.step h

/-- One of the timers is pending. -/
def Waits (s : ClickHouse) : Prop :=
  s.timers.Pending .tmFlushBuffer ∨ s.timers.Pending .tmReconnect

/-- **After `StartUp` rows do not wait without a timer.** -/
def Law (s : ClickHouse) : Prop := s.started = true → s.rows ≠ [] → Waits s

/-- A row stays in the buffer. -/
def Stays (h : Setup) (s : ClickHouse) (insert : Bool) : Prop :=
  s.rows.length + 1 < h.bufSize ∨
    (s.rows.length + 1 < h.bufMaxSize ∧ (s.connect_ok && insert) = false)

/-- **The condition**: no row comes to stay while the flag is set and no timer is pending; where
`tmFlushBuffer` is used up, rows are written, or there are none, or the ping fails, or `tmReconnect` is
pending; and at `StartUp` no row waits without a timer unless the connection fails. -/
def Fits (h : Setup) (s : ClickHouse) : Event → Prop
  | .startUp ok => ok = true → s.rows ≠ [] → Waits s
  | .sensorInfo _ insert => s.started = true → Stays h s insert → s.timerIsOn = true → Waits s
  | .tmFlushBuffer insert ping => s.started = true → s.timers.Pending .tmFlushBuffer →
      s.rows ≠ [] → (s.connect_ok && insert) = false → ping = true →
        Waits { s with timers := s.timers.fire .tmFlushBuffer }
  | .tmReconnect _ _ => True

section Steps

variable {h : Setup} {s : ClickHouse}

/-- What holds between the events of a run that keeps the law. -/
structure Inv (s : ClickHouse) : Prop where
  law : Law s
  endless : s.timers.Endless .tmReconnect

theorem writes_of_rows (rows : s.rows ≠ []) (insert : Bool) :
    s.writes insert = (s.connect_ok && insert) := by
  unfold ClickHouse.writes
  rw [List.isEmpty_eq_false_iff.mpr rows]
  rfl

theorem law_startUp (ok : Bool) :
    Law (s.startUp h ok) ↔ (ok = true → s.rows ≠ [] → Waits s) := by
  cases ok with
  | true => exact ⟨fun law _ => law rfl, fun fits _ => fits rfl⟩
  | false =>
    refine iff_of_true (fun _ _ => Or.inr ?_) fun ok => nomatch ok
    exact LTObject.pending_askTimer h.reconnectTime_pos (-1)

/-- Where the flag is not set, the timer is ordered. -/
theorem law_askFlush : Law (s.askFlush h) ↔
    (s.started = true → s.rows ≠ [] → s.timerIsOn = true → Waits s) := by
  unfold ClickHouse.askFlush
  cases flag : s.timerIsOn with
  | true =>
    rw [if_neg (by decide)]
    exact ⟨fun law started rows _ => law started rows, fun fits started rows => fits started rows rfl⟩
  | false =>
    rw [if_pos (by decide)]
    refine iff_of_true (fun _ _ => Or.inl ?_) fun _ _ flag => nomatch flag
    exact LTObject.pending_askTimer h.bufSyncTime_pos 1

theorem law_of_rows_nil (none : s.rows = []) : Law s := fun _ rows => absurd none rows

theorem law_sensorInfo (row : Row) (insert : Bool) : Law (s.sensorInfo h row insert) ↔
    (s.started = true → Stays h s insert → s.timerIsOn = true → Waits s) := by
  unfold ClickHouse.sensorInfo Stays
  generalize added : ({ s with rows := s.rows ++ [row] } : ClickHouse) = u
  have size : u.rows.length = s.rows.length + 1 := by
    rw [← added]
    exact List.length_append
  have rows : u.rows ≠ [] := List.ne_nil_of_length_pos (size ▸ Nat.succ_pos _)
  have ask : Law (u.askFlush h) ↔ (s.started = true → s.timerIsOn = true → Waits s) := by
    rw [law_askFlush, ← added]
    exact ⟨fun fits started flag => fits started (by simp) flag,
      fun fits started _ flag => fits started flag⟩
  have connected : u.connect_ok = s.connect_ok := added ▸ rfl
  dsimp only
  rw [writes_of_rows rows, size, connected]
  split
  · next full =>
    have past : ¬ s.rows.length + 1 < h.bufSize := Nat.not_lt.mpr full
    cases written : s.connect_ok && insert with
    | true =>
      rw [if_pos rfl]
      refine iff_of_true (law_of_rows_nil ?_) fun _ stays => ?_
      · unfold ClickHouse.flushBuffer
        rw [writes_of_rows rows, connected, written, if_pos rfl]
      · rcases stays with stays | ⟨-, stays⟩
        · exact absurd stays past
        · exact absurd stays (by decide)
    | false =>
      rw [if_neg Bool.false_ne_true]
      split
      · next overflow =>
        refine iff_of_true ?_ fun _ stays => ?_
        · exact law_askFlush.mpr fun _ none => absurd rfl none
        · rcases stays with stays | ⟨stays, -⟩
          · exact absurd stays past
          · exact absurd stays (Nat.not_lt.mpr overflow)
      · next room =>
        rw [ask]
        exact ⟨fun fits started _ flag => fits started flag, fun fits started flag =>
          fits started (Or.inr ⟨Nat.lt_of_not_le room, rfl⟩) flag⟩
  · next room =>
    rw [ask]
    exact ⟨fun fits started _ flag => fits started flag, fun fits started flag =>
      fits started (Or.inl (Nat.lt_of_not_le room)) flag⟩

theorem law_tmFlushBuffer (insert ping : Bool) : Law (s.tmFlushBuffer h insert ping) ↔
    (s.started = true → s.rows ≠ [] → (s.connect_ok && insert) = false → ping = true → Waits s) := by
  unfold ClickHouse.tmFlushBuffer
  by_cases rows : s.rows = []
  · have unwritten : s.writes insert = false := by
      unfold ClickHouse.writes
      rw [rows]
      rfl
    rw [unwritten, if_neg Bool.false_ne_true]
    refine iff_of_true (law_of_rows_nil ?_) fun _ more => absurd rows more
    cases ping with
    | true => exact rows
    | false => exact rows
  · rw [writes_of_rows rows]
    cases written : s.connect_ok && insert with
    | true =>
      rw [if_pos rfl]
      refine iff_of_true (law_of_rows_nil ?_) fun _ _ unwritten => absurd unwritten (by decide)
      unfold ClickHouse.flushBuffer
      rw [writes_of_rows rows, written, if_pos rfl]
    | false =>
      rw [if_neg Bool.false_ne_true]
      cases ping with
      | true =>
        exact ⟨fun law started _ _ _ => law started rows,
          fun fits started _ => fits started rows rfl rfl⟩
      | false =>
        refine iff_of_true (fun _ _ => Or.inr ?_) fun _ _ _ ping => absurd ping (by decide)
        exact LTObject.pending_askTimer h.reconnectTime_pos (-1)

theorem law_tmReconnect (law : Law s) (ok insert : Bool) : Law (s.tmReconnect h ok insert) := by
  cases ok with
  | true => exact fun _ _ => Or.inl (LTObject.pending_askTimer h.bufSyncTime_pos 1)
  | false => exact law

/-- **An event keeps the law exactly if it meets the condition.** -/
theorem law_step (inv : Inv s) {e : Event} {t : ClickHouse} (stepped : s.step h e = some t) :
    Law t ↔ Fits h s e := by
  cases e with
  | startUp ok =>
    cases stepped
    exact law_startUp ok
  | sensorInfo row insert =>
    cases stepped
    exact law_sensorInfo row insert
  | tmFlushBuffer insert ping =>
    obtain ⟨pending, ⟨⟩⟩ := Option.ite_none_right_eq_some.mp stepped
    rw [law_tmFlushBuffer]
    exact ⟨fun fits started _ => fits started, fun fits started => fits started pending⟩
  | tmReconnect ok insert =>
    obtain ⟨-, ⟨⟩⟩ := Option.ite_none_right_eq_some.mp stepped
    rw [inv.endless.fire]
    exact iff_of_true (law_tmReconnect inv.law ok insert) trivial

/-- `tmReconnect` is only ordered without an end. -/
theorem endless_step (endless : s.timers.Endless .tmReconnect) {e : Event} {t : ClickHouse}
    (stepped : s.step h e = some t) : t.timers.Endless .tmReconnect := by
  have other : Timers.tmReconnect ≠ Timers.tmFlushBuffer := by decide
  cases e with
  | startUp ok =>
    cases stepped
    cases ok with
    | true => exact endless
    | false => exact LTObject.endless_askTimer h.reconnectTime
  | sensorInfo row insert =>
    cases stepped
    have ask : ∀ u : ClickHouse, u.timers = s.timers → (u.askFlush h).timers.Endless .tmReconnect := by
      intro u same
      unfold ClickHouse.askFlush
      split
      · show (u.timers.askTimer .tmFlushBuffer h.bufSyncTime 1).Endless .tmReconnect
        rw [same]
        exact endless.askTimer_other h.bufSyncTime 1 other
      · rw [same]
        exact endless
    unfold ClickHouse.sensorInfo
    dsimp only
    split_ifs with full written overflow
    · unfold ClickHouse.flushBuffer
      rw [if_pos written]
      exact endless
    · exact ask _ rfl
    · exact ask _ rfl
    · exact ask _ rfl
  | tmFlushBuffer insert ping =>
    obtain ⟨-, ⟨⟩⟩ := Option.ite_none_right_eq_some.mp stepped
    have fired := endless.fire_other other
    unfold ClickHouse.tmFlushBuffer
    split_ifs with written lost
    · unfold ClickHouse.flushBuffer
      rw [if_pos written]
      exact fired
    · exact LTObject.endless_askTimer h.reconnectTime
    · exact fired
  | tmReconnect ok insert =>
    obtain ⟨-, ⟨⟩⟩ := Option.ite_none_right_eq_some.mp stepped
    rw [endless.fire]
    cases ok with
    | true =>
      show LTObject.Endless (LTObject.askTimer _ Timers.tmFlushBuffer h.bufSyncTime 1) Timers.tmReconnect
      refine LTObject.Endless.askTimer_other ?_ h.bufSyncTime 1 other
      unfold ClickHouse.flushBuffer
      split
      · exact LTObject.endless_askTimer 0
      · exact LTObject.endless_askTimer 0
    | false => exact endless

/-- An event that breaks the condition happens. -/
theorem exists_step {e : Event} (broken : ¬ Fits h s e) : ∃ t, s.step h e = some t := by
  cases e with
  | startUp ok => exact ⟨_, rfl⟩
  | sensorInfo row insert => exact ⟨_, rfl⟩
  | tmFlushBuffer insert ping =>
    by_cases pending : s.timers.Pending .tmFlushBuffer
    · exact ⟨_, if_pos pending⟩
    · exact absurd (fun _ here => absurd here pending) broken
  | tmReconnect ok insert => exact absurd trivial broken

/-- **A run keeps the law exactly if each event meets the condition.** -/
theorem law_iff (start : (machine h).start s) (events : List Event) :
    (machine h).Always Law s events ↔ (machine h).Meets (Fits h) s events := by
  refine Lib.Machine.always_iff_meets (P := Inv) (fun s inv => inv.law)
    (fun s e t inv fits stepped => ⟨(law_step inv stepped).mpr fits, endless_step inv.endless stepped⟩)
    (fun s e inv broken => ?_) ?_
  · obtain ⟨t, stepped⟩ := exists_step broken
    exact ⟨t, stepped, fun law => broken ((law_step inv stepped).mp law)⟩
  · cases start
    exact ⟨fun started => (nomatch started), fun _ none => (nomatch none)⟩

end Steps

end UniSet.BackendClickHouse

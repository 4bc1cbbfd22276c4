/-
**The OpenTSDB backend: its buffer and its timers.**

* `OpenTSDB` — the lines that wait, the flag of the timer and the ordered timers.
* `sensorInfo`, `timerInfo`, `startUp`, `flushBuffer`, `reconnect` — the source's functions.
* `Law` — after `StartUp` a timer is pending while lines wait.
* **`law_iff`**: the runs that keep the law are those in which no timer is used up, or cancelled, while
  lines stay and the other one is not pending.
* **`backends_law_iff`** — both backends.
-/

import UniSet.Backend.ClickHouse

namespace UniSet.BackendOpenTSDB

/-- `Timers`. -/
inductive Timers
  | tmFlushBuffer | tmReconnect
deriving DecidableEq, Repr

/-- **The settings.** -/
structure Setup where
  bufSize : Nat
  bufMaxSize : Nat
  bufSyncTime : Nat
  reconnectTime : Nat
  bufSize_pos : 1 ≤ bufSize
  bufSize_le : bufSize ≤ bufMaxSize
  bufSyncTime_pos : 0 < bufSyncTime
  reconnectTime_pos : 0 < reconnectTime

/-- **`BackendOpenTSDB`**, and whether `StartUp` has come. -/
structure OpenTSDB where
  buf : List String
  /-- There is a stream `tcp`. -/
  tcp : Bool
  timerIsOn : Bool
  timers : LTObject Timers
  started : Bool

/-- How an attempt to send ends. -/
inductive Sent
  /-- `isConnected` is false. -/
  | notConnected
  | done
  /-- `EPIPE` or `EBADF`; the result of `reconnect`. -/
  | broken (reconnect : Bool)
  /-- A `Poco::IOException`; the result of `reconnect`. -/
  | ioException (reconnect : Bool)
  /-- Another exception. -/
  | exception
deriving DecidableEq, Repr

namespace OpenTSDB

variable (h : Setup)

/-- `reconnect` with its result. -/
def reconnect (s : OpenTSDB) (ok : Bool) : OpenTSDB := { s with tcp := ok }

/-- `askTimer`. -/
def askTimer (s : OpenTSDB) (timerid : Timers) (timeMS : Nat) (ticks : Int) : OpenTSDB :=
  { s with timers := s.timers.askTimer timerid timeMS ticks }

/-- The timer is cancelled and the flag with it. -/
def stopTimer (s : OpenTSDB) : OpenTSDB :=
  { s.askTimer .tmFlushBuffer 0 (-1) with timerIsOn := false }

/-- **`flushBuffer`** and its result. -/
def flushBuffer (s : OpenTSDB) (sent : Sent) : Bool × OpenTSDB :=
  if s.buf.isEmpty then (true, if s.timerIsOn then s.stopTimer else s)
  else if !s.tcp then (false, s)
  else
    match sent with
    | .notConnected => (false, s)
    | .done => (true, { s with buf := [] }.stopTimer)
    | .broken ok => (false, s.reconnect ok)
    | .ioException ok =>
      (false, if ok then s.reconnect ok
        else (s.reconnect ok).askTimer .tmReconnect h.reconnectTime (-1))
    | .exception => (false, s)

/-- The end of `sensorInfo`: the line is put into the buffer. -/
def put (s : OpenTSDB) (line : String) : OpenTSDB :=
  let s := { s with buf := s.buf ++ [line] }
  if !s.timerIsOn then { s with timerIsOn := true }.askTimer .tmFlushBuffer h.bufSyncTime 1 else s

/-- **`sensorInfo`** of a sensor of the list, with the results of its attempts to send. -/
def sensorInfo (s : OpenTSDB) (line : String) (sent again : Sent) : OpenTSDB :=
  if h.bufSize ≤ s.buf.length then
    let (ok, s) := s.flushBuffer h sent
    if ok then s.put h line
    else if h.bufMaxSize ≤ s.buf.length then
      let (ok, s) := s.flushBuffer h again
      if ok then s.put h line else s
    else s.put h line
  else s.put h line

/-- `timerInfo` of `tmFlushBuffer`. -/
def tmFlushBuffer (s : OpenTSDB) (sent : Sent) : OpenTSDB := (s.flushBuffer h sent).2

/-- `timerInfo` of `tmReconnect`. -/
def tmReconnect (s : OpenTSDB) (ok : Bool) : OpenTSDB :=
  if ok then (s.reconnect ok).askTimer .tmReconnect 0 (-1) else s.reconnect ok

/-- `sysCommand` of `StartUp`. -/
def startUp (s : OpenTSDB) (ok : Bool) : OpenTSDB :=
  let s := { s with started := true }
  if ok then s.reconnect ok else (s.reconnect ok).askTimer .tmReconnect h.reconnectTime (-1)

end OpenTSDB

/-- What happens to the backend. -/
inductive Event
  | startUp (ok : Bool)
  | sensorInfo (line : String) (sent again : Sent)
  | tmFlushBuffer (sent : Sent)
  | tmReconnect (ok : Bool)
deriving DecidableEq, Repr

/-- The step of an event; a timer comes only while it is ordered. -/
def OpenTSDB.step (h : Setup) (s : OpenTSDB) : Event → Option OpenTSDB
  | .startUp ok => some (s.startUp h ok)
  | .sensorInfo line sent again => some (s.sensorInfo h line sent again)
  | .tmFlushBuffer sent =>
    if s.timers.Pending .tmFlushBuffer then
      some ({ s with timers := s.timers.fire .tmFlushBuffer }.tmFlushBuffer h sent)
    else none
  | .tmReconnect ok =>
    if s.timers.Pending .tmReconnect then
      some ({ s with timers := s.timers.fire .tmReconnect }.tmReconnect ok)
    else none

/-- **The backend as a machine.** -/
def machine (h : Setup) : Lib.Machine OpenTSDB Event where
  start := fun s => s = ⟨[], false, false, .empty, false⟩
  step := OpenTSDB.step h

/-- One of the timers is pending. -/
def Waits (s : OpenTSDB) : Prop :=
  s.timers.Pending .tmFlushBuffer ∨ s.timers.Pending .tmReconnect

/-- **After `StartUp` lines do not wait without a timer.** -/
def Law (s : OpenTSDB) : Prop := s.started = true → s.buf ≠ [] → Waits s

/-- The attempt to send succeeds, or it orders `tmReconnect`. -/
def Helps (s : OpenTSDB) (sent : Sent) : Prop :=
  s.tcp = true ∧ (sent = .done ∨ sent = .ioException false)

/-- **The condition**: where `tmFlushBuffer` comes with lines in the buffer, they are sent or
`tmReconnect` is pending or ordered; where a connection is restored, or is there at `StartUp`, no line
waits or another timer is pending. -/
def Fits (s : OpenTSDB) : Event → Prop
  | .startUp ok => ok = true → s.buf ≠ [] → Waits s
  | .sensorInfo _ _ _ => True
  | .tmFlushBuffer sent => s.started = true → s.timers.Pending .tmFlushBuffer → s.buf ≠ [] →
      Helps s sent ∨ s.timers.Pending .tmReconnect
  | .tmReconnect ok => s.started = true → s.timers.Pending .tmReconnect → ok = true → s.buf ≠ [] →
      s.timers.Pending .tmFlushBuffer

/-- What holds between all events. -/
structure Armed (s : OpenTSDB) : Prop where
  flag : s.timerIsOn = true ↔ s.buf ≠ []
  armed : s.timers.Pending .tmFlushBuffer → s.timerIsOn = true
  once : ∀ curTick ∈ s.timers.curTick .tmFlushBuffer, curTick = 0
  endless : s.timers.Endless .tmReconnect

section Steps

variable {h : Setup} {s : OpenTSDB}

theorem other : Timers.tmFlushBuffer ≠ Timers.tmReconnect := by decide

theorem stopTimer_armed (endless : s.timers.Endless .tmReconnect) (none : s.buf = []) :
    Armed s.stopTimer where
  flag := ⟨fun flag => (nomatch flag), fun more => absurd none more⟩
  armed := fun pending => absurd pending (LTObject.not_pending_cancel (-1))
  once := fun curTick here => by
    have away : ¬ (s.timers.askTimer .tmFlushBuffer 0 (-1)).Pending .tmFlushBuffer :=
      LTObject.not_pending_cancel (-1)
    exact absurd (Option.isSome_iff_exists.mpr ⟨curTick, here⟩) away
  endless := endless.askTimer_other 0 (-1) other.symm

/-- What a flush that fails leaves as it was. -/
structure Kept (s u : OpenTSDB) : Prop where
  buf : u.buf = s.buf
  timerIsOn : u.timerIsOn = s.timerIsOn
  started : u.started = s.started
  flush : u.timers.curTick .tmFlushBuffer = s.timers.curTick .tmFlushBuffer
  endless : s.timers.Endless .tmReconnect → u.timers.Endless .tmReconnect
  reconnect : s.timers.Pending .tmReconnect → u.timers.Pending .tmReconnect

theorem Kept.armed {u : OpenTSDB} (kept : Kept s u) (armed : Armed s) : Armed u := by
  obtain ⟨flag, armed, once, endless⟩ := armed
  refine ⟨?_, ?_, ?_, kept.endless endless⟩
  · rw [kept.buf, kept.timerIsOn]
    exact flag
  · unfold LTObject.Pending
    rw [kept.flush, kept.timerIsOn]
    exact armed
  · rw [kept.flush]
    exact once

theorem Kept.waits {u : OpenTSDB} (kept : Kept s u) (waits : Waits s) : Waits u := by
  rcases waits with flush | reconnect
  · left
    unfold LTObject.Pending
    rw [kept.flush]
    exact flush
  · exact Or.inr (kept.reconnect reconnect)

theorem Kept.law {u : OpenTSDB} (kept : Kept s u) (law : Law s) : Law u := by
  unfold Law
  rw [kept.started, kept.buf]
  exact fun started lines => kept.waits (law started lines)

/-- **A flush of lines**: they are sent and the timer is stopped, or nothing changes but that the timer
`tmReconnect` may be ordered. -/
theorem flushBuffer_cases (lines : s.buf ≠ []) (sent : Sent) :
    (s.tcp = true ∧ sent = .done ∧ s.flushBuffer h sent = (true, { s with buf := [] }.stopTimer)) ∨
      ((s.tcp = true → sent ≠ .done) ∧ (s.flushBuffer h sent).1 = false ∧
        Kept s (s.flushBuffer h sent).2 ∧
          ((s.flushBuffer h sent).2.timers.Pending .tmReconnect ↔
            Helps s sent ∨ s.timers.Pending .tmReconnect)) := by
  have same : ∀ ok : Bool, Kept s (s.reconnect ok) := fun _ => ⟨rfl, rfl, rfl, rfl, id, id⟩
  unfold OpenTSDB.flushBuffer Helps
  rw [List.isEmpty_eq_false_iff.mpr lines, if_neg Bool.false_ne_true]
  cases connected : s.tcp with
  | false =>
    rw [if_pos (by decide)]
    exact Or.inr ⟨fun h => (nomatch h), rfl, ⟨rfl, rfl, rfl, rfl, id, id⟩, by simp⟩
  | true =>
    rw [if_neg (by decide)]
    cases sent with
    | notConnected =>
      exact Or.inr ⟨fun _ => Sent.noConfusion, rfl, ⟨rfl, rfl, rfl, rfl, id, id⟩, by simp⟩
    | done => exact Or.inl ⟨rfl, rfl, rfl⟩
    | broken ok =>
      refine Or.inr ⟨fun _ => Sent.noConfusion, rfl, same ok, ?_⟩
      simp [OpenTSDB.reconnect]
    | exception =>
      exact Or.inr ⟨fun _ => Sent.noConfusion, rfl, ⟨rfl, rfl, rfl, rfl, id, id⟩, by simp⟩
    | ioException ok =>
      refine Or.inr ⟨fun _ => Sent.noConfusion, rfl, ?_⟩
      cases ok with
      | true => exact ⟨same true, by simp [OpenTSDB.reconnect]⟩
      | false =>
        have pending : (s.timers.askTimer .tmReconnect h.reconnectTime (-1)).Pending .tmReconnect :=
          LTObject.pending_askTimer h.reconnectTime_pos (-1)
        refine ⟨⟨rfl, rfl, rfl, ?_, fun _ => LTObject.endless_askTimer _, fun _ => pending⟩, ?_⟩
        · exact LTObject.curTick_askTimer_other _ _ other
        · exact iff_of_true pending (Or.inl ⟨rfl, Or.inr rfl⟩)

theorem law_of_buf_nil (none : s.buf = []) : Law s := fun _ lines => absurd none lines

theorem flushBuffer_armed (armed : Armed s) (sent : Sent) : Armed (s.flushBuffer h sent).2 := by
  by_cases lines : s.buf = []
  · unfold OpenTSDB.flushBuffer
    rw [List.isEmpty_iff.mpr lines, if_pos rfl]
    dsimp only
    split
    · exact stopTimer_armed armed.endless lines
    · exact armed
  · rcases flushBuffer_cases (h := h) lines sent with ⟨-, -, done⟩ | ⟨-, -, kept, -⟩
    · rw [done]
      exact stopTimer_armed armed.endless rfl
    · exact kept.armed armed

theorem flushBuffer_law (law : Law s) (sent : Sent) : Law (s.flushBuffer h sent).2 := by
  by_cases lines : s.buf = []
  · refine law_of_buf_nil ?_
    unfold OpenTSDB.flushBuffer
    rw [List.isEmpty_iff.mpr lines, if_pos rfl]
    dsimp only
    split
    · exact lines
    · exact lines
  · rcases flushBuffer_cases (h := h) lines sent with ⟨-, -, done⟩ | ⟨-, -, kept, -⟩
    · rw [done]
      exact law_of_buf_nil rfl
    · exact kept.law law

/-- **A line that is put into the buffer** waits for a timer. -/
theorem put_spec (armed : Armed s) (law : Law s) (line : String) :
    Armed (s.put h line) ∧ Law (s.put h line) := by
  have lines : s.buf ++ [line] ≠ [] := List.append_ne_nil_of_right_ne_nil _ (List.cons_ne_nil _ _)
  unfold OpenTSDB.put
  dsimp only
  cases flag : s.timerIsOn with
  | true =>
    rw [if_neg (by decide)]
    have before : s.buf ≠ [] := armed.flag.mp flag
    exact ⟨⟨iff_of_true rfl lines, fun _ => rfl, armed.once, armed.endless⟩,
      fun started _ => law started before⟩
  | false =>
    rw [if_pos (by decide)]
    have away : s.timers.curTick .tmFlushBuffer = none := by
      refine Option.not_isSome_iff_eq_none.mp fun pending => ?_
      rw [armed.armed pending] at flag
      cases flag
    have pending : (s.timers.askTimer .tmFlushBuffer h.bufSyncTime 1).Pending .tmFlushBuffer :=
      LTObject.pending_askTimer h.bufSyncTime_pos 1
    refine ⟨⟨iff_of_true rfl lines, fun _ => rfl, fun curTick here => ?_, ?_⟩, fun _ _ => Or.inl pending⟩
    · have ordered : (s.timers.askTimer .tmFlushBuffer h.bufSyncTime 1).curTick .tmFlushBuffer = some 0 := by
        unfold LTObject.askTimer
        simp [h.bufSyncTime_pos, away]
      exact Option.some.inj (here.symm.trans ordered)
    · exact armed.endless.askTimer_other h.bufSyncTime 1 other.symm

/-- **A message about a sensor** never leaves lines without a timer. -/
theorem sensorInfo_spec (armed : Armed s) (law : Law s) (line : String) (sent again : Sent) :
    Armed (s.sensorInfo h line sent again) ∧ Law (s.sensorInfo h line sent again) := by
  have first := flushBuffer_armed (h := h) armed sent
  have firstLaw := flushBuffer_law (h := h) law sent
  have second := flushBuffer_armed (h := h) first again
  have secondLaw := flushBuffer_law (h := h) firstLaw again
  unfold OpenTSDB.sensorInfo
  dsimp only
  split_ifs
  · exact put_spec first firstLaw line
  · exact put_spec second secondLaw line
  · exact ⟨second, secondLaw⟩
  · exact put_spec first firstLaw line
  · exact put_spec armed law line

/-- The last tick of `tmFlushBuffer` is used up. -/
theorem Armed.fire (armed : Armed s) :
    Armed { s with timers := s.timers.fire .tmFlushBuffer } ∧
      ¬ (s.timers.fire .tmFlushBuffer).Pending .tmFlushBuffer := by
  have used : (s.timers.fire .tmFlushBuffer).curTick .tmFlushBuffer = none := by
    unfold LTObject.fire
    dsimp only
    rw [Function.update_self]
    cases here : s.timers.curTick .tmFlushBuffer with
    | none => rfl
    | some curTick =>
      rw [armed.once curTick here]
      rfl
  have away : ¬ (s.timers.fire .tmFlushBuffer).Pending .tmFlushBuffer := by
    unfold LTObject.Pending
    rw [used]
    exact Bool.false_ne_true
  refine ⟨⟨armed.flag, fun pending => absurd pending away, fun curTick here => ?_, ?_⟩, away⟩
  · have here : (s.timers.fire .tmFlushBuffer).curTick .tmFlushBuffer = some curTick := here
    rw [used] at here
    cases here
  · exact armed.endless.fire_other other.symm

/-- **The last tick of `tmFlushBuffer`** keeps the law exactly if lines are sent or the other timer is
there. -/
theorem law_tmFlushBuffer (armed : Armed s) (sent : Sent) :
    Law ({ s with timers := s.timers.fire .tmFlushBuffer }.tmFlushBuffer h sent) ↔
      (s.started = true → s.buf ≠ [] → Helps s sent ∨ s.timers.Pending .tmReconnect) := by
  obtain ⟨fired, away⟩ := armed.fire
  generalize hu : ({ s with timers := s.timers.fire .tmFlushBuffer } : OpenTSDB) = u at fired
  have fields : u.buf = s.buf ∧ u.started = s.started ∧ u.tcp = s.tcp ∧
      u.timers = s.timers.fire .tmFlushBuffer := by
    subst hu
    exact ⟨rfl, rfl, rfl, rfl⟩
  have reconnect : u.timers.Pending .tmReconnect ↔ s.timers.Pending .tmReconnect := by
    rw [fields.2.2.2]
    exact LTObject.pending_fire_other other.symm
  unfold OpenTSDB.tmFlushBuffer
  by_cases lines : s.buf = []
  · refine iff_of_true ?_ fun _ more => absurd lines more
    exact flushBuffer_law (law_of_buf_nil (fields.1.trans lines)) sent
  · rcases flushBuffer_cases (h := h) (fields.1.symm ▸ lines) sent with
      ⟨connected, done, flushed⟩ | ⟨-, -, kept, pending⟩
    · rw [flushed]
      refine iff_of_true (law_of_buf_nil rfl) fun _ _ => Or.inl ?_
      exact ⟨fields.2.2.1.symm.trans connected, Or.inl done⟩
    · have gone : ¬ (u.flushBuffer h sent).2.timers.Pending .tmFlushBuffer := by
        unfold LTObject.Pending
        rw [kept.flush, fields.2.2.2]
        exact away
      have waits : Waits (u.flushBuffer h sent).2 ↔ Helps s sent ∨ s.timers.Pending .tmReconnect := by
        unfold Waits
        rw [or_iff_right gone, pending, reconnect]
        unfold Helps
        rw [fields.2.2.1]
      unfold Law
      rw [kept.started, kept.buf, fields.1, fields.2.1, waits]

theorem law_startUp (ok : Bool) :
    Law (s.startUp h ok) ↔ (ok = true → s.buf ≠ [] → Waits s) := by
  cases ok with
  | true => exact ⟨fun law _ => law rfl, fun fits _ => fits rfl⟩
  | false =>
    refine iff_of_true (fun _ _ => Or.inr ?_) fun ok => nomatch ok
    exact LTObject.pending_askTimer h.reconnectTime_pos (-1)

/-- **A restored connection** cancels its timer: the other one has to be there. -/
theorem law_tmReconnect (law : Law s) (ok : Bool) : Law (s.tmReconnect ok) ↔
    (s.started = true → ok = true → s.buf ≠ [] → s.timers.Pending .tmFlushBuffer) := by
  cases ok with
  | false => exact iff_of_true law fun _ ok => nomatch ok
  | true =>
    have away : ¬ (s.timers.askTimer .tmReconnect 0 (-1)).Pending .tmReconnect :=
      LTObject.not_pending_cancel (-1)
    have waits : Waits (s.tmReconnect true) ↔ s.timers.Pending .tmFlushBuffer := by
      show _ ∨ (s.timers.askTimer .tmReconnect 0 (-1)).Pending .tmReconnect ↔ _
      rw [or_iff_left away]
      exact LTObject.pending_askTimer_other 0 (-1) other
    unfold Law
    rw [waits]
    exact ⟨fun law started _ => law started, fun fits started => fits started rfl⟩

theorem armed_reconnect (armed : Armed s) (ok started : Bool) :
    Armed { s.reconnect ok with started := started } := ⟨armed.flag, armed.armed, armed.once, armed.endless⟩

/-- An order or a cancellation of `tmReconnect` keeps what holds. -/
theorem armed_askReconnect (armed : Armed s) (timeMS : Nat) :
    Armed (s.askTimer .tmReconnect timeMS (-1)) := by
  refine ⟨armed.flag, fun pending => armed.armed ?_, fun curTick here => armed.once curTick ?_,
    LTObject.endless_askTimer timeMS⟩
  · exact (LTObject.pending_askTimer_other timeMS (-1) other).mp pending
  · have here : (s.timers.askTimer .tmReconnect timeMS (-1)).curTick .tmFlushBuffer = some curTick := here
    rw [LTObject.curTick_askTimer_other timeMS (-1) other] at here
    exact here

theorem armed_step (armed : Armed s) (law : Law s) {e : Event} {t : OpenTSDB}
    (stepped : s.step h e = some t) : Armed t := by
  cases e with
  | startUp ok =>
    cases stepped
    cases ok with
    | true => exact armed_reconnect armed true true
    | false => exact armed_askReconnect (armed_reconnect armed false true) h.reconnectTime
  | sensorInfo line sent again =>
    cases stepped
    exact (sensorInfo_spec armed law line sent again).1
  | tmFlushBuffer sent =>
    obtain ⟨-, ⟨⟩⟩ := Option.ite_none_right_eq_some.mp stepped
    exact flushBuffer_armed armed.fire.1 sent
  | tmReconnect ok =>
    obtain ⟨-, ⟨⟩⟩ := Option.ite_none_right_eq_some.mp stepped
    rw [armed.endless.fire]
    cases ok with
    | true => exact armed_askReconnect (armed_reconnect armed true s.started) 0
    | false => exact armed_reconnect armed false s.started

/-- **An event keeps the law exactly if it meets the condition.** -/
theorem law_step (armed : Armed s) (law : Law s) {e : Event} {t : OpenTSDB}
    (stepped : s.step h e = some t) : Law t ↔ Fits s e := by
  cases e with
  | startUp ok =>
    cases stepped
    exact law_startUp ok
  | sensorInfo line sent again =>
    cases stepped
    exact iff_of_true (sensorInfo_spec armed law line sent again).2 trivial
  | tmFlushBuffer sent =>
    obtain ⟨pending, ⟨⟩⟩ := Option.ite_none_right_eq_some.mp stepped
    rw [law_tmFlushBuffer armed]
    exact ⟨fun fits started _ => fits started, fun fits started => fits started pending⟩
  | tmReconnect ok =>
    obtain ⟨pending, ⟨⟩⟩ := Option.ite_none_right_eq_some.mp stepped
    rw [armed.endless.fire]
    refine (law_tmReconnect law ok).trans ?_
    exact ⟨fun fits started _ => fits started, fun fits started => fits started pending⟩

theorem exists_step {e : Event} (broken : ¬ Fits s e) : ∃ t, s.step h e = some t := by
  cases e with
  | startUp ok => exact ⟨_, rfl⟩
  | sensorInfo line sent again => exact ⟨_, rfl⟩
  | tmFlushBuffer sent =>
    by_cases pending : s.timers.Pending .tmFlushBuffer
    · exact ⟨_, if_pos pending⟩
    · exact absurd (fun _ here => absurd here pending) broken
  | tmReconnect ok =>
    by_cases pending : s.timers.Pending .tmReconnect
    · exact ⟨_, if_pos pending⟩
    · exact absurd (fun _ here => absurd here pending) broken

/-- **A run keeps the law exactly if each event meets the condition.** -/
theorem law_iff (start : (machine h).start s) (events : List Event) :
    (machine h).Always Law s events ↔ (machine h).Meets Fits s events := by
  refine Lib.Machine.always_iff_meets (P := fun s => Armed s ∧ Law s) (fun s held => held.2)
    (fun s e t held fits stepped => ⟨armed_step held.1 held.2 stepped,
      (law_step held.1 held.2 stepped).mpr fits⟩) (fun s e held broken => ?_) ?_
  · obtain ⟨t, stepped⟩ := exists_step (h := h) broken
    exact ⟨t, stepped, fun law => broken ((law_step held.1 held.2 stepped).mp law)⟩
  · cases start
    have away : ¬ (LTObject.empty : LTObject Timers).Pending .tmFlushBuffer := Bool.false_ne_true
    exact ⟨⟨⟨fun flag => (nomatch flag), fun none => absurd rfl none⟩, fun pending => absurd pending away,
      fun _ none => (nomatch none), fun _ none => (nomatch none)⟩, fun started => (nomatch started)⟩

end Steps

/-! ### Both backends -/

/-- **The runs of either backend in which buffered data never wait without a timer** are those whose
events meet its condition. -/
theorem backends_law_iff (h : BackendClickHouse.Setup) {s : BackendClickHouse.ClickHouse}
    (start : (BackendClickHouse.machine h).start s) (events : List BackendClickHouse.Event)
    (h' : Setup) {s' : OpenTSDB} (start' : (machine h').start s') (events' : List Event) :
    ((BackendClickHouse.machine h).Always BackendClickHouse.Law s events ↔
      (BackendClickHouse.machine h).Meets (BackendClickHouse.Fits h) s events) ∧
    ((machine h').Always Law s' events' ↔ (machine h').Meets Fits s' events') :=
  ⟨BackendClickHouse.law_iff start events, law_iff start' events'⟩

/-- Buffers of two rows or lines. -/
def small : Setup :=
  ⟨2, 4, 5000, 5000, Nat.succ_pos 1, Nat.le_add_left 2 2, Nat.succ_pos 4999, Nat.succ_pos 4999⟩

def smallClickHouse : BackendClickHouse.Setup :=
  ⟨2, 4, 5000, 5000, Nat.succ_pos 1, Nat.le_add_left 2 2, Nat.succ_pos 4999, Nat.succ_pos 4999⟩

/-- The backends before `StartUp`. -/
def OpenTSDB.initial : OpenTSDB := ⟨[], false, false, .empty, false⟩

def initialClickHouse : BackendClickHouse.ClickHouse := ⟨[], false, false, .empty, false⟩

/-- A row. -/
def row : BackendClickHouse.Row := ⟨1, 7, "AI1_S", "node", "", []⟩

/-- A lost connection is found by the flush, and restored; a connection is restored before the flush. -/
theorem restored :
    (BackendClickHouse.machine smallClickHouse).Always BackendClickHouse.Law initialClickHouse
      [.startUp true, .sensorInfo row false, .tmFlushBuffer false false, .tmReconnect true true] ∧
    (machine small).Always Law OpenTSDB.initial
      [.startUp false, .sensorInfo "put a 1 7" .done .done, .tmReconnect true, .tmFlushBuffer .done] := by
  have both := fun events events' => backends_law_iff smallClickHouse
    (show (BackendClickHouse.machine smallClickHouse).start initialClickHouse from rfl) events small
    (show (machine small).start OpenTSDB.initial from rfl) events'
  constructor
  · refine (both _ []).1.mpr ⟨fun _ rows => absurd rfl rows, ?_⟩
    rintro _ ⟨⟩
    refine ⟨fun _ _ flag => (nomatch flag), ?_⟩
    rintro _ ⟨⟩
    refine ⟨fun _ _ _ _ ping => (nomatch ping), ?_⟩
    rintro _ ⟨⟩
    exact ⟨trivial, fun _ _ => trivial⟩
  · refine (both [] _).2.mpr ⟨fun ok => (nomatch ok), ?_⟩
    rintro _ ⟨⟩
    refine ⟨trivial, ?_⟩
    rintro _ ⟨⟩
    refine ⟨fun _ _ _ _ => by decide, ?_⟩
    rintro _ ⟨⟩
    exact ⟨fun _ _ _ => Or.inl ⟨rfl, Or.inl rfl⟩, fun _ _ => trivial⟩

/-- **Rows that wait for good** although nothing fails: the timer comes after a full buffer was written.
Lines that wait for good: the connection is restored after the timer. -/
theorem stranded :
    (¬ ∀ (h : BackendClickHouse.Setup) s events, (BackendClickHouse.machine h).start s →
      (BackendClickHouse.machine h).Always BackendClickHouse.Law s events) ∧
    ¬ ∀ (h : Setup) s events, (machine h).start s → (machine h).Always Law s events := by
  constructor
  · intro holds
    have run := holds smallClickHouse initialClickHouse
      [.startUp true, .sensorInfo row true, .sensorInfo row true, .tmFlushBuffer true true,
        .sensorInfo row true] rfl
    have law := (((((run.2 _ rfl).2 _ rfl).2 _ rfl).2 _ rfl).2 _ rfl)
    rcases law rfl (by decide) with pending | pending
    · revert pending
      decide
    · revert pending
      decide
  · intro holds
    have run := holds small OpenTSDB.initial
      [.startUp false, .sensorInfo "put a 1 7" .done .done, .tmFlushBuffer .done, .tmReconnect true] rfl
    have law := ((((run.2 _ rfl).2 _ rfl).2 _ rfl).2 _ rfl)
    rcases law rfl (by decide) with pending | pending
    · revert pending
      decide
    · revert pending
      decide

end UniSet.BackendOpenTSDB

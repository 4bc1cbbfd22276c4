/-
**Concurrent calls on one sensor.**

Every call runs as a sequence of sections, each under the lock of the sensor; between two sections
any other call may move. `Call` is where a call stands, with the locals it holds, `advance` runs its
next section, and `machine` interleaves any number of calls.

* `IONotifyController::localSetValue` — read `prevValue`, the write section, compare and send.
* `IOController::localFreezeValue` — the flag section, which copies `real_value`, then the write.
* `USensorInfo::checkDepend` — the flag section, an unlocked copy of `real_value`, then the write.

Two properties fail on some interleavings, and hold on those that avoid one kind of step:

* **`last_message_current`** — the last message carries the final visible value if no write section
  brings a visible value that has left the `prevValue` of its call back to it (`NoReturn`);
  `returning_write_is_silent` is the run that does.
* **`write_survives_iff`** — a write that races with a freeze or a depend check survives exactly if
  its section is not taken while the other call holds an older copy (`NoStaleCopy`);
  `stale_copy_wins` are the runs that do.
-/

import Mathlib.Logic.Function.Basic
import UniSet.Lib.Machine
import UniSet.Processes.Sensor

namespace UniSet.Processes.Concurrent

open USensorInfo

/-- **Where a call stands**, with the locals it still needs. -/
inductive Call
  /-- `IONotifyController::localSetValue` before it reads `prevValue`. -/
  | set (value : Value) (sup : ObjectId)
  /-- Before the write section of `IOController::localSetValue`. -/
  | write (prevValue value : Value) (sup : ObjectId)
  /-- Before the comparison of `prevValue` with the returned `curValue`. -/
  | notify (prevValue curValue : Value)
  /-- `IOController::localFreezeValue` before its flag section. -/
  | freeze (set : Bool) (value : Value) (sup : ObjectId)
  /-- `USensorInfo::checkDepend` before its flag section, with the value and the supplier of the
  depend sensor. -/
  | depend (dependValue : Value) (dependSup : ObjectId)
  /-- `USensorInfo::checkDepend` before it copies `real_value`. -/
  | dependCopy (dependSup : ObjectId)
  /-- The call has returned or thrown. -/
  | done
deriving DecidableEq, Repr

/-- What one section leaves: the sensor, the call, the messages sent. -/
structure Moved where
  usi : USensorInfo
  call : Call
  sent : List SensorMessage

/-- **The next section of a call.** -/
def advance (conf : SensorConf) (sid : ObjectId) (u : USensorInfo) (now : Timespec) :
    Call → Option Moved
  | .set value sup => some ⟨u, .write u.value value sup, []⟩
  | .write prevValue value sup =>
    if conf.readonly then some ⟨u, .done, []⟩
    else some ⟨u.writeSection conf now value sup, .notify prevValue (u.writeResult conf value), []⟩
  | .notify prevValue curValue =>
    some ⟨u, .done, if prevValue = curValue then [] else [u.makeSensorMessage conf sid now]⟩
  | .freeze set value sup =>
    if conf.readonly then some ⟨u, .done, []⟩
    else some ⟨u.freezeSection set value, .set (u.freezeSection set value).realValue sup, []⟩
  | .depend dependValue dependSup =>
    some ⟨u.dependSection conf dependValue,
      if u.blocked = (u.dependSection conf dependValue).blocked then .done
      else .dependCopy dependSup, []⟩
  | .dependCopy dependSup => some ⟨u, .set u.realValue dependSup, []⟩
  | .done => none

/-- **The sensor and all calls on it.** -/
structure Pool (ι : Type) where
  usi : USensorInfo
  calls : ι → Call
  /-- The messages sent to the consumer, oldest first. -/
  sent : List SensorMessage
  /-- Some section has changed the visible value. -/
  changed : Bool

variable {ι : Type} [DecidableEq ι]

/-- One section of call `label.1`, at clock `label.2`. -/
def Pool.step (conf : SensorConf) (sid : ObjectId) (p : Pool ι) (label : ι × Timespec) :
    Option (Pool ι) :=
  (advance conf sid p.usi label.2 (p.calls label.1)).map fun moved =>
    { usi := moved.usi
      calls := Function.update p.calls label.1 moved.call
      sent := p.sent ++ moved.sent
      changed := p.changed || moved.usi.value != p.usi.value }

/-- **All interleavings** of the calls of a start pool. -/
def machine (conf : SensorConf) (sid : ObjectId) (start : Pool ι → Prop) :
    Lib.Machine (Pool ι) (ι × Timespec) where
  start := start
  step := Pool.step conf sid

variable {conf : SensorConf} {sid : ObjectId}

theorem step_cases {p q : Pool ι} {label : ι × Timespec}
    (stepped : Pool.step conf sid p label = some q) :
    ∃ moved, advance conf sid p.usi label.2 (p.calls label.1) = some moved ∧
      q.usi = moved.usi ∧ q.calls label.1 = moved.call ∧
      (∀ i, i ≠ label.1 → q.calls i = p.calls i) ∧ q.sent = p.sent ++ moved.sent ∧
      q.changed = (p.changed || moved.usi.value != p.usi.value) := by
  obtain ⟨moved, ran, rfl⟩ := Option.map_eq_some_iff.mp stepped
  exact ⟨moved, ran, rfl, Function.update_self .., fun i other => Function.update_of_ne other ..,
    rfl, rfl⟩

/-! ### The last message -/

/-- A call that has seen a change and will send. -/
def Owes : Call → Prop
  | .notify prevValue curValue => prevValue ≠ curValue
  | _ => False

/-- A `localSetValue` call, wherever it stands. -/
def Writing : Call → Prop
  | .set .. | .write .. | .notify .. | .done => True
  | .freeze .. | .depend .. | .dependCopy .. => False

/-- Any number of `localSetValue` calls that have not begun. -/
def Writers (p : Pool ι) : Prop :=
  (∀ i, ∃ value sup, p.calls i = .set value sup) ∧ p.sent = [] ∧ p.changed = false

/-- **The condition**: a write section of a call whose `prevValue` the sensor no longer shows does
not show it again. -/
def NoReturn (conf : SensorConf) (p : Pool ι) (label : ι × Timespec) : Prop :=
  match p.calls label.1 with
  | .write prevValue value _ => p.usi.value ≠ prevValue → p.usi.shown conf value ≠ prevValue
  | _ => True

instance (p : Pool ι) (label : ι × Timespec) : Decidable (NoReturn conf p label) := by
  unfold NoReturn
  split <;> infer_instance

/-- The last message carries the visible value. -/
def Current (p : Pool ι) : Prop := p.sent.getLast?.map SensorMessage.value = some p.usi.value

/-- **The invariant**: every call writes, and after a change the last message is current or a call
still owes one. -/
structure Informed (p : Pool ι) : Prop where
  writing : ∀ i, Writing (p.calls i)
  informed : p.changed = true → Current p ∨ ∃ i, Owes (p.calls i)

/-- A write section that changes the visible value leaves a call that owes a message. -/
theorem owes_of_change {u : USensorInfo} {now : Timespec} {prevValue value : Value} {sup : ObjectId}
    (noReturn : u.value ≠ prevValue → u.shown conf value ≠ prevValue)
    (changed : (u.writeSection conf now value sup).value ≠ u.value) :
    Owes (.notify prevValue (u.writeResult conf value)) := by
  cases fired : u.fires conf value with
  | false => exact absurd (writeSection_value_of_quiet fired) changed
  | true =>
    rw [writeSection_value_of_fires fired] at changed
    rw [writeResult, if_pos fired]
    intro same
    by_cases still : u.value = prevValue
    · exact changed (same.symm.trans still.symm)
    · exact noReturn still same.symm

/-- **One section keeps the consumer informed.** -/
theorem Informed.step {p q : Pool ι} {label : ι × Timespec} (before : Informed p)
    (noReturn : NoReturn conf p label) (stepped : Pool.step conf sid p label = some q) :
    Informed q := by
  obtain ⟨moved, ran, usi, own, others, sent, changed⟩ := step_cases stepped
  have writing : ∀ c, q.calls label.1 = c → Writing c → ∀ i, Writing (q.calls i) := by
    intro c here fits i
    by_cases mine : i = label.1
    · rw [mine, here]
      exact fits
    · rw [others i mine]
      exact before.writing i
  have owed : ¬ Owes (p.calls label.1) → (∃ i, Owes (p.calls i)) → ∃ i, Owes (q.calls i) := by
    rintro free ⟨i, owes⟩
    have mine : i ≠ label.1 := fun same => free (same ▸ owes)
    exact ⟨i, by rwa [others i mine]⟩
  have quiet : ¬ Owes (p.calls label.1) → q.usi.value = p.usi.value → q.sent = p.sent →
      q.changed = p.changed → q.changed = true → Current q ∨ ∃ i, Owes (q.calls i) := by
    intro free value same flag now
    rcases before.informed (flag ▸ now) with current | owes
    · exact .inl (by rwa [Current, same, value])
    · exact .inr (owed free owes)
  have fits := before.writing label.1
  revert ran
  cases stands : p.calls label.1 with
  | set value sup =>
    rintro ⟨⟩
    refine ⟨writing _ own trivial, quiet (by simp [stands, Owes]) (by rw [usi]) (by simpa using sent)
      (by simpa using changed)⟩
  | write prevValue value sup =>
    have free : ¬ Owes (p.calls label.1) := by simp [stands, Owes]
    intro ran
    simp only [advance] at ran
    split at ran
    · cases ran
      exact ⟨writing _ own trivial,
        quiet free (by rw [usi]) (by simpa using sent) (by simpa using changed)⟩
    · cases ran
      refine ⟨writing _ own trivial, fun after => ?_⟩
      by_cases same : (p.usi.writeSection conf label.2 value sup).value = p.usi.value
      · exact quiet free (by rw [usi, same]) (by simpa using sent) (by simpa [same] using changed)
          after
      · exact .inr ⟨label.1, own ▸ owes_of_change (by simpa [NoReturn, stands] using noReturn) same⟩
  | notify prevValue curValue =>
    rintro ⟨⟩
    refine ⟨writing _ own trivial, fun after => ?_⟩
    by_cases same : prevValue = curValue
    · have free : ¬ Owes (p.calls label.1) := by simp [stands, Owes, same]
      exact quiet free (by rw [usi]) (by simpa [same] using sent) (by simpa using changed) after
    · refine .inl ?_
      rw [Current, sent, if_neg same, List.getLast?_concat, usi]
      rfl
  | done => rintro ⟨⟩
  | freeze set value sup => exact absurd fits (by rw [stands]; exact id)
  | depend dependValue dependSup => exact absurd fits (by rw [stands]; exact id)
  | dependCopy dependSup => exact absurd fits (by rw [stands]; exact id)

/-- **No lost notification.** In every run of concurrent writers that meets the condition, once all
calls have completed and the visible value was changed, the last message carries the final visible
value. -/
theorem last_message_current (conf : SensorConf) (sid : ObjectId) {p : Pool ι}
    (reached : (machine conf sid Writers).Reachable (NoReturn conf) p)
    (finished : ∀ i, p.calls i = .done) (changed : p.changed = true) :
    p.sent.getLast?.map SensorMessage.value = some p.usi.value := by
  have informed : Informed p := by
    refine Lib.Machine.reachable_invariant (fun s started => ?_)
      (fun _ _ _ before noReturn stepped => before.step noReturn stepped) reached
    obtain ⟨calls, -, unchanged⟩ := started
    refine ⟨fun i => ?_, fun changed => ?_⟩
    · obtain ⟨value, sup, here⟩ := calls i
      rw [here]
      trivial
    · rw [unchanged] at changed
      cases changed
  rcases informed.informed changed with current | ⟨i, owes⟩
  · exact current
  · rw [finished i] at owes
    exact owes.elim

/-- A discrete input that works while sensor `2` shows `1`. -/
def input : SensorConf :=
  ⟨0, .DI, .mpMedium, ⟨0, 0, 0, 0, 0⟩, 0, false, false, 2, 1, 0⟩

/-- The input at `0`, with a call that writes `1` and a call that writes `0`. -/
def upAndDown : Pool Bool where
  usi := ⟨0, 0, false, false, 0, 100, ⟨0, 0⟩, 0⟩
  calls i := if i then .set 1 100 else .set 0 100
  sent := []
  changed := false

/-- The sections of the calls in the given order. -/
def schedule (order : List ι) : List (ι × Timespec) := order.map fun i => (i, ⟨0, 0⟩)

theorem writers_upAndDown : Writers upAndDown :=
  ⟨fun i => by cases i <;> exact ⟨_, _, rfl⟩, rfl, rfl⟩

/-- One call after the other: the last message carries the final `0`. -/
theorem last_message_current_upAndDown :
    ∃ p, (machine input 1 Writers).run upAndDown
        (schedule [true, true, true, false, false, false]) = some p ∧
      p.sent.getLast?.map SensorMessage.value = some p.usi.value := by
  obtain ⟨p, ran, finished, changed⟩ : ∃ p ∈ (machine input 1 Writers).run upAndDown
      (schedule [true, true, true, false, false, false]),
      (∀ i, p.calls i = .done) ∧ p.changed = true := by decide +kernel
  exact ⟨p, ran, last_message_current input 1
    ⟨upAndDown, _, writers_upAndDown, by decide +kernel, ran⟩ finished changed⟩

/-- **A returning write is silent.** The second call reads `0`; the first one writes `1` and sends
it; the second one writes `0`, finds it equal to what it read, and sends nothing. -/
theorem returning_write_is_silent :
    ∃ p, (machine input 1 Writers).Reachable (fun (_ : Pool Bool) _ => True) p ∧
      (∀ i, p.calls i = .done) ∧ p.changed = true ∧
      p.sent.getLast?.map SensorMessage.value ≠ some p.usi.value := by
  obtain ⟨p, ran, facts⟩ : ∃ p ∈ (machine input 1 Writers).run upAndDown
      (schedule [false, true, true, true, false, false]),
      (∀ i, p.calls i = .done) ∧ p.changed = true ∧
      p.sent.getLast?.map SensorMessage.value ≠ some p.usi.value := by decide +kernel
  exact ⟨p, Lib.Machine.reachable_of_run writers_upAndDown ran, facts⟩

/-! ### A write against a freeze or a depend check -/

/-- The two calls of the race. -/
inductive Party
  | setter | other
deriving DecidableEq, Repr

theorem Party.all {P : Party → Prop} (setter : P .setter) (other : P .other) : ∀ i, P i
  | .setter => setter
  | .other => other

/-- A `setValue` of `v` and one `freezeValue` or `checkDepend`, none of which has begun. -/
def Race (v : Value) (p : Pool Party) : Prop :=
  (∃ sup, p.calls .setter = .set v sup) ∧
    ((∃ set value sup, p.calls .other = .freeze set value sup) ∨
      ∃ dependValue dependSup, p.calls .other = .depend dependValue dependSup)

/-- The copy of `real_value` a freeze or depend check holds and has not written back. -/
def copied : Call → Option Value
  | .set value _ | .write _ value _ => some value
  | _ => none

/-- The call is past its write section. -/
def Past : Call → Prop
  | .notify .. | .done => True
  | _ => False

/-- **The condition**: the write section of the setter is not taken while the other call holds a copy
of another value. -/
def NoStaleCopy (v : Value) (p : Pool Party) (label : Party × Timespec) : Prop :=
  match label.1, p.calls .setter with
  | .setter, .write .. => ∀ copy ∈ copied (p.calls .other), copy = v
  | _, _ => True

instance (v : Value) (p : Pool Party) (label : Party × Timespec) :
    Decidable (NoStaleCopy v p label) := by
  unfold NoStaleCopy
  split <;> infer_instance

/-- **Up to the first stale copy**: the setter carries `v`, and once it has written, the real value
and every copy the other call holds are `v`. -/
structure Kept (v : Value) (p : Pool Party) : Prop where
  carries : Past (p.calls .setter) ∨ copied (p.calls .setter) = some v
  real : Past (p.calls .setter) → p.usi.realValue = v
  copy : Past (p.calls .setter) → ∀ copy ∈ copied (p.calls .other), copy = v

/-- **After a stale copy**: the setter has written, and the other call holds another value or has
written it back. -/
def Lost (v : Value) (p : Pool Party) : Prop :=
  Past (p.calls .setter) ∧ ((∃ copy ∈ copied (p.calls .other), copy ≠ v) ∨
    (Past (p.calls .other) ∧ p.usi.realValue ≠ v))

theorem copied_of_past {c : Call} (past : Past c) : copied c = none := by
  cases c <;> first | rfl | exact past.elim

theorem not_past_of_copied {c : Call} {copy : Value} (holds : copied c = some copy) : ¬ Past c := by
  intro past
  rw [copied_of_past past] at holds
  cases holds

section Steps

variable {u : USensorInfo} {now : Timespec} {c : Call} {moved : Moved}

/-- A call past its write section writes no more. -/
theorem advance_past (past : Past c) (ran : advance conf sid u now c = some moved) :
    Past moved.call ∧ moved.usi.realValue = u.realValue := by
  cases c with
  | notify prevValue curValue =>
    cases ran
    exact ⟨trivial, rfl⟩
  | done => cases ran
  | _ => exact past.elim

/-- A call that holds a copy keeps it until its write section, which stores it. -/
theorem advance_copied (writable : conf.readonly = false) {copy : Value}
    (holds : copied c = some copy) (ran : advance conf sid u now c = some moved) :
    (copied moved.call = some copy ∧ moved.usi.realValue = u.realValue) ∨
    ((∃ prevValue sup, c = .write prevValue copy sup) ∧ Past moved.call ∧
      moved.usi.realValue = copy) := by
  cases c with
  | set value sup =>
    cases holds
    cases ran
    exact .inl ⟨rfl, rfl⟩
  | write prevValue value sup =>
    cases holds
    simp only [advance, writable] at ran
    cases ran
    exact .inr ⟨⟨prevValue, sup, rfl⟩, trivial, writeSection_realValue⟩
  | _ => cases holds

/-- A call that holds no copy yet copies the real value and leaves it. -/
theorem advance_early (writable : conf.readonly = false) (early : ¬ Past c) (none : copied c = none)
    (ran : advance conf sid u now c = some moved) :
    moved.usi.realValue = u.realValue ∧ ∀ copy ∈ copied moved.call, copy = u.realValue := by
  cases c with
  | freeze set value sup =>
    simp only [advance, writable] at ran
    cases ran
    refine ⟨rfl, ?_⟩
    rintro copy ⟨⟩
    rfl
  | depend dependValue dependSup =>
    cases ran
    refine ⟨rfl, ?_⟩
    dsimp only
    split <;> rintro copy ⟨⟩
  | dependCopy dependSup =>
    cases ran
    refine ⟨rfl, ?_⟩
    rintro copy ⟨⟩
    rfl
  | set value sup => cases none
  | write prevValue value sup => cases none
  | _ => exact absurd trivial early

variable {v : Value} {p q : Pool Party} {label : Party × Timespec}

theorem Kept.step (writable : conf.readonly = false) (before : Kept v p)
    (unread : NoStaleCopy v p label) (stepped : Pool.step conf sid p label = some q) : Kept v q := by
  obtain ⟨moved, ran, usi, own, others, -, -⟩ := step_cases stepped
  obtain ⟨mover, now⟩ := label
  cases mover with
  | setter =>
    have other := others .other nofun
    rcases before.carries with past | carried
    · obtain ⟨stays, real⟩ := advance_past past ran
      rw [← own] at stays
      rw [← usi] at real
      exact ⟨.inl stays, fun _ => real.trans (before.real past), fun _ => other ▸ before.copy past⟩
    · rcases advance_copied writable carried ran with ⟨still, -⟩ | ⟨⟨prev, sup, stands⟩, past, real⟩
      · rw [← own] at still
        exact ⟨.inr still, fun past => absurd past (not_past_of_copied still),
          fun past => absurd past (not_past_of_copied still)⟩
      · rw [← own] at past
        rw [← usi] at real
        refine ⟨.inl past, fun _ => real, fun _ => ?_⟩
        rw [other]
        simpa [NoStaleCopy, show p.calls .setter = _ from stands] using unread
  | other =>
    have setter := others .setter nofun
    suffices after : Past (p.calls .setter) →
        q.usi.realValue = v ∧ ∀ copy ∈ copied (q.calls .other), copy = v from
      ⟨setter ▸ before.carries, fun past => (after (setter ▸ past)).1,
        fun past => (after (setter ▸ past)).2⟩
    intro written
    rw [own, usi]
    by_cases past : Past (p.calls .other)
    · obtain ⟨stays, real⟩ := advance_past past ran
      refine ⟨real.trans (before.real written), ?_⟩
      rw [copied_of_past stays]
      nofun
    · cases holds : copied (p.calls .other) with
      | none =>
        obtain ⟨real, fresh⟩ := advance_early writable past holds ran
        exact ⟨real.trans (before.real written), fun copy held =>
          (fresh copy held).trans (before.real written)⟩
      | some copy =>
        have same := before.copy written copy holds
        subst same
        rcases advance_copied writable holds ran with ⟨still, real⟩ | ⟨-, stays, real⟩
        · refine ⟨real.trans (before.real written), ?_⟩
          rw [still]
          rintro held ⟨⟩
          rfl
        · refine ⟨real, ?_⟩
          rw [copied_of_past stays]
          nofun

theorem lost_of_stale (writable : conf.readonly = false)
    (stale : ¬ NoStaleCopy v p label) (stepped : Pool.step conf sid p label = some q) :
    Lost v q := by
  obtain ⟨moved, ran, usi, own, others, -, -⟩ := step_cases stepped
  obtain ⟨mover, now⟩ := label
  cases mover with
  | other => exact absurd trivial stale
  | setter =>
    have other := others .other nofun
    unfold NoStaleCopy at stale
    split at stale
    · rename_i stands
      rw [show p.calls (Party.setter, now).1 = _ from stands] at ran
      simp only [advance, writable] at ran
      cases ran
      simp only [not_forall, exists_prop] at stale
      exact ⟨by rw [own]; trivial, .inl (other ▸ stale)⟩
    · exact absurd trivial stale

theorem Lost.step (writable : conf.readonly = false) (before : Lost v p)
    (stepped : Pool.step conf sid p label = some q) : Lost v q := by
  obtain ⟨moved, ran, usi, own, others, -, -⟩ := step_cases stepped
  obtain ⟨mover, now⟩ := label
  obtain ⟨written, lost⟩ := before
  cases mover with
  | setter =>
    have other := others .other nofun
    obtain ⟨stays, real⟩ := advance_past written ran
    rw [Lost, own, other, usi, real]
    exact ⟨stays, lost⟩
  | other =>
    have setter := others .setter nofun
    rw [Lost, setter, own, usi]
    refine ⟨written, ?_⟩
    rcases lost with ⟨copy, held, stale⟩ | ⟨past, stale⟩
    · rcases advance_copied writable held ran with ⟨still, -⟩ | ⟨-, past, real⟩
      · exact .inl ⟨copy, still, stale⟩
      · exact .inr ⟨past, real.symm ▸ stale⟩
    · obtain ⟨stays, real⟩ := advance_past past ran
      exact .inr ⟨stays, real.symm ▸ stale⟩

end Steps

/-- **The write survives exactly if no copy was stale.** A `setValue` of `v` runs against a freeze
or a depend check of the same writable sensor. When both have completed, the real value is `v` if
and only if the write section of the setter never ran while the other call held a copy of another
value. -/
theorem write_survives_iff (conf : SensorConf) (sid : ObjectId) (writable : conf.readonly = false)
    (v : Value) {p q : Pool Party} (race : Race v p) {labels : List (Party × Timespec)}
    (ran : (machine conf sid (Race v)).run p labels = some q)
    (finished : ∀ i, q.calls i = .done) :
    q.usi.realValue = v ↔ (machine conf sid (Race v)).Meets (NoStaleCopy v) p labels := by
  have kept : Kept v p := by
    obtain ⟨⟨sup, stands⟩, -⟩ := race
    have early : ¬ Past (p.calls .setter) := by
      rw [stands]
      exact id
    exact ⟨.inr (by rw [stands]; rfl), fun past => absurd past early, fun past => absurd past early⟩
  have ended : Past (q.calls .setter) := by
    rw [finished]
    trivial
  constructor
  · intro survives
    by_contra stale
    have lost : Lost v q := Lib.Machine.run_broken
      (fun _ _ _ before fresh stepped => before.step writable fresh stepped)
      (fun _ _ _ _ stale stepped => lost_of_stale writable stale stepped)
      (fun _ _ _ before stepped => before.step writable stepped) kept stale ran
    obtain ⟨-, ⟨copy, held, -⟩ | ⟨-, other⟩⟩ := lost
    · rw [finished] at held
      cases held
    · exact other survives
  · intro meets
    have after : Kept v q := Lib.Machine.run_invariant
      (fun _ _ _ before fresh stepped => before.step writable fresh stepped) kept meets ran
    exact after.real ended

/-- The input at `0`: a call that writes `7` against the given one. -/
def against (other : Call) : Pool Party where
  usi := ⟨0, 0, false, false, 0, 100, ⟨0, 0⟩, 0⟩
  calls
    | .setter => .set 7 100
    | .other => other
  sent := []
  changed := false

/-- The write section after the freeze has copied and written back. -/
theorem write_survives_against_freeze :
    ∃ q, (machine input 1 (Race 7)).run (against (.freeze true 5 100))
        (schedule [.other, .other, .other, .setter, .setter, .other, .setter]) = some q ∧
      q.usi.realValue = 7 := by
  obtain ⟨q, ran, setter, other⟩ : ∃ q ∈ (machine input 1 (Race 7)).run
      (against (.freeze true 5 100))
      (schedule [.other, .other, .other, .setter, .setter, .other, .setter]),
      q.calls .setter = .done ∧ q.calls .other = .done := by decide +kernel
  exact ⟨q, ran, (write_survives_iff input 1 rfl 7 ⟨⟨100, rfl⟩, .inl ⟨true, 5, 100, rfl⟩⟩ ran
    (Party.all setter other)).mpr (by decide +kernel)⟩

/-- **A stale copy wins.** The freeze and the depend check have copied `0`; the setter writes `7`; the
write-back stores `0` again. -/
theorem stale_copy_wins :
    (∃ q, (machine input 1 (Race 7)).Reachable (fun _ _ => True) q ∧
      (∀ i, q.calls i = .done) ∧ q.usi.frozen = true ∧ q.usi.realValue ≠ 7) ∧
    (∃ q, (machine input 1 (Race 7)).Reachable (fun _ _ => True) q ∧
      (∀ i, q.calls i = .done) ∧ q.usi.blocked = true ∧ q.usi.realValue ≠ 7) := by
  constructor
  · obtain ⟨q, ran, setter, other, facts⟩ : ∃ q ∈ (machine input 1 (Race 7)).run
        (against (.freeze true 5 100))
        (schedule [.other, .setter, .setter, .setter, .other, .other, .other]),
        q.calls .setter = .done ∧ q.calls .other = .done ∧ q.usi.frozen = true ∧
        q.usi.realValue ≠ 7 := by decide +kernel
    exact ⟨q, Lib.Machine.reachable_of_run ⟨⟨100, rfl⟩, .inl ⟨true, 5, 100, rfl⟩⟩ ran,
      Party.all setter other, facts⟩
  · obtain ⟨q, ran, setter, other, facts⟩ : ∃ q ∈ (machine input 1 (Race 7)).run
        (against (.depend 0 100))
        (schedule [.other, .other, .setter, .setter, .setter, .other, .other, .other]),
        q.calls .setter = .done ∧ q.calls .other = .done ∧ q.usi.blocked = true ∧
        q.usi.realValue ≠ 7 := by decide +kernel
    exact ⟨q, Lib.Machine.reachable_of_run ⟨⟨100, rfl⟩, .inr ⟨0, 100, rfl⟩⟩ ran,
      Party.all setter other, facts⟩

end UniSet.Processes.Concurrent

/-
**A stream session: queue, alarm and the operations in the completion queue.**

The server's and the client's `AsyncClientSession` have the same write side: messages are pushed to
a queue from any thread, the push cancels an alarm, and the event of the cancelled alarm makes the
loop write. `Op` is an operation whose event the loop has not handled yet, `Effect` what a handler
leaves: the session, the operations it starts, the messages it hands to `Write`.

* `cancel` — `Alarm::Cancel` on an armed alarm yields one event with `ok = false`, on an unarmed one
  nothing; expiry (in the step relations) yields one event with `ok = true`.
* `onWrite`, `onDataTimer`, `onRead`, `onClose`, `pushSection` — the handlers both sessions share.
* **`Handled`**, `handle_handled` — what a handler can do to the session.
-/

import Mathlib.Data.List.Basic

namespace UniSet.Stream

/-- An operation whose event has not been handled. `timer ok` is the event of an alarm that expired
(`ok = true`) or was cancelled. -/
inductive Op
  | start | read | write | timer (ok : Bool) | finish
deriving DecidableEq, Repr

/-- An event of the alarm, or a write. -/
def Op.isToken : Op → Bool
  | .timer _ | .write => true
  | .start | .read | .finish => false

/-- **The session**, for messages of type `M`. -/
structure Session (M : Type) where
  queue : List M
  /-- `wait_data_timer` is set and has not fired. -/
  armed : Bool
  closed : Bool
  deleted : Bool
deriving DecidableEq, Repr

/-- **What a handler leaves.** -/
structure Effect (M : Type) where
  session : Session M
  ops : List Op
  written : List M
deriving DecidableEq, Repr

namespace Session

variable {M : Type} (s : Session M)

/-- A session before any handler ran. -/
def new : Session M := ⟨[], false, false, false⟩

/-- Nothing is done. -/
def skip : Effect M := ⟨s, [], []⟩

/-- **`Alarm::Cancel`.** -/
def cancel : Effect M :=
  if s.armed then ⟨{ s with armed := false }, [.timer false], []⟩ else s.skip

/-- **`reset_timer`.** -/
def resetTimer : Effect M := ⟨{ s with armed := true }, [], []⟩

/-- The common end of a failed read and of a failed write: `closed`, `Cancel`, `Finish`. -/
def finish : Effect M :=
  let cancelled := cancel { s with closed := true }
  { cancelled with ops := cancelled.ops ++ [.finish] }

/-- **`on_write`.** -/
def onWrite (ok : Bool) : Effect M :=
  if s.closed then s.skip
  else if ok then
    match s.queue with
    | [] => s.resetTimer
    | m :: rest => ⟨{ s with queue := rest }, [.write], [m]⟩
  else s.finish

/-- **`on_data_timer`.** -/
def onDataTimer (ok : Bool) : Effect M :=
  if s.closed then s.skip else if ok then s.resetTimer else s.onWrite true

/-- **`on_read`**, up to the processing of the message: a successful read starts the next one
whether or not the session is closed. -/
def onRead (ok : Bool) : Effect M :=
  if ok then ⟨s, [.read], []⟩ else if s.closed then s.skip else s.finish

/-- **`on_close`.** -/
def onClose : Effect M :=
  if s.deleted then s.skip else cancel { s with deleted := true, closed := true }

/-- The locked section of **`push_data`.** -/
def pushSection (m : M) : Effect M := cancel { s with queue := s.queue ++ [m] }

/-- The handler of an event, with the `on_create` of the session's class. -/
def handle (onCreate : Session M → Bool → Effect M) (op : Op) (ok : Bool) : Effect M :=
  match op with
  | .start => onCreate s ok
  | .read => s.onRead ok
  | .write => s.onWrite ok
  | .timer expired => s.onDataTimer expired
  | .finish => s.onClose

end Session

/-! ### What a handler can do -/

namespace Session

variable {M : Type} {s : Session M}

@[simp] theorem cancel_session : s.cancel.session = { s with armed := false } := by
  unfold cancel
  split
  · rfl
  · rename_i unarmed
    obtain ⟨queue, armed, closed, deleted⟩ := s
    cases Bool.eq_false_iff.mpr unarmed
    rfl

@[simp] theorem cancel_written : s.cancel.written = [] := by
  unfold cancel
  split <;> rfl

theorem cancel_ops : s.cancel.ops = if s.armed then [.timer false] else [] := by
  unfold cancel
  split <;> rfl

@[simp] theorem finish_session : s.finish.session = { s with closed := true, armed := false } := by
  simp [finish]

@[simp] theorem finish_written : s.finish.written = [] := by
  simp [finish]

theorem finish_ops : s.finish.ops = (if s.armed then [.timer false] else []) ++ [.finish] := by
  simp [finish, cancel_ops]

/-- **What a handler can do**, apart from `on_create`. -/
inductive Handled (s : Session M) : Op → Effect M → Prop
  | ignored (op : Op) (late : s.closed = true) : Handled s op s.skip
  | rearmed (live : s.closed = false) : Handled s (.timer true) s.resetTimer
  | emptied (op : Op) (wakes : op = .timer false ∨ op = .write) (live : s.closed = false)
      (empty : s.queue = []) : Handled s op s.resetTimer
  | wrote (op : Op) (wakes : op = .timer false ∨ op = .write) (live : s.closed = false) (m : M)
      (rest : List M) (queued : s.queue = m :: rest) :
      Handled s op ⟨{ s with queue := rest }, [.write], [m]⟩
  | failed (op : Op) (fails : op = .read ∨ op = .write) (live : s.closed = false) :
      Handled s op s.finish
  | reread : Handled s .read ⟨s, [.read], []⟩
  | released : Handled s .finish s.onClose

theorem onWrite_handled {op : Op} (wakes : op = .timer false ∨ op = .write) :
    Handled s op (s.onWrite true) := by
  unfold onWrite
  split
  · rename_i late
    exact .ignored op late
  · rename_i live
    rw [if_pos rfl]
    split
    · rename_i empty
      exact .emptied op wakes (Bool.eq_false_iff.mpr live) empty
    · rename_i m rest queued
      exact .wrote op wakes (Bool.eq_false_iff.mpr live) m rest queued

theorem handle_handled (onCreate : Session M → Bool → Effect M) {op : Op} (created : op ≠ .start)
    (ok : Bool) : Handled s op (s.handle onCreate op ok) := by
  cases late : s.closed with
  | true =>
    cases op with
    | start => exact absurd rfl created
    | finish => exact .released
    | read =>
      cases ok with
      | true => exact .reread
      | false =>
        rw [show s.handle onCreate .read false = s.skip by simp [handle, onRead, late]]
        exact .ignored .read late
    | write =>
      rw [show s.handle onCreate .write ok = s.skip by simp [handle, onWrite, late]]
      exact .ignored .write late
    | timer expired =>
      rw [show s.handle onCreate (.timer expired) ok = s.skip by simp [handle, onDataTimer, late]]
      exact .ignored (.timer expired) late
  | false =>
    cases op with
    | start => exact absurd rfl created
    | finish => exact .released
    | read =>
      cases ok with
      | true => exact .reread
      | false =>
        rw [show s.handle onCreate .read false = s.finish by simp [handle, onRead, late]]
        exact .failed .read (.inl rfl) late
    | write =>
      cases ok with
      | true => exact onWrite_handled (.inr rfl)
      | false =>
        rw [show s.handle onCreate .write false = s.finish by simp [handle, onWrite, late]]
        exact .failed .write (.inr rfl) late
    | timer expired =>
      cases expired with
      | true =>
        rw [show s.handle onCreate (.timer true) ok = s.resetTimer by
          simp [handle, onDataTimer, late]]
        exact .rearmed late
      | false =>
        rw [show s.handle onCreate (.timer false) ok = s.onWrite true by
          simp [handle, onDataTimer, late]]
        exact onWrite_handled (.inl rfl)

end Session

end UniSet.Stream

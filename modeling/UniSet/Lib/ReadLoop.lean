/-
**Read loops over one buffer.**

A loop owns one message buffer. `Read` hands the buffer to the transport, which fills it with the
next message at any later moment and queues one event; the loop takes the event and runs a handler,
whose first statement is the next `Read`. The handler then works on the buffer statement by
statement, so a fill may come between any two of its statements.

* `Handler` — a handler after its `Read`: the next statement, what is left to do (`remaining`) and
  which positions still read the buffer.
* `ReadLoop.machine` — all interleavings of fills, events and statements.
* **`exactly_once`** — if no fill comes while the handler still reads the buffer, what was executed
  is a prefix of the actions of all messages, in order, and all of them when nothing can move.
-/

import Mathlib.Data.List.Basic
import Mathlib.Data.List.Infix
import UniSet.Lib.Machine

namespace UniSet.Lib

/-- **A handler**, after its `Read`, as a program over the buffer. -/
structure Handler (Msg Local Act : Type*) where
  enter : Local
  /-- One statement: where the handler stands next (`none` when it returns) and what it does. -/
  next : Msg → Local → Option Local × List Act
  /-- The position still reads the buffer. -/
  reads : Local → Bool
  /-- What is left to do from a position, if the buffer stays as it is. -/
  remaining : Msg → Local → List Act
  remaining_eq : ∀ m l, remaining m l = (next m l).2 ++ (next m l).1.elim [] (remaining m)
  unread : ∀ l, reads l = false → ∀ m m', remaining m l = remaining m' l

/-- What the handler does with a message that stays in the buffer. -/
def Handler.actions {Msg Local Act : Type*} (H : Handler Msg Local Act) (m : Msg) : List Act :=
  H.remaining m H.enter

/-- Where the loop stands. -/
inductive Phase (Local : Type*)
  | idle
  /-- An event was taken; the handler has not called `Read` yet. -/
  | delivered
  | running (l : Local)
deriving DecidableEq, Repr

/-- **The loop and its transport.** -/
structure ReadLoop (Msg Local Act : Type*) where
  /-- The messages of the peer that have not reached the buffer. -/
  incoming : List Msg
  buffer : Msg
  /-- A `Read` is outstanding. -/
  reading : Bool
  /-- The event of a completed `Read` is queued. -/
  event : Bool
  phase : Phase Local
  executed : List Act
deriving DecidableEq, Repr

/-- The transport fills the buffer, the loop takes an event, the handler runs a statement. -/
inductive ReadLabel
  | fill | deliver | statement
deriving DecidableEq, Repr

theorem ReadLabel.all {P : ReadLabel → Prop} (fill : P .fill) (deliver : P .deliver)
    (statement : P .statement) : ∀ label, P label
  | .fill => fill
  | .deliver => deliver
  | .statement => statement

namespace ReadLoop

variable {Msg Local Act : Type*} (H : Handler Msg Local Act)

/-- **One step.** -/
def step (s : ReadLoop Msg Local Act) : ReadLabel → Option (ReadLoop Msg Local Act)
  | .fill =>
    match s.reading, s.incoming with
    | true, m :: rest =>
      some { s with incoming := rest, buffer := m, reading := false, event := true }
    | _, _ => none
  | .deliver =>
    match s.event, s.phase with
    | true, .idle => some { s with event := false, phase := .delivered }
    | _, _ => none
  | .statement =>
    match s.phase with
    | .idle => none
    | .delivered => some { s with reading := true, phase := .running H.enter }
    | .running l =>
      some { s with
        phase := (H.next s.buffer l).1.elim .idle .running
        executed := s.executed ++ (H.next s.buffer l).2 }

/-- **All runs** on a sequence of messages, from the first outstanding `Read` on. -/
def machine (messages : List Msg) : Machine (ReadLoop Msg Local Act) ReadLabel where
  start s := s.incoming = messages ∧ s.reading = true ∧ s.event = false ∧ s.phase = .idle ∧
    s.executed = []
  step := step H

/-- The handler runs and still reads the buffer. -/
def busy (s : ReadLoop Msg Local Act) : Bool :=
  match s.phase with
  | .running l => H.reads l
  | .idle | .delivered => false

/-- **The condition**: no fill comes while the handler still reads the buffer. -/
def Undisturbed (s : ReadLoop Msg Local Act) (label : ReadLabel) : Prop :=
  label = .fill → busy H s = false

instance (s : ReadLoop Msg Local Act) (label : ReadLabel) : Decidable (Undisturbed H s label) :=
  inferInstanceAs (Decidable (_ → _))

/-- What the handler has still to do. -/
def current (s : ReadLoop Msg Local Act) : List Act :=
  match s.phase with
  | .running l => H.remaining s.buffer l
  | .idle | .delivered => []

/-- What is to be done with the message that waits in the buffer. -/
def waiting (s : ReadLoop Msg Local Act) : List Act :=
  match s.event, s.phase with
  | true, _ | false, .delivered => H.actions s.buffer
  | false, .idle | false, .running _ => []

/-- **The invariant**: the books balance, and the buffer is with the transport, with a queued event,
or with a handler that has not called `Read`. -/
structure Exact (total : List Act) (s : ReadLoop Msg Local Act) : Prop where
  ledger : s.executed ++ (current H s ++ (waiting H s ++ s.incoming.flatMap H.actions)) = total
  turn : (s.phase = .delivered ∧ s.reading = false ∧ s.event = false) ∨
    (s.phase ≠ .delivered ∧ s.reading = !s.event)

variable {H} {total : List Act} {s t : ReadLoop Msg Local Act}

theorem Exact.fill (exact : Exact H total s) (undisturbed : busy H s = false)
    (stepped : step H s .fill = some t) : Exact H total t := by
  obtain ⟨incoming, buffer, reading, event, phase, executed⟩ := s
  obtain ⟨ledger, turn⟩ := exact
  simp only [step] at stepped
  split at stepped
  · rename_i m rest
    cases stepped
    rcases turn with ⟨-, impossible, -⟩ | ⟨undelivered, quiet⟩
    · cases impossible
    · have quiet : event = false := by simpa using quiet.symm
      subst quiet
      refine ⟨?_, .inr ⟨undelivered, rfl⟩⟩
      rw [← ledger]
      cases phase with
      | idle => simp [current, waiting]
      | delivered => exact absurd rfl undelivered
      | running l => simp [current, waiting, H.unread l undisturbed m buffer]
  · cases stepped

theorem Exact.deliver (exact : Exact H total s) (stepped : step H s .deliver = some t) :
    Exact H total t := by
  obtain ⟨incoming, buffer, reading, event, phase, executed⟩ := s
  obtain ⟨ledger, turn⟩ := exact
  simp only [step] at stepped
  split at stepped
  · cases stepped
    rcases turn with ⟨impossible, -, -⟩ | ⟨-, quiet⟩
    · cases impossible
    · exact ⟨by rw [← ledger]; simp [current, waiting], .inl ⟨rfl, by simpa using quiet, rfl⟩⟩
  · cases stepped

theorem Exact.statement (exact : Exact H total s) (stepped : step H s .statement = some t) :
    Exact H total t := by
  obtain ⟨incoming, buffer, reading, event, phase, executed⟩ := s
  obtain ⟨ledger, turn⟩ := exact
  cases phase with
  | idle => cases stepped
  | delivered =>
    cases stepped
    rcases turn with ⟨-, -, quiet⟩ | ⟨undelivered, -⟩
    · dsimp only at quiet
      subst quiet
      refine ⟨?_, .inr ⟨nofun, rfl⟩⟩
      rw [← ledger]
      simp [current, waiting, Handler.actions]
    · exact absurd rfl undelivered
  | running l =>
    cases stepped
    have quiet := turn.resolve_left fun delivered => nomatch delivered.1
    have work := H.remaining_eq buffer l
    cases returned : (H.next buffer l).1 with
    | none =>
      refine ⟨?_, .inr ⟨nofun, quiet.2⟩⟩
      rw [← ledger]
      cases event <;> simp [current, waiting, work, returned]
    | some after =>
      refine ⟨?_, .inr ⟨nofun, quiet.2⟩⟩
      rw [← ledger]
      cases event <;> simp [current, waiting, work, returned]

theorem Exact.step {label : ReadLabel} (exact : Exact H total s) (undisturbed : Undisturbed H s label)
    (stepped : step H s label = some t) : Exact H total t := by
  cases label with
  | fill => exact exact.fill (undisturbed rfl) stepped
  | deliver => exact exact.deliver stepped
  | statement => exact exact.statement stepped

/-- When nothing can move, nothing is left to do. -/
theorem Exact.done (exact : Exact H total s) (stuck : ∀ label, ReadLoop.step H s label = none) :
    s.executed = total := by
  obtain ⟨incoming, buffer, reading, event, phase, executed⟩ := s
  obtain ⟨ledger, turn⟩ := exact
  cases phase with
  | delivered => cases stuck .statement
  | running l => cases stuck .statement
  | idle =>
    cases event with
    | true => cases stuck .deliver
    | false =>
      have outstanding : reading = true := by simpa using turn
      subst outstanding
      cases incoming with
      | cons m rest => cases stuck .fill
      | nil => simpa [current, waiting] using ledger

/-- **Exactly once, in order.** -/
theorem exactly_once {messages : List Msg} (reached : (machine H messages).Reachable (Undisturbed H) s) :
    s.executed <+: messages.flatMap H.actions ∧
      ((∀ label, ReadLoop.step H s label = none) → s.executed = messages.flatMap H.actions) := by
  have exact : Exact H (messages.flatMap H.actions) s := by
    refine Machine.reachable_invariant (fun s started => ?_)
      (fun _ _ _ exact undisturbed stepped => exact.step undisturbed stepped) reached
    obtain ⟨incoming, reading, event, phase, executed⟩ := started
    refine ⟨?_, .inr ⟨by rw [phase]; nofun, by rw [reading, event]; rfl⟩⟩
    simp [current, waiting, incoming, event, phase, executed]
  exact ⟨⟨_, exact.ledger⟩, exact.done⟩

end ReadLoop

end UniSet.Lib

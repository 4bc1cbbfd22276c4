/-
**`IONotifyStreamAsyncClient`: one completion queue for successive sessions.**

The thread of `async_run_cb` calls `mainLoop` again and again while the client is active. Every call
that connects makes a new session, destroys the one before, and handles the events of the one
completion queue until a close event; an operation started by a session is in the queue until its
event is handled, also when the session no longer exists.

* `connect`, `mainLoopEvent` — `mainLoop` from the session it makes to its loop, and one turn of the
  loop.
* `Steady` — no event of a former session is in the queue, and the loop waits only while the current
  session has a start, a read or a finish outstanding.
* **`current_and_outstanding`** — in every run in which, until the client is terminated, the start of
  a call succeeds, no callback throws and a close event is handled only as the last operation of its
  session, every event handled belongs to the current session, and the loop never waits without an
  operation of it.
  `start_or_read_left_behind` are runs that break this.
-/

import Mathlib.Data.List.Basic
import UniSet.Lib.Machine
import UniSet.Stream.Session

namespace UniSet.Stream.AsyncClient

variable {M : Type}

/-- Where the thread stands. -/
inductive Loop
  /-- Outside `mainLoop`, before the test of `active`. -/
  | idle
  /-- In `mainLoop`, before the session is made. -/
  | connecting
  /-- In `cq.Next`. -/
  | waiting
  | stopped
deriving DecidableEq, Repr

/-- **The client.** -/
structure Client (M : Type) where
  /-- The number of the current session; `0` before the first. -/
  generation : Nat
  session : Session M
  /-- The operations whose event has not been handled, with the session that started them. -/
  pending : List (Nat × Op)
  loop : Loop
  active : Bool
  connected : Bool
  /-- An event of a destroyed session was handled. -/
  stale : Bool
deriving DecidableEq, Repr

/-- One step: the thread enters `mainLoop` or leaves for good, makes the connection, the loop takes
an event or finds the queue shut down and empty, the alarm expires, another thread pushes a command
or terminates the client. A `late` push tested the flags before the session was closed. -/
inductive Label (M : Type)
  | enter
  | connect (reached throws : Bool)
  | event (generation : Nat) (op : Op) (ok throws : Bool)
  | drained
  | expire
  | push (m : M) (late : Bool)
  | terminate
deriving DecidableEq, Repr

/-- **`on_create`** of the client's session. -/
def onCreate (s : Session M) (ok : Bool) : Effect M :=
  if s.closed then s.skip
  else if ok then
    let armed := s.resetTimer.session
    let woken := if armed.queue.isEmpty then armed.skip else armed.cancel
    { woken with ops := woken.ops ++ [.read] }
  else s.onClose

namespace Client

/-- The operations of the current session that an effect adds. -/
def started (c : Client M) (effect : Effect M) : List (Nat × Op) :=
  effect.ops.map fun op => (c.generation, op)

/-- The state after a handler of the current session. -/
def after (c : Client M) (effect : Effect M) : Client M :=
  { c with session := effect.session, pending := c.pending ++ c.started effect }

/-- **`mainLoop` up to its loop.** The new session starts its call before the old one is destroyed,
which cancels its alarm; `sendConnectionEvent` may throw. A client that was terminated meanwhile
does not enter the loop. -/
def connect (eventID : Int) (c : Client M) (reached throws : Bool) : Client M :=
  if reached then
    let renewed := { c with
      generation := c.generation + 1
      session := Session.new
      pending := c.pending ++ ((c.generation + 1, .start) :: c.started c.session.cancel)
      loop := .idle }
    if c.active then
      if !c.connected && 0 < eventID && throws then renewed
      else { renewed with connected := true, loop := .waiting }
    else { renewed with connected := false }
  else { c with loop := .idle }

/-- **One turn of the loop of `mainLoop`.** The close event ends it, and so does an exception of the
callback in `on_read`; otherwise it goes on while the client is active. -/
def mainLoopEvent (eventID : Int) (c : Client M) (op : Op) (ok throws : Bool) : Client M :=
  let handled := c.after (c.session.handle onCreate op ok)
  match op with
  | .finish =>
    { handled with loop := .idle, connected := c.connected && 0 < eventID && c.active && throws }
  | .read =>
    if ok && throws then { handled with loop := .idle }
    else if c.active then handled
    else { handled with loop := .idle, connected := false }
  | _ =>
    if c.active then handled else { handled with loop := .idle, connected := false }

/-- **One step.** -/
def step (eventID : Int) (c : Client M) : Label M → Option (Client M)
  | .enter =>
    if c.loop = .idle then some { c with loop := if c.active then .connecting else .stopped }
    else none
  | .connect reached throws =>
    if c.loop = .connecting then some (c.connect eventID reached throws) else none
  | .event generation op ok throws =>
    if c.loop = .waiting ∧ (generation, op) ∈ c.pending then
      let taken := { c with pending := c.pending.erase (generation, op) }
      some (if generation = c.generation then taken.mainLoopEvent eventID op ok throws
        else { taken with stale := true })
    else none
  | .drained =>
    if c.loop = .waiting ∧ c.active = false ∧ c.pending = [] then
      some { c with loop := .idle, connected := false }
    else none
  | .expire =>
    if c.session.armed then
      some { c with
        session := { c.session with armed := false }
        pending := c.pending ++ [(c.generation, .timer true)] }
    else none
  | .push m late =>
    some (if c.generation == 0 || !late && (c.session.deleted || c.session.closed) then c
      else c.after (c.session.pushSection m))
  | .terminate =>
    some { c.after (Session.cancel { c.session with closed := true }) with active := false }

/-- The client when `async_run_cb` has started its thread. -/
def run : Client M where
  generation := 0
  session := Session.new
  pending := []
  loop := .idle
  active := true
  connected := false
  stale := false

end Client

/-- **All runs**, for a configured connection event. -/
def machine (eventID : Int) : Lib.Machine (Client M) (Label M) where
  start c := c = .run
  step := Client.step eventID

/-- **The condition**: while the client is active, the start of a call succeeds, no callback throws
out of the session, and a close event is handled as the last operation of its session. -/
def Orderly (c : Client M) : Label M → Prop
  | .connect _ throws => c.active = true → throws = false
  | .event generation op ok throws =>
    c.active = true → (op = .start → ok = true) ∧ (op = .read → throws = false) ∧
      (op = .finish → c.session.armed = false ∧ c.pending = [(generation, op)])
  | _ => True

instance (c : Client M) : ∀ label, Decidable (Orderly c label)
  | .connect _ throws => inferInstanceAs (Decidable (c.active = true → throws = false))
  | .event generation op ok throws => inferInstanceAs (Decidable
      (c.active = true → (op = .start → ok = true) ∧ (op = .read → throws = false) ∧
        (op = .finish → c.session.armed = false ∧ c.pending = [(generation, op)])))
  | .enter | .drained | .expire | .push .. | .terminate => inferInstanceAs (Decidable True)

/-- The operation is outstanding in the current session. -/
def Client.Has (c : Client M) (op : Op) : Prop := (c.generation, op) ∈ c.pending

/-- **The invariant.** -/
structure Steady (c : Client M) : Prop where
  fresh : c.stale = false
  own : ∀ p ∈ c.pending, p.1 = c.generation
  /-- The thread goes round only when the last session has nothing outstanding. -/
  gone : c.loop = .connecting ∨ c.loop = .idle ∧ c.active = true →
    c.pending = [] ∧ c.session.armed = false
  live : c.loop = .waiting → c.active = true → c.session.closed = false → c.Has .start ∨ c.Has .read
  closing : c.loop = .waiting → c.active = true → c.session.closed = true → c.Has .finish
  /-- Also a terminated client has something to wait for. -/
  something : c.loop = .waiting → c.pending ≠ [] ∨ c.session.armed = true

variable {eventID : Int} {c : Client M}

variable {op : Op} {throws : Bool} {effect : Effect M}

/-- A turn of the loop of an active client that neither closes the session nor throws. -/
theorem mainLoopEvent_active (c : Client M) (active : c.active = true) {ok : Bool}
    (stays : op ≠ .finish) (quiet : op = .read → throws = false) :
    c.mainLoopEvent eventID op ok throws = c.after (c.session.handle onCreate op ok) := by
  cases op with
  | finish => exact absurd rfl stays
  | read => simp [Client.mainLoopEvent, quiet rfl, active]
  | _ => simp [Client.mainLoopEvent, active]

/-- A terminated client leaves the loop after the event, with what the handler started. -/
theorem mainLoopEvent_inactive (eventID : Int) (c : Client M) (inactive : ¬ c.active = true) (op : Op)
    (ok throws : Bool) : ∃ connected, c.mainLoopEvent eventID op ok throws =
      { c.after (c.session.handle onCreate op ok) with loop := .idle, connected := connected } := by
  cases op with
  | finish => exact ⟨_, rfl⟩
  | read =>
    simp only [Client.mainLoopEvent, if_neg inactive]
    split
    · exact ⟨_, rfl⟩
    · exact ⟨_, rfl⟩
  | _ =>
    simp only [Client.mainLoopEvent, if_neg inactive]
    exact ⟨_, rfl⟩

/-- Another operation stays outstanding when an event is taken. -/
theorem Client.Has.taken {other : Op} (has : c.Has other) (different : other ≠ op)
    (effect : Effect M) :
    ({ c with pending := c.pending.erase (c.generation, op) }.after effect).Has other :=
  List.mem_append_left _ ((List.mem_erase_of_ne fun same => different (Prod.mk.inj same).2).mpr has)

theorem has_started (starts : op ∈ effect.ops) : (c.after effect).Has op :=
  List.mem_append_right _ (List.mem_map_of_mem starts)

/-- What the handler of an event must leave outstanding while the client is active. -/
def Leaves (c : Client M) : Prop :=
  (c.session.closed = false → c.Has .start ∨ c.Has .read) ∧ (c.session.closed = true → c.Has .finish)

theorem onCreate_leaves (steady : Steady c) (waits : c.loop = .waiting) (active : c.active = true) :
    Leaves ({ c with pending := c.pending.erase (c.generation, .start) }.after
      (onCreate c.session true)) := by
  cases closed : c.session.closed with
  | true =>
    have same : onCreate c.session true = c.session.skip := by simp [onCreate, closed]
    rw [same]
    refine ⟨fun live => ?_, fun _ => (steady.closing waits active closed).taken (by decide) _⟩
    rw [show c.session.closed = false from live] at closed
    cases closed
  | false =>
    have reads : .read ∈ (onCreate c.session true).ops := by simp [onCreate, closed]
    have stays : (onCreate c.session true).session.closed = false := by
      unfold onCreate
      rw [if_neg (by simp [closed]), if_pos rfl]
      dsimp only
      split
      · exact closed
      · rw [Session.cancel_session]
        exact closed
    refine ⟨fun _ => .inr (has_started reads), fun closed => ?_⟩
    rw [show (onCreate c.session true).session.closed = true from closed] at stays
    cases stays

theorem handled_leaves (steady : Steady c) (waits : c.loop = .waiting) (active : c.active = true)
    (stays : op ≠ .finish) (handled : c.session.Handled op effect) :
    Leaves ({ c with pending := c.pending.erase (c.generation, op) }.after effect) := by
  have awaiting : c.session.closed = false → op.isToken = true →
      ({ c with pending := c.pending.erase (c.generation, op) }.after effect).Has .start ∨
        ({ c with pending := c.pending.erase (c.generation, op) }.after effect).Has .read := by
    intro live token
    refine (steady.live waits active live).imp (fun has => has.taken ?_ _) fun has => has.taken ?_ _
    · rintro rfl
      cases token
    · rintro rfl
      cases token
  have finishing : c.session.closed = true →
      ({ c with pending := c.pending.erase (c.generation, op) }.after effect).Has .finish :=
    fun late => (steady.closing waits active late).taken (Ne.symm stays) _
  cases handled with
  | ignored op late =>
    refine ⟨fun live => ?_, fun _ => finishing late⟩
    rw [show c.session.closed = false from live] at late
    cases late
  | rearmed live => exact ⟨fun _ => awaiting live rfl, finishing⟩
  | emptied op wakes live empty =>
    exact ⟨fun _ => awaiting live (by rcases wakes with rfl | rfl <;> rfl), finishing⟩
  | wrote op wakes live m rest queued =>
    exact ⟨fun _ => awaiting live (by rcases wakes with rfl | rfl <;> rfl), finishing⟩
  | failed op fails live =>
    refine ⟨fun live => ?_, fun _ => has_started ?_⟩
    · rw [Client.after, Session.finish_session] at live
      cases live
    · rw [Session.finish_ops]
      exact List.mem_append_right _ List.mem_cons_self
  | reread => exact ⟨fun _ => .inr (has_started List.mem_cons_self), finishing⟩
  | released => exact absurd rfl stays

/-- What a handler starts belongs to the current session. -/
theorem own_started {pending : List (Nat × Op)} (own : ∀ p ∈ pending, p.1 = c.generation) :
    ∀ p ∈ pending ++ c.started effect, p.1 = c.generation := by
  intro p member
  rcases List.mem_append.mp member with old | new
  · exact own p old
  · obtain ⟨started, -, rfl⟩ := List.mem_map.mp new
    rfl

/-- A terminated client that leaves the loop never comes back, whatever is outstanding. -/
theorem Steady.left_for_good (fresh : c.stale = false) (own : ∀ p ∈ c.pending, p.1 = c.generation)
    (idle : c.loop = .idle) (inactive : ¬ c.active = true) : Steady c := by
  obtain ⟨generation, session, pending, loop, active, connected, stale⟩ := c
  cases idle
  exact ⟨fresh, own, fun outside => absurd (outside.resolve_left nofun).2 inactive, nofun, nofun, nofun⟩

/-- What is outstanding after an event of the current session belongs to it. -/
theorem Steady.own_taken (steady : Steady c) (op : Op) (effect : Effect M) :
    ∀ p ∈ c.pending.erase (c.generation, op) ++ c.started effect, p.1 = c.generation :=
  own_started fun p member => steady.own p (List.mem_of_mem_erase member)

/-- **A turn of the loop** that leaves what the session needs keeps the invariant. -/
theorem Steady.turn (steady : Steady c) (waits : c.loop = .waiting)
    (leaves : Leaves ({ c with pending := c.pending.erase (c.generation, op) }.after effect)) :
    Steady ({ c with pending := c.pending.erase (c.generation, op) }.after effect) := by
  obtain ⟨live, closing⟩ := leaves
  refine ⟨steady.fresh, steady.own_taken op effect, fun outside => ?_, fun _ _ => live,
    fun _ _ => closing, fun _ => .inl ?_⟩
  · rcases outside with connecting | ⟨idle, -⟩
    · rw [show c.loop = .connecting from connecting] at waits
      cases waits
    · rw [show c.loop = .idle from idle] at waits
      cases waits
  · cases closed : effect.session.closed with
    | true => exact List.ne_nil_of_mem (closing closed)
    | false =>
      rcases live closed with has | has
      · exact List.ne_nil_of_mem has
      · exact List.ne_nil_of_mem has

/-- **The close event** of a session with nothing else outstanding leaves nothing. -/
theorem Steady.close (steady : Steady c) {ok : Bool} (unarmed : c.session.armed = false)
    (last : c.pending = [(c.generation, .finish)]) :
    Steady ({ c with pending := c.pending.erase (c.generation, .finish) }.mainLoopEvent eventID
      .finish ok throws) := by
  have quiet : c.session.onClose.ops = [] ∧ c.session.onClose.session.armed = false := by
    unfold Session.onClose
    split
    · exact ⟨rfl, unarmed⟩
    · rw [Session.cancel_ops, if_neg (by simp [unarmed]), Session.cancel_session]
      exact ⟨rfl, rfl⟩
  have empty : ({ c with pending := c.pending.erase (c.generation, .finish) }.after
      c.session.onClose).pending = [] := by
    simp [Client.after, Client.started, quiet.1, last]
  refine ⟨steady.fresh, fun p member => ?_, fun _ => ⟨empty, quiet.2⟩, nofun, nofun, nofun⟩
  rw [show p ∈ _ ↔ p ∈ [] from empty ▸ Iff.rfl] at member
  cases member

/-- **A new session** starts its call; the queue was empty. -/
theorem Steady.connect (steady : Steady c) (connecting : c.loop = .connecting) (reached : Bool)
    (quiet : c.active = true → throws = false) :
    Steady (c.connect eventID reached throws) := by
  obtain ⟨empty, unarmed⟩ := steady.gone (.inl connecting)
  unfold Client.connect
  split
  · have former : c.started c.session.cancel = [] := by
      simp [Client.started, Session.cancel_ops, unarmed]
    have own : ∀ p ∈ [(c.generation + 1, Op.start)], p.1 = c.generation + 1 := by
      intro p member
      rw [List.mem_singleton.mp member]
    dsimp only
    rw [empty, former, List.nil_append]
    split
    · rename_i active
      rw [quiet active, if_neg (by simp)]
      exact ⟨steady.fresh, own, nofun, fun _ _ _ => .inl List.mem_cons_self, nofun,
        fun _ => .inl (List.cons_ne_nil _ _)⟩
    · rename_i inactive
      exact .left_for_good steady.fresh own rfl inactive
  · exact ⟨steady.fresh, steady.own, fun _ => ⟨empty, unarmed⟩, nofun, nofun, nofun⟩

/-- Something stays outstanding when an armed alarm is disarmed by an operation that is added. -/
theorem Steady.something_after (steady : Steady c) (waits : c.loop = .waiting)
    (moved : c.session.armed = true → effect.ops ≠ []) : c.pending ++ c.started effect ≠ [] := by
  intro empty
  obtain ⟨none, nothing⟩ := List.append_eq_nil_iff.mp empty
  rcases steady.something waits with some | armed
  · exact some none
  · exact moved armed (List.map_eq_nil_iff.mp nothing)

/-- **Outside the loop**: an expiry or a push moves the alarm into the queue. -/
theorem Steady.outside (steady : Steady c) (closed : effect.session.closed = c.session.closed)
    (moved : c.session.armed = true → effect.ops ≠ [])
    (quiet : c.session.armed = false → effect.ops = [] ∧ effect.session.armed = false) :
    Steady (c.after effect) := by
  have keeps : ∀ {op}, c.Has op → (c.after effect).Has op := fun has => List.mem_append_left _ has
  refine ⟨steady.fresh, own_started steady.own, fun apart => ?_, fun waits active live => ?_,
    fun waits active late => ?_, fun waits => .inl (steady.something_after waits moved)⟩
  · obtain ⟨empty, unarmed⟩ := steady.gone apart
    obtain ⟨none, still⟩ := quiet unarmed
    exact ⟨by simp [Client.after, Client.started, empty, none], still⟩
  · exact (steady.live waits active (closed ▸ live)).imp keeps keeps
  · exact keeps (steady.closing waits active (closed ▸ late))

theorem Steady.event (steady : Steady c) (waits : c.loop = .waiting) {ok : Bool}
    (orderly : Orderly c (.event c.generation op ok throws)) :
    Steady ({ c with pending := c.pending.erase (c.generation, op) }.mainLoopEvent eventID op ok
      throws) := by
  by_cases active : c.active = true
  · obtain ⟨begins, quiet, ends⟩ := orderly active
    by_cases finishes : op = .finish
    · subst finishes
      obtain ⟨unarmed, last⟩ := ends rfl
      exact steady.close unarmed last
    · rw [mainLoopEvent_active { c with pending := c.pending.erase (c.generation, op) } active finishes
        quiet]
      refine steady.turn waits ?_
      by_cases starts : op = .start
      · subst starts
        rw [show ok = true from begins rfl]
        exact onCreate_leaves steady waits active
      · exact handled_leaves steady waits active finishes (Session.handle_handled _ starts ok)
  · obtain ⟨connected, left⟩ := mainLoopEvent_inactive eventID
      { c with pending := c.pending.erase (c.generation, op) } active op ok throws
    rw [left]
    exact .left_for_good steady.fresh (steady.own_taken op _) rfl active

/-- **One step keeps the invariant.** -/
theorem Steady.step {d : Client M} {label : Label M} (steady : Steady c) (orderly : Orderly c label)
    (stepped : c.step eventID label = some d) : Steady d := by
  cases label with
  | enter =>
    simp only [Client.step] at stepped
    split at stepped
    · rename_i idle
      cases stepped
      split
      · rename_i active
        exact ⟨steady.fresh, steady.own, fun _ => steady.gone (.inr ⟨idle, active⟩), nofun, nofun,
          nofun⟩
      · exact ⟨steady.fresh, steady.own, nofun, nofun, nofun, nofun⟩
    · cases stepped
  | connect reached throws =>
    simp only [Client.step] at stepped
    split at stepped
    · rename_i connecting
      cases stepped
      exact steady.connect connecting reached orderly
    · cases stepped
  | event generation op ok throws =>
    simp only [Client.step] at stepped
    split at stepped
    · rename_i enabled
      have current : generation = c.generation := steady.own _ enabled.2
      subst current
      rw [if_pos rfl] at stepped
      cases stepped
      exact steady.event enabled.1 orderly
    · cases stepped
  | drained =>
    simp only [Client.step] at stepped
    split at stepped
    · rename_i enabled
      cases stepped
      exact .left_for_good steady.fresh steady.own rfl (by simp [enabled.2.1])
    · cases stepped
  | expire =>
    simp only [Client.step] at stepped
    split at stepped
    · rename_i armed
      cases stepped
      show Steady (c.after ⟨{ c.session with armed := false }, [.timer true], []⟩)
      refine steady.outside rfl (fun _ => List.cons_ne_nil _ _) fun unarmed => ?_
      rw [armed] at unarmed
      cases unarmed
    · cases stepped
  | push m late =>
    cases stepped
    split
    · exact steady
    · refine steady.outside (by simp [Session.pushSection]) (fun armed => ?_) fun unarmed => ?_
      · simp [Session.pushSection, Session.cancel_ops, armed]
      · simp [Session.pushSection, Session.cancel_ops, unarmed]
  | terminate =>
    cases stepped
    refine ⟨steady.fresh, own_started steady.own, fun outside => ?_, nofun, nofun,
      fun waits => .inl ?_⟩
    · rcases outside with connecting | ⟨-, active⟩
      · obtain ⟨empty, unarmed⟩ := steady.gone (.inl connecting)
        simp [Client.after, Client.started, Session.cancel_ops, empty, unarmed]
      · cases active
    refine steady.something_after waits fun armed => ?_
    simp [Session.cancel_ops, armed]

/-- **Every event belongs to the current session, and the loop never waits for nothing**, in every
run that meets the condition. -/
theorem current_and_outstanding (eventID : Int) {c : Client M}
    (reached : (machine eventID).Reachable Orderly c) :
    c.stale = false ∧ (c.loop = .waiting →
      c.session.armed = true ∨ ∃ op, (c.generation, op) ∈ c.pending) := by
  have steady : Steady c := by
    refine Lib.Machine.reachable_invariant (fun c started => ?_)
      (fun _ _ _ steady orderly stepped => steady.step orderly stepped) reached
    rw [show c = .run from started]
    exact ⟨rfl, nofun, fun _ => ⟨rfl, rfl⟩, nofun, nofun, nofun⟩
  refine ⟨steady.fresh, fun waits => ?_⟩
  rcases steady.something waits with some | armed
  · obtain ⟨p, member⟩ := List.exists_mem_of_ne_nil _ some
    refine .inr ⟨p.2, ?_⟩
    rw [← steady.own p member]
    exact member
  · exact .inl armed

/-- The server ends the first call; the event of the cancelled alarm is handled before the close
event, and the client connects again. -/
def orderlyReconnect : List (Label Nat) :=
  [.enter, .connect true false, .event 1 .start true false, .event 1 .read false false,
    .event 1 (.timer false) false false, .event 1 .finish true false, .enter, .connect true false]

theorem current_and_outstanding_reconnect : ∃ c,
    (machine 0).run .run orderlyReconnect = some c ∧ c.generation = 2 ∧ c.stale = false ∧
      (c.session.armed = true ∨ ∃ op, (c.generation, op) ∈ c.pending) := by
  obtain ⟨c, ran, second, waits⟩ : ∃ c ∈ (machine 0).run .run orderlyReconnect,
      c.generation = 2 ∧ c.loop = .waiting := by decide +kernel
  obtain ⟨fresh, outstanding⟩ := current_and_outstanding 0
    ⟨.run, orderlyReconnect, rfl, by decide +kernel, ran⟩
  exact ⟨c, ran, second, fresh, outstanding waits⟩

/-- **A failed start is waited for, a pending read is left behind.** The start of the call fails and
nothing is outstanding when the loop waits again; a write fails, the close event is handled while
the read is outstanding, and its event reaches the loop of the next session. -/
theorem start_or_read_left_behind :
    (∃ c : Client Nat, (machine 0).Reachable (fun _ _ => True) c ∧ c.loop = .waiting ∧
      c.active = true ∧ c.session.armed = false ∧ c.pending = []) ∧
    (∃ c : Client Nat, (machine 0).Reachable (fun _ _ => True) c ∧ c.generation = 2 ∧
      c.stale = true) := by
  constructor
  · obtain ⟨c, ran, facts⟩ : ∃ c ∈ (machine (M := Nat) 0).run .run
        [.enter, .connect true false, .event 1 .start false false],
        c.loop = .waiting ∧ c.active = true ∧ c.session.armed = false ∧ c.pending = [] := by
      decide +kernel
    exact ⟨c, Lib.Machine.reachable_of_run rfl ran, facts⟩
  · obtain ⟨c, ran, facts⟩ : ∃ c ∈ (machine (M := Nat) 0).run .run
        [.enter, .connect true false, .event 1 .start true false, .push 5 false,
          .event 1 (.timer false) true false, .event 1 .write false false,
          .event 1 .finish true false, .enter, .connect true false, .event 1 .read false false],
        c.generation = 2 ∧ c.stale = true := by decide +kernel
    exact ⟨c, Lib.Machine.reachable_of_run rfl ran, facts⟩

end UniSet.Stream.AsyncClient

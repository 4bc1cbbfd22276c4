/-
**The server's `AsyncClientSession`: pushes, the alarm and the write loop.**

The step relation starts after `on_create`: the first read is outstanding and the alarm is armed.
A push is two steps, the unlocked test of `closed` and the locked section; between them the session
may close. The loop handles one event at a time.

* `Single` — an open session has exactly one of: an armed alarm, an event of the alarm, a write.
* **`single_write_in_order`** — at most one write is in flight, never beside an armed alarm, and what
  was written is a prefix of what was pushed while the session was open.
* **`queued_is_woken`** — a non-empty queue of an open session has a write in flight or the event of
  a cancelled alarm pending, in every run that pushes nothing while the event of an expired alarm is
  pending; `push_after_expiry_sleeps` is the run that does, and stays asleep.
-/

import Mathlib.Data.List.Count
import Mathlib.Data.List.Infix
import UniSet.Lib.Machine
import UniSet.Stream.Session

namespace UniSet.Stream.ServerSession

variable {M : Type}

/-- **The session in its environment.** -/
structure Server (M : Type) where
  session : Session M
  /-- The operations whose event has not been handled. -/
  pending : List Op
  /-- The pushes that have passed the test of `closed` and wait for the lock. -/
  pushing : List M
  /-- The messages pushed while the session was open, in push order. -/
  pushed : List M
  /-- The messages handed to `Write`, in order. -/
  written : List M
deriving DecidableEq, Repr

/-- One step: a push, the expiry of the alarm, an event, the shutdown of the queue. -/
inductive Label (M : Type)
  | test (m : M)
  | push (k : Nat)
  | expire
  | event (op : Op) (ok : Bool)
  | shutdown
deriving DecidableEq, Repr

/-- The state after a handler. -/
def Server.after (s : Server M) (effect : Effect M) : Server M :=
  { s with
    session := effect.session
    pending := s.pending ++ effect.ops
    written := s.written ++ effect.written }

/-- **One step.** -/
def Server.step (s : Server M) : Label M → Option (Server M)
  | .test m =>
    some (if s.session.deleted || s.session.closed then s else { s with pushing := s.pushing ++ [m] })
  | .push k =>
    (s.pushing[k]?).map fun m =>
      { s with
        pushing := s.pushing.eraseIdx k
        pushed := if s.session.closed then s.pushed else s.pushed ++ [m] }.after
        (s.session.pushSection m)
  | .expire =>
    if s.session.armed then
      some { s with
        session := { s.session with armed := false }
        pending := s.pending ++ [.timer true] }
    else none
  | .event op ok =>
    if op ∈ s.pending then
      some ({ s with pending := s.pending.erase op }.after
        (s.session.handle (fun session _ => session.skip) op ok))
    else none
  | .shutdown => some (s.after s.session.onClose)

/-- The session `on_create` leaves. -/
def Server.created : Server M where
  session := { Session.new with armed := true }
  pending := [.read]
  pushing := []
  pushed := []
  written := []

/-- **All runs of a created session.** -/
def machine : Lib.Machine (Server M) (Label M) where
  start s := s = .created
  step := Server.step

/-! ### One write at a time, in order -/

/-- The number of armed alarms, alarm events and writes. -/
def tokens (s : Server M) : Nat := s.session.armed.toNat + s.pending.countP Op.isToken

/-- **The invariant.** -/
structure Single (s : Server M) : Prop where
  created : .start ∉ s.pending
  live : s.session.closed = false → tokens s = 1 ∧ s.written ++ s.session.queue = s.pushed
  closed : s.session.closed = true →
    s.session.armed = false ∧ s.pending.count .write ≤ 1 ∧ s.written <+: s.pushed

theorem count_write_le (pending : List Op) : pending.count .write ≤ pending.countP Op.isToken :=
  List.countP_mono_left fun op _ write => by
    rw [beq_iff_eq.mp write]
    rfl

variable {op : Op} {effect : Effect M}

theorem countP_erase_token {pending : List Op} (member : op ∈ pending) (token : op.isToken = true) :
    (pending.erase op).countP Op.isToken + 1 = pending.countP Op.isToken := by
  have positive : 0 < pending.countP Op.isToken := List.countP_pos_iff.mpr ⟨op, member, token⟩
  rw [List.countP_erase, if_pos ⟨member, token⟩]
  omega

theorem countP_erase_other {pending : List Op} (other : op.isToken = false) :
    (pending.erase op).countP Op.isToken = pending.countP Op.isToken := by
  rw [List.countP_erase, if_neg (by simp [other])]
  rfl

/-- The operations of a cancelled alarm: one event if it was armed, never a write. -/
theorem cancel_tokens (session : Session M) :
    session.cancel.ops.countP Op.isToken = session.armed.toNat ∧
      session.cancel.ops.count .write = 0 ∧ .start ∉ session.cancel.ops := by
  rw [Session.cancel_ops]
  cases session.armed <;> decide

theorem finish_tokens (session : Session M) :
    session.finish.ops.count .write = 0 ∧ .start ∉ session.finish.ops := by
  rw [Session.finish_ops]
  cases session.armed <;> decide

variable {s : Server M}

/-- What holds open or closed. -/
structure Bounded (s : Server M) : Prop where
  created : .start ∉ s.pending
  writes : s.pending.count .write ≤ 1
  prefixed : s.written <+: s.pushed

theorem Single.bounded (single : Single s) : Bounded s := by
  cases live : s.session.closed with
  | false =>
    obtain ⟨one, order⟩ := single.live live
    have below := count_write_le s.pending
    unfold tokens at one
    exact ⟨single.created, by omega, _, order⟩
  | true =>
    obtain ⟨-, writes, prefixed⟩ := single.closed live
    exact ⟨single.created, writes, prefixed⟩

theorem Bounded.erase (bounded : Bounded s) (op : Op) :
    Bounded { s with pending := s.pending.erase op } :=
  ⟨fun start => bounded.created (List.mem_of_mem_erase start),
    Nat.le_trans (List.erase_sublist.count_le Op.write) bounded.writes, bounded.prefixed⟩

/-- **Closing**: the alarm is cancelled, and a write in flight stays alone. -/
theorem Bounded.close (bounded : Bounded s) (closed : effect.session.closed = true)
    (unarmed : effect.session.armed = false) (unwritten : effect.written = [])
    (ops : effect.ops.count .write = 0 ∧ .start ∉ effect.ops) :
    Single (s.after effect) := by
  refine ⟨?_, fun live => ?_, fun _ => ⟨unarmed, ?_, ?_⟩⟩
  · simp only [Server.after, List.mem_append, not_or]
    exact ⟨bounded.created, ops.2⟩
  · rw [Server.after, closed] at live
    cases live
  · simp only [Server.after, List.count_append, ops.1]
    exact bounded.writes
  · simp only [Server.after, unwritten, List.append_nil]
    exact bounded.prefixed

/-- **Taking the token**: an open session that handles an alarm event or a write event has no other
one and no armed alarm. -/
theorem Single.take (single : Single s) (live : s.session.closed = false) (member : op ∈ s.pending)
    (token : op.isToken = true) :
    s.session.armed = false ∧ (s.pending.erase op).countP Op.isToken = 0 := by
  have one := (single.live live).1
  have fewer := countP_erase_token member token
  unfold tokens at one
  cases armed : s.session.armed with
  | false =>
    rw [armed, Bool.toNat_false] at one
    exact ⟨rfl, by omega⟩
  | true =>
    rw [armed, Bool.toNat_true] at one
    omega

/-- Beside an alarm event or a write no alarm is armed, open or closed. -/
theorem Single.unarmed (single : Single s) (member : op ∈ s.pending) (token : op.isToken = true) :
    s.session.armed = false := by
  cases live : s.session.closed with
  | false => exact (single.take live member token).1
  | true => exact (single.closed live).1

/-- **Giving the token back**: what is written is the front of the queue. -/
theorem Single.give (single : Single s) (live : s.session.closed = false) (member : op ∈ s.pending)
    (token : op.isToken = true) (still : effect.session.closed = false)
    (given : effect.session.armed.toNat + effect.ops.countP Op.isToken = 1)
    (fresh : .start ∉ effect.ops)
    (order : effect.written ++ effect.session.queue = s.session.queue) :
    Single ({ s with pending := s.pending.erase op }.after effect) := by
  obtain ⟨-, none⟩ := single.take live member token
  refine ⟨?_, fun _ => ⟨?_, ?_⟩, fun closed => ?_⟩
  · simp only [Server.after, List.mem_append, not_or]
    exact ⟨(single.bounded.erase op).created, fresh⟩
  · simp only [tokens, Server.after, List.countP_append]
    omega
  · simp only [Server.after, List.append_assoc]
    rw [order]
    exact (single.live live).2
  · rw [Server.after, still] at closed
    cases closed

/-- **An operation that is no token** may be replaced by others that are none. -/
theorem Single.swap (single : Single s) (other : op.isToken = false) {ops : List Op}
    (others : ∀ op ∈ ops, op = .read) :
    Single ({ s with pending := s.pending.erase op }.after ⟨s.session, ops, []⟩) := by
  have none : ops.countP Op.isToken = 0 := List.countP_eq_zero.mpr fun op member => by
    rw [others op member]
    decide
  have same : (s.pending.erase op).countP Op.isToken = s.pending.countP Op.isToken :=
    countP_erase_other other
  have fresh : Op.start ∉ ops := fun member => nomatch others _ member
  refine ⟨?_, fun live => ?_, fun closed => ?_⟩
  · simp only [Server.after, List.mem_append, not_or]
    exact ⟨(single.bounded.erase op).created, fresh⟩
  · obtain ⟨one, order⟩ := single.live live
    refine ⟨?_, by simpa [Server.after] using order⟩
    simpa only [tokens, Server.after, List.countP_append, none, same, Nat.add_zero] using one
  · obtain ⟨unarmed, -, prefixed⟩ := single.closed closed
    refine ⟨unarmed, ?_, by simpa [Server.after] using prefixed⟩
    have writes := (single.bounded.erase op).writes
    have unwritten : ops.count .write = 0 :=
      List.count_eq_zero.mpr fun member => nomatch others _ member
    simpa only [Server.after, List.count_append, unwritten, Nat.add_zero] using writes

theorem Single.event (single : Single s) (member : op ∈ s.pending)
    (handled : s.session.Handled op effect) :
    Single ({ s with pending := s.pending.erase op }.after effect) := by
  cases handled with
  | ignored op late =>
    obtain ⟨unarmed, -, -⟩ := single.closed late
    exact (single.bounded.erase op).close late unarmed rfl ⟨rfl, nofun⟩
  | rearmed live => exact single.give live member rfl live rfl nofun rfl
  | emptied op wakes live empty =>
    exact single.give live member (by rcases wakes with rfl | rfl <;> rfl) live rfl nofun rfl
  | wrote op wakes live m rest queued =>
    have token : op.isToken = true := by rcases wakes with rfl | rfl <;> rfl
    obtain ⟨unarmed, -⟩ := single.take live member token
    refine single.give live member token live ?_ ?_ queued.symm
    · simp [unarmed, Op.isToken]
    · simp
  | failed op fails live =>
    exact (single.bounded.erase op).close (by simp) (by simp) (by simp) (finish_tokens _)
  | reread => exact single.swap rfl fun op member => List.mem_singleton.mp member
  | released =>
    unfold Session.onClose
    split
    · exact single.swap rfl nofun
    · exact (single.bounded.erase .finish).close (by simp) (by simp) (by simp) (cancel_tokens _).2

/-- **A push moves the token** from the alarm to the event of the cancelled alarm. -/
theorem Single.push (single : Single s) (m : M) {pushing : List M} :
    Single ({ s with
      pushing := pushing
      pushed := if s.session.closed then s.pushed else s.pushed ++ [m] }.after
        (s.session.pushSection m)) := by
  obtain ⟨moved, unwritten, fresh⟩ := cancel_tokens { s.session with queue := s.session.queue ++ [m] }
  refine ⟨?_, fun live => ?_, fun closed => ?_⟩
  · simp only [Server.after, List.mem_append, not_or]
    exact ⟨single.created, fresh⟩
  · have live : s.session.closed = false := by
      simpa [Server.after, Session.pushSection] using live
    obtain ⟨one, order⟩ := single.live live
    unfold tokens at one
    constructor
    · simp only [tokens, Server.after, Session.pushSection, List.countP_append, moved,
        Session.cancel_session, Bool.toNat_false]
      omega
    · simp [Server.after, Session.pushSection, live, ← order]
  · have closed : s.session.closed = true := by
      simpa [Server.after, Session.pushSection] using closed
    obtain ⟨unarmed, writes, prefixed⟩ := single.closed closed
    refine ⟨by simp [Server.after, Session.pushSection], ?_, ?_⟩
    · simp only [Server.after, Session.pushSection, List.count_append, unwritten]
      exact writes
    · simpa [Server.after, Session.pushSection, closed] using prefixed

/-- **The expiry moves the token** from the alarm to its event. -/
theorem Single.expire (single : Single s) (armed : s.session.armed = true) :
    Single { s with
      session := { s.session with armed := false }
      pending := s.pending ++ [.timer true] } := by
  refine ⟨?_, fun live => ?_, fun closed => ?_⟩
  · simpa using single.created
  · obtain ⟨one, order⟩ := single.live live
    refine ⟨?_, order⟩
    simp only [tokens, armed, Bool.toNat_true] at one
    have event : [Op.timer true].countP Op.isToken = 1 := rfl
    simp only [tokens, List.countP_append, Bool.toNat_false, event]
    omega
  · obtain ⟨unarmed, -, -⟩ := single.closed closed
    rw [armed] at unarmed
    cases unarmed

/-- **One step keeps the invariant.** -/
theorem Single.step {t : Server M} {label : Label M} (single : Single s)
    (stepped : s.step label = some t) : Single t := by
  cases label with
  | test m =>
    cases stepped
    split
    · exact single
    · exact ⟨single.created, single.live, single.closed⟩
  | push k =>
    obtain ⟨m, waiting, rfl⟩ := Option.map_eq_some_iff.mp stepped
    exact single.push m
  | expire =>
    simp only [Server.step] at stepped
    split at stepped
    · rename_i armed
      cases stepped
      exact single.expire armed
    · cases stepped
  | event op ok =>
    simp only [Server.step] at stepped
    split at stepped
    · rename_i member
      cases stepped
      have created : op ≠ .start := fun same => single.created (same ▸ member)
      exact single.event member (Session.handle_handled _ created ok)
    · cases stepped
  | shutdown =>
    cases stepped
    unfold Session.onClose
    split
    · simpa [Server.after, Session.skip] using single
    · exact single.bounded.close (by simp) (by simp) (by simp) (cancel_tokens _).2

theorem single_created : Single (.created : Server M) :=
  ⟨by simp [Server.created], fun _ => ⟨rfl, rfl⟩, nofun⟩

/-- **One write at a time, in push order.** In every reachable state at most one write is in flight,
no alarm is armed beside it, and the messages written are a prefix of the messages pushed while the
session was open. -/
theorem single_write_in_order {s : Server M}
    (reached : (machine (M := M)).Reachable (fun _ _ => True) s) :
    s.pending.count .write ≤ 1 ∧ ¬ (.write ∈ s.pending ∧ s.session.armed = true) ∧
      s.written <+: s.pushed := by
  have single : Single s := by
    refine Lib.Machine.reachable_invariant (fun s started => ?_)
      (fun _ _ _ single _ stepped => single.step stepped) reached
    rw [show s = .created from started]
    exact single_created
  refine ⟨single.bounded.writes, ?_, single.bounded.prefixed⟩
  rintro ⟨writing, armed⟩
  rw [single.unarmed writing rfl] at armed
  cases armed

/-- Two pushes while the first message is being written. -/
def twoPushes : List (Label Nat) :=
  [.test 5, .push 0, .event (.timer false) true, .test 6, .push 0]

/-- The first message is in flight, the second one waits. -/
theorem single_write_in_order_twoPushes : ∃ s, machine.run .created twoPushes = some s ∧
    s.pending.count .write ≤ 1 ∧ ¬ (.write ∈ s.pending ∧ s.session.armed = true) ∧
      s.written <+: s.pushed := by
  obtain ⟨s, ran⟩ : ∃ s, machine.run .created twoPushes = some s := ⟨_, rfl⟩
  exact ⟨s, ran, single_write_in_order (Lib.Machine.reachable_of_run rfl ran)⟩

/-! ### Wake-ups -/

/-- **The condition**: no push takes the lock while the event of an expired alarm is pending. -/
def NoneExpired (s : Server M) : Label M → Prop
  | .push _ => .timer true ∉ s.pending
  | _ => True

instance (s : Server M) : ∀ label, Decidable (NoneExpired s label)
  | .push _ => inferInstanceAs (Decidable (.timer true ∉ s.pending))
  | .test _ | .expire | .event .. | .shutdown => inferInstanceAs (Decidable True)

/-- A write is in flight, or an event is pending whose handler writes. -/
def Awake (s : Server M) : Prop := .write ∈ s.pending ∨ .timer false ∈ s.pending

/-- **The invariant**: an open session with a non-empty queue is awake. -/
def Woken (s : Server M) : Prop := s.session.closed = false → s.session.queue ≠ [] → Awake s

/-- An expired alarm is the only token of its session. -/
theorem Single.asleep_of_expired (single : Single s) (live : s.session.closed = false)
    (expired : .timer true ∈ s.pending) : ¬ Awake s := by
  obtain ⟨-, none⟩ := single.take live expired rfl
  have gone := List.countP_eq_zero.mp none
  rintro (writing | cancelled)
  · exact gone .write ((List.mem_erase_of_ne (by decide)).mpr writing) rfl
  · exact gone (.timer false) ((List.mem_erase_of_ne (by decide)).mpr cancelled) rfl

/-- An armed alarm is the only token of its session. -/
theorem Single.asleep_of_armed (single : Single s) (armed : s.session.armed = true) :
    ¬ Awake s := by
  intro awake
  have unarmed : s.session.armed = false := by
    rcases awake with writing | cancelled
    · exact single.unarmed writing rfl
    · exact single.unarmed cancelled rfl
  rw [armed] at unarmed
  cases unarmed

/-- An open session without the event of an expired alarm has an armed alarm or is awake. -/
theorem Single.armed_or_awake (single : Single s) (live : s.session.closed = false)
    (fresh : .timer true ∉ s.pending) : s.session.armed = true ∨ Awake s := by
  obtain ⟨one, -⟩ := single.live live
  unfold tokens at one
  cases armed : s.session.armed with
  | true => exact .inl rfl
  | false =>
    rw [armed, Bool.toNat_false, Nat.zero_add] at one
    obtain ⟨op, member, token⟩ := List.countP_pos_iff.mp (show 0 < s.pending.countP Op.isToken by omega)
    refine .inr ?_
    cases op with
    | write => exact .inl member
    | timer expired =>
      cases expired with
      | false => exact .inr member
      | true => exact absurd member fresh
    | start => cases token
    | read => cases token
    | finish => cases token

/-- Operations that are added or are no token leave a session awake. -/
theorem Awake.mono {t : Server M} (awake : Awake s)
    (keeps : ∀ op ∈ s.pending, op.isToken = true → op ∈ t.pending) : Awake t :=
  awake.imp (fun writing => keeps _ writing rfl) fun cancelled => keeps _ cancelled rfl

/-- The event of an operation that is no token leaves a session awake. -/
theorem Awake.swap (awake : Awake s) (other : op.isToken = false) (effect : Effect M) :
    Awake ({ s with pending := s.pending.erase op }.after effect) := by
  refine awake.mono fun token member is => List.mem_append_left _ ?_
  refine (List.mem_erase_of_ne ?_).mpr member
  rintro rfl
  rw [other] at is
  cases is

theorem Single.push_woken (single : Single s) (fresh : .timer true ∉ s.pending) (m : M)
    {pushing pushed : List M} :
    Woken ({ s with pushing := pushing, pushed := pushed }.after (s.session.pushSection m)) := by
  intro live _
  have live : s.session.closed = false := by
    simpa [Server.after, Session.pushSection] using live
  rcases single.armed_or_awake live fresh with armed | awake
  · refine .inr (List.mem_append_right _ ?_)
    simp [Session.pushSection, Session.cancel_ops, armed]
  · exact awake.mono fun op member _ => List.mem_append_left _ member

theorem Woken.event (single : Single s) (woken : Woken s) (member : op ∈ s.pending)
    (handled : s.session.Handled op effect) :
    Woken ({ s with pending := s.pending.erase op }.after effect) := by
  intro live queued
  cases handled with
  | ignored op late =>
    rw [show s.session.closed = false from live] at late
    cases late
  | rearmed live => exact absurd (woken live queued) (single.asleep_of_expired live member)
  | emptied op wakes live empty => exact absurd empty queued
  | wrote op wakes live m rest full => exact .inl (List.mem_append_right _ List.mem_cons_self)
  | failed op fails was =>
    simp [Server.after] at live
  | reread => exact (woken live queued).swap rfl _
  | released =>
    unfold Session.onClose at live queued ⊢
    split
    · rename_i gone
      rw [if_pos gone] at live queued
      exact (woken live queued).swap rfl _
    · rename_i present
      rw [if_neg present] at live
      simp [Server.after] at live

theorem Woken.step {t : Server M} {label : Label M} (single : Single s) (woken : Woken s)
    (cond : NoneExpired s label) (stepped : s.step label = some t) : Woken t := by
  cases label with
  | test m =>
    cases stepped
    split
    · exact woken
    · exact woken
  | push k =>
    obtain ⟨m, waiting, rfl⟩ := Option.map_eq_some_iff.mp stepped
    exact single.push_woken cond m
  | expire =>
    simp only [Server.step] at stepped
    split at stepped
    · rename_i armed
      cases stepped
      exact fun live queued => absurd (woken live queued) (single.asleep_of_armed armed)
    · cases stepped
  | event op ok =>
    simp only [Server.step] at stepped
    split at stepped
    · rename_i member
      cases stepped
      have created : op ≠ .start := fun same => single.created (same ▸ member)
      exact woken.event single member (Session.handle_handled _ created ok)
    · cases stepped
  | shutdown =>
    cases stepped
    unfold Session.onClose
    split
    · simpa [Woken, Awake, Server.after, Session.skip] using woken
    · intro live
      simp [Server.after] at live

/-- **No lost wake-up.** In every run that pushes nothing while the event of an expired alarm is
pending, an open session with a non-empty queue has a write in flight or the event of a cancelled
alarm pending. -/
theorem queued_is_woken {s : Server M} (reached : (machine (M := M)).Reachable NoneExpired s)
    (live : s.session.closed = false) (queued : s.session.queue ≠ []) :
    .write ∈ s.pending ∨ .timer false ∈ s.pending := by
  have both : Single s ∧ Woken s := by
    refine Lib.Machine.reachable_invariant (P := fun s => Single s ∧ Woken s)
      (fun s started => ?_)
      (fun _ _ _ before cond stepped =>
        ⟨before.1.step stepped, before.2.step before.1 cond stepped⟩) reached
    rw [show s = .created from started]
    exact ⟨single_created, fun _ queued => absurd rfl queued⟩
  exact both.2 live queued

/-- A push to a session whose alarm is armed wakes it. -/
theorem queued_is_woken_one : ∃ s : Server Nat,
    machine.run .created [.test 5, .push 0] = some s ∧ s.session.queue = [5] ∧
      (.write ∈ s.pending ∨ .timer false ∈ s.pending) := by
  obtain ⟨s, ran, live, queued⟩ : ∃ s ∈ (machine (M := Nat)).run .created [.test 5, .push 0],
      s.session.closed = false ∧ s.session.queue = [5] := by decide +kernel
  exact ⟨s, ran, queued, queued_is_woken ⟨.created, _, rfl, by decide +kernel, ran⟩ live
    (by rw [queued]; nofun)⟩

/-- **A push after the expiry sleeps.** The alarm has expired and its event is pending when the
message is queued: nothing is left to cancel. Handling the event arms the alarm again and does not
look at the queue. -/
theorem push_after_expiry_sleeps :
    (∃ s : Server Nat, machine.Reachable (fun _ _ => True) s ∧ s.session.closed = false ∧
      s.session.queue = [5] ∧ ¬ (.write ∈ s.pending ∨ .timer false ∈ s.pending)) ∧
    (∃ s : Server Nat, machine.run .created [.expire, .test 5, .push 0, .event (.timer true) true] =
        some s ∧ s.session.closed = false ∧ s.session.queue = [5] ∧ s.pending = [.read] ∧
      s.session.armed = true) := by
  constructor
  · obtain ⟨s, ran, facts⟩ : ∃ s ∈ (machine (M := Nat)).run .created [.expire, .test 5, .push 0],
        s.session.closed = false ∧ s.session.queue = [5] ∧
        ¬ (.write ∈ s.pending ∨ .timer false ∈ s.pending) := by decide +kernel
    exact ⟨s, Lib.Machine.reachable_of_run rfl ran, facts⟩
  · decide +kernel

end UniSet.Stream.ServerSession

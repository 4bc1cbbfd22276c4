/-
**The message loop of `UniSetObject`.**

Any thread pushes messages into the three queues of an object and then wakes its thread. The thread
takes a message of the highest priority it finds, and sleeps when it has found none. Between the two
it holds no lock: a message may come in after its queue was looked into, and its wakeup before the
sleep begins. A new size is stored into the three queues one after the other, without a lock; here this
is one step.

* `Object` — the queues, the timer the thread sleeps on and where the thread stands; a message carries
  the number of its `push`.
* `Label`, `loop` — one step for every operation under a lock, in any order.
* **`pushed_in_order`** — the messages of a queue are processed in the order they were pushed in, none
  twice, and what is missing is counted as lost.
* **`processed_by_priority`** — a message is processed before one of a higher priority only if the
  latter was pushed after the thread had begun to look.
* **`asleep_missed`** — a message is left to a sleeping thread only if it was pushed between the look
  into the queues and the sleep, or if its wakeup is still to come.
* **`woken_drains`** — a thread that has been woken, or has processed a message, processes everything that
  is queued before it sleeps again.
-/

import Mathlib.Data.List.ReduceOption
import Mathlib.Logic.Function.Basic
import UniSet.Various.MessageQueue

namespace UniSet.Core.MessageLoop

open UniSet.Various Function

/-! ### The queues -/

section Queues

variable {β : Type} (q : MQMutex β)

/-- The messages of a queue. -/
def contents : List β := q.mqueue.reduceOption

/-- No null pointer is queued. -/
def Whole : Prop := q.mqueue = (contents q).map some

variable {q}

theorem Whole.of_map {l : List β} (whole : q.mqueue = l.map some) : contents q = l ∧ Whole q := by
  have same : contents q = l := by
    show q.mqueue.filterMap id = l
    rw [whole, List.filterMap_map]
    exact List.filterMap_some
  exact ⟨same, by rw [Whole, same]; exact whole⟩

/-- **What a push does**: the message is queued or lost, and if it is queued the oldest may be lost. -/
theorem push_spec (whole : Whole q) (positive : 1 ≤ q.sizeOfMessageQueue.toNat) (m : β) :
    Whole (q.push (some m)) ∧ (q.push (some m)).sizeOfMessageQueue = q.sizeOfMessageQueue ∧
      contents (q.push (some m)) ≠ [] ∧
      (contents (q.push (some m))).Sublist (contents q ++ [m]) ∧
      UInt64.ofNat (contents (q.push (some m))).length + (q.push (some m)).stCountOfLostMessages =
        UInt64.ofNat (contents q).length + q.stCountOfLostMessages + 1 := by
  have appended : ∀ (p : MQMutex β) (l : List β), p.mqueue = l.map some →
      contents (p.append (some m)) = l ++ [m] ∧ Whole (p.append (some m)) := by
    intro p l held
    refine Whole.of_map ?_
    show p.mqueue ++ [some m] = _
    rw [held, List.map_append, List.map_singleton]
  have length : q.mqueue.length = (contents q).length := by
    conv_lhs => rw [whole]
    rw [List.length_map]
  unfold MQMutex.push
  rw [length]
  split
  · rename_i full
    have holds : contents q ≠ [] := by
      intro none
      rw [none] at full
      exact absurd full (Nat.not_lt.mpr positive)
    split
    · -- the new message is lost
      refine ⟨whole, rfl, holds, List.sublist_append_left _ _, ?_⟩
      show UInt64.ofNat (contents q).length + (q.stCountOfLostMessages + 1) = _
      rw [UInt64.add_assoc]
    · obtain ⟨same, kept⟩ := appended { q with
          stCountOfLostMessages := q.stCountOfLostMessages + 1
          mqueue := q.mqueue.tail } (contents q).tail (by
        show q.mqueue.tail = _
        conv_lhs => rw [whole]
        rw [List.map_tail])
      have count : ((contents q).tail ++ [m]).length = (contents q).length := by
        have := List.length_pos_iff.mpr holds
        rw [List.length_append, List.length_tail, List.length_singleton]
        omega
      rw [same]
      refine ⟨kept, rfl, List.append_ne_nil_of_right_ne_nil _ (List.cons_ne_nil _ _),
        (List.tail_sublist _).append_right _, ?_⟩
      rw [count]
      show _ + (q.stCountOfLostMessages + 1) = _
      rw [UInt64.add_assoc]
  · obtain ⟨same, kept⟩ := appended q (contents q) whole
    rw [same]
    refine ⟨kept, rfl, List.append_ne_nil_of_right_ne_nil _ (List.cons_ne_nil _ _),
      List.Sublist.refl _, ?_⟩
    show _ + q.stCountOfLostMessages = _
    rw [List.length_append, List.length_singleton, UInt64.ofNat_add, UInt64.add_assoc, UInt64.add_assoc,
      UInt64.add_comm (UInt64.ofNat 1)]
    rfl

/-- **What `top` does.** -/
theorem top_spec (whole : Whole q) :
    (contents q = [] ∧ q.top = (q, none)) ∨
    ∃ m, q.top.2 = some m ∧ contents q = m :: contents q.top.1 ∧ Whole q.top.1 ∧
      q.top.1.sizeOfMessageQueue = q.sizeOfMessageQueue ∧
      q.top.1.stCountOfLostMessages = q.stCountOfLostMessages := by
  unfold MQMutex.top
  have held := whole
  unfold Whole at held
  cases listed : contents q with
  | nil =>
    rw [listed] at held
    rw [held]
    exact .inl ⟨rfl, rfl⟩
  | cons m rest =>
    rw [listed] at held
    rw [held]
    obtain ⟨same, kept⟩ := Whole.of_map (q := { q with mqueue := rest.map some }) rfl
    refine .inr ⟨m, rfl, ?_, kept, rfl, rfl⟩
    exact congrArg (m :: ·) same.symm

theorem empty_iff (whole : Whole q) : q.empty = true ↔ contents q = [] := by
  unfold MQMutex.empty
  rw [List.isEmpty_iff]
  conv_lhs => rw [whole]
  exact List.map_eq_nil_iff

end Queues

/-! ### The object and its steps -/

/-- The queues of an object. -/
inductive Queue
  | mqueueHi | mqueueMedium | mqueueLow
deriving DecidableEq, Repr

/-- How urgent the messages of a queue are. -/
def Queue.rank : Queue → Nat
  | .mqueueHi => 2
  | .mqueueMedium => 1
  | .mqueueLow => 0

/-- The queue for a priority. The enumeration of the message is open: any number may come. -/
def queueOf (priority : Int) : Queue :=
  if priority = 1 then .mqueueMedium
  else if priority = 2 then .mqueueHi
  else if priority = 0 then .mqueueLow
  else .mqueueMedium

/-- A message with the number of its `push`. -/
structure Stamped (α : Type) where
  number : Nat
  message : α
deriving DecidableEq, Repr

/-- Where `receiveMessage` stands: before a test of a queue, or before the `top` after it. -/
inductive Stage
  | hiEmpty | hiTop | mediumEmpty | mediumTop | lowTop
deriving DecidableEq, Repr

/-- Where the thread stands. `receive again` is the first or the second call of `receiveMessage` in
`waitMessage`; `wait` is before `tmr->wait` and `waiting` is in it. -/
inductive Pc (α : Type)
  | head
  | receive (again : Bool) (stage : Stage)
  | wait
  | waiting
  | processing (queue : Queue) (m : Stamped α)
  | timers
  | done
deriving DecidableEq, Repr

/-- A message that was processed, with the numbers of pushes there had been when the thread looked
into each queue before it. -/
structure Processed (α : Type) where
  queue : Queue
  message : Stamped α
  looked : Queue → Nat

/-- **The object.** `unsignalled` are the pushes whose wakeup is still to come; `looked` and `waitBegun`
are the numbers of pushes at the last look into each queue and at the beginning of the last sleep, and
`processed` is a record. -/
structure Object (α : Type) where
  queue : Queue → MQMutex (Stamped α)
  terminated : Bool
  waitUpTime : Bool
  active : Bool
  pc : Pc α
  count : Nat
  unsignalled : List Nat
  looked : Queue → Nat
  waitBegun : Nat
  processed : List (Processed α)

/-- What any thread may do, and the choices of the object's own. -/
inductive Label (α : Type)
  | push (priority : Int) (message : α)
  | termWaiting (number : Nat)
  | terminate
  | deactivate
  | setMaxSizeOfMessageQueue (s : UInt64)
  | work
  | timeout
  | checkTimers (waitUpTime : Bool)

namespace Object

variable {α : Type} (o : Object α)

/-- **`push`**, up to its `termWaiting`. -/
def push (priority : Int) (message : α) : Object α :=
  let q := queueOf priority
  { o with
    queue := update o.queue q ((o.queue q).push (some ⟨o.count, message⟩))
    count := o.count + 1
    unsignalled := o.count :: o.unsignalled }

/-- Where the thread goes with what `receiveMessage` returns. -/
def received (again : Bool) (q : Queue) : Option (Stamped α) → Pc α
  | some m => .processing q m
  | none => if again then .timers else .wait

/-- The `top` of a queue, which ends `receiveMessage`. -/
def top (again : Bool) (q : Queue) : Object α :=
  { o with
    queue := update o.queue q (o.queue q).top.1
    pc := received again q (o.queue q).top.2 }

/-- **A step of the object's thread**: `work`, `callback`, `waitMessage`, `receiveMessage` and the
timer's `wait`. -/
def work : Option (Object α) :=
  match o.pc with
  | .head => some { o with pc := if o.active then .receive false .hiEmpty else .done }
  | .receive again .hiEmpty => some { o with
      looked := update o.looked .mqueueHi o.count
      pc := .receive again (if (o.queue .mqueueHi).empty then .mediumEmpty else .hiTop) }
  | .receive again .hiTop => some (o.top again .mqueueHi)
  | .receive again .mediumEmpty => some { o with
      looked := update o.looked .mqueueMedium o.count
      pc := .receive again (if (o.queue .mqueueMedium).empty then .lowTop else .mediumTop) }
  | .receive again .mediumTop => some (o.top again .mqueueMedium)
  | .receive again .lowTop => some { o.top again .mqueueLow with
      looked := update o.looked .mqueueLow o.count }
  | .wait => some { o with terminated := false, waitBegun := o.count, pc := .waiting }
  | .waiting =>
    if o.terminated then some { o with pc := .receive true .hiEmpty } else none
  | .processing queue m => some { o with
      processed := o.processed ++ [⟨queue, m, o.looked⟩]
      pc := .timers }
  | .timers => if o.active then none else some { o with pc := .head }
  | .done => none

/-- The end of a sleep by its timeout; a sleep without a limit has none. -/
def timeout : Option (Object α) :=
  match o.pc with
  | .waiting =>
    if o.waitUpTime then none else some { o with terminated := true, pc := .receive true .hiEmpty }
  | _ => none

/-- The end of a turn, with the time to the next timer. -/
def checkTimers (waitUpTime : Bool) : Option (Object α) :=
  match o.pc with
  | .timers => if o.active then some { o with waitUpTime := waitUpTime, pc := .head } else none
  | _ => none

/-- **A step.** -/
def step : Label α → Option (Object α)
  | .push priority message => some (o.push priority message)
  | .termWaiting number =>
    if number ∈ o.unsignalled then
      some { o with terminated := true, unsignalled := o.unsignalled.erase number }
    else none
  | .terminate => some { o with terminated := true }
  | .deactivate => some { o with active := false }
  | .setMaxSizeOfMessageQueue s => some { o with
      queue := fun q => { o.queue q with sizeOfMessageQueue := s } }
  | .work => o.work
  | .timeout => o.timeout
  | .checkTimers waitUpTime => o.checkTimers waitUpTime

/-- The messages in a queue. -/
def queued (q : Queue) : List (Stamped α) := contents (o.queue q)

/-- The message the thread has taken from a queue and not processed yet. -/
def inHand (q : Queue) : List (Stamped α) :=
  match o.pc with
  | .processing queue m => if queue = q then [m] else []
  | _ => []

/-- The messages of a queue that were processed. -/
def taken (q : Queue) : List (Stamped α) :=
  (o.processed.filter fun x => decide (x.queue = q)).map (·.message)

/-- The messages of a queue that are not lost. -/
def line (q : Queue) : List (Stamped α) := o.taken q ++ o.inHand q ++ o.queued q

end Object

/-- **The loop** of an object that was just made: empty queues, and no thread running yet. -/
def loop (α : Type) : Lib.Machine (Object α) (Label α) where
  start o := (∀ q, (o.queue q).mqueue = [] ∧ (o.queue q).stCountOfLostMessages = 0 ∧
      1 ≤ (o.queue q).sizeOfMessageQueue.toNat) ∧
    o.pc = .head ∧ o.count = 0 ∧ o.unsignalled = [] ∧ (∀ q, o.looked q = 0) ∧
    o.processed = []
  step := Object.step

/-- The queues are not set to a size of zero. -/
def Positive {α : Type} (label : Label α) : Prop :=
  ∀ s, label = .setMaxSizeOfMessageQueue s → 1 ≤ s.toNat

/-- The messages pushed into a queue. -/
def pushes {α : Type} (q : Queue) : List (Label α) → List α
  | [] => []
  | .push priority message :: rest =>
    if queueOf priority = q then message :: pushes q rest else pushes q rest
  | _ :: rest => pushes q rest

variable {α : Type} {o v : Object α}

theorem pushes_append (q : Queue) (past more : List (Label α)) :
    pushes q (past ++ more) = pushes q past ++ pushes q more := by
  induction past with
  | nil => rfl
  | cons label rest ih =>
    cases label with
    | push priority message =>
      rw [List.cons_append, pushes, pushes, ih]
      split <;> rfl
    | _ => exact ih

theorem timeout_eq_some : o.timeout = some v ↔ o.pc = .waiting ∧ o.waitUpTime = false ∧
    { o with terminated := true, pc := .receive true .hiEmpty } = v := by
  unfold Object.timeout
  cases pc : o.pc <;> simp

theorem checkTimers_eq_some {waitUpTime : Bool} : o.checkTimers waitUpTime = some v ↔
    o.pc = .timers ∧ o.active = true ∧ { o with waitUpTime := waitUpTime, pc := .head } = v := by
  unfold Object.checkTimers
  cases pc : o.pc <;> simp

variable {first : Queue} {past : List (Label α)} {m : Stamped α} {again : Bool}

/-- A property of every queue, where one of them is replaced. -/
theorem update_all {β : Type} {queue : Queue → MQMutex β} (P : Queue → MQMutex β → Prop)
    {new : MQMutex β} (replaced : P first new) (others : ∀ q, P q (queue q)) (q : Queue) :
    P q (update queue first new q) :=
  (forall_update_iff queue P).mpr ⟨replaced, fun q _ => others q⟩ q

/-! ### The order of a queue -/

/-- Every message that was pushed is in the line of its queue, in the order of the pushes, or lost and
counted. -/
structure Lined (past : List (Label α)) (o : Object α) : Prop where
  whole : ∀ q, Whole (o.queue q)
  positive : ∀ q, 1 ≤ (o.queue q).sizeOfMessageQueue.toNat
  order : ∀ q, ((o.line q).map (·.message)).Sublist (pushes q past)
  count : ∀ q, UInt64.ofNat (o.line q).length + (o.queue q).stCountOfLostMessages =
    UInt64.ofNat (pushes q past).length

/-- The lines are as they were. -/
structure Alike (o v : Object α) : Prop where
  whole : ∀ q, Whole (v.queue q)
  size : ∀ q, (v.queue q).sizeOfMessageQueue = (o.queue q).sizeOfMessageQueue
  lost : ∀ q, (v.queue q).stCountOfLostMessages = (o.queue q).stCountOfLostMessages
  line : ∀ q, v.line q = o.line q

/-- Where neither the queues nor what was taken change. -/
theorem Alike.of_eq (whole : ∀ q, Whole (o.queue q)) (queue : v.queue = o.queue)
    (processed : v.processed = o.processed) (hand : ∀ q, v.inHand q = o.inHand q) : Alike o v := by
  refine ⟨fun q => ?_, fun q => ?_, fun q => ?_, fun q => ?_⟩
  · rw [queue]
    exact whole q
  · rw [queue]
  · rw [queue]
  · unfold Object.line Object.taken Object.queued
    rw [queue, processed, hand]

/-- The first message of a queue is in hand, and everything else where it was. -/
structure Taken (o v : Object α) (first : Queue) (m : Stamped α) : Prop where
  pc : v.pc = .processing first m
  queued : ∀ q, o.queued q = v.inHand q ++ v.queued q
  whole : ∀ q, Whole (v.queue q)
  size : ∀ q, (v.queue q).sizeOfMessageQueue = (o.queue q).sizeOfMessageQueue
  lost : ∀ q, (v.queue q).stCountOfLostMessages = (o.queue q).stCountOfLostMessages

/-- **What `top` leads to.** -/
theorem top_cases (whole : ∀ q, Whole (o.queue q)) (again : Bool) (first : Queue) (looked : Queue → Nat) :
    (o.queued first = [] ∧ { o.top again first with looked := looked } =
      { o with looked := looked, pc := if again then .timers else .wait }) ∨
    ∃ m, Taken o { o.top again first with looked := looked } first m := by
  rcases top_spec (whole first) with ⟨nothing, unchanged⟩ | ⟨m, taken, listed, kept, size, lost⟩
  · refine .inl ⟨nothing, ?_⟩
    unfold Object.top
    rw [unchanged, update_eq_self]
    rfl
  · have pc : (o.top again first).pc = .processing first m := by
      show Object.received again first (o.queue first).top.2 = _
      rw [taken]
      rfl
    have new (P : Queue → MQMutex (Stamped α) → Prop) : P first (o.queue first).top.1 →
        (∀ q, P q (o.queue q)) → ∀ q, P q ((o.top again first).queue q) := update_all P
    refine .inr ⟨m, pc, fun q => ?_, new (fun _ => Whole) kept whole,
      new (fun q p => p.sizeOfMessageQueue = (o.queue q).sizeOfMessageQueue) size fun _ => rfl,
      new (fun q p => p.stCountOfLostMessages = (o.queue q).stCountOfLostMessages) lost fun _ => rfl⟩
    unfold Object.inHand Object.queued
    rw [pc]
    show _ = (if first = q then [m] else []) ++ contents (update o.queue first _ q)
    by_cases here : first = q
    · rw [if_pos here, ← here, update_self, listed]
      rfl
    · rw [if_neg here, update_of_ne (Ne.symm here)]
      rfl

/-- **`top`** leaves every line as it is. -/
theorem Alike.top (whole : ∀ q, Whole (o.queue q)) (free : ∀ q, o.inHand q = []) (again : Bool)
    (first : Queue) (looked : Queue → Nat) : Alike o { o.top again first with looked := looked } := by
  rcases top_cases whole again first looked with ⟨-, same⟩ | ⟨m, taken⟩
  · rw [same]
    refine .of_eq whole rfl rfl fun q => ?_
    rw [free]
    cases again <;> rfl
  · refine ⟨taken.whole, taken.size, taken.lost, fun q => ?_⟩
    unfold Object.line
    rw [free, List.append_nil, taken.queued, List.append_assoc]
    rfl

/-- **A step of the thread** leaves every line as it is. -/
theorem Alike.work (whole : ∀ q, Whole (o.queue q)) (stepped : o.work = some v) : Alike o v := by
  unfold Object.work at stepped
  cases pc : o.pc with
  | head =>
    rw [pc] at stepped
    cases stepped
    refine .of_eq whole rfl rfl fun q => ?_
    cases o.active <;> simp [Object.inHand, pc]
  | receive again stage =>
    have free : ∀ q, o.inHand q = [] := fun q => by simp [Object.inHand, pc]
    rw [pc] at stepped
    cases stage with
    | hiEmpty | mediumEmpty =>
      cases stepped
      exact .of_eq whole rfl rfl fun q => (free q).symm
    | hiTop | mediumTop =>
      cases stepped
      exact .top whole free _ _ o.looked
    | lowTop =>
      cases stepped
      exact .top whole free _ _ _
  | wait =>
    rw [pc] at stepped
    cases stepped
    exact .of_eq whole rfl rfl fun q => by simp [Object.inHand, pc]
  | waiting =>
    simp only [pc, Option.ite_none_right_eq_some] at stepped
    obtain ⟨-, same⟩ := stepped
    cases same
    exact .of_eq whole rfl rfl fun q => by simp [Object.inHand, pc]
  | processing queue m =>
    -- what was in hand is processed
    rw [pc] at stepped
    cases stepped
    refine ⟨whole, fun _ => rfl, fun _ => rfl, fun q => ?_⟩
    by_cases same : queue = q
    · simp [Object.line, Object.taken, Object.inHand, Object.queued, pc, same]
    · simp [Object.line, Object.taken, Object.inHand, Object.queued, pc, same]
  | timers =>
    simp only [pc, Option.ite_none_left_eq_some] at stepped
    obtain ⟨-, same⟩ := stepped
    cases same
    exact .of_eq whole rfl rfl fun q => by simp [Object.inHand, pc]
  | done =>
    rw [pc] at stepped
    cases stepped

/-- **The end of a turn** leaves every line as it is. -/
theorem Alike.checkTimers (whole : ∀ q, Whole (o.queue q)) {waitUpTime : Bool}
    (stepped : o.checkTimers waitUpTime = some v) : Alike o v := by
  obtain ⟨pc, -, rfl⟩ := checkTimers_eq_some.mp stepped
  refine .of_eq whole rfl rfl fun q => ?_
  simp [Object.inHand, pc]

/-- Where the lines stay as they are and nothing is pushed. -/
theorem Lined.alike (lined : Lined past o) (alike : Alike o v) {label : Label α}
    (silent : ∀ q, pushes q [label] = []) : Lined (past ++ [label]) v := by
  refine ⟨alike.whole, fun q => ?_, fun q => ?_, fun q => ?_⟩
  · rw [alike.size]
    exact lined.positive q
  · rw [alike.line, pushes_append, silent, List.append_nil]
    exact lined.order q
  · rw [alike.line, alike.lost, pushes_append, silent, List.append_nil]
    exact lined.count q

/-- **A push** appends to the line of its queue, or is counted. -/
theorem Lined.push (lined : Lined past o) (priority : Int) (message : α) :
    Lined (past ++ [.push priority message]) (o.push priority message) := by
  obtain ⟨kept, size, -, sublist, count⟩ :=
    push_spec (lined.whole (queueOf priority)) (lined.positive _) (⟨o.count, message⟩ : Stamped α)
  have line : ∀ q, (o.push priority message).line q = o.taken q ++ o.inHand q ++
      contents (update o.queue (queueOf priority)
        ((o.queue (queueOf priority)).push (some ⟨o.count, message⟩)) q) := fun _ => rfl
  have queue : ∀ q, (o.push priority message).queue q = update o.queue (queueOf priority)
        ((o.queue (queueOf priority)).push (some ⟨o.count, message⟩)) q := fun _ => rfl
  refine ⟨fun q => ?_, fun q => ?_, fun q => ?_, fun q => ?_⟩
  · exact update_all (fun _ => Whole) kept lined.whole q
  · refine update_all (fun _ p => 1 ≤ p.sizeOfMessageQueue.toNat) ?_ lined.positive q
    rw [size]
    exact lined.positive _
  all_goals
    by_cases here : queueOf priority = q
  · subst here
    rw [line, update_self, pushes_append, pushes, if_pos rfl]
    refine ((sublist.append_left _).map _).trans ?_
    rw [← List.append_assoc, List.map_append]
    exact (lined.order _).append_right [message]
  · rw [line, update_of_ne (Ne.symm here), pushes_append, pushes, if_neg here]
    show List.Sublist _ (_ ++ [])
    rw [List.append_nil]
    exact lined.order q
  · subst here
    have before := lined.count (queueOf priority)
    unfold Object.line at before
    rw [line, queue, update_self, pushes_append, pushes, if_pos rfl]
    generalize o.taken (queueOf priority) ++ o.inHand (queueOf priority) = gone at before ⊢
    rw [List.length_append, UInt64.ofNat_add, Object.queued, UInt64.add_assoc] at before
    rw [List.length_append, UInt64.ofNat_add, UInt64.add_assoc, count, List.length_append,
      UInt64.ofNat_add, ← before, ← UInt64.add_assoc, ← UInt64.add_assoc]
    rfl
  · rw [line, queue, update_of_ne (Ne.symm here), pushes_append, pushes, if_neg here]
    show _ = UInt64.ofNat (_ ++ []).length
    rw [List.append_nil]
    exact lined.count q

/-- **A step keeps the lines.** -/
theorem Lined.step (lined : Lined past o) {label : Label α} (positive : Positive label)
    (stepped : o.step label = some v) : Lined (past ++ [label]) v := by
  cases label with
  | push priority message =>
    cases stepped
    exact lined.push priority message
  | termWaiting number =>
    obtain ⟨-, same⟩ := Option.ite_none_right_eq_some.mp stepped
    cases same
    refine lined.alike ?_ fun _ => rfl
    exact .of_eq lined.whole rfl rfl fun _ => rfl
  | terminate | deactivate =>
    cases stepped
    refine lined.alike ?_ fun _ => rfl
    exact .of_eq lined.whole rfl rfl fun _ => rfl
  | setMaxSizeOfMessageQueue s =>
    cases stepped
    have same : ∀ q, pushes q (past ++ [.setMaxSizeOfMessageQueue s]) = pushes q past := fun q => by
      rw [pushes_append]
      exact List.append_nil _
    refine ⟨lined.whole, fun q => positive s rfl, fun q => ?_, fun q => ?_⟩
    · rw [same]
      exact lined.order q
    · rw [same]
      exact lined.count q
  | work => exact lined.alike (.work lined.whole stepped) fun _ => rfl
  | timeout =>
    obtain ⟨pc, -, rfl⟩ := timeout_eq_some.mp stepped
    refine lined.alike ?_ fun _ => rfl
    refine .of_eq lined.whole rfl rfl fun q => ?_
    simp [Object.inHand, pc]
  | checkTimers waitUpTime => exact lined.alike (.checkTimers lined.whole stepped) fun _ => rfl

theorem Lined.initially (start : (loop α).start o) : Lined [] o := by
  obtain ⟨queues, pc, -, -, -, processed⟩ := start
  have empty : ∀ q, contents (o.queue q) = [] := fun q => by simp [contents, (queues q).1]
  have line : ∀ q, o.line q = [] := fun q => by
    simp [Object.line, Object.taken, Object.inHand, Object.queued, pc, processed, empty]
  refine ⟨fun q => ?_, fun q => (queues q).2.2, fun q => ?_, fun q => ?_⟩
  · rw [Whole, empty, (queues q).1]
    rfl
  · rw [line]
    exact List.nil_sublist _
  · rw [line, (queues q).2.1]
    rfl

/-- **The order of a queue.** In every run, whatever the threads do: the messages of a queue that were
processed, the one in hand and those still queued are messages pushed into it, in the order of the
pushes, each at most once; the others are counted as lost. -/
theorem pushed_in_order {first : Object α} (start : (loop α).start first) {labels : List (Label α)}
    (positive : ∀ label ∈ labels, Positive label) (ran : (loop α).run first labels = some o) (q : Queue) :
    ((o.taken q ++ o.inHand q ++ o.queued q).map (·.message)).Sublist (pushes q labels) ∧
      UInt64.ofNat (o.taken q ++ o.inHand q ++ o.queued q).length +
        (o.queue q).stCountOfLostMessages = UInt64.ofNat (pushes q labels).length := by
  have lined : Lined labels o :=
    Lib.Machine.run_past (fun past u label t lined positive stepped => lined.step positive stepped)
      (Lined.initially start) (Lib.Machine.meets_of_forall fun _ => positive) ran
  exact ⟨lined.order q, lined.count q⟩

/-- An object before its first turn. -/
def idle (qsize : UInt64) : Object Nat :=
  ⟨fun _ => .new qsize .lostOldData, true, true, true, .head, 0, [], fun _ => 0, 0, []⟩

theorem idle_start {qsize : UInt64} (positive : 1 ≤ qsize.toNat) : (loop Nat).start (idle qsize) :=
  ⟨fun _ => ⟨rfl, rfl, positive⟩, rfl, rfl, rfl, fun _ => rfl, rfl⟩

/-- Two messages for a queue of one. -/
def twoPushes : List (Label Nat) := [.push 1 7, .push 1 8, .termWaiting 1, .work, .work, .work, .work, .work]

/-- The first message is lost, and the second in hand. -/
theorem second_in_hand : ((loop Nat).run (idle 1) twoPushes).isSome = true ∧
    ∀ o, (loop Nat).run (idle 1) twoPushes = some o →
      ((o.taken .mqueueMedium ++ o.inHand .mqueueMedium ++ o.queued .mqueueMedium).map (·.message)).Sublist
          [7, 8] ∧
        UInt64.ofNat (o.taken .mqueueMedium ++ o.inHand .mqueueMedium ++
          o.queued .mqueueMedium).length + (o.queue .mqueueMedium).stCountOfLostMessages = 2 :=
  ⟨rfl, fun _ ran => pushed_in_order (idle_start (by decide)) (by simp [twoPushes, Positive]) ran .mqueueMedium⟩

/-! ### Priorities and sleep -/

namespace Object

/-- The queues that the thread has found empty in this call of `receiveMessage`. -/
def seen (o : Object α) (q : Queue) : Prop :=
  match o.pc with
  | .receive _ .mediumEmpty => q = .mqueueHi
  | .receive _ .mediumTop => q = .mqueueHi
  | .receive _ .lowTop => q ≠ .mqueueLow
  | .wait => True
  | .waiting => True
  | .processing queue _ => queue.rank < q.rank
  | _ => False

/-- The queue that the thread has found not empty. -/
def ready (o : Object α) (q : Queue) : Prop :=
  match o.pc with
  | .receive _ .hiTop => q = .mqueueHi
  | .receive _ .mediumTop => q = .mqueueMedium
  | _ => False

end Object

/-- What the thread has seen of the queues, and what it did before, by the numbers of the pushes. -/
structure Looking (o : Object α) : Prop where
  whole : ∀ q, Whole (o.queue q)
  positive : ∀ q, 1 ≤ (o.queue q).sizeOfMessageQueue.toNat
  number : ∀ q, ∀ m ∈ o.inHand q ++ o.queued q, m.number < o.count
  looked : ∀ q, o.looked q ≤ o.count
  seen : ∀ q, o.seen q → ∀ m ∈ o.queued q, o.looked q ≤ m.number
  ready : ∀ q, o.ready q → o.queued q ≠ []
  past : ∀ a ∈ o.processed, ∀ q, a.looked q ≤ o.count ∧
    (a.queue.rank < q.rank → ∀ m ∈ o.inHand q ++ o.queued q, a.looked q ≤ m.number)
  order : o.processed.Pairwise fun a b =>
    a.queue.rank < b.queue.rank → a.looked b.queue ≤ b.message.number
  asleep : o.pc = .waiting → o.terminated = false →
    ∀ q, ∀ m ∈ o.queued q, o.waitBegun ≤ m.number → m.number ∈ o.unsignalled

/-- **A push** makes a message that is newer than everything the thread has seen. -/
theorem Looking.push (looking : Looking o) (priority : Int) (message : α) :
    Looking (o.push priority message) := by
  obtain ⟨kept, size, nonempty, sublist, -⟩ :=
    push_spec (looking.whole (queueOf priority)) (looking.positive _) (⟨o.count, message⟩ : Stamped α)
  have queue : ∀ q, (o.push priority message).queue q = update o.queue (queueOf priority)
    ((o.queue (queueOf priority)).push (some ⟨o.count, message⟩)) q := fun _ => rfl
  -- what is queued now was queued before, or is the new message
  have queued : ∀ q, ∀ m ∈ (o.push priority message).queued q, m ∈ o.queued q ∨ m = ⟨o.count, message⟩ := by
    intro q m member
    unfold Object.queued at member
    rw [queue] at member
    by_cases here : queueOf priority = q
    · subst here
      rw [update_self] at member
      have either := List.mem_append.mp (sublist.subset member)
      rwa [List.mem_singleton] at either
    · rw [update_of_ne (Ne.symm here)] at member
      exact .inl member
  have present : ∀ q, ∀ m ∈ (o.push priority message).inHand q ++ (o.push priority message).queued q,
      m ∈ o.inHand q ++ o.queued q ∨ m = ⟨o.count, message⟩ := by
    intro q m member
    rcases List.mem_append.mp member with hand | listed
    · exact .inl (List.mem_append_left _ hand)
    · exact (queued q m listed).imp_left (List.mem_append_right _)
  refine ⟨fun q => ?_, fun q => ?_, fun q m member => ?_, fun q => ?_, fun q seen m member => ?_,
    fun q ready => ?_, fun a member q => ⟨?_, fun lower m later => ?_⟩, looking.order,
    fun waiting quiet q m member later => ?_⟩
  · exact update_all (fun _ => Whole) kept looking.whole q
  · refine update_all (fun _ p => 1 ≤ p.sizeOfMessageQueue.toNat) ?_ looking.positive q
    rw [size]
    exact looking.positive _
  · show m.number < o.count + 1
    rcases present q m member with old | rfl
    · exact Nat.lt_succ_of_lt (looking.number q m old)
    · exact Nat.lt_succ_self _
  · exact Nat.le_succ_of_le (looking.looked q)
  · show o.looked q ≤ m.number
    rcases queued q m member with old | rfl
    · exact looking.seen q seen m old
    · exact looking.looked q
  · unfold Object.queued
    rw [queue]
    by_cases here : queueOf priority = q
    · subst here
      rw [update_self]
      exact nonempty
    · rw [update_of_ne (Ne.symm here)]
      exact looking.ready q ready
  · exact Nat.le_succ_of_le (looking.past a member q).1
  · rcases present q m later with old | rfl
    · exact (looking.past a member q).2 lower m old
    · exact (looking.past a member q).1
  · show m.number ∈ o.count :: o.unsignalled
    rcases queued q m member with old | rfl
    · exact List.mem_cons_of_mem _ (looking.asleep waiting quiet q m old later)
    · exact List.mem_cons_self

/-- Where the thread moves on and nothing is in its hand. -/
theorem Looking.moved (looking : Looking o) (queue : v.queue = o.queue)
    (processed : v.processed = o.processed) (count : v.count = o.count) (free : ∀ q, v.inHand q = [])
    (looked : ∀ q, v.looked q ≤ o.count)
    (seen : ∀ q, v.seen q → ∀ m ∈ o.queued q, v.looked q ≤ m.number)
    (ready : ∀ q, v.ready q → o.queued q ≠ [])
    (asleep : v.pc = .waiting → v.terminated = false →
      ∀ q, ∀ m ∈ o.queued q, v.waitBegun ≤ m.number → m.number ∈ v.unsignalled) : Looking v := by
  have queued : ∀ q, v.queued q = o.queued q := fun q => by
    unfold Object.queued
    rw [queue]
  have present : ∀ q, ∀ m ∈ v.inHand q ++ v.queued q, m ∈ o.inHand q ++ o.queued q := by
    intro q m member
    rw [free, queued] at member
    exact List.mem_append_right _ member
  refine ⟨fun q => ?_, fun q => ?_, fun q m member => ?_, fun q => ?_, fun q found m member => ?_,
    fun q found => ?_, fun a member q => ⟨?_, fun lower m later => ?_⟩, ?_,
    fun waiting quiet q m member later => ?_⟩
  · rw [queue]
    exact looking.whole q
  · rw [queue]
    exact looking.positive q
  · rw [count]
    exact looking.number q m (present q m member)
  · rw [count]
    exact looked q
  · rw [queued] at member
    exact seen q found m member
  · rw [queued]
    exact ready q found
  · rw [processed] at member
    rw [count]
    exact (looking.past a member q).1
  · rw [processed] at member
    exact (looking.past a member q).2 lower m (present q m later)
  · rw [processed]
    exact looking.order
  · rw [queued] at member
    exact asleep waiting quiet q m member later

/-- **`top`**, where what is queued above the queue has come in since the look. -/
theorem Looking.top (looking : Looking o) (again : Bool) (first : Queue)
    {looked : Queue → Nat} (bound : ∀ q, looked q ≤ o.count)
    (above : ∀ q, first.rank < q.rank → ∀ m ∈ o.queued q, looked q ≤ m.number)
    (empty : o.queued first = [] → ∀ q, ∀ m ∈ o.queued q, looked q ≤ m.number) :
    Looking { o.top again first with looked := looked } := by
  rcases top_cases looking.whole again first looked with ⟨nothing, same⟩ | ⟨m, taken⟩
  · rw [same]
    refine looking.moved rfl rfl rfl (fun q => ?_) bound (fun q _ => empty nothing q) (fun q ready => ?_)
      fun waiting => ?_
    · cases again <;> rfl
    · cases again <;> exact absurd ready id
    · cases again <;> simp at waiting
  · have present : ∀ q, ∀ n ∈ ({ o.top again first with looked := looked } : Object α).inHand q ++
        (o.top again first).queued q, n ∈ o.inHand q ++ o.queued q := by
      intro q n member
      refine List.mem_append_right _ ?_
      rwa [taken.queued]
    refine ⟨taken.whole, fun q => ?_, fun q n member => ?_, bound, fun q found n member => ?_,
      fun q found => ?_, fun a member q => ⟨?_, fun lower n later => ?_⟩, looking.order,
      fun waiting => ?_⟩
    · rw [taken.size]
      exact looking.positive q
    · exact looking.number q n (present q n member)
    · unfold Object.seen at found
      rw [taken.pc] at found
      refine above q found n ?_
      rw [taken.queued]
      exact List.mem_append_right _ member
    · unfold Object.ready at found
      rw [taken.pc] at found
      exact absurd found id
    · exact (looking.past a member q).1
    · exact (looking.past a member q).2 lower n (present q n later)
    · rw [taken.pc] at waiting
      cases waiting

theorem looked_le (looking : Looking o) (first : Queue) (q : Queue) :
    update o.looked first o.count q ≤ o.count :=
  (forall_update_iff o.looked fun _ n => n ≤ o.count).mpr
    ⟨Nat.le_refl _, fun q _ => looking.looked q⟩ q

/-- Where the thread moves on to a place at which it has seen nothing. -/
theorem Looking.moved_on (looking : Looking o) (queue : v.queue = o.queue)
    (processed : v.processed = o.processed) (count : v.count = o.count) (looked : v.looked = o.looked)
    (blind : v.pc = .done ∨ v.pc = .head ∨ ∃ again, v.pc = .receive again .hiEmpty) : Looking v := by
  refine looking.moved queue processed count (fun q => ?_) (fun q => ?_) (fun q seen => ?_)
    (fun q ready => ?_) fun waiting => ?_
  · rcases blind with pc | pc | ⟨again, pc⟩ <;> simp [Object.inHand, pc]
  · rw [looked]
    exact looking.looked q
  · rcases blind with pc | pc | ⟨again, pc⟩ <;> simp [Object.seen, pc] at seen
  · rcases blind with pc | pc | ⟨again, pc⟩ <;> simp [Object.ready, pc] at ready
  · rcases blind with pc | pc | ⟨again, pc⟩ <;> simp [pc] at waiting

/-- **A message is processed.** -/
theorem Looking.process (looking : Looking o) {queue : Queue} (pc : o.pc = .processing queue m) :
    Looking { o with processed := o.processed ++ [⟨queue, m, o.looked⟩], pc := .timers } := by
  have hand : m ∈ o.inHand queue ++ o.queued queue :=
    List.mem_append_left _ (by simp [Object.inHand, pc])
  have seen : ∀ q, queue.rank < q.rank → o.seen q := fun q above => by simpa [Object.seen, pc] using above
  refine ⟨looking.whole, looking.positive, fun q n member => ?_, looking.looked, fun q found => ?_,
    fun q found => ?_, fun a member q => ?_, ?_, fun waiting => ?_⟩
  · exact looking.number q n (List.mem_append_right _ member)
  · simp [Object.seen] at found
  · simp [Object.ready] at found
  · rcases List.mem_append.mp member with old | new
    · have past := looking.past a old q
      exact ⟨past.1, fun above n queued => past.2 above n (List.mem_append_right _ queued)⟩
    · rw [List.mem_singleton.mp new]
      exact ⟨looking.looked q, fun above n queued => looking.seen q (seen q above) n queued⟩
  · refine List.pairwise_append.mpr ⟨looking.order, List.pairwise_singleton _ _, fun a old b new => ?_⟩
    rw [List.mem_singleton.mp new]
    exact fun above => (looking.past a old queue).2 above m hand
  · simp at waiting

/-- **A step of the thread.** -/
theorem Looking.work (looking : Looking o) (stepped : o.work = some v) : Looking v := by
  unfold Object.work at stepped
  cases pc : o.pc with
  | head =>
    rw [pc] at stepped
    cases stepped
    refine looking.moved_on rfl rfl rfl rfl ?_
    cases o.active
    · exact .inl rfl
    · exact .inr (.inr ⟨false, rfl⟩)
  | receive again stage =>
    rw [pc] at stepped
    cases stage with
    | hiEmpty =>
      cases stepped
      cases empty : (o.queue .mqueueHi).empty
      · refine looking.moved rfl rfl rfl (fun q => rfl) (looked_le looking _) (fun q seen => ?_)
          (fun q ready => ?_) fun waiting => ?_
        · simp [Object.seen] at seen
        · have here : q = .mqueueHi := by simpa [Object.ready] using ready
          rw [here, Object.queued, Ne, ← empty_iff (looking.whole _), empty]
          exact Bool.false_ne_true
        · simp at waiting
      · refine looking.moved rfl rfl rfl (fun q => rfl) (looked_le looking _) (fun q seen m member => ?_)
          (fun q ready => ?_) fun waiting => ?_
        · have here : q = .mqueueHi := by simpa [Object.seen] using seen
          rw [here, Object.queued, (empty_iff (looking.whole _)).mp empty] at member
          exact absurd member List.not_mem_nil
        · simp [Object.ready] at ready
        · simp at waiting
    | hiTop =>
      cases stepped
      refine looking.top again .mqueueHi looking.looked (fun q above => ?_) fun empty => ?_
      · exact absurd above (by cases q <;> decide)
      · exact absurd empty (looking.ready .mqueueHi (by simp [Object.ready, pc]))
    | mediumEmpty =>
      cases stepped
      have seen : ∀ m ∈ o.queued .mqueueHi, o.looked .mqueueHi ≤ m.number :=
        looking.seen .mqueueHi (by simp [Object.seen, pc])
      cases empty : (o.queue .mqueueMedium).empty
      · refine looking.moved rfl rfl rfl (fun q => rfl) (looked_le looking _) (fun q found => ?_)
          (fun q ready => ?_) fun waiting => ?_
        · have here : q = .mqueueHi := by simpa [Object.seen] using found
          rw [here]
          exact seen
        · have here : q = .mqueueMedium := by simpa [Object.ready] using ready
          rw [here, Object.queued, Ne, ← empty_iff (looking.whole _), empty]
          exact Bool.false_ne_true
        · simp at waiting
      · refine looking.moved rfl rfl rfl (fun q => rfl) (looked_le looking _) (fun q found m member => ?_)
          (fun q ready => ?_) fun waiting => ?_
        · cases q with
          | mqueueHi => exact seen m member
          | mqueueMedium =>
            rw [Object.queued, (empty_iff (looking.whole _)).mp empty] at member
            exact absurd member List.not_mem_nil
          | mqueueLow => simp [Object.seen] at found
        · simp [Object.ready] at ready
        · simp at waiting
    | mediumTop =>
      cases stepped
      refine looking.top again .mqueueMedium looking.looked (fun q above => ?_) fun empty => ?_
      · cases q with
        | mqueueHi => exact looking.seen .mqueueHi (by simp [Object.seen, pc])
        | mqueueMedium => exact absurd above (by decide)
        | mqueueLow => exact absurd above (by decide)
      · exact absurd empty (looking.ready .mqueueMedium (by simp [Object.ready, pc]))
    | lowTop =>
      cases stepped
      have seen : ∀ q, q ≠ .mqueueLow → ∀ m ∈ o.queued q,
          update o.looked .mqueueLow o.count q ≤ m.number := by
        intro q other
        rw [update_of_ne other]
        exact looking.seen q (by simpa [Object.seen, pc] using other)
      refine looking.top again .mqueueLow (looked_le looking _) (fun q above => ?_) fun empty q => ?_
      · exact seen q fun same => by simp [same] at above
      · by_cases here : q = .mqueueLow
        · rw [here, empty]
          exact fun m member => absurd member List.not_mem_nil
        · exact seen q here
  | wait =>
    rw [pc] at stepped
    cases stepped
    refine looking.moved rfl rfl rfl (fun q => rfl) looking.looked (fun q _ => ?_) (fun q ready => ?_)
      fun _ _ q m member later => ?_
    · exact looking.seen q (by simp [Object.seen, pc])
    · simp [Object.ready] at ready
    · have earlier := looking.number q m (List.mem_append_right _ member)
      exact absurd later (Nat.not_le.mpr earlier)
  | waiting =>
    simp only [pc, Option.ite_none_right_eq_some] at stepped
    obtain ⟨-, same⟩ := stepped
    cases same
    exact looking.moved_on rfl rfl rfl rfl (.inr (.inr ⟨true, rfl⟩))
  | processing queue m =>
    rw [pc] at stepped
    cases stepped
    exact looking.process pc
  | timers =>
    simp only [pc, Option.ite_none_left_eq_some] at stepped
    obtain ⟨-, same⟩ := stepped
    cases same
    exact looking.moved_on rfl rfl rfl rfl (.inr (.inl rfl))
  | done =>
    rw [pc] at stepped
    cases stepped

/-- **A step keeps what the thread has seen.** -/
theorem Looking.step (looking : Looking o) {label : Label α} (positive : Positive label)
    (stepped : o.step label = some v) : Looking v := by
  cases label with
  | push priority message =>
    cases stepped
    exact looking.push priority message
  | termWaiting number =>
    obtain ⟨-, same⟩ := Option.ite_none_right_eq_some.mp stepped
    cases same
    exact { looking with asleep := fun _ quiet => by simp at quiet }
  | terminate =>
    cases stepped
    exact { looking with asleep := fun _ quiet => by simp at quiet }
  | deactivate =>
    cases stepped
    exact { looking with }
  | setMaxSizeOfMessageQueue s =>
    cases stepped
    exact { looking with positive := fun _ => positive s rfl }
  | work => exact looking.work stepped
  | timeout =>
    obtain ⟨-, -, rfl⟩ := timeout_eq_some.mp stepped
    exact looking.moved_on rfl rfl rfl rfl (.inr (.inr ⟨true, rfl⟩))
  | checkTimers waitUpTime =>
    obtain ⟨-, -, rfl⟩ := checkTimers_eq_some.mp stepped
    exact looking.moved_on rfl rfl rfl rfl (.inr (.inl rfl))

theorem Looking.initially (start : (loop α).start o) : Looking o := by
  obtain ⟨queues, pc, count, -, looked, processed⟩ := start
  have empty : ∀ q, contents (o.queue q) = [] := fun q => by simp [contents, (queues q).1]
  refine ⟨fun q => ?_, fun q => (queues q).2.2, fun q m member => ?_, fun q => ?_, fun q seen => ?_,
    fun q ready => ?_, fun a member => ?_, ?_, fun waiting => ?_⟩
  · rw [Whole, empty, (queues q).1]
    rfl
  · simp [Object.inHand, Object.queued, pc, empty] at member
  · rw [looked, count]
  · simp [Object.seen, pc] at seen
  · simp [Object.ready, pc] at ready
  · simp [processed] at member
  · rw [processed]
    exact List.Pairwise.nil
  · simp [pc] at waiting

section Reached

variable {first : Object α} {labels : List (Label α)}

theorem Looking.run (start : (loop α).start first) (positive : ∀ label ∈ labels, Positive label)
    (ran : (loop α).run first labels = some o) : Looking o :=
  Lib.Machine.run_invariant (fun _ _ _ looking positive stepped => looking.step positive stepped)
    (Looking.initially start) (Lib.Machine.meets_of_forall fun _ => positive) ran

/-- **Priority.** In every run a message is processed before one of a higher priority only if the latter
was pushed after the thread had looked into its queue. -/
theorem processed_by_priority (start : (loop α).start first)
    (positive : ∀ label ∈ labels, Positive label) (ran : (loop α).run first labels = some o) :
    o.processed.Pairwise fun a b =>
      a.queue.rank < b.queue.rank → a.looked b.queue ≤ b.message.number :=
  (Looking.run start positive ran).order

/-- **Sleep.** In every run a message is left to a sleeping thread only if it was pushed between the look
into its queue and the beginning of the sleep, or if its wakeup is still to come. -/
theorem asleep_missed (start : (loop α).start first) (positive : ∀ label ∈ labels, Positive label)
    (ran : (loop α).run first labels = some o) (waiting : o.pc = .waiting)
    (quiet : o.terminated = false) (q : Queue) (m : Stamped α) (member : m ∈ o.queued q) :
    o.looked q ≤ m.number ∧ (m.number < o.waitBegun ∨ m.number ∈ o.unsignalled) := by
  have looking := Looking.run start positive ran
  refine ⟨looking.seen q (by simp [Object.seen, waiting]) m member, ?_⟩
  by_cases later : o.waitBegun ≤ m.number
  · exact .inr (looking.asleep waiting quiet q m member later)
  · exact .inl (Nat.not_le.mp later)

end Reached

/-- A message of a high priority comes in behind the look into its queue. -/
def behindTheLook : List (Label Nat) :=
  [.push 0 6, .work, .work, .push 2 5, .work, .work, .work, .checkTimers true, .work, .work, .work, .work]

/-- It is processed after the other one. -/
theorem low_before_high : ((loop Nat).run (idle 10) behindTheLook).isSome = true ∧
    ∀ o, (loop Nat).run (idle 10) behindTheLook = some o →
      o.processed.map (fun x => (x.queue, x.message.number)) = [(.mqueueLow, 0), (.mqueueHi, 1)] ∧
      o.processed.Pairwise fun a b =>
        a.queue.rank < b.queue.rank → a.looked b.queue ≤ b.message.number := by
  refine ⟨rfl, fun o ran => ⟨?_, processed_by_priority (idle_start (by decide))
    (by simp [behindTheLook, Positive]) ran⟩⟩
  cases ran
  rfl

/-- A message comes in behind the look into its queue, and its wakeup before the sleep. -/
def beforeTheSleep : List (Label Nat) := [.work, .work, .work, .work, .push 1 7, .termWaiting 0, .work]

/-- It is left to the sleeping thread. -/
theorem left_asleep : ((loop Nat).run (idle 10) beforeTheSleep).isSome = true ∧
    ∀ o, (loop Nat).run (idle 10) beforeTheSleep = some o →
      o.unsignalled = [] ∧ o.looked .mqueueMedium ≤ 0 ∧ (0 < o.waitBegun ∨ 0 ∈ o.unsignalled) := by
  refine ⟨rfl, fun o ran => ?_⟩
  have start : (loop Nat).start (idle 10) := idle_start (by decide)
  have missed := asleep_missed start (by simp [beforeTheSleep, Positive]) ran
  cases ran
  exact ⟨rfl, missed rfl rfl .mqueueMedium ⟨0, 7⟩ (List.mem_singleton_self _)⟩

/-! ### Progress -/

/-- What the thread does by itself; a timer that is set leaves the sleep to a timeout. -/
def Own : Label α → Prop
  | .work => True
  | .checkTimers _ => True
  | _ => False

/-- By itself the thread comes to its sleep with empty queues. -/
def Drains (o : Object α) : Prop :=
  ∃ labels : List (Label α), (∀ label ∈ labels, Own label) ∧
    ∃ v, (loop α).run o labels = some v ∧ v.pc = .wait ∧ ∀ q, v.queued q = []

theorem Drains.step (label : Label α) (own : Own label) (stepped : o.step label = some v)
    (drains : Drains v) : Drains o := by
  obtain ⟨labels, owns, w, ran, ended⟩ := drains
  refine ⟨label :: labels, ?_, w, ?_, ended⟩
  · rw [List.forall_mem_cons]
    exact ⟨own, owns⟩
  · show (o.step label).bind _ = _
    rw [stepped]
    exact ran

theorem Drains.work (stepped : o.work = some v) (drains : Drains v) : Drains o :=
  Drains.step .work trivial stepped drains

/-- The number of queued messages. -/
def Object.total (o : Object α) : Nat :=
  (o.queued .mqueueHi).length + (o.queued .mqueueMedium).length + (o.queued .mqueueLow).length

/-- The thread can go on: it was not stopped, and no null pointer is queued. -/
structure Running (o : Object α) : Prop where
  whole : ∀ q, Whole (o.queue q)
  active : o.active = true

theorem Taken.total_lt (taken : Taken o v first m) : v.total < o.total := by
  unfold Object.total
  rw [taken.queued, taken.queued, taken.queued]
  cases first <;> simp [Object.inHand, taken.pc]

theorem Taken.nonempty (taken : Taken o v first m) : o.queued first ≠ [] := by
  rw [taken.queued]
  simp [Object.inHand, taken.pc]

theorem Drains.of_timers (running : Running o) (pc : o.pc = .timers)
    (next : ∀ u : Object α, Running u → u.pc = .head → u.total = o.total → Drains u) : Drains o := by
  refine Drains.step (.checkTimers true) trivial
    (checkTimers_eq_some.mpr ⟨pc, running.active, rfl⟩) ?_
  exact next _ ⟨running.whole, running.active⟩ rfl rfl

theorem Drains.of_processing (running : Running o) {queue : Queue} (pc : o.pc = .processing queue m)
    (next : ∀ u : Object α, Running u → u.pc = .head → u.total = o.total → Drains u) :
    Drains o := by
  have stepped : o.work = some { o with
      processed := o.processed ++ [⟨queue, m, o.looked⟩]
      pc := .timers } := by
    unfold Object.work
    rw [pc]
  refine Drains.work stepped (Drains.of_timers ⟨running.whole, running.active⟩ rfl ?_)
  exact fun u running head same => next u running head same

/-- From the `top` of a queue that is not empty. -/
theorem Drains.of_top (running : Running o) {looked : Queue → Nat} (nonempty : o.queued first ≠ [])
    (next : ∀ u : Object α, Running u → u.pc = .head → u.total < o.total → Drains u) :
    Drains { o.top again first with looked := looked } := by
  rcases top_cases running.whole again first looked with ⟨nothing, -⟩ | ⟨m, taken⟩
  · exact absurd nothing nonempty
  · refine Drains.of_processing ⟨taken.whole, running.active⟩ taken.pc fun u running head same => ?_
    exact next u running head (same ▸ taken.total_lt)

/-- What is left to show of a turn that began where `o` is: that a later turn ends well. -/
def Next (again : Bool) (o : Object α) : Prop :=
  ∀ u : Object α, Running u → u.pc = .head → u.total < o.total ∨ again = true ∧ u.total = o.total → Drains u

theorem Drains.of_lowTop (running : Running o) (pc : o.pc = .receive again .lowTop)
    (above : ∀ q, q ≠ .mqueueLow → o.queued q = []) (next : Next again o) : Drains o := by
  have stepped : o.work = some { o.top again .mqueueLow with
      looked := update o.looked .mqueueLow o.count } := by
    unfold Object.work
    rw [pc]
  refine Drains.work stepped ?_
  by_cases empty : o.queued .mqueueLow = []
  · have all : ∀ q, o.queued q = [] := fun q => by
      by_cases low : q = .mqueueLow
      · rw [low, empty]
      · exact above q low
    rcases top_cases running.whole again .mqueueLow (update o.looked .mqueueLow o.count) with
      ⟨-, same⟩ | ⟨m, taken⟩
    · rw [same]
      cases again with
      | false => exact ⟨[], fun _ member => absurd member List.not_mem_nil, _, rfl, rfl, all⟩
      | true =>
        refine Drains.of_timers ⟨running.whole, running.active⟩ rfl fun u running head same => ?_
        exact next u running head (.inr ⟨rfl, same⟩)
    · exact absurd empty taken.nonempty
  · exact Drains.of_top running empty fun u running head less => next u running head (.inl less)

theorem Drains.of_mediumEmpty (running : Running o) (pc : o.pc = .receive again .mediumEmpty)
    (above : o.queued .mqueueHi = []) (next : Next again o) :
    Drains o := by
  cases empty : (o.queue .mqueueMedium).empty
  · refine Drains.work (v := { o with
        looked := update o.looked .mqueueMedium o.count
        pc := .receive again .mediumTop }) ?_ ?_
    · simp [Object.work, pc, empty]
    · refine Drains.work (by rfl) ?_
      refine Drains.of_top ⟨running.whole, running.active⟩ (fun none => ?_)
        fun u running head less => next u running head (.inl less)
      rw [(empty_iff (running.whole _)).mpr none] at empty
      cases empty
  · refine Drains.work (v := { o with
        looked := update o.looked .mqueueMedium o.count
        pc := .receive again .lowTop }) ?_ ?_
    · simp [Object.work, pc, empty]
    · refine Drains.of_lowTop ⟨running.whole, running.active⟩ rfl (fun q other => ?_) next
      cases q with
      | mqueueHi => exact above
      | mqueueMedium => exact (empty_iff (running.whole _)).mp empty
      | mqueueLow => exact absurd rfl other

theorem Drains.of_receive (running : Running o) (pc : o.pc = .receive again .hiEmpty)
    (next : Next again o) : Drains o := by
  cases empty : (o.queue .mqueueHi).empty
  · refine Drains.work (v := { o with
        looked := update o.looked .mqueueHi o.count
        pc := .receive again .hiTop }) ?_ ?_
    · simp [Object.work, pc, empty]
    · refine Drains.work (by rfl) ?_
      refine Drains.of_top ⟨running.whole, running.active⟩ (fun none => ?_)
        fun u running head less => next u running head (.inl less)
      rw [(empty_iff (running.whole _)).mpr none] at empty
      cases empty
  · refine Drains.work (v := { o with
        looked := update o.looked .mqueueHi o.count
        pc := .receive again .mediumEmpty }) ?_ ?_
    · simp [Object.work, pc, empty]
    · exact Drains.of_mediumEmpty ⟨running.whole, running.active⟩ rfl ((empty_iff (running.whole _)).mp empty) next

/-- From the beginning of a turn: one message is less to process after it. -/
theorem Drains.of_head (n : Nat) : ∀ o : Object α, Running o → o.pc = .head → o.total = n → Drains o := by
  induction n using Nat.strongRecOn with
  | ind n ih =>
    intro o running pc total
    refine Drains.work (v := { o with pc := .receive false .hiEmpty }) ?_ ?_
    · simp [Object.work, pc, running.active]
    · refine Drains.of_receive ⟨running.whole, running.active⟩ rfl fun u running head less => ?_
      rcases less with less | ⟨again, -⟩
      · exact ih u.total (total ▸ less) u running head rfl
      · cases again

/-- Where the thread goes on to look into all its queues before it sleeps. -/
def Woken (o : Object α) : Prop :=
  o.pc = .head ∨ o.pc = .timers ∨ (∃ queue m, o.pc = .processing queue m) ∨
    o.pc = .waiting ∧ o.terminated = true

/-- **Progress.** In every state of a run, a thread that has been woken or has a message in hand
processes by itself everything that is queued, in the order of each queue, before it sleeps. -/
theorem woken_drains {first : Object α} (start : (loop α).start first) {labels : List (Label α)}
    (positive : ∀ label ∈ labels, Positive label) (ran : (loop α).run first labels = some o)
    (active : o.active = true) (woken : Woken o) :
    ∃ more : List (Label α), (∀ label ∈ more, Own label) ∧
      ∃ v, (loop α).run o more = some v ∧ v.pc = .wait ∧ ∀ q, v.queued q = [] ∧
        v.taken q = o.taken q ++ o.inHand q ++ o.queued q := by
  have looking := Looking.run start positive ran
  have head := fun (u : Object α) (running : Running u) (pc : u.pc = .head) => Drains.of_head u.total u running pc rfl
  have running : Running o := ⟨looking.whole, active⟩
  have drains : Drains o := by
    rcases woken with pc | pc | ⟨queue, m, pc⟩ | ⟨pc, terminated⟩
    · exact head o running pc
    · exact Drains.of_timers running pc fun u running pc _ => head u running pc
    · exact Drains.of_processing running pc fun u running pc _ => head u running pc
    · refine Drains.work (v := { o with pc := .receive true .hiEmpty }) ?_ ?_
      · simp [Object.work, pc, terminated]
      · exact Drains.of_receive ⟨running.whole, active⟩ rfl fun u running pc _ => head u running pc
  obtain ⟨more, own, v, after, pc, empty⟩ := drains
  refine ⟨more, own, v, after, pc, fun q => ⟨empty q, ?_⟩⟩
  have owned : (loop α).Meets (fun _ label => Own label) o more :=
    Lib.Machine.meets_of_forall fun _ => own
  have alike : (∀ q, Whole (v.queue q)) ∧ ∀ q, v.line q = o.line q := by
    refine Lib.Machine.run_invariant (P := fun u => (∀ q, Whole (u.queue q)) ∧ ∀ q, u.line q = o.line q)
      (fun u label w same own stepped => ?_) ⟨looking.whole, fun _ => rfl⟩ owned after
    have one : Alike u w := by
      cases label with
      | work => exact .work same.1 stepped
      | checkTimers waitUpTime => exact .checkTimers same.1 stepped
      | _ => exact absurd own id
    exact ⟨one.whole, fun q => (one.line q).trans (same.2 q)⟩
  have line : v.line q = v.taken q := by simp [Object.line, Object.inHand, pc, empty]
  rw [← line]
  exact alike.2 q

/-- The thread is woken from its sleep. -/
theorem woken_after_sleep :
    ((loop Nat).run (idle 10) (beforeTheSleep ++ [.terminate])).isSome = true ∧
      ∀ o, (loop Nat).run (idle 10) (beforeTheSleep ++ [.terminate]) = some o →
        ∃ more : List (Label Nat), (∀ label ∈ more, Own label) ∧
          ∃ v, (loop Nat).run o more = some v ∧ v.pc = .wait ∧ ∀ q, v.queued q = [] ∧
            v.taken q = o.taken q ++ o.inHand q ++ o.queued q := by
  refine ⟨rfl, fun o ran => ?_⟩
  have positive : ∀ label ∈ beforeTheSleep ++ [.terminate], Positive label := by
    simp [beforeTheSleep, Positive]
  have drains := woken_drains (idle_start (by decide)) positive ran
  cases ran
  exact drains rfl (.inr (.inr (.inr ⟨rfl, rfl⟩)))

end UniSet.Core.MessageLoop

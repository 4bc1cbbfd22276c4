/-
**The two message queues: `MQAtomic` and `MQMutex`.**

`MQAtomic` is a ring with three counters that only grow: `wpos` counts the reserved places, `qpos` the
published ones and `rpos` the read ones. A writer may overrun the reader; `top` repairs the read
position when it is called. `MQMutex` is a list and drops at once, in `push`.

* `reserve`, `store`, `publish`, `pull`, `take` — the operations on the counters and on the ring, in
  the order in which `push` and `top` perform them.
* `Sim` — the list is what `top` would still return of the ring (`window`).
* **`queues_agree`** — for every capacity, strategy and history the two give the same answers.
-/

import Mathlib.Data.List.Basic
import Mathlib.Data.Int.ModEq
import UniSet.Lib.Machine

namespace UniSet.Various

/-- `LostStrategy` of both queues. -/
inductive LostStrategy
  | lostOldData | lostNewData
deriving DecidableEq, Repr

/-- **`MQAtomic`**; a message is a pointer, and `none` is the null pointer. -/
structure MQAtomic (α : Type) where
  mqueue : List (Option α)
  wpos : UInt64
  rpos : UInt64
  qpos : UInt64
  lostStrategy : LostStrategy
  sizeOfMessageQueue : UInt64
  stMaxQueueMessages : UInt64
  stCountOfLostMessages : UInt64

namespace MQAtomic

variable {α : Type}

/-- A new queue. -/
def new (qsize : UInt64) (lostStrategy : LostStrategy) : MQAtomic α :=
  ⟨List.replicate qsize.toNat none, 0, 0, 0, lostStrategy, qsize, 0, 0⟩

variable (q : MQAtomic α)

/-- The place of a position in the ring. -/
def slot (pos : UInt64) : Nat := pos.toNat % q.sizeOfMessageQueue.toNat

/-- `(wpos - rpos) >= SizeOfMessageQueue`. -/
def full : Bool := decide (q.sizeOfMessageQueue ≤ q.wpos - q.rpos)

def countLost : MQAtomic α := { q with stCountOfLostMessages := q.stCountOfLostMessages + 1 }

/-- `wpos.fetch_add(1)`. -/
def reserve : MQAtomic α := { q with wpos := q.wpos + 1 }

/-- The write of a message into the place that was reserved. -/
def store (w : UInt64) (vm : Option α) : MQAtomic α := { q with mqueue := q.mqueue.set (q.slot w) vm }

/-- `qpos.fetch_add(1)`. -/
def publish : MQAtomic α := { q with qpos := q.qpos + 1 }

/-- The statistics at the end of `push`. -/
def statistics : MQAtomic α :=
  { q with stMaxQueueMessages := if q.stMaxQueueMessages < q.qpos - q.rpos then q.qpos - q.rpos
      else q.stMaxQueueMessages }

/-- The test of `push` after `wpos` has passed the maximum. -/
def fullWrapped : Bool :=
  decide (q.wpos < q.rpos) && decide (q.sizeOfMessageQueue ≤
    q.rpos % q.sizeOfMessageQueue - q.wpos % q.sizeOfMessageQueue)

/-- **`MQAtomic::push`.** -/
def push (vm : Option α) : MQAtomic α × Bool :=
  if q.lostStrategy = .lostNewData ∧ q.full then (q.countLost, false)
  else if q.lostStrategy = .lostNewData ∧ q.fullWrapped then (q.countLost, false)
  else ((q.reserve.store q.wpos vm).publish.statistics, true)

/-- The read position is pulled up to a position of the writers. -/
def pull (pos : UInt64) : MQAtomic α := { q.countLost with rpos := pos - q.sizeOfMessageQueue }

/-- `rpos.fetch_add(1)` and the read of that place. -/
def take : MQAtomic α × Option α :=
  ({ q with rpos := q.rpos + 1 }, q.mqueue.getD (q.slot q.rpos) none)

/-- The test of `top` after `qpos` has passed the maximum. -/
def behindWrapped : Bool := decide (q.sizeOfMessageQueue ≤
  q.rpos % q.sizeOfMessageQueue - q.qpos % q.sizeOfMessageQueue)

/-- **`MQAtomic::top`.** -/
def top : MQAtomic α × Option α :=
  let q := if q.lostStrategy = .lostOldData ∧ q.full then q.pull q.wpos else q
  if q.rpos = q.qpos then (q, none)
  else if q.rpos < q.qpos then q.take
  else (if q.lostStrategy = .lostOldData ∧ q.behindWrapped then q.pull q.qpos else q).take

/-- **`MQAtomic::size`.** -/
def size : UInt64 := if q.full then q.sizeOfMessageQueue else q.qpos - q.rpos

/-- **`MQAtomic::empty`.** -/
def empty : Bool := q.qpos == q.rpos

end MQAtomic

/-- **`MQMutex`.** -/
structure MQMutex (α : Type) where
  mqueue : List (Option α)
  lostStrategy : LostStrategy
  sizeOfMessageQueue : UInt64
  stMaxQueueMessages : UInt64
  stCountOfLostMessages : UInt64

namespace MQMutex

variable {α : Type}

/-- A new queue. -/
def new (qsize : UInt64) (lostStrategy : LostStrategy) : MQMutex α := ⟨[], lostStrategy, qsize, 0, 0⟩

variable (q : MQMutex α)

/-- The end of `push`: the message is appended. -/
def append (vm : Option α) : MQMutex α :=
  let mqueue := q.mqueue ++ [vm]
  let sz := UInt64.ofNat mqueue.length
  { q with
    mqueue := mqueue
    stMaxQueueMessages := if q.stMaxQueueMessages < sz then sz else q.stMaxQueueMessages }

/-- **`MQMutex::push`.** -/
def push (vm : Option α) : MQMutex α :=
  if q.sizeOfMessageQueue.toNat < q.mqueue.length + 1 then
    let counted := { q with stCountOfLostMessages := q.stCountOfLostMessages + 1 }
    if q.lostStrategy = .lostNewData then counted
    else { counted with mqueue := q.mqueue.tail }.append vm
  else q.append vm

/-- **`MQMutex::top`.** -/
def top : MQMutex α × Option α :=
  match q.mqueue with
  | [] => (q, none)
  | m :: rest => ({ q with mqueue := rest }, m)

/-- **`MQMutex::size`.** -/
def size : UInt64 := UInt64.ofNat q.mqueue.length

/-- **`MQMutex::empty`.** -/
def empty : Bool := q.mqueue.isEmpty

end MQMutex

/-! ### Histories -/

/-- A call. -/
inductive Op (α : Type)
  | push (vm : Option α)
  | top
  | size
  | empty

/-- What a call answers; `MQMutex::push` answers nothing. -/
inductive Answer (α : Type)
  | pushed
  | message (m : Option α)
  | size (n : UInt64)
  | empty (b : Bool)
deriving DecidableEq

variable {α : Type}

def MQAtomic.call (q : MQAtomic α) : Op α → MQAtomic α × Answer α
  | .push vm => ((q.push vm).1, .pushed)
  | .top => (q.top.1, .message q.top.2)
  | .size => (q, .size q.size)
  | .empty => (q, .empty q.empty)

def MQMutex.call (q : MQMutex α) : Op α → MQMutex α × Answer α
  | .push vm => (q.push vm, .pushed)
  | .top => (q.top.1, .message q.top.2)
  | .size => (q, .size q.size)
  | .empty => (q, .empty q.empty)

/-- The answers to the calls of a history. -/
def answers {Q : Type} (call : Q → Op α → Q × Answer α) (q : Q) : List (Op α) → List (Answer α)
  | [] => []
  | op :: rest => (call q op).2 :: answers call (call q op).1 rest

/-- The number of pushes in a history. -/
def pushes : List (Op α) → Nat
  | [] => 0
  | .push _ :: rest => pushes rest + 1
  | _ :: rest => pushes rest

/-! ### The simulation -/

namespace MQAtomic

variable (q : MQAtomic α)

/-- What is in the place of a position. -/
def held (i : Nat) : Option α := q.mqueue.getD (i % q.sizeOfMessageQueue.toNat) none

/-- The number of messages that `top` can still return. -/
def length : Nat := min (q.wpos.toNat - q.rpos.toNat) q.sizeOfMessageQueue.toNat

/-- The messages that `top` can still return, oldest first. -/
def window : List (Option α) := (List.range' (q.wpos.toNat - q.length) q.length).map q.held

end MQAtomic

/-- **The simulation**: the list of `MQMutex` is the window of `MQAtomic`. -/
structure Sim (a : MQAtomic α) (m : MQMutex α) : Prop where
  size : m.sizeOfMessageQueue = a.sizeOfMessageQueue
  strategy : m.lostStrategy = a.lostStrategy
  positive : 1 ≤ a.sizeOfMessageQueue.toNat
  slots : a.mqueue.length = a.sizeOfMessageQueue.toNat
  published : a.qpos = a.wpos
  inside : a.rpos ≤ a.wpos
  refused : a.lostStrategy = .lostNewData →
    a.wpos.toNat - a.rpos.toNat ≤ a.sizeOfMessageQueue.toNat
  content : m.mqueue = a.window

variable {a : MQAtomic α} {m : MQMutex α}

theorem MQAtomic.window_length (q : MQAtomic α) : q.window.length = q.length := by
  simp [window]

theorem Sim.full_iff (sim : Sim a m) :
    a.full = true ↔ a.sizeOfMessageQueue.toNat ≤ a.wpos.toNat - a.rpos.toNat := by
  rw [MQAtomic.full, decide_eq_true_iff, UInt64.le_iff_toNat_le,
    UInt64.toNat_sub_of_le _ _ sim.inside]

/-- Positions nearer to each other than the size of the ring are in different places. -/
theorem place_ne {size i w : Nat} (before : i < w) (near : w - i < size) : w % size ≠ i % size := by
  intro same
  have divides : size ∣ w - i := (Nat.modEq_iff_dvd' (Nat.le_of_lt before)).mp same.symm
  have := Nat.eq_zero_of_dvd_of_lt divides near
  omega

theorem MQAtomic.held_store {q : MQAtomic α} (positive : 1 ≤ q.sizeOfMessageQueue.toNat)
    (places : q.mqueue.length = q.sizeOfMessageQueue.toNat) (w : UInt64) (vm : Option α) (i : Nat) :
    (q.store w vm).held i = if w.toNat % q.sizeOfMessageQueue.toNat =
      i % q.sizeOfMessageQueue.toNat then vm else q.held i := by
  have inside : w.toNat % q.sizeOfMessageQueue.toNat < q.mqueue.length := by
    rw [places]
    exact Nat.mod_lt _ positive
  simp only [held, store, slot, List.getD_eq_getElem?_getD]
  rw [List.getElem?_set, if_pos inside]
  split
  · rfl
  · rfl

/-- **The window after a push**: the message is appended, and a full window has lost its oldest. -/
theorem window_push (sim : Sim a m) (fits : a.wpos.toNat + 1 < 2 ^ 64) (vm : Option α) :
    (a.reserve.store a.wpos vm).publish.statistics.window =
      (if a.length < a.sizeOfMessageQueue.toNat then a.window else a.window.tail) ++ [vm] := by
  generalize after : (a.reserve.store a.wpos vm).publish.statistics = b
  have wpos : b.wpos.toNat = a.wpos.toNat + 1 := by
    rw [← after]
    show (a.wpos + 1).toNat = a.wpos.toNat + 1
    rw [UInt64.toNat_add]
    simp
    omega
  have rpos : b.rpos = a.rpos := by
    rw [← after]
    rfl
  have size : b.sizeOfMessageQueue = a.sizeOfMessageQueue := by
    rw [← after]
    rfl
  have place : ∀ i, b.held i = if a.wpos.toNat % a.sizeOfMessageQueue.toNat =
      i % a.sizeOfMessageQueue.toNat then vm else a.held i := by
    rw [← after]
    exact MQAtomic.held_store sim.positive sim.slots a.wpos vm
  have inside := UInt64.le_iff_toNat_le.mp sim.inside
  have positive := sim.positive
  -- the positions of the messages that are kept
  obtain ⟨keep, length, below, upTo, kept⟩ : ∃ keep, b.length = keep + 1 ∧
      keep < a.sizeOfMessageQueue.toNat ∧ keep ≤ a.wpos.toNat ∧
      (if a.length < a.sizeOfMessageQueue.toNat then a.window else a.window.tail) =
        (List.range' (a.wpos.toNat - keep) keep).map a.held := by
    by_cases room : a.length < a.sizeOfMessageQueue.toNat
    · refine ⟨a.length, ?_, room, ?_, ?_⟩
      · unfold MQAtomic.length at room ⊢
        rw [wpos, rpos, size]
        omega
      · unfold MQAtomic.length
        omega
      · rw [if_pos room]
        rfl
    · have isFull : a.length = a.sizeOfMessageQueue.toNat := by
        unfold MQAtomic.length at room ⊢
        omega
      refine ⟨a.length - 1, ?_, ?_, ?_, ?_⟩
      · unfold MQAtomic.length at isFull ⊢
        rw [wpos, rpos, size]
        omega
      · omega
      · unfold MQAtomic.length
        omega
      · rw [if_neg room, MQAtomic.window]
        have split : a.length = (a.length - 1) + 1 := by omega
        have start : a.wpos.toNat - a.length + 1 = a.wpos.toNat - (a.length - 1) := by
          unfold MQAtomic.length at isFull ⊢
          omega
        rw [← start]
        conv_lhs => rw [split, List.range'_succ]
        rw [← split]
        rfl
  rw [MQAtomic.window, length, wpos, kept]
  have last : a.wpos.toNat + 1 - (keep + 1) = a.wpos.toNat - keep := by omega
  have here : a.wpos.toNat - keep + keep = a.wpos.toNat := by omega
  rw [last, List.range'_1_concat, here, List.map_append, List.map_singleton, place, if_pos rfl]
  congr 1
  refine List.map_congr_left fun i member => ?_
  rw [List.mem_range'_1] at member
  rw [place, if_neg (place_ne (by omega) (by omega))]

theorem Sim.length_eq (sim : Sim a m) : m.mqueue.length = a.length := by
  rw [sim.content, MQAtomic.window_length]

theorem Sim.length_le (sim : Sim a m) :
    a.sizeOfMessageQueue.toNat ≤ a.length ↔ a.full = true := by
  rw [sim.full_iff, MQAtomic.length]
  omega

/-- The counters of the losses are not compared. -/
theorem Sim.counted (sim : Sim a m) (n : UInt64) :
    Sim a.countLost { m with stCountOfLostMessages := n } :=
  ⟨sim.size, sim.strategy, sim.positive, sim.slots, sim.published, sim.inside, sim.refused,
    sim.content⟩

/-- **A push is simulated.** -/
theorem Sim.push (sim : Sim a m) (fits : a.wpos.toNat + 1 < 2 ^ 64) (vm : Option α) :
    Sim (a.push vm).1 (m.push vm) := by
  have inside := UInt64.le_iff_toNat_le.mp sim.inside
  have isFull : m.sizeOfMessageQueue.toNat < m.mqueue.length + 1 ↔ a.full = true := by
    rw [sim.size, sim.length_eq, ← sim.length_le]
    omega
  have unwrapped : a.fullWrapped = false := by
    rw [MQAtomic.fullWrapped, Bool.and_eq_false_iff]
    left
    rw [decide_eq_false_iff_not, UInt64.lt_iff_toNat_lt]
    omega
  by_cases refused : a.lostStrategy = .lostNewData ∧ a.full = true
  · rw [MQAtomic.push, if_pos refused, MQMutex.push, if_pos (isFull.mpr refused.2)]
    dsimp only
    rw [if_pos (sim.strategy.trans refused.1)]
    exact sim.counted _
  · have accepted : (a.push vm).1 = (a.reserve.store a.wpos vm).publish.statistics := by
      rw [MQAtomic.push, if_neg refused, if_neg (by rw [unwrapped]; simp)]
    have content : (m.push vm).mqueue =
        (if a.length < a.sizeOfMessageQueue.toNat then a.window else a.window.tail) ++ [vm] := by
      rw [← sim.content, MQMutex.push]
      by_cases full : a.full = true
      · have old : m.lostStrategy ≠ .lostNewData := fun new =>
          refused ⟨sim.strategy.symm.trans new, full⟩
        have room : ¬ a.length < a.sizeOfMessageQueue.toNat := by
          rw [Nat.not_lt]
          exact sim.length_le.mpr full
        rw [if_pos (isFull.mpr full), if_neg old, if_neg room]
        rfl
      · have room : a.length < a.sizeOfMessageQueue.toNat := by
          rw [← Nat.not_le]
          exact fun le => full (sim.length_le.mp le)
        rw [if_neg (fun le => full (isFull.mp le)), if_pos room]
        rfl
    have settings : (m.push vm).sizeOfMessageQueue = m.sizeOfMessageQueue ∧
        (m.push vm).lostStrategy = m.lostStrategy := by
      unfold MQMutex.push MQMutex.append
      split
      · dsimp only
        split <;> exact ⟨rfl, rfl⟩
      · exact ⟨rfl, rfl⟩
    have next : (a.wpos + 1).toNat = a.wpos.toNat + 1 := by
      rw [UInt64.toNat_add]
      simp
      omega
    rw [accepted]
    refine ⟨settings.1.trans sim.size, settings.2.trans sim.strategy, sim.positive, ?_, ?_, ?_, ?_,
      ?_⟩
    · show (a.mqueue.set _ _).length = _
      rw [List.length_set]
      exact sim.slots
    · show a.qpos + 1 = a.wpos + 1
      rw [sim.published]
    · rw [UInt64.le_iff_toNat_le]
      show a.rpos.toNat ≤ (a.wpos + 1).toNat
      omega
    · intro new
      have room : ¬ a.full = true := fun full => refused ⟨new, full⟩
      rw [sim.full_iff] at room
      show (a.wpos + 1).toNat - a.rpos.toNat ≤ a.sizeOfMessageQueue.toNat
      omega
    · rw [content, window_push sim fits]

/-- **Pulling the read position** up to the oldest message that is kept. -/
theorem Sim.pull (sim : Sim a m) (full : a.full = true) :
    Sim (a.pull a.wpos) m ∧
      (a.pull a.wpos).rpos.toNat = (a.pull a.wpos).wpos.toNat - (a.pull a.wpos).length := by
  have overrun := sim.full_iff.mp full
  have behind : a.sizeOfMessageQueue ≤ a.wpos := by
    rw [UInt64.le_iff_toNat_le]
    omega
  have rpos : (a.pull a.wpos).rpos.toNat = a.wpos.toNat - a.sizeOfMessageQueue.toNat :=
    UInt64.toNat_sub_of_le _ _ behind
  have whole : a.length = a.sizeOfMessageQueue.toNat := by
    unfold MQAtomic.length
    omega
  have same : (a.pull a.wpos).length = a.length := by
    rw [whole]
    unfold MQAtomic.length
    rw [rpos]
    show min (a.wpos.toNat - _) a.sizeOfMessageQueue.toNat = _
    rw [UInt64.le_iff_toNat_le] at behind
    omega
  refine ⟨⟨sim.size, sim.strategy, sim.positive, sim.slots, sim.published, ?_, ?_, ?_⟩, ?_⟩
  · rw [UInt64.le_iff_toNat_le, rpos]
    exact Nat.sub_le _ _
  · intro _
    rw [rpos]
    show a.wpos.toNat - _ ≤ a.sizeOfMessageQueue.toNat
    omega
  · rw [sim.content, MQAtomic.window, MQAtomic.window, same]
    rfl
  · rw [rpos, same, whole]
    rfl

/-- **Reading one message**: the oldest of the window. -/
theorem Sim.take (sim : Sim a m) (start : a.rpos.toNat = a.wpos.toNat - a.length)
    (some : 0 < a.length) : ∃ rest, m.mqueue = a.take.2 :: rest ∧
      Sim a.take.1 { m with mqueue := rest } := by
  have le : a.length ≤ a.wpos.toNat := by
    unfold MQAtomic.length
    omega
  have next : (a.rpos + 1).toNat = a.rpos.toNat + 1 := by
    have := a.wpos.toNat_lt
    rw [UInt64.toNat_add]
    simp
    omega
  have shorter : a.take.1.length = a.length - 1 := by
    unfold MQAtomic.length at start some ⊢
    show min (a.wpos.toNat - (a.rpos + 1).toNat) a.sizeOfMessageQueue.toNat = _
    omega
  have split : a.length = (a.length - 1) + 1 := by omega
  refine ⟨(List.range' (a.rpos.toNat + 1) (a.length - 1)).map a.held, ?_, ?_⟩
  · rw [sim.content, MQAtomic.window, ← start, split, List.range'_succ, List.map_cons,
      Nat.add_sub_cancel]
    rfl
  · refine ⟨sim.size, sim.strategy, sim.positive, sim.slots, sim.published, ?_, ?_, ?_⟩
    · rw [UInt64.le_iff_toNat_le]
      show (a.rpos + 1).toNat ≤ a.wpos.toNat
      omega
    · intro new
      have refused := sim.refused new
      show a.wpos.toNat - (a.rpos + 1).toNat ≤ a.sizeOfMessageQueue.toNat
      omega
    · have from_ : a.wpos.toNat - (a.length - 1) = a.rpos.toNat + 1 := by omega
      dsimp only
      rw [MQAtomic.window, shorter]
      show _ = (List.range' (a.wpos.toNat - (a.length - 1)) (a.length - 1)).map a.held
      rw [from_]

/-- **The read** of `top`, at the read position. -/
theorem Sim.read (sim : Sim a m) (start : a.rpos.toNat = a.wpos.toNat - a.length) :
    let r := if a.rpos = a.qpos then (a, none) else if a.rpos < a.qpos then a.take
      else (if a.lostStrategy = .lostOldData ∧ a.behindWrapped then a.pull a.qpos else a).take
    Sim r.1 m.top.1 ∧ r.2 = m.top.2 := by
  have le : a.length ≤ a.wpos.toNat := by
    unfold MQAtomic.length
    omega
  by_cases done : a.rpos = a.qpos
  · have none : a.length = 0 := by
      rw [done, sim.published] at start
      omega
    have nothing : m.mqueue = [] := by
      rw [sim.content, MQAtomic.window, none]
      rfl
    simp only [if_pos done, MQMutex.top, nothing]
    exact ⟨sim, trivial⟩
  · have apart : a.rpos.toNat ≠ a.wpos.toNat := fun same =>
      done (by rw [sim.published]; exact UInt64.toNat_inj.mp same)
    have below : a.rpos < a.qpos := by
      rw [sim.published, UInt64.lt_iff_toNat_lt]
      omega
    obtain ⟨rest, content, after⟩ := sim.take start (by omega)
    simp only [if_neg done, if_pos below, MQMutex.top, content]
    exact ⟨after, trivial⟩

/-- **A `top` is simulated.** -/
theorem Sim.top (sim : Sim a m) : Sim a.top.1 m.top.1 ∧ a.top.2 = m.top.2 := by
  unfold MQAtomic.top
  dsimp only
  by_cases overrun : a.lostStrategy = .lostOldData ∧ a.full = true
  · rw [if_pos overrun]
    obtain ⟨pulled, start⟩ := sim.pull overrun.2
    exact pulled.read start
  · rw [if_neg overrun]
    refine sim.read ?_
    have inside := UInt64.le_iff_toNat_le.mp sim.inside
    have kept : a.wpos.toNat - a.rpos.toNat ≤ a.sizeOfMessageQueue.toNat := by
      cases strategy : a.lostStrategy with
      | lostNewData => exact sim.refused strategy
      | lostOldData =>
        have room : ¬ a.full = true := fun full => overrun ⟨strategy, full⟩
        rw [sim.full_iff] at room
        omega
    unfold MQAtomic.length
    omega

/-- **`size` agrees.** -/
theorem Sim.size_eq (sim : Sim a m) : a.size = m.size := by
  have bound : a.length < 2 ^ 64 := by
    have := a.sizeOfMessageQueue.toNat_lt
    unfold MQAtomic.length
    omega
  rw [← UInt64.toNat_inj, MQMutex.size, sim.length_eq, UInt64.toNat_ofNat_of_lt' bound, MQAtomic.size]
  unfold MQAtomic.length
  split
  · rename_i full
    have := sim.full_iff.mp full
    omega
  · rename_i room
    rw [sim.full_iff] at room
    rw [sim.published, UInt64.toNat_sub_of_le _ _ sim.inside]
    omega

/-- **`empty` agrees.** -/
theorem Sim.empty_eq (sim : Sim a m) : a.empty = m.empty := by
  have inside := UInt64.le_iff_toNat_le.mp sim.inside
  have positive := sim.positive
  have nothing : m.mqueue = [] ↔ a.qpos = a.rpos := by
    rw [← List.length_eq_zero_iff, sim.length_eq, sim.published, ← UInt64.toNat_inj]
    unfold MQAtomic.length
    omega
  rw [MQAtomic.empty, MQMutex.empty, Bool.eq_iff_iff, beq_iff_eq, List.isEmpty_iff, nothing]

theorem Sim.new {capacity : UInt64} (positive : 1 ≤ capacity) (strategy : LostStrategy) :
    Sim (α := α) (.new capacity strategy) (.new capacity strategy) where
  size := rfl
  strategy := rfl
  positive := UInt64.le_iff_toNat_le.mp positive
  slots := List.length_replicate
  published := rfl
  inside := UInt64.le_refl _
  refused _ := Nat.zero_le _
  content := by
    have none : (MQAtomic.new capacity strategy : MQAtomic α).length = 0 := Nat.zero_min _
    rw [MQAtomic.window, none]
    rfl

/-! ### The result -/

theorem push_wpos (q : MQAtomic α) (vm : Option α) :
    (q.push vm).1.wpos = q.wpos ∨ (q.push vm).1.wpos = q.wpos + 1 := by
  unfold MQAtomic.push
  split
  · exact .inl rfl
  · split
    · exact .inl rfl
    · exact .inr rfl

theorem top_wpos (q : MQAtomic α) : q.top.1.wpos = q.wpos := by
  unfold MQAtomic.top
  dsimp only
  split
  all_goals split
  all_goals try rfl
  all_goals split
  all_goals try rfl
  all_goals split <;> rfl

/-- The pushes of a history that starts with a call. -/
theorem pushes_cons (op : Op α) (rest : List (Op α)) :
    pushes (op :: rest) = pushes [op] + pushes rest := by
  cases op with
  | push vm => exact Nat.add_comm _ _
  | top => exact (Nat.zero_add _).symm
  | size => exact (Nat.zero_add _).symm
  | empty => exact (Nat.zero_add _).symm

/-- **A call is simulated**, as long as the counters do not wrap. -/
theorem Sim.call (sim : Sim a m) (op : Op α) (few : a.wpos.toNat + pushes [op] < 2 ^ 64) :
    Sim (a.call op).1 (m.call op).1 ∧ (a.call op).2 = (m.call op).2 ∧
      (a.call op).1.wpos.toNat ≤ a.wpos.toNat + pushes [op] := by
  cases op with
  | push vm =>
    refine ⟨sim.push few vm, rfl, ?_⟩
    show (a.push vm).1.wpos.toNat ≤ a.wpos.toNat + 1
    rcases push_wpos a vm with same | next
    · rw [same]
      exact Nat.le_succ _
    · rw [next, UInt64.toNat_add]
      exact Nat.mod_le _ _
  | top =>
    obtain ⟨after, same⟩ := sim.top
    refine ⟨after, congrArg Answer.message same, ?_⟩
    show a.top.1.wpos.toNat ≤ _
    rw [top_wpos]
    exact Nat.le_refl _
  | size => exact ⟨sim, congrArg Answer.size sim.size_eq, Nat.le_refl _⟩
  | empty => exact ⟨sim, congrArg Answer.empty sim.empty_eq, Nat.le_refl _⟩

/-- **A history is simulated**, as long as the counters do not wrap. -/
theorem Sim.answers_eq (sim : Sim a m) (ops : List (Op α))
    (few : a.wpos.toNat + pushes ops < 2 ^ 64) :
    answers MQAtomic.call a ops = answers MQMutex.call m ops := by
  induction ops generalizing a m with
  | nil => rfl
  | cons op rest ih =>
    rw [pushes_cons] at few
    obtain ⟨after, same, wpos⟩ := sim.call op (by omega)
    unfold answers
    rw [same, ih after (by omega)]

/-- **The two queues agree**: for every capacity, strategy and history of fewer than `2^64` pushes they
give the same answers. -/
theorem queues_agree (capacity : UInt64) (positive : 1 ≤ capacity) (strategy : LostStrategy)
    (ops : List (Op α)) (few : pushes ops < 2 ^ 64) :
    answers MQAtomic.call (.new capacity strategy) ops =
      answers MQMutex.call (.new capacity strategy) ops := by
  refine (Sim.new positive strategy).answers_eq ops ?_
  have zero : (MQAtomic.new capacity strategy : MQAtomic α).wpos.toNat = 0 := rfl
  omega

/-- A ring of two places that is overrun. -/
def overrun : List (Op Nat) :=
  [.push (some 100), .push (some 110), .push (some 120), .size, .top, .top, .top, .empty]

theorem queues_agree_overrun :
    answers MQAtomic.call (.new 2 .lostOldData) overrun =
        [.pushed, .pushed, .pushed, .size 2, .message (some 110), .message (some 120),
          .message none, .empty true] ∧
      answers MQAtomic.call (.new 2 .lostOldData) overrun =
        answers MQMutex.call (.new 2 .lostOldData) overrun :=
  ⟨by decide +kernel, queues_agree 2 (by decide) .lostOldData overrun (by decide)⟩

end UniSet.Various

/-
**The counter of lost messages of `MQAtomic`.**

Under `lostOldData` a loss is counted by the `top` that finds the counters a whole ring apart. At
exactly one ring nothing has been overwritten yet, and a loss is counted that did not happen.

* `Account` — the queue with the messages pushed and returned so far, and whether `top` was called since
  one was lost; `Lossless`, `Law`.
* `Counted` — the invariant.
* **`loss_counter_iff`** — the counter is right throughout a history exactly if no `top` under
  `lostOldData` finds the ring exactly full while nothing is lost; `full_ring_counted` is the shortest
  history that counts a loss without one.
-/

import UniSet.Various.IndexWrap

namespace UniSet.Various

variable {α : Type}

/-! ### What the calls do to the counters -/

section Calls

variable {q : MQAtomic α} {m : MQMutex α}

theorem Sim.gap_eq (sim : Sim q m) : q.gap = q.wpos.toNat - q.rpos.toNat :=
  UInt64.toNat_sub_of_le _ _ sim.inside

theorem Sim.formed (sim : Sim q m) : q.Formed := by
  refine ⟨sim.positive, sim.slots, sim.published, fun new => ?_⟩
  rw [sim.gap_eq]
  exact sim.refused new

theorem Sim.length_window (sim : Sim q m) :
    q.window.length = min q.gap q.sizeOfMessageQueue.toNat := by
  rw [MQAtomic.window_length, sim.gap_eq]
  rfl

/-- **A `top` counts a loss** exactly if it finds the counters a ring apart. -/
theorem top_count (sim : Sim q m) : q.top.1.stCountOfLostMessages =
    if q.lostStrategy = .lostOldData ∧ q.full = true then q.stCountOfLostMessages + 1
    else q.stCountOfLostMessages := by
  have inside := UInt64.le_iff_toNat_le.mp sim.inside
  -- the reader is never ahead of the writers
  have read : ∀ r : MQAtomic α, r.rpos ≤ r.qpos →
      (if r.rpos = r.qpos then (r, none) else if r.rpos < r.qpos then r.take
        else
          (if r.lostStrategy = .lostOldData ∧ r.behindWrapped then r.pull r.qpos else r).take).1.stCountOfLostMessages
        = r.stCountOfLostMessages := by
    intro r before
    split
    · rfl
    · rename_i apart
      rw [if_pos]
      · rfl
      · rw [UInt64.lt_iff_toNat_lt]
        rw [UInt64.le_iff_toNat_le] at before
        rw [← UInt64.toNat_inj] at apart
        omega
  unfold MQAtomic.top
  dsimp only
  by_cases overrun : q.lostStrategy = .lostOldData ∧ q.full = true
  · rw [if_pos overrun, if_pos overrun]
    have pulled := (sim.pull overrun.2).1
    rw [read _ (by rw [pulled.published]; exact pulled.inside)]
    rfl
  · rw [if_neg overrun, if_neg overrun]
    exact read q (by rw [sim.published]; exact sim.inside)

theorem top_gap (sim : Sim q m) : q.top.1.gap = q.readable - 1 ∧
    q.top.1.lostStrategy = q.lostStrategy ∧ q.top.1.sizeOfMessageQueue = q.sizeOfMessageQueue := by
  have topped := topped_top sim.formed (keeps_of_le sim.inside .top)
  exact ⟨topped.gap, topped.strategy, topped.size⟩

/-- **The window after a `top`**: its first message is returned. -/
theorem top_window (sim : Sim q m) {x : Option α} {rest : List (Option α)}
    (window : q.window = x :: rest) : q.top.2 = x ∧ q.top.1.window = rest := by
  obtain ⟨after, same⟩ := sim.top
  have content := sim.content.trans window
  unfold MQMutex.top at after same
  rw [content] at after same
  exact ⟨same, after.content.symm⟩

theorem Sim.empty_iff (sim : Sim q m) : q.empty = true ↔ q.gap = 0 := by
  rw [MQAtomic.empty, beq_iff_eq, gap_eq_zero, sim.published, eq_comm]

/-- **A `top` moves a message** from the window to those returned, if there is one. -/
theorem top_moves (sim : Sim q m) (returned : List (Option α)) :
    (if q.empty then returned else returned ++ [q.top.2]) ++ q.top.1.window =
      returned ++ q.window := by
  have length := sim.length_window
  have positive := sim.positive
  cases window : q.window with
  | nil =>
    rw [window, List.length_nil] at length
    have none : q.gap = 0 := by omega
    have after : q.top.1.window.length = 0 := by
      have room : ¬ q.full = true := by
        rw [q.full_iff]
        omega
      rw [sim.top.1.length_window, (top_gap sim).1, MQAtomic.readable, if_neg fun both => room both.2,
        none, Nat.zero_min]
    rw [if_pos (sim.empty_iff.mpr none), List.length_eq_zero_iff.mp after]
  | cons x rest =>
    rw [window, List.length_cons] at length
    obtain ⟨first, after⟩ := top_window sim window
    rw [if_neg fun none => by rw [sim.empty_iff] at none; omega, first, after, List.append_assoc,
      List.singleton_append]

/-- The window after a push that is not refused. -/
theorem push_window (sim : Sim q m) (fits : q.wpos.toNat + 1 < 2 ^ 64) (vm : Option α)
    (room : ¬ (q.lostStrategy = .lostNewData ∧ q.full = true)) :
    (q.push vm).1.window = (if q.full = true then q.window.tail else q.window) ++ [vm] ∧
      (q.push vm).1.gap = q.gap + 1 ∧
      (q.push vm).1.stCountOfLostMessages = q.stCountOfLostMessages ∧
      (q.push vm).1.lostStrategy = q.lostStrategy ∧
      (q.push vm).1.sizeOfMessageQueue = q.sizeOfMessageQueue := by
  have pushed := pushed_push sim.formed vm room fun _ both =>
    UInt64.not_lt.mpr sim.inside both.1
  have unwrapped : q.fullWrapped = false := by
    rw [MQAtomic.fullWrapped, decide_eq_false (UInt64.not_lt.mpr sim.inside), Bool.false_and]
  have taken : q.push vm = ((q.reserve.store q.wpos vm).publish.statistics, true) := by
    unfold MQAtomic.push
    rw [if_neg room, if_neg (by rw [unwrapped]; exact fun both => Bool.false_ne_true both.2)]
  refine ⟨?_, ?_, ?_, pushed.strategy, pushed.size⟩
  · have after := window_push sim fits vm
    rw [taken, after]
    by_cases full : q.full = true
    · rw [if_pos full, if_neg (Nat.not_lt_of_le (sim.length_le.mpr full))]
    · rw [if_neg full, if_pos (Nat.lt_of_not_le fun le => full (sim.length_le.mp le))]
  · have inside := UInt64.le_iff_toNat_le.mp sim.inside
    rw [pushed.gap, sim.gap_eq, Nat.mod_eq_of_lt]
    unfold positions
    omega
  · rw [taken]
    rfl

theorem succ_ne_zero {n : UInt64} (small : n.toNat + 1 < 2 ^ 64) :
    (n + 1).toNat = n.toNat + 1 ∧ n + 1 ≠ 0 := by
  have next : (n + 1).toNat = n.toNat + 1 := by
    rw [UInt64.toNat_add, UInt64.toNat_one]
    omega
  refine ⟨next, fun zero => ?_⟩
  rw [zero] at next
  cases next

/-- A message more in the window and among those pushed. -/
theorem lossless_append (before : List (Option α)) (window pushed : List (Option α)) (vm : Option α) :
    before ++ (window ++ [vm]) = pushed ++ [vm] ↔ before ++ window = pushed := by
  rw [← List.append_assoc]
  exact List.append_left_inj [vm]

end Calls

/-! ### The account -/

/-- **The queue and its history.** -/
structure Account (α : Type) where
  queue : MQAtomic α
  pushed : List (Option α)
  returned : List (Option α)
  /-- `top` was called after a message was lost. -/
  topped : Bool

namespace Account

def new (qsize : UInt64) (strategy : LostStrategy) : Account α := ⟨.new qsize strategy, [], [], false⟩

variable (w : Account α)

/-- **Every pushed message** has been returned or can still be returned by `top`. -/
def Lossless : Prop := w.returned ++ w.queue.window = w.pushed

instance [DecidableEq α] : Decidable w.Lossless := inferInstanceAs (Decidable (_ = _))

/-- A call, recorded. -/
def next [DecidableEq α] : Op α → Account α
  | .push vm => { w with queue := (w.queue.push vm).1, pushed := w.pushed ++ [vm] }
  | .top =>
    { w with
      queue := w.queue.top.1
      returned := if w.queue.empty then w.returned else w.returned ++ [w.queue.top.2]
      topped := w.topped || !decide w.Lossless }
  | .size => w
  | .empty => w

/-- **The law of the counter.** -/
def Law : Prop :=
  (w.Lossless → w.queue.stCountOfLostMessages = 0) ∧
    (w.topped = true → w.queue.stCountOfLostMessages ≠ 0)

/-- A `top` finds the ring exactly full, with nothing lost so far. -/
def Brimful : Prop :=
  w.queue.lostStrategy = .lostOldData ∧ w.queue.gap = w.queue.sizeOfMessageQueue.toNat ∧ w.Lossless

instance [DecidableEq α] : Decidable w.Brimful := inferInstanceAs (Decidable (_ ∧ _ ∧ _))

/-- **The steps that count right.** -/
def CountsRight : Op α → Prop
  | .top => ¬ w.Brimful
  | _ => True

instance [DecidableEq α] : ∀ op, Decidable (w.CountsRight op)
  | .push _ => inferInstanceAs (Decidable True)
  | .top => inferInstanceAs (Decidable (¬ _))
  | .size => inferInstanceAs (Decidable True)
  | .empty => inferInstanceAs (Decidable True)

end Account

/-- The queue with its history, call by call. -/
def accounts [DecidableEq α] : Lib.Machine (Account α) (Op α) where
  start w := ∃ qsize strategy, 1 ≤ qsize ∧ w = .new qsize strategy
  step w op := some (w.next op)

/-! ### The invariant -/

section Invariant

variable {w : Account α}

/-- **What holds of the counter.** -/
structure Counted (w : Account α) : Prop where
  sim : ∃ m, Sim w.queue m
  written : w.queue.wpos.toNat ≤ w.pushed.length
  bound : w.pushed.length < 2 ^ 64
  /-- A loss is counted at most once for every push, and the next one has a push of its own. -/
  counted : w.queue.stCountOfLostMessages.toNat ≤ w.pushed.length ∧
    (w.queue.sizeOfMessageQueue.toNat ≤ w.queue.gap →
      w.queue.stCountOfLostMessages.toNat < w.pushed.length)
  fits : w.returned.length + w.queue.window.length ≤ w.pushed.length
  lossless : w.Lossless → w.queue.stCountOfLostMessages = 0 ∧
    w.queue.gap ≤ w.queue.sizeOfMessageQueue.toNat
  lossy : ¬ w.Lossless → w.returned.length + w.queue.window.length < w.pushed.length ∧
    (w.queue.stCountOfLostMessages ≠ 0 ∨
      w.queue.lostStrategy = .lostOldData ∧ w.queue.sizeOfMessageQueue.toNat < w.queue.gap)
  topped : w.topped = true → w.queue.stCountOfLostMessages ≠ 0

theorem counted_new {qsize : UInt64} (positive : 1 ≤ qsize) (strategy : LostStrategy) :
    Counted (Account.new qsize strategy : Account α) := by
  have sim : Sim (MQAtomic.new qsize strategy : MQAtomic α) (.new qsize strategy) := .new positive strategy
  have gap : (MQAtomic.new qsize strategy : MQAtomic α).gap = 0 := (gap_eq_zero _).mpr rfl
  have none : (MQAtomic.new qsize strategy : MQAtomic α).window = [] := by
    rw [← List.length_eq_zero_iff, sim.length_window, gap, Nat.zero_min]
  have lossless : (Account.new qsize strategy : Account α).Lossless := by
    show [] ++ (MQAtomic.new qsize strategy : MQAtomic α).window = []
    rw [none]
    rfl
  refine ⟨⟨_, sim⟩, Nat.le_refl 0, Nat.two_pow_pos 64, ⟨Nat.le_refl 0, fun full => ?_⟩, ?_,
    fun _ => ⟨rfl, ?_⟩, fun lost => absurd lossless lost, fun none => nomatch none⟩
  · have full : (MQAtomic.new qsize strategy : MQAtomic α).sizeOfMessageQueue.toNat ≤
        (MQAtomic.new qsize strategy : MQAtomic α).gap := full
    rw [gap] at full
    exact absurd (Nat.le_trans sim.positive full) (by decide)
  · show 0 + (MQAtomic.new qsize strategy : MQAtomic α).window.length ≤ 0
    rw [none]
    exact Nat.le_refl 0
  · show (MQAtomic.new qsize strategy : MQAtomic α).gap ≤ _
    rw [gap]
    exact Nat.zero_le _

theorem Counted.law (counted : Counted w) : w.Law :=
  ⟨fun lossless => (counted.lossless lossless).1, counted.topped⟩

variable [DecidableEq α]

theorem Counted.refused (counted : Counted w) (vm : Option α) (good : w.pushed.length + 1 < 2 ^ 64)
    (refused : w.queue.lostStrategy = .lostNewData ∧ w.queue.full = true) :
    Counted (w.next (.push vm)) := by
  obtain ⟨⟨m, sim⟩, written, -, counts, fits, -, -, -⟩ := counted
  have length : (w.pushed ++ [vm]).length = w.pushed.length + 1 := List.length_append
  have same : w.next (.push vm) = { w with queue := w.queue.countLost, pushed := w.pushed ++ [vm] } := by
    show { w with queue := (w.queue.push vm).1, pushed := w.pushed ++ [vm] } = _
    rw [push_full vm refused]
  obtain ⟨next, positive⟩ := succ_ne_zero (n := w.queue.stCountOfLostMessages) (by omega)
  have fewer : w.returned.length + w.queue.window.length < (w.pushed ++ [vm]).length := by
    rw [length]
    exact Nat.lt_succ_of_le fits
  have lost : w.returned ++ w.queue.window ≠ w.pushed ++ [vm] := by
    intro kept
    rw [← kept, List.length_append] at fewer
    exact Nat.lt_irrefl _ fewer
  rw [same]
  refine ⟨⟨_, sim.counted m.stCountOfLostMessages⟩, ?_, ?_, ⟨?_, fun full => ?_⟩, Nat.le_of_lt fewer,
    fun kept => absurd kept lost, fun _ => ⟨fewer, .inl positive⟩, fun _ => positive⟩
  · rw [length]
    exact Nat.le_succ_of_le written
  · rw [length]
    exact good
  · rw [length]
    show (w.queue.stCountOfLostMessages + 1).toNat ≤ _
    rw [next]
    exact Nat.succ_le_succ counts.1
  · rw [length]
    show (w.queue.stCountOfLostMessages + 1).toNat < _
    rw [next]
    exact Nat.succ_lt_succ (counts.2 full)

section Push

variable {m : MQMutex α} {vm : Option α}

omit [DecidableEq α] in
/-- A full ring loses its oldest message, another one only gets longer. -/
theorem length_window_push (sim : Sim w.queue m) (fits : w.queue.wpos.toNat + 1 < 2 ^ 64)
    (taken : ¬ (w.queue.lostStrategy = .lostNewData ∧ w.queue.full = true)) :
    (w.queue.push vm).1.window.length =
      if w.queue.full = true then w.queue.window.length else w.queue.window.length + 1 := by
  obtain ⟨window, -⟩ := push_window sim fits vm taken
  have positive := sim.positive
  have before := sim.length_window
  rw [window, List.length_append, List.length_singleton]
  split
  · rename_i full
    have some := w.queue.full_iff.mp full
    rw [List.length_tail]
    omega
  · rfl

/-- Nothing is lost by a push exactly if nothing was and there is room. -/
theorem lossless_push_iff (sim : Sim w.queue m) (fits : w.queue.wpos.toNat + 1 < 2 ^ 64)
    (taken : ¬ (w.queue.lostStrategy = .lostNewData ∧ w.queue.full = true))
    (inside : w.returned.length + w.queue.window.length ≤ w.pushed.length) :
    (w.next (.push vm)).Lossless ↔ ¬ w.queue.full = true ∧ w.Lossless := by
  obtain ⟨window, -⟩ := push_window sim fits vm taken
  show w.returned ++ (w.queue.push vm).1.window = w.pushed ++ [vm] ↔ _
  constructor
  · intro kept
    have total := congrArg List.length kept
    rw [List.length_append, length_window_push sim fits taken, List.length_append,
      List.length_singleton] at total
    by_cases full : w.queue.full = true
    · rw [if_pos full] at total
      omega
    · rw [window, if_neg full, lossless_append] at kept
      exact ⟨full, kept⟩
  · rintro ⟨room, kept⟩
    rw [window, if_neg room, lossless_append]
    exact kept

end Push

theorem Counted.taken (counted : Counted w) (vm : Option α) (good : w.pushed.length + 1 < 2 ^ 64)
    (taken : ¬ (w.queue.lostStrategy = .lostNewData ∧ w.queue.full = true)) :
    Counted (w.next (.push vm)) := by
  obtain ⟨⟨m, sim⟩, written, -, counts, fits, lossless, lossy, topped⟩ := counted
  have fitsW : w.queue.wpos.toNat + 1 < 2 ^ 64 := by omega
  have length : (w.pushed ++ [vm]).length = w.pushed.length + 1 := List.length_append
  have after : (w.queue.push vm).1.wpos.toNat ≤ w.pushed.length + 1 := by
    rcases push_wpos w.queue vm with same | next
    · rw [same]
      omega
    · rw [next, UInt64.toNat_add]
      exact Nat.le_trans (Nat.mod_le _ _) (Nat.succ_le_succ written)
  obtain ⟨-, gap, count, strategy, size⟩ := push_window sim fitsW vm taken
  have full_iff := w.queue.full_iff
  have lengths : (w.queue.push vm).1.window.length =
      if w.queue.full = true then w.queue.window.length else w.queue.window.length + 1 :=
    length_window_push sim fitsW taken
  have kept_iff : (w.next (.push vm)).Lossless ↔ ¬ w.queue.full = true ∧ w.Lossless :=
    lossless_push_iff sim fitsW taken fits
  refine ⟨⟨_, sim.push fitsW vm⟩, ?_, ?_, ⟨?_, fun _ => ?_⟩, ?_, fun kept => ?_, fun lost => ?_,
    fun some => ?_⟩
  · exact Nat.le_trans after (Nat.le_of_eq length.symm)
  · exact Nat.lt_of_le_of_lt (Nat.le_of_eq length) good
  · show (w.queue.push vm).1.stCountOfLostMessages.toNat ≤ (w.pushed ++ [vm]).length
    rw [count, length]
    exact Nat.le_succ_of_le counts.1
  · show (w.queue.push vm).1.stCountOfLostMessages.toNat < (w.pushed ++ [vm]).length
    rw [count, length]
    exact Nat.lt_succ_of_le counts.1
  · show w.returned.length + (w.queue.push vm).1.window.length ≤ (w.pushed ++ [vm]).length
    rw [lengths, length]
    split <;> omega
  · obtain ⟨room, kept⟩ := kept_iff.mp kept
    show (w.queue.push vm).1.stCountOfLostMessages = 0 ∧
      (w.queue.push vm).1.gap ≤ (w.queue.push vm).1.sizeOfMessageQueue.toNat
    rw [count, gap, size]
    exact ⟨(lossless kept).1, Nat.lt_of_not_le fun le => room (full_iff.mpr le)⟩
  · have lost : ¬ (¬ w.queue.full = true ∧ w.Lossless) := fun both => lost (kept_iff.mpr both)
    show w.returned.length + (w.queue.push vm).1.window.length < (w.pushed ++ [vm]).length ∧
      ((w.queue.push vm).1.stCountOfLostMessages ≠ 0 ∨ (w.queue.push vm).1.lostStrategy = _ ∧
        (w.queue.push vm).1.sizeOfMessageQueue.toNat < (w.queue.push vm).1.gap)
    rw [length, lengths, count, strategy, size, gap]
    by_cases full : w.queue.full = true
    · rw [if_pos full]
      refine ⟨Nat.lt_succ_of_le fits, .inr ⟨?_, Nat.lt_succ_of_le (full_iff.mp full)⟩⟩
      cases kind : w.queue.lostStrategy with
      | lostNewData => exact absurd ⟨kind, full⟩ taken
      | lostOldData => rfl
    · obtain ⟨fewer, missing⟩ := lossy fun kept => lost ⟨full, kept⟩
      rw [if_neg full]
      refine ⟨by omega, .inl (missing.resolve_right fun behind => ?_)⟩
      exact full (full_iff.mpr (Nat.le_of_lt behind.2))
  · show (w.queue.push vm).1.stCountOfLostMessages ≠ 0
    rw [count]
    exact topped some

/-- **A push** keeps the invariant. -/
theorem Counted.push (counted : Counted w) (vm : Option α) (good : w.pushed.length + 1 < 2 ^ 64) :
    Counted (w.next (.push vm)) := by
  by_cases refused : w.queue.lostStrategy = .lostNewData ∧ w.queue.full = true
  · exact counted.refused vm good refused
  · exact counted.taken vm good refused

section Top

variable {m : MQMutex α}

theorem lossless_top_iff (sim : Sim w.queue m) : (w.next .top).Lossless ↔ w.Lossless := by
  show (w.next .top).returned ++ w.queue.top.1.window = w.pushed ↔ _
  have moves : (w.next .top).returned ++ w.queue.top.1.window = w.returned ++ w.queue.window :=
    top_moves sim w.returned
  rw [moves]
  exact Iff.rfl

theorem length_top (sim : Sim w.queue m) :
    (w.next .top).returned.length + w.queue.top.1.window.length =
      w.returned.length + w.queue.window.length := by
  have total := congrArg List.length (top_moves sim w.returned)
  rw [List.length_append, List.length_append] at total
  exact total

end Top

/-- A `top` that counts comes after a loss, unless the ring is exactly full. -/
theorem Counted.overrun (counted : Counted w) (right : ¬ w.Brimful)
    (overrun : w.queue.lostStrategy = .lostOldData ∧ w.queue.full = true) :
    Counted (w.next .top) := by
  obtain ⟨⟨m, sim⟩, written, bound, counts, fits, lossless, lossy, topped⟩ := counted
  obtain ⟨gap, strategy, size⟩ := top_gap sim
  have count := top_count sim
  have positive := sim.positive
  have full := w.queue.full_iff.mp overrun.2
  have lengths := length_top sim
  have lost : ¬ w.Lossless := fun kept =>
    right ⟨overrun.1, Nat.le_antisymm (lossless kept).2 full, kept⟩
  have fewer := counts.2 full
  obtain ⟨next, some⟩ := succ_ne_zero (n := w.queue.stCountOfLostMessages) (by omega)
  rw [if_pos overrun] at count
  rw [MQAtomic.readable, if_pos overrun] at gap
  have counting : w.queue.top.1.stCountOfLostMessages ≠ 0 := by
    rw [count]
    exact some
  refine ⟨⟨_, sim.top.1⟩, ?_, bound, ⟨?_, fun full => ?_⟩, Nat.le_trans (Nat.le_of_eq lengths) fits,
    fun kept => absurd ((lossless_top_iff sim).mp kept) lost,
    fun _ => ⟨Nat.lt_of_le_of_lt (Nat.le_of_eq lengths) (lossy lost).1, .inl counting⟩,
    fun _ => counting⟩
  · show w.queue.top.1.wpos.toNat ≤ _
    rw [top_wpos]
    exact written
  · show w.queue.top.1.stCountOfLostMessages.toNat ≤ _
    rw [count, next]
    exact fewer
  · have full : w.queue.top.1.sizeOfMessageQueue.toNat ≤ w.queue.top.1.gap := full
    rw [size, gap] at full
    omega

/-- A `top` that does not count: what was lost has been counted before. -/
theorem Counted.within (counted : Counted w)
    (inside : ¬ (w.queue.lostStrategy = .lostOldData ∧ w.queue.full = true)) :
    Counted (w.next .top) := by
  obtain ⟨⟨m, sim⟩, written, bound, counts, fits, lossless, lossy, topped⟩ := counted
  obtain ⟨gap, strategy, size⟩ := top_gap sim
  have count := top_count sim
  have kept_iff := lossless_top_iff sim
  have lengths := length_top sim
  rw [if_neg inside] at count
  rw [MQAtomic.readable, if_neg inside] at gap
  have counted_lost : ¬ w.Lossless → w.queue.stCountOfLostMessages ≠ 0 := fun lost =>
    (lossy lost).2.resolve_right fun behind =>
      inside ⟨behind.1, w.queue.full_iff.mpr (Nat.le_of_lt behind.2)⟩
  refine ⟨⟨_, sim.top.1⟩, ?_, bound, ⟨?_, fun full => ?_⟩, Nat.le_trans (Nat.le_of_eq lengths) fits,
    fun kept => ?_, fun lost => ⟨?_, .inl ?_⟩, fun some => ?_⟩
  · show w.queue.top.1.wpos.toNat ≤ _
    rw [top_wpos]
    exact written
  · show w.queue.top.1.stCountOfLostMessages.toNat ≤ _
    rw [count]
    exact counts.1
  · have full : w.queue.top.1.sizeOfMessageQueue.toNat ≤ w.queue.top.1.gap := full
    show w.queue.top.1.stCountOfLostMessages.toNat < _
    rw [size, gap] at full
    rw [count]
    exact counts.2 (by omega)
  · obtain ⟨zero, near⟩ := lossless (kept_iff.mp kept)
    show w.queue.top.1.stCountOfLostMessages = 0 ∧
      w.queue.top.1.gap ≤ w.queue.top.1.sizeOfMessageQueue.toNat
    rw [count, gap, size]
    exact ⟨zero, by omega⟩
  · exact Nat.lt_of_le_of_lt (Nat.le_of_eq lengths)
      (lossy fun kept => lost (kept_iff.mpr kept)).1
  · show w.queue.top.1.stCountOfLostMessages ≠ 0
    rw [count]
    exact counted_lost fun kept => lost (kept_iff.mpr kept)
  · show w.queue.top.1.stCountOfLostMessages ≠ 0
    rw [count]
    obtain old | lost := Bool.or_eq_true_iff.mp some
    · exact topped old
    · exact counted_lost (by simpa using lost)

/-- **A `top`** that does not find the ring exactly full keeps the invariant. -/
theorem Counted.top (counted : Counted w) (right : ¬ w.Brimful) : Counted (w.next .top) := by
  by_cases overrun : w.queue.lostStrategy = .lostOldData ∧ w.queue.full = true
  · exact counted.overrun right overrun
  · exact counted.within overrun

/-- **A `top` that finds the ring exactly full**, with nothing lost, counts a loss. -/
theorem Counted.brimful (counted : Counted w) (brimful : w.Brimful) : ¬ (w.next .top).Law := by
  obtain ⟨⟨m, sim⟩, -, -, -, -, lossless, -, -⟩ := counted
  obtain ⟨old, whole, kept⟩ := brimful
  have full : w.queue.full = true := w.queue.full_iff.mpr (Nat.le_of_eq whole.symm)
  have count := top_count sim
  rw [if_pos ⟨old, full⟩, (lossless kept).1] at count
  intro law
  have after : (w.next .top).Lossless := by
    have moves : (w.next .top).returned ++ w.queue.top.1.window = w.returned ++ w.queue.window :=
      top_moves sim w.returned
    exact moves.trans kept
  have zero : w.queue.top.1.stCountOfLostMessages = 0 := law.1 after
  rw [count] at zero
  exact absurd zero (by decide)

/-- The number of messages pushed in a history. -/
theorem always_few {ops : List (Op α)} (few : w.pushed.length + pushes ops < 2 ^ 64) :
    accounts.Always (fun w => w.pushed.length < 2 ^ 64) w ops := by
  induction ops generalizing w with
  | nil => exact few
  | cons op rest ih =>
    refine ⟨Nat.lt_of_le_of_lt (Nat.le_add_right _ _) few, fun t moved => ?_⟩
    cases moved
    cases op with
    | push vm =>
      refine ih ?_
      unfold pushes at few
      show (w.pushed ++ [vm]).length + pushes rest < 2 ^ 64
      rw [List.length_append, List.length_singleton]
      omega
    | top => exact ih few
    | size => exact ih few
    | empty => exact ih few

end Invariant

/-! ### The result -/

/-- **When the counter of lost messages is right.** For every capacity and strategy, and every history
without a wrap of the counters: it is `0` as long as every message has been or can be returned, and not
`0` once one was lost and `top` was called since, exactly if no `top` under `lostOldData` finds the ring
exactly full while nothing is lost. -/
theorem loss_counter_iff [DecidableEq α] {qsize : UInt64} (positive : 1 ≤ qsize)
    (strategy : LostStrategy) {ops : List (Op α)} (few : pushes ops < 2 ^ 64) :
    accounts.Always Account.Law (.new qsize strategy) ops ↔
      accounts.Meets Account.CountsRight (.new qsize strategy) ops := by
  have bound : (Account.new qsize strategy : Account α).pushed.length + pushes ops < 2 ^ 64 := by
    rw [show (Account.new qsize strategy : Account α).pushed.length = 0 from rfl, Nat.zero_add]
    exact few
  refine Lib.Machine.always_iff_meets_within (fun w counted => Counted.law counted)
    (fun w op t counted right moved good => ?_) (fun w op counted wrong => ?_) (always_few bound)
    (counted_new positive strategy)
  · cases moved
    cases op with
    | push vm =>
      refine counted.push vm ?_
      have good : (w.pushed ++ [vm]).length < 2 ^ 64 := good
      rwa [List.length_append] at good
    | top => exact counted.top right
    | size => exact counted
    | empty => exact counted
  · refine ⟨w.next op, rfl, ?_⟩
    cases op with
    | push vm => exact absurd trivial wrong
    | top => exact counted.brimful (Decidable.not_not.mp wrong)
    | size => exact absurd trivial wrong
    | empty => exact absurd trivial wrong

/-- A ring of two places that is overrun by one message. -/
theorem overrun_counted :
    accounts.Always Account.Law (.new 2 .lostOldData)
      [.push (some 1), .push (some 2), .push (some 3), .top, .top] :=
  (loss_counter_iff (by decide) .lostOldData (by decide)).mpr (by decide +kernel)

/-- **A ring of two places with two messages**: none is lost, and the first `top` counts one. -/
theorem full_ring_counted :
    ((accounts.run (.new 2 .lostOldData) [.push (some 1), .push (some 2), .top, .top]).map fun w =>
      (w.returned, w.queue.stCountOfLostMessages)) = some ([some 1, some 2], 1) ∧
    ¬ ∀ (qsize : UInt64) (strategy : LostStrategy) (ops : List (Op Nat)), 1 ≤ qsize →
      pushes ops < 2 ^ 64 → accounts.Always Account.Law (.new qsize strategy) ops := by
  refine ⟨by decide +kernel, fun all => ?_⟩
  have law := all 2 .lostOldData [.push (some 1), .push (some 2), .top] (by decide) (by decide)
  have last := (((law.2 _ rfl).2 _ rfl).2 _ rfl).1
  exact absurd last (by decide +kernel)

end UniSet.Various

/-
**`MQAtomic` past the maximum of its counters.**

The counters of the ring are residues modulo `2^64`, and the place of a position is its residue modulo
the size of the ring. Where the size does not divide `2^64` the places jump when the counters pass the
maximum: by the rest of the division. A writer can then meet a message that is not read yet, and the
comparison of two places can see a full ring where there is room.

* `back` — the position a number of steps behind another one, past the maximum too.
* `Collides`, `Misjudges` — the states in which the jump does harm; `Keeps` — the steps that avoid them.
* `Alike` — two queues with the same pending messages, at any positions.
* **`wrap_transparent`** — a history whose steps keep the pending messages gets the same replies from any
  starting position; `keeps_of_dvd`: with a size that divides `2^64` all do, `keeps_before_wrap`: and as
  long as the counters do not pass the maximum.
-/

import UniSet.Various.MessageQueue

namespace UniSet.Various

variable {α : Type}

/-! ### Positions -/

/-- `2^64`, the number of positions. -/
def positions : Nat := 0x10000000000000000

/-- The position `j` steps behind `w`. -/
def back (w j : Nat) : Nat := if j ≤ w then w - j else positions + w - j

namespace MQAtomic

variable (q : MQAtomic α)

/-- `set_wpos` and `set_rpos`: the queue with all counters at one position. -/
def startAt (p : UInt64) : MQAtomic α := { q with wpos := p, qpos := p, rpos := p }

/-- The distance of the counters. -/
def gap : Nat := (q.wpos - q.rpos).toNat

/-- The jump of the places at the maximum. -/
def jump : Nat := positions % q.sizeOfMessageQueue.toNat

/-- **The next place is taken**: the message that was written `jump` positions before, ahead of the
maximum, is not read yet. -/
def Collides : Prop := q.wpos.toNat < q.jump ∧ q.jump ≤ q.gap

/-- **The places mislead**: the counters are on both sides of the maximum, the ring has room, and the
difference of the places underflows. -/
def Misjudges : Prop :=
  q.wpos < q.rpos ∧ q.gap < q.sizeOfMessageQueue.toNat ∧
    q.rpos.toNat % q.sizeOfMessageQueue.toNat < q.wpos.toNat % q.sizeOfMessageQueue.toNat

instance : Decidable q.Collides := inferInstanceAs (Decidable (_ ∧ _))

instance : Decidable q.Misjudges := inferInstanceAs (Decidable (_ ∧ _))

/-- **The steps that keep the pending messages.** -/
def Keeps : Op α → Prop
  | .push _ =>
    q.lostStrategy = .lostNewData ∧ q.full = true ∨
      ¬ q.Collides ∧ (q.lostStrategy = .lostNewData → ¬ q.Misjudges)
  | .top => q.lostStrategy = .lostOldData → ¬ q.Misjudges
  | .size => True
  | .empty => True

instance : ∀ op, Decidable (q.Keeps op)
  | .push _ => inferInstanceAs (Decidable (_ ∨ _))
  | .top => inferInstanceAs (Decidable (_ → _))
  | .size => inferInstanceAs (Decidable True)
  | .empty => inferInstanceAs (Decidable True)

/-- What a call answers, and whether a push was accepted. -/
def reply (op : Op α) : Answer α × Bool :=
  ((q.call op).2, match op with
    | .push vm => (q.push vm).2
    | _ => true)

end MQAtomic

/-- The replies to the calls of a history. -/
def replies (q : MQAtomic α) : List (Op α) → List (Answer α × Bool)
  | [] => []
  | op :: rest => q.reply op :: replies (q.call op).1 rest

/-- The queue, call by call. -/
def queues : Lib.Machine (MQAtomic α) (Op α) where
  start q := 1 ≤ q.sizeOfMessageQueue.toNat ∧ q.mqueue.length = q.sizeOfMessageQueue.toNat
  step q op := some (q.call op).1

/-! ### Arithmetic of positions -/

section Positions

variable {q : MQAtomic α}

theorem MQAtomic.gap_lt (q : MQAtomic α) : q.gap < positions := (q.wpos - q.rpos).toNat_lt

theorem MQAtomic.rpos_eq (q : MQAtomic α) : q.rpos.toNat = back q.wpos.toNat q.gap := by
  unfold gap back positions
  rw [UInt64.toNat_sub]
  have := q.wpos.toNat_lt
  have := q.rpos.toNat_lt
  split <;> omega

theorem back_succ {w : UInt64} {j : Nat} (few : j < positions) :
    back (w + 1).toNat (j + 1) = back w.toNat j := by
  unfold back positions at *
  rw [UInt64.toNat_add, UInt64.toNat_one]
  have := w.toNat_lt
  split <;> split <;> omega

/-- **Two positions of one place.** Less than a ring apart they are the same, or the maximum is between
them and they are the jump apart. -/
theorem back_place {n w j : Nat} (some : 0 < j) (near : j < n) (size : n ≤ positions)
    (same : back w j % n = w % n) : w < j ∧ positions % n = j := by
  unfold back at same
  split at same
  · rename_i below
    exact absurd same.symm (place_ne (by omega) (by omega))
  · rename_i beyond
    refine ⟨Nat.lt_of_not_le beyond, ?_⟩
    have ahead : w ≤ positions + w - j := by omega
    have divides : n ∣ positions + w - j - w := (Nat.modEq_iff_dvd' ahead).mp same.symm
    have apart : positions + w - j - w = positions - j := by omega
    rw [apart] at divides
    have near' : positions % n = j % n :=
      ((Nat.modEq_iff_dvd' (Nat.le_trans (Nat.le_of_lt near) size)).mpr divides).symm
    rw [near', Nat.mod_eq_of_lt near]

theorem MQAtomic.full_iff (q : MQAtomic α) : q.full = true ↔ q.sizeOfMessageQueue.toNat ≤ q.gap := by
  rw [full, decide_eq_true_iff, UInt64.le_iff_toNat_le]
  rfl

end Positions

/-! ### The steps -/

section Steps

variable {q a b : MQAtomic α}

/-- A queue as the calls leave it. -/
structure MQAtomic.Formed (q : MQAtomic α) : Prop where
  positive : 1 ≤ q.sizeOfMessageQueue.toNat
  slots : q.mqueue.length = q.sizeOfMessageQueue.toNat
  published : q.qpos = q.wpos
  refused : q.lostStrategy = .lostNewData → q.gap ≤ q.sizeOfMessageQueue.toNat

/-- The message `j` positions behind the writers. -/
def MQAtomic.behind (q : MQAtomic α) (j : Nat) : Option α := q.held (back q.wpos.toNat j)

theorem pull_gap (q : MQAtomic α) : (q.pull q.wpos).gap = q.sizeOfMessageQueue.toNat := by
  show (q.wpos - (q.wpos - q.sizeOfMessageQueue)).toNat = _
  have := q.wpos.toNat_lt
  have := q.sizeOfMessageQueue.toNat_lt
  rw [UInt64.toNat_sub, UInt64.toNat_sub]
  omega

/-- The gap that `top` reads with. -/
def MQAtomic.readable (q : MQAtomic α) : Nat :=
  if q.lostStrategy = .lostOldData ∧ q.full = true then q.sizeOfMessageQueue.toNat else q.gap

/-- **What `top` does**: the oldest pending message, and the gap closes by one. -/
structure Topped (q : MQAtomic α) (n : Nat) (r : MQAtomic α × Option α) : Prop where
  ring : r.1.mqueue = q.mqueue
  wpos : r.1.wpos = q.wpos
  qpos : r.1.qpos = q.qpos
  strategy : r.1.lostStrategy = q.lostStrategy
  size : r.1.sizeOfMessageQueue = q.sizeOfMessageQueue
  gap : r.1.gap = n - 1
  message : r.2 = if n = 0 then none else q.behind n

theorem Topped.formed {n : Nat} {r : MQAtomic α × Option α} (topped : Topped q n r)
    (formed : q.Formed) (few : n ≤ q.sizeOfMessageQueue.toNat) : r.1.Formed := by
  refine ⟨by rw [topped.size]; exact formed.positive, ?_, ?_, fun _ => ?_⟩
  · rw [topped.ring, topped.size]
    exact formed.slots
  · rw [topped.qpos, topped.wpos, formed.published]
  · rw [topped.gap, topped.size]
    exact Nat.le_trans (Nat.sub_le _ _) few

theorem Topped.behind {n : Nat} {r : MQAtomic α × Option α} (topped : Topped q n r) (j : Nat) :
    r.1.behind j = q.behind j := by
  unfold MQAtomic.behind MQAtomic.held
  rw [topped.ring, topped.wpos, topped.size]

theorem topped_take (some : q.gap ≠ 0) : Topped q q.gap q.take := by
  refine ⟨rfl, rfl, rfl, rfl, rfl, ?_, ?_⟩
  · show (q.wpos - (q.rpos + 1)).toNat = q.gap - 1
    unfold MQAtomic.gap at some ⊢
    have := q.wpos.toNat_lt
    have := q.rpos.toNat_lt
    rw [UInt64.toNat_sub] at some ⊢
    rw [UInt64.toNat_sub, UInt64.toNat_add, UInt64.toNat_one]
    omega
  · rw [if_neg some]
    unfold MQAtomic.behind
    rw [← q.rpos_eq]
    rfl

/-- Two counters are equal exactly if there is no gap. -/
theorem gap_eq_zero (q : MQAtomic α) : q.gap = 0 ↔ q.rpos = q.wpos := by
  unfold MQAtomic.gap
  have := q.wpos.toNat_lt
  have := q.rpos.toNat_lt
  rw [UInt64.toNat_sub, ← UInt64.toNat_inj]
  omega

/-- A difference of places that reaches the size has underflown. -/
theorem place_lt {n r w : UInt64} (positive : 1 ≤ n.toNat) (large : n ≤ r % n - w % n) :
    r.toNat % n.toNat < w.toNat % n.toNat := by
  rw [UInt64.le_iff_toNat_le, UInt64.toNat_sub, UInt64.toNat_mod, UInt64.toNat_mod] at large
  have place := Nat.mod_lt r.toNat positive
  have place' := Nat.mod_lt w.toNat positive
  have := n.toNat_lt
  omega

/-- **The read of `top`**: in either order of the counters it is the read at the read position. -/
theorem topped_read (formed : q.Formed) (inside : q.gap ≤ q.sizeOfMessageQueue.toNat)
    (sound : q.lostStrategy = .lostOldData → ¬ q.Misjudges) :
    Topped q q.gap (if q.rpos = q.qpos then (q, none) else if q.rpos < q.qpos then q.take
      else (if q.lostStrategy = .lostOldData ∧ q.behindWrapped then q.pull q.qpos else q).take) := by
  rw [formed.published]
  split
  · rename_i same
    have none := (gap_eq_zero q).mpr same
    refine ⟨rfl, rfl, rfl, rfl, rfl, ?_, ?_⟩
    · rw [none]
    · rw [if_pos none]
  · rename_i apart
    have some : q.gap ≠ 0 := fun none => apart ((gap_eq_zero q).mp none)
    split
    · exact topped_take some
    · rename_i beyond
      split
      · rename_i pulls
        have ahead : q.wpos < q.rpos := by
          rw [UInt64.lt_iff_toNat_lt] at beyond ⊢
          rw [← UInt64.toNat_inj] at apart
          omega
        have judged := sound pulls.1
        -- the comparison of the places is false but for a full ring, whose reader is where it should be
        have whole : q.gap = q.sizeOfMessageQueue.toNat := by
          refine Nat.le_antisymm inside (Nat.le_of_not_lt fun room => judged ⟨ahead, room, ?_⟩)
          have large := pulls.2
          rw [MQAtomic.behindWrapped, decide_eq_true_iff, formed.published] at large
          exact place_lt formed.positive large
        have kept : q.pull q.wpos = { q.countLost with rpos := q.rpos } := by
          have same : q.wpos - q.sizeOfMessageQueue = q.rpos := by
            unfold MQAtomic.gap at whole
            have := q.wpos.toNat_lt
            have := q.rpos.toNat_lt
            rw [UInt64.toNat_sub] at whole
            rw [← UInt64.toNat_inj, UInt64.toNat_sub]
            omega
          unfold MQAtomic.pull
          rw [same]
        have read : Topped q q.gap q.take := topped_take some
        rw [kept]
        exact ⟨read.ring, read.wpos, read.qpos, read.strategy, read.size, read.gap, read.message⟩
      · exact topped_take some

/-- **What `top` does** to a queue that is not misjudged. -/
theorem topped_top (formed : q.Formed) (sound : q.lostStrategy = .lostOldData → ¬ q.Misjudges) :
    Topped q q.readable q.top := by
  unfold MQAtomic.top MQAtomic.readable
  dsimp only
  by_cases overrun : q.lostStrategy = .lostOldData ∧ q.full = true
  · rw [if_pos overrun, if_pos overrun]
    have gap := pull_gap q
    have pulled : (q.pull q.wpos).Formed :=
      ⟨formed.positive, formed.slots, formed.published, fun _ => Nat.le_of_eq gap⟩
    have read := topped_read pulled (Nat.le_of_eq gap) fun _ misjudged =>
      absurd misjudged.2.1 (Nat.not_lt_of_le (Nat.le_of_eq gap.symm))
    rw [gap] at read
    exact ⟨read.ring, read.wpos, read.qpos, read.strategy, read.size, read.gap, read.message⟩
  · rw [if_neg overrun, if_neg overrun]
    refine topped_read formed ?_ sound
    cases strategy : q.lostStrategy with
    | lostNewData => exact formed.refused strategy
    | lostOldData =>
      refine Nat.le_of_not_le fun full => overrun ⟨strategy, q.full_iff.mpr full⟩

/-- **A push that is accepted.** -/
structure Pushed (q : MQAtomic α) (vm : Option α) (r : MQAtomic α × Bool) : Prop where
  accepted : r.2 = true
  slots : r.1.mqueue.length = q.mqueue.length
  wpos : r.1.wpos = q.wpos + 1
  qpos : r.1.qpos = q.qpos + 1
  rpos : r.1.rpos = q.rpos
  strategy : r.1.lostStrategy = q.lostStrategy
  size : r.1.sizeOfMessageQueue = q.sizeOfMessageQueue
  held : ∀ i, r.1.held i = if q.wpos.toNat % q.sizeOfMessageQueue.toNat =
    i % q.sizeOfMessageQueue.toNat then vm else q.held i

theorem push_full (vm : Option α) (full : q.lostStrategy = .lostNewData ∧ q.full = true) :
    q.push vm = (q.countLost, false) := if_pos full

theorem pushed_push (formed : q.Formed) (vm : Option α)
    (room : ¬ (q.lostStrategy = .lostNewData ∧ q.full = true))
    (sound : q.lostStrategy = .lostNewData → ¬ q.Misjudges) : Pushed q vm (q.push vm) := by
  have unwrapped : ¬ (q.lostStrategy = .lostNewData ∧ q.fullWrapped = true) := by
    rintro ⟨strategy, wrapped⟩
    rw [MQAtomic.fullWrapped, Bool.and_eq_true, decide_eq_true_iff, decide_eq_true_iff] at wrapped
    refine sound strategy ⟨wrapped.1, Nat.lt_of_not_le fun full => ?_, place_lt formed.positive wrapped.2⟩
    exact room ⟨strategy, q.full_iff.mpr full⟩
  have taken : q.push vm = ((q.reserve.store q.wpos vm).publish.statistics, true) :=
    (if_neg room).trans (if_neg unwrapped)
  rw [taken]
  refine ⟨rfl, List.length_set, rfl, rfl, rfl, rfl, rfl, ?_⟩
  exact MQAtomic.held_store formed.positive formed.slots q.wpos vm

variable {r : MQAtomic α × Bool}

theorem Pushed.gap {vm : Option α} (pushed : Pushed q vm r) :
    r.1.gap = (q.gap + 1) % positions := by
  unfold MQAtomic.gap positions
  rw [pushed.wpos, pushed.rpos]
  have := q.wpos.toNat_lt
  have := q.rpos.toNat_lt
  rw [UInt64.toNat_sub, UInt64.toNat_add, UInt64.toNat_one, UInt64.toNat_sub]
  omega

theorem Pushed.formed {vm : Option α} (pushed : Pushed q vm r) (formed : q.Formed)
    (room : ¬ (q.lostStrategy = .lostNewData ∧ q.full = true)) : r.1.Formed := by
  refine ⟨by rw [pushed.size]; exact formed.positive, ?_, ?_, fun new => ?_⟩
  · rw [pushed.slots, pushed.size]
    exact formed.slots
  · rw [pushed.qpos, pushed.wpos, formed.published]
  · rw [pushed.strategy] at new
    have few : ¬ q.sizeOfMessageQueue.toNat ≤ q.gap := fun le => room ⟨new, q.full_iff.mpr le⟩
    rw [pushed.gap, pushed.size]
    exact Nat.le_trans (Nat.mod_le _ _) (by omega)

/-- **The messages after a push** that does not collide: the new one, and those that were pending. -/
theorem Pushed.behind {vm : Option α} (pushed : Pushed q vm r) (apart : ¬ q.Collides) {j : Nat}
    (pending : j ≤ q.gap) (near : j < q.sizeOfMessageQueue.toNat) :
    r.1.behind (j + 1) = if j = 0 then vm else q.behind j := by
  unfold MQAtomic.behind
  have few : j < positions := Nat.lt_of_le_of_lt pending q.gap_lt
  rw [pushed.wpos, back_succ few, pushed.held]
  by_cases newest : j = 0
  · rw [if_pos newest, newest]
    exact if_pos rfl
  · rw [if_neg newest]
    refine if_neg fun same => apart ?_
    obtain ⟨behind, jump⟩ := back_place (Nat.pos_of_ne_zero newest) near
      (Nat.le_of_lt q.sizeOfMessageQueue.toNat_lt) same.symm
    unfold MQAtomic.Collides MQAtomic.jump
    rw [jump]
    exact ⟨behind, pending⟩

/-! ### Two queues -/

/-- **Two queues with the same pending messages**, at any positions. -/
structure Alike (a b : MQAtomic α) : Prop where
  left : a.Formed
  right : b.Formed
  size : b.sizeOfMessageQueue = a.sizeOfMessageQueue
  strategy : b.lostStrategy = a.lostStrategy
  gap : b.gap = a.gap
  pending : ∀ j, 0 < j → j ≤ a.gap → j ≤ a.sizeOfMessageQueue.toNat → b.behind j = a.behind j

theorem Alike.full (alike : Alike a b) : b.full = a.full := by
  rw [Bool.eq_iff_iff, b.full_iff, a.full_iff, alike.gap, alike.size]

/-- **A push** that is judged alike. -/
theorem Alike.push (alike : Alike a b) (vm : Option α) (keepsA : a.Keeps (.push vm))
    (keepsB : b.Keeps (.push vm)) :
    Alike (a.push vm).1 (b.push vm).1 ∧ (a.push vm).2 = (b.push vm).2 := by
  by_cases full : a.lostStrategy = .lostNewData ∧ a.full = true
  · have fullB : b.lostStrategy = .lostNewData ∧ b.full = true := by
      rw [alike.strategy, alike.full]
      exact full
    rw [push_full vm full, push_full vm fullB]
    obtain ⟨left, right, size, strategy, gap, pending⟩ := alike
    exact ⟨⟨⟨left.positive, left.slots, left.published, left.refused⟩,
      ⟨right.positive, right.slots, right.published, right.refused⟩, size, strategy, gap, pending⟩, rfl⟩
  · have roomB : ¬ (b.lostStrategy = .lostNewData ∧ b.full = true) := by
      rw [alike.strategy, alike.full]
      exact full
    obtain ⟨apartA, soundA⟩ := keepsA.resolve_left full
    obtain ⟨apartB, soundB⟩ := keepsB.resolve_left roomB
    have pushedA := pushed_push alike.left vm full soundA
    have pushedB := pushed_push alike.right vm roomB soundB
    refine ⟨⟨pushedA.formed alike.left full, pushedB.formed alike.right roomB, ?_, ?_, ?_, ?_⟩, ?_⟩
    · rw [pushedA.size, pushedB.size, alike.size]
    · rw [pushedA.strategy, pushedB.strategy, alike.strategy]
    · rw [pushedA.gap, pushedB.gap, alike.gap]
    · intro j some pending near
      obtain ⟨j, rfl⟩ := Nat.exists_eq_add_of_lt some
      rw [Nat.zero_add] at *
      rw [pushedA.gap] at pending
      rw [pushedA.size] at near
      have before : j ≤ a.gap := by
        have := Nat.mod_le (a.gap + 1) positions
        omega
      rw [pushedA.behind apartA before near,
        pushedB.behind apartB (by rw [alike.gap]; exact before)
          (by rw [alike.size]; exact near)]
      split
      · rfl
      · rename_i older
        exact alike.pending j (Nat.pos_of_ne_zero older) before (Nat.le_of_lt near)
    · rw [pushedA.accepted, pushedB.accepted]

/-- **A `top`** that is judged alike. -/
theorem Alike.top (alike : Alike a b) (keepsA : a.Keeps .top) (keepsB : b.Keeps .top) :
    Alike a.top.1 b.top.1 ∧ a.top.2 = b.top.2 := by
  have toppedA := topped_top alike.left keepsA
  have toppedB := topped_top alike.right keepsB
  have same : b.readable = a.readable := by
    unfold MQAtomic.readable
    rw [alike.strategy, alike.full, alike.size, alike.gap]
  have bound : a.readable ≤ a.gap ∧ a.readable ≤ a.sizeOfMessageQueue.toNat := by
    unfold MQAtomic.readable
    split
    · rename_i overrun
      exact ⟨a.full_iff.mp overrun.2, Nat.le_refl _⟩
    · rename_i room
      refine ⟨Nat.le_refl _, ?_⟩
      cases strategy : a.lostStrategy with
      | lostNewData => exact alike.left.refused strategy
      | lostOldData => exact Nat.le_of_not_le fun full => room ⟨strategy, a.full_iff.mpr full⟩
  rw [same] at toppedB
  refine ⟨⟨toppedA.formed alike.left bound.2, toppedB.formed alike.right ?_, ?_, ?_, ?_, ?_⟩, ?_⟩
  · rw [alike.size]
    exact bound.2
  · rw [toppedA.size, toppedB.size, alike.size]
  · rw [toppedA.strategy, toppedB.strategy, alike.strategy]
  · rw [toppedA.gap, toppedB.gap]
  · intro j some pending near
    rw [toppedA.gap] at pending
    rw [toppedA.size] at near
    rw [toppedA.behind, toppedB.behind]
    exact alike.pending j some (by omega) near
  · rw [toppedA.message, toppedB.message]
    split
    · rfl
    · rename_i some
      exact (alike.pending _ (Nat.pos_of_ne_zero some) bound.1 bound.2).symm

/-- **A call** that is judged alike. -/
theorem Alike.call (alike : Alike a b) (op : Op α) (keepsA : a.Keeps op) (keepsB : b.Keeps op) :
    Alike (a.call op).1 (b.call op).1 ∧ a.reply op = b.reply op := by
  have distance : b.qpos - b.rpos = a.qpos - a.rpos := by
    rw [alike.left.published, alike.right.published]
    exact UInt64.toNat_inj.mp alike.gap
  cases op with
  | push vm =>
    obtain ⟨after, accepted⟩ := alike.push vm keepsA keepsB
    refine ⟨after, ?_⟩
    show (Answer.pushed, (a.push vm).2) = (Answer.pushed, (b.push vm).2)
    rw [accepted]
  | top =>
    obtain ⟨after, message⟩ := alike.top keepsA keepsB
    refine ⟨after, ?_⟩
    show (Answer.message a.top.2, true) = (Answer.message b.top.2, true)
    rw [message]
  | size =>
    refine ⟨alike, ?_⟩
    show (Answer.size a.size, true) = (Answer.size b.size, true)
    unfold MQAtomic.size
    rw [alike.full, alike.size, distance]
  | empty =>
    refine ⟨alike, ?_⟩
    have same : b.empty = a.empty := by
      unfold MQAtomic.empty
      rw [Bool.eq_iff_iff, beq_iff_eq, beq_iff_eq, eq_comm, alike.right.published, ← gap_eq_zero,
        alike.gap, gap_eq_zero, alike.left.published, eq_comm]
    show (Answer.empty a.empty, true) = (Answer.empty b.empty, true)
    rw [same]

/-- **A history** that is judged alike. -/
theorem Alike.replies (alike : Alike a b) {ops : List (Op α)}
    (keepsA : queues.Meets MQAtomic.Keeps a ops) (keepsB : queues.Meets MQAtomic.Keeps b ops) :
    replies a ops = replies b ops := by
  induction ops generalizing a b with
  | nil => rfl
  | cons op rest ih =>
    obtain ⟨after, same⟩ := alike.call op keepsA.1 keepsB.1
    unfold Various.replies
    rw [same, ih after (keepsA.2 _ rfl) (keepsB.2 _ rfl)]

theorem formed_startAt {n : UInt64} (positive : 1 ≤ n) (strategy : LostStrategy) (p : UInt64) :
    ((MQAtomic.new n strategy : MQAtomic α).startAt p).Formed := by
  refine ⟨UInt64.le_iff_toNat_le.mp positive, List.length_replicate, rfl, fun _ => ?_⟩
  have none : ((MQAtomic.new n strategy : MQAtomic α).startAt p).gap = 0 := (gap_eq_zero _).mpr rfl
  rw [none]
  exact Nat.zero_le _

theorem alike_startAt {n : UInt64} (positive : 1 ≤ n) (strategy : LostStrategy) (p p' : UInt64) :
    Alike ((MQAtomic.new n strategy : MQAtomic α).startAt p) ((MQAtomic.new n strategy).startAt p') := by
  have none : ∀ p, ((MQAtomic.new n strategy : MQAtomic α).startAt p).gap = 0 :=
    fun p => (gap_eq_zero _).mpr rfl
  refine ⟨formed_startAt positive strategy p, formed_startAt positive strategy p', rfl, rfl, ?_, ?_⟩
  · rw [none, none]
  · intro j some pending
    rw [none] at pending
    omega

/-! ### Where nothing goes wrong -/

/-- A size that divides the number of positions has no jump, and no comparison misleads. -/
theorem keeps_of_dvd (divides : q.sizeOfMessageQueue.toNat ∣ positions) (op : Op α) :
    q.Keeps op := by
  have apart : ¬ q.Collides := by
    unfold MQAtomic.Collides MQAtomic.jump
    rw [Nat.mod_eq_zero_of_dvd divides]
    exact fun both => Nat.not_lt_zero _ both.1
  have sound : ¬ q.Misjudges := by
    rintro ⟨ahead, room, less⟩
    have position := q.rpos_eq
    rw [UInt64.lt_iff_toNat_lt] at ahead
    unfold back at position
    split at position
    · omega
    · rename_i beyond
      obtain ⟨k, hk⟩ := divides
      -- the reader is in the last lap of the ring before the maximum
      have lap : positions = q.sizeOfMessageQueue.toNat * (k - 1) + q.sizeOfMessageQueue.toNat := by
        cases k with
        | zero =>
          rw [Nat.mul_zero] at hk
          exact absurd hk (by decide)
        | succ k => rw [hk, Nat.add_sub_cancel, Nat.mul_succ]
      have place : q.rpos.toNat = q.sizeOfMessageQueue.toNat * (k - 1) +
          (q.sizeOfMessageQueue.toNat + q.wpos.toNat - q.gap) := by omega
      rw [place, Nat.mul_add_mod, Nat.mod_eq_of_lt (by omega), Nat.mod_eq_of_lt (by omega)] at less
      omega
  cases op with
  | push vm => exact .inr ⟨apart, fun _ => sound⟩
  | top => exact fun _ => sound
  | size => trivial
  | empty => trivial

/-- Counters that have not passed the maximum keep the pending messages. -/
theorem keeps_of_le (before : q.rpos ≤ q.wpos) (op : Op α) : q.Keeps op := by
  have sound : ¬ q.Misjudges := fun both => UInt64.not_lt.mpr before both.1
  have apart : ¬ q.Collides := by
    rintro ⟨small, pending⟩
    unfold MQAtomic.gap at pending
    rw [UInt64.toNat_sub_of_le _ _ before] at pending
    omega
  cases op with
  | push vm => exact .inr ⟨apart, fun _ => sound⟩
  | top => exact fun _ => sound
  | size => trivial
  | empty => trivial

/-- **No history of fewer than `2^64` pushes goes wrong from the start.** -/
theorem keeps_before_wrap {m : MQMutex α} (sim : Sim a m) {ops : List (Op α)}
    (few : a.wpos.toNat + pushes ops < 2 ^ 64) : queues.Meets MQAtomic.Keeps a ops := by
  induction ops generalizing a m with
  | nil => trivial
  | cons op rest ih =>
    rw [pushes_cons] at few
    obtain ⟨after, -, wpos⟩ := sim.call op (by omega)
    refine ⟨keeps_of_le sim.inside op, fun t moved => ?_⟩
    cases moved
    exact ih after (by omega)

end Steps

/-! ### The result -/

/-- **The wrap is transparent** where it keeps the pending messages. For every size of the ring, every
strategy and every starting position: a history whose steps, from that position and from `0`, all keep
the pending messages gets the same replies from both; no message is lost, returned twice or out of turn,
and no push is refused that would be accepted from `0`. -/
theorem wrap_transparent {n : UInt64} (positive : 1 ≤ n) (strategy : LostStrategy) (p : UInt64)
    {ops : List (Op α)}
    (keeps : ∀ start ∈ [p, 0],
      queues.Meets MQAtomic.Keeps ((MQAtomic.new n strategy).startAt start) ops) :
    replies ((MQAtomic.new n strategy).startAt p) ops =
      replies ((MQAtomic.new n strategy).startAt 0) ops :=
  (alike_startAt positive strategy p 0).replies (keeps p List.mem_cons_self)
    (keeps 0 (List.mem_cons_of_mem _ List.mem_cons_self))

/-- One message at a time. -/
def oneByOne : List (Op Nat) := [.push (some 1), .top, .push (some 2), .top, .push (some 3), .top]

theorem wrap_one_by_one :
    replies ((MQAtomic.new 3 .lostOldData).startAt 0xffffffffffffffff) oneByOne =
      replies ((MQAtomic.new 3 .lostOldData).startAt 0) oneByOne :=
  -- both starts one by one: not all positions are to be gone through
  wrap_transparent (by decide) .lostOldData 0xffffffffffffffff (List.forall_mem_cons.mpr
    ⟨by decide +kernel, List.forall_mem_singleton.mpr (by decide +kernel)⟩)

/-- **Three places are not enough for two messages** at the maximum: both positions have the place `0`,
and the second message is returned twice. -/
theorem message_lost_at_wrap :
    (replies ((MQAtomic.new 3 .lostNewData).startAt 0xffffffffffffffff)
        [.push (some 1), .push (some 2), .top, .top] =
      [(.pushed, true), (.pushed, true), (.message (some 2), true), (.message (some 2), true)]) ∧
    ¬ ∀ (n : UInt64) (strategy : LostStrategy) (p : UInt64) (ops : List (Op Nat)), 1 ≤ n →
      replies ((MQAtomic.new n strategy).startAt p) ops =
        replies ((MQAtomic.new n strategy).startAt 0) ops := by
  refine ⟨by decide +kernel, fun all => ?_⟩
  have same := all 3 .lostNewData 0xffffffffffffffff [.push (some 1), .push (some 2), .top] (by decide)
  exact absurd same (by decide +kernel)

end UniSet.Various

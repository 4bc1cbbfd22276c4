/-
**The read and the write position over the whole number space.**

`receive` compares differences modulo `2^64`, `update` compares the positions themselves. The two agree
as long as no accepted number lies across the end of the number space.

* `Placed` — the read position is not beyond the write position and not further behind than
  `cbufSize + maxDifferens`, so the loop of `update` ends within that many turns, and once a packet was
  accepted an update stops at the write position or at a hole whose time has not expired.
* `Straight` — the numbers for which the comparisons of `receive` are those of the numbers.
* **`placed_of_straight`** — every state reached by straight steps is placed; `wrap_stalls` is the wrap
  of the sender's counter, after which the receiver is not.
-/

import UniSet.UNet.Current

namespace UniSet.UNet

/-- **The positions are in order**, and updates run on. -/
structure Placed (c : Conf) (w : Reception) : Prop where
  inside : w.receiver.rnum ≤ w.receiver.wnum
  bounded : (w.receiver.wnum - w.receiver.rnum).toNat ≤ c.cbufSize.toNat + c.maxDifferens.toNat
  /-- The loop of `update` has ended after that many turns. -/
  turns : ∀ expired, Receiver.updateTurn c expired (Lib.loop (Receiver.updateTurn c expired)
    (c.cbufSize.toNat + c.maxDifferens.toNat) (w.receiver, [])) = none
  /-- An update does not stop before the write position but at a hole whose time has not expired. -/
  runs : ∀ expired, w.session ≠ [] →
    let r := (w.receiver.update c expired).1
    r.rnum = r.wnum ∨ ((r.cbuf (c.slot r.rnum)).num ≠ r.rnum ∧ expired r.rnum = false)

/-- **The condition.** An accepted packet does not carry the last number; a reinitialisation is not at
the number `0`, and without one that number does not come first; and what `receive` has compared modulo
`2^64` is so of the numbers: the packet is at most `maxDifferens` ahead, and fewer than `cbufSize - 2`
numbers are between the positions. -/
def Straight (c : Conf) (w : Reception) : Label → Prop
  | .receive (.parsed m) => m.isOk = true → m.num + 1 ≠ 0 ∧
    if w.receiver.disagree c m.num then m.num ≠ 0
    else (m.num = 0 → w.receiver.wnum ≠ 1) ∧
      m.num.toNat ≤ w.receiver.wnum.toNat + c.maxDifferens.toNat ∧
      w.receiver.wnum.toNat + 2 < w.receiver.rnum.toNat + c.cbufSize.toNat
  | _ => True

instance (c : Conf) (w : Reception) : (label : Label) → Decidable (Straight c w label)
  | .receive (.parsed m) => inferInstanceAs (Decidable (m.isOk = true → _))
  | .receive .failed | .receive .empty | .receive (.unparsable _) => .isTrue trivial
  | .update _ | .forceUpdate | .setLockUpdate _ | .setMode _ => .isTrue trivial

/-- **The invariant.** -/
structure Ordered (c : Conf) (w : Reception) : Prop where
  positive : w.receiver.wnum ≠ 0
  inside : w.receiver.rnum ≤ w.receiver.wnum
  bounded : w.receiver.wnum.toNat ≤
    w.receiver.rnum.toNat + c.cbufSize.toNat + c.maxDifferens.toNat
  unstarted : w.receiver.wnum = 1 → w.session = []

variable {c : Conf} {w : Reception}

theorem eq_one_iff {n : UInt64} : n = 1 ↔ n.toNat = 1 := by
  rw [← UInt64.toNat_inj, UInt64.toNat_one]

/-! ### One step keeps the invariant -/

/-- A window that ends behind a packet with a number above zero. -/
theorem Ordered.behind {r : Receiver} {session : List UDPMessage} {num : UInt64} (more : num + 1 ≠ 0)
    (positive : num.toNat ≠ 0) (wnum : r.wnum = num + 1) (inside : r.rnum.toNat ≤ num.toNat + 1)
    (bounded : num.toNat + 1 ≤ r.rnum.toNat + c.cbufSize.toNat + c.maxDifferens.toNat) :
    Ordered c ⟨r, session⟩ := by
  have next : r.wnum.toNat = num.toNat + 1 := by
    rw [wnum, toNat_succ more]
  refine ⟨by rw [wnum]; exact more, ?_, ?_, fun one => ?_⟩
  · rw [UInt64.le_iff_toNat_le]
    exact inside.trans_eq next.symm
  · rw [next]
    exact bounded
  · have one : r.wnum.toNat = 1 := eq_one_iff.mp one
    omega

theorem Ordered.reinitialised {m : UDPMessage} (more : m.num + 1 ≠ 0) (positive : m.num ≠ 0) :
    Ordered c ⟨w.receiver.reinitialise c m, [m]⟩ := by
  rw [Receiver.reinitialise_eq]
  have size := UInt64.lt_iff_toNat_lt.mp c.sized
  rw [UInt64.toNat_zero] at size
  refine Ordered.behind more (Nat.ne_of_gt (ne_zero_iff.mp positive)) rfl (Nat.le_succ _) ?_
  dsimp only
  omega

theorem Ordered.accepted (ordered : Ordered c w) {m : UDPMessage} (more : m.num + 1 ≠ 0)
    (late : m.num = 0 → w.receiver.wnum ≠ 1)
    (near : m.num.toNat ≤ w.receiver.wnum.toNat + c.maxDifferens.toNat)
    (queued : w.receiver.wnum.toNat + 2 < w.receiver.rnum.toNat + c.cbufSize.toNat) :
    Ordered c ⟨w.receiver.accept c m, w.session ++ [m]⟩ := by
  have positive := ne_zero_iff.mp ordered.positive
  have inside := UInt64.le_iff_toNat_le.mp ordered.inside
  have bounded := ordered.bounded
  obtain ⟨here, stored⟩ | ⟨elsewhere, stored⟩ :=
    Receiver.accept_cases (c := c) (r := w.receiver) m
  · rw [stored]
    have reading : (if w.receiver.rnum = 0 then m.num else w.receiver.rnum).toNat ≤
        w.receiver.wnum.toNat ∧ w.receiver.rnum.toNat ≤
        (if w.receiver.rnum = 0 then m.num else w.receiver.rnum).toNat := by
      split
      · rename_i zero
        rw [here, zero]
        exact ⟨Nat.le_refl _, Nat.zero_le _⟩
      · exact ⟨inside, Nat.le_refl _⟩
    have number : m.num.toNat = w.receiver.wnum.toNat := congrArg UInt64.toNat here
    refine Ordered.behind more (by omega) (by dsimp only; rw [here]) ?_ ?_
    · dsimp only
      omega
    · dsimp only
      omega
  · rw [stored]
    by_cases ahead : w.receiver.wnum ≤ m.num
    · rw [if_pos ahead]
      rw [UInt64.le_iff_toNat_le] at ahead
      exact Ordered.behind more (by omega) rfl (by dsimp only; omega) (by dsimp only; omega)
    · rw [if_neg ahead]
      rw [UInt64.le_iff_toNat_le] at ahead
      refine ⟨ordered.positive, ordered.inside, ordered.bounded, fun one => ?_⟩
      have zero : m.num = 0 := UInt64.toNat_inj.mp (by
        have one := eq_one_iff.mp one
        dsimp only at one
        rw [UInt64.toNat_zero]
        omega)
      exact absurd one (late zero)

/-- **A straight datagram keeps the invariant.** -/
theorem Ordered.received (ordered : Ordered c w) {d : Datagram}
    (straight : Straight c w (.receive d)) : Ordered c (w.step c (.receive d)) := by
  obtain same | ⟨left, after, -⟩ | ⟨m, rfl, ok, far, after⟩ | ⟨m, rfl, ok, near, after⟩ :=
    w.received_cases c d
  · rw [same]
    exact ordered
  · rw [after]
    exact ⟨ordered.positive, ordered.inside, ordered.bounded, ordered.unstarted⟩
  · obtain ⟨more, positive⟩ := straight ok
    rw [if_pos far] at positive
    rw [after]
    exact Ordered.reinitialised more positive
  · obtain ⟨more, rest⟩ := straight ok
    rw [if_neg (Bool.eq_false_iff.mp near)] at rest
    obtain ⟨late, close, queued⟩ := rest
    rw [after]
    exact ordered.accepted more late close queued

/-- **A straight step keeps the invariant.** -/
theorem Ordered.step (ordered : Ordered c w) {label : Label} (straight : Straight c w label) :
    Ordered c (w.step c label) := by
  cases label with
  | receive d => exact ordered.received straight
  | update expired =>
    obtain ⟨-, wnum, on⟩ := w.receiver.update_position (c := c) expired
    have inside : (w.receiver.update c expired).1.rnum ≤ (w.receiver.update c expired).1.wnum :=
      Receiver.update_keeps (P := fun u => u.1.rnum ≤ u.1.wnum)
        (fun u v _ _ turn => UInt64.le_iff_toNat_le.mpr (Receiver.updateTurn_drops turn).2.2)
        ordered.inside
    refine ⟨?_, inside, ?_, ?_⟩
    · rw [Reception.step, wnum]
      exact ordered.positive
    · have bounded := ordered.bounded
      rw [UInt64.le_iff_toNat_le] at on
      rw [Reception.step, wnum]
      dsimp only
      omega
    · rw [Reception.step, wnum]
      exact ordered.unstarted
  | forceUpdate =>
    have positive := ne_zero_iff.mp ordered.positive
    have size := UInt64.lt_iff_toNat_lt.mp c.sized
    have back : (w.receiver.wnum - 1).toNat = w.receiver.wnum.toNat - 1 :=
      UInt64.toNat_sub_of_le _ _ (UInt64.le_iff_toNat_le.mpr positive)
    refine ⟨ordered.positive, ?_, ?_, ordered.unstarted⟩
    · rw [UInt64.le_iff_toNat_le]
      show (w.receiver.wnum - 1).toNat ≤ w.receiver.wnum.toNat
      omega
    · rw [UInt64.toNat_zero] at size
      show w.receiver.wnum.toNat ≤ (w.receiver.wnum - 1).toNat + _ + _
      omega
  | setLockUpdate st =>
    exact ⟨ordered.positive, ordered.inside, ordered.bounded, ordered.unstarted⟩
  | setMode mode => exact ⟨ordered.positive, ordered.inside, ordered.bounded, ordered.unstarted⟩

theorem Ordered.start : Ordered c ⟨.new, []⟩ := by
  have size := UInt64.lt_iff_toNat_lt.mp c.sized
  rw [UInt64.toNat_zero] at size
  refine ⟨by decide, by decide, ?_, fun _ => rfl⟩
  show 1 ≤ 0 + _ + _
  omega

theorem Ordered.placed (ordered : Ordered c w) : Placed c w where
  inside := ordered.inside
  bounded := by
    rw [UInt64.toNat_sub_of_le _ _ ordered.inside]
    have := ordered.bounded
    omega
  turns expired := by
    have := ordered.bounded
    exact Receiver.loop_ends (by omega)
  runs expired accepted := by
    have started : ¬ (w.receiver.wnum = 1 ∧ w.receiver.rnum = 0) := fun unstarted =>
      accepted (ordered.unstarted unstarted.1)
    have after : Ordered c (w.step c (.update expired)) := ordered.step trivial
    exact Receiver.updateTurn_none (Receiver.update_exits ordered.inside started) after.inside

/-! ### The result -/

/-- **The positions stay in order.** In every state that a new receiver reaches by straight steps, in
any order with updates, `forceUpdate` and expiries. -/
theorem placed_of_straight (c : Conf) {w : Reception}
    (reached : (machine c).Reachable (Straight c) w) : Placed c w := by
  have ordered : Ordered c w := by
    refine Lib.Machine.reachable_invariant (P := Ordered c) ?_ ?_ reached
    · rintro s rfl
      exact Ordered.start
    · intro s label t ordered straight stepped
      cases stepped
      exact ordered.step straight
  exact ordered.placed

theorem placed_after_jump : ∃ w, (machine eight).Reachable (Straight eight) w ∧
    w.receiver.wnum = 31 ∧ Placed eight w := by
  obtain ⟨w, ran, wnum⟩ : ∃ w ∈ (machine eight).run ⟨.new, []⟩ jump, w.receiver.wnum = 31 := by
    decide +kernel
  have reached : (machine eight).Reachable (Straight eight) w :=
    ⟨_, jump, rfl, by decide +kernel, ran⟩
  exact ⟨w, reached, wnum, placed_of_straight eight reached⟩

/-- The last numbers before the wrap of the sender's counter, and the first two after it. -/
def wrap : List Label :=
  [.receive (.parsed (packet 0xfffffffffffffffc 10)), .receive (.parsed (packet 0xfffffffffffffffd 20)),
    .receive (.parsed (packet 0xfffffffffffffffe 30)), .update fun _ => false,
    .receive (.parsed (packet 0xffffffffffffffff 40)), .receive (.parsed (packet 1 50)),
    .receive (.parsed (packet 2 60))]

/-- **The wrap stalls the receiver.** The read position is beyond the write position, and no update
hands over the three packets that were accepted, whatever has expired. -/
theorem wrap_stalls : ∃ w, (machine eight).Reachable (fun _ _ => True) w ∧
    w.receiver.rnum = 0xffffffffffffffff ∧ w.receiver.wnum = 3 ∧
    (∀ expired, w.receiver.update eight expired = (w.receiver, [])) ∧ ¬ Placed eight w := by
  obtain ⟨w, ran, rnum, wnum⟩ : ∃ w ∈ (machine eight).run ⟨.new, []⟩ wrap,
      w.receiver.rnum = 0xffffffffffffffff ∧ w.receiver.wnum = 3 := by decide +kernel
  have beyond : ¬ w.receiver.rnum ≤ w.receiver.wnum := by
    rw [rnum, wnum]
    decide
  refine ⟨w, Lib.Machine.reachable_of_run rfl ran, rnum, wnum, fun expired => ?_,
    fun placed => beyond placed.inside⟩
  have exit : Receiver.updateTurn eight expired (w.receiver, []) = none := by
    simp [Receiver.updateTurn, rnum, wnum]
  rw [Receiver.update, Lib.loop_none exit, ite_self]

end UniSet.UNet

/-
**`forceUpdate`: the last packet once more, and nothing before it.**

`forceUpdate` puts the read position at the packet before the expected one, wherever it stood.

* `Awaiting` — a receiver with the packets it has accepted and not applied yet.
* `AppliedAfterForce` — what is applied when `forceUpdate` is followed by updates for which every
  time has expired.
* **`appliedAfterForce_iff`** — it is the last packet, if it is in its slot.
* `NothingLost` — every packet that was still to be applied is applied, and the last one again.
* **`nothingLost_iff`** — so it is exactly where no other packet is still to be applied;
  `backlog_skipped` is a packet that waits behind a hole.
-/

import UniSet.UNet.Stored

namespace UniSet.UNet

/-! ### Accepted and not applied -/

/-- A run, with the packets accepted since the last reinitialisation that have not been handed to
the shared memory; a packet is replaced by another one with its number. -/
structure Awaiting where
  reception : Reception
  unapplied : List UDPMessage

/-- The packets still to be applied, after one more datagram. -/
def Awaiting.unappliedAfter (c : Conf) (w : Awaiting) : Datagram → List UDPMessage
  | .parsed m =>
    if m.isOk then
      if w.reception.receiver.disagree c m.num then [m]
      else w.unapplied.filter (·.num ≠ m.num) ++ [m]
    else w.unapplied
  | _ => w.unapplied

def Awaiting.step (c : Conf) (w : Awaiting) (label : Label) : Awaiting where
  reception := w.reception.step c label
  unapplied :=
    match label with
    | .receive d => w.unappliedAfter c d
    | .update expired => w.unapplied.filter (· ∉ (w.reception.receiver.update c expired).2)
    | .forceUpdate | .setLockUpdate _ | .setMode _ => w.unapplied

/-- **All runs of a new receiver.** -/
def awaiting (c : Conf) : Lib.Machine Awaiting Label where
  start w := w = ⟨⟨.new, []⟩, []⟩
  step w label := some (w.step c label)

/-! ### After `forceUpdate` -/

namespace Receiver

/-- Some updates for which every time has expired, with the packets they apply. -/
def updates (c : Conf) : Nat → Receiver → Receiver × List UDPMessage
  | 0, r => (r, [])
  | n + 1, r =>
    let u := r.update c fun _ => true
    let v := updates c n u.1
    (v.1, u.2 ++ v.2)

variable {c : Conf} {r : Receiver} {p : UDPMessage}

theorem updates_settled (settled : r.update c (fun _ => true) = (r, [])) (n : Nat) :
    updates c n r = (r, []) := by
  induction n with
  | zero => rfl
  | succ n ih =>
    rw [updates, settled]
    show ((updates c n r).1, [] ++ (updates c n r).2) = _
    rw [ih]
    rfl

/-- Where everything has been read an update does nothing. -/
theorem update_read (expired : UInt64 → Bool) (read : ¬ r.rnum < r.wnum) :
    r.update c expired = (r, []) := by
  have exit : updateTurn c expired (r, []) = none := by
    unfold updateTurn
    exact if_neg read
  rw [update, Lib.loop_none exit, ite_self]

/-- **An update for which every time has expired** reads everything. -/
theorem update_expired_reads (inside : r.rnum ≤ r.wnum) (started : ¬ (r.wnum = 1 ∧ r.rnum = 0)) :
    ¬ (r.update c fun _ => true).1.rnum < (r.update c fun _ => true).1.wnum := by
  have after : (r.update c fun _ => true).1.rnum ≤ (r.update c fun _ => true).1.wnum :=
    update_keeps (P := fun u => u.1.rnum ≤ u.1.wnum)
      (fun u v _ _ turn => UInt64.le_iff_toNat_le.mpr (updateTurn_drops turn).2.2) inside
  rcases updateTurn_none (update_exits inside started) after with whole | ⟨-, waits⟩
  · rw [whole]
    exact UInt64.lt_irrefl _
  · cases waits

/-- All is applied by the first of these updates. -/
theorem mem_updates (inside : r.rnum ≤ r.wnum) (started : ¬ (r.wnum = 1 ∧ r.rnum = 0)) :
    (∃ n, p ∈ (updates c n r).2) ↔ p ∈ (r.update c fun _ => true).2 := by
  have settled :=
    update_read (c := c) (fun _ => true) (update_expired_reads (c := c) inside started)
  constructor
  · rintro ⟨n, member⟩
    cases n with
    | zero => cases member
    | succ n =>
      rw [updates, updates_settled settled] at member
      dsimp only at member
      rwa [List.append_nil] at member
  · intro member
    refine ⟨1, ?_⟩
    rw [updates, updates_settled settled]
    dsimp only
    rwa [List.append_nil]

end Receiver

/-- The packet is applied when `forceUpdate` is followed by enough updates for which every time has
expired. -/
def AppliedAfterForce (c : Conf) (r : Receiver) (p : UDPMessage) : Prop :=
  ∃ n, p ∈ (Receiver.updates c n r.forceUpdate).2

/-- The packet before the expected one, in its slot, of a receiver that applies what it reads. The
number `0` is the initial state of the read position, and the last number has none behind it. -/
structure IsLast (c : Conf) (r : Receiver) (p : UDPMessage) : Prop where
  number : p.num + 1 = r.wnum
  placed : r.cbuf (c.slot p.num) = p
  first : p.num ≠ 0
  inside : r.wnum ≠ 0
  writes : r.Writes

/-- **What `forceUpdate` makes the updates apply**: the last packet. -/
theorem appliedAfterForce_iff (c : Conf) (r : Receiver) (p : UDPMessage) :
    AppliedAfterForce c r p ↔ IsLast c r p := by
  have back : ∀ num : UInt64, num + 1 = r.wnum ↔ num = r.wnum - 1 := fun num =>
    ⟨fun h => by rw [← h, UInt64.add_sub_cancel], fun h => by rw [h, UInt64.sub_add_cancel]⟩
  unfold AppliedAfterForce
  by_cases zero : r.wnum = 0
  · have read : ¬ r.forceUpdate.rnum < r.forceUpdate.wnum := by
      show ¬ r.wnum - 1 < r.wnum
      rw [zero]
      decide
    rw [show (∃ n, p ∈ (Receiver.updates c n r.forceUpdate).2) ↔ False from
      iff_of_false (fun ⟨n, member⟩ => by
        rw [Receiver.updates_settled (Receiver.update_read _ read)] at member
        cases member) id]
    exact iff_of_false id fun last => last.inside zero
  · by_cases one : r.wnum = 1
    · have unstarted : r.forceUpdate.update c (fun _ => true) = (r.forceUpdate, []) := by
        rw [Receiver.update, if_pos]
        refine ⟨one, ?_⟩
        show r.wnum - 1 = 0
        rw [one]
        rfl
      refine iff_of_false (fun ⟨n, member⟩ => ?_) fun last => last.first ?_
      · rw [Receiver.updates_settled unstarted] at member
        cases member
      · rw [(back p.num).mp last.number, one]
        rfl
    · have positive := ne_zero_iff.mp zero
      have before : (r.wnum - 1).toNat = r.wnum.toNat - 1 :=
        UInt64.toNat_sub_of_le _ _ (UInt64.le_iff_toNat_le.mpr positive)
      have many : r.wnum.toNat ≠ 1 := fun h => one (UInt64.toNat_inj.mp h)
      have started : r.wnum - 1 ≠ 0 := ne_zero_iff.mpr (by omega)
      have inside : r.forceUpdate.rnum ≤ r.forceUpdate.wnum := by
        rw [UInt64.le_iff_toNat_le]
        show (r.wnum - 1).toNat ≤ r.wnum.toNat
        omega
      rw [Receiver.mem_updates inside fun h => one h.1, Receiver.mem_update_single _
        (show r.wnum = r.wnum - 1 + 1 from (UInt64.sub_add_cancel _ _).symm) started
        (show r.wnum - 1 + 1 ≠ 0 from (UInt64.sub_add_cancel r.wnum 1).symm ▸ zero)]
      show p = r.cbuf (c.slot (r.wnum - 1)) ∧ (r.cbuf (c.slot (r.wnum - 1))).num = r.wnum - 1 ∧
        r.Writes ↔ _
      constructor
      · rintro ⟨here, own, writes⟩
        rw [← here] at own
        refine ⟨(back _).mpr own, ?_, own ▸ started, zero, writes⟩
        rw [own]
        exact here.symm
      · rintro ⟨number, placed, -, -, writes⟩
        rw [← (back _).mp number, placed]
        exact ⟨rfl, rfl, writes⟩

/-! ### The result -/

/-- **Nothing is lost** by `forceUpdate`: the packets still to be applied are applied, and the
packet before the expected one, if it was received, is applied again. -/
def NothingLost (c : Conf) (w : Awaiting) : Prop :=
  (∀ p ∈ w.unapplied, w.reception.receiver.rnum ≤ p.num →
    AppliedAfterForce c w.reception.receiver p) ∧
  ∀ p, latest w.reception.session (w.reception.receiver.wnum - 1) = some p →
    AppliedAfterForce c w.reception.receiver p

/-- **The condition**: no packet is still to be applied but the last one, which is in its slot if
it was received. -/
def OnlyLast (c : Conf) (w : Awaiting) : Prop :=
  (∀ p ∈ w.unapplied, w.reception.receiver.rnum ≤ p.num → IsLast c w.reception.receiver p) ∧
  ∀ p, latest w.reception.session (w.reception.receiver.wnum - 1) = some p →
    IsLast c w.reception.receiver p

/-- **`forceUpdate` loses nothing** exactly if no packet waits before the last one. -/
theorem nothingLost_iff (c : Conf) (w : Awaiting) : NothingLost c w ↔ OnlyLast c w := by
  unfold NothingLost OnlyLast
  simp only [appliedAfterForce_iff]

/-- The packets `1`, `3` and `4`; the packet `2` is still awaited. -/
def hole : List Label :=
  [.receive (.parsed (packet 1 10)), .update fun _ => false, .receive (.parsed (packet 3 30)),
    .receive (.parsed (packet 4 40)), .update fun _ => false]

/-- **A packet that waits behind a hole is skipped.** -/
theorem backlog_skipped : ¬ ∀ (c : Conf) (w : Awaiting),
    (awaiting c).Reachable (fun _ _ => True) w → NothingLost c w := by
  intro holds
  obtain ⟨w, ran, waits, rnum, wnum⟩ : ∃ w ∈ (awaiting eight).run ⟨⟨.new, []⟩, []⟩ hole,
      packet 3 30 ∈ w.unapplied ∧ w.reception.receiver.rnum = 2 ∧
        w.reception.receiver.wnum = 5 := by
    decide +kernel
  have applied := (holds eight w (Lib.Machine.reachable_of_run rfl ran)).1 _ waits (by
    rw [rnum]
    decide)
  have number := ((appliedAfterForce_iff eight _ _).mp applied).number
  rw [wnum] at number
  exact absurd number (by decide)

end UniSet.UNet

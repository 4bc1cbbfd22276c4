/-
**The packet just accepted: its slot, and the first packet of all.**

A datagram is parsed into the slot of the expected number. A packet with another number is moved to
its own slot, and the number in the slot it was parsed into is cleared afterwards, also where the
two slots are one.

* `Stored` — an accepted packet that is still to be read is in its slot, and a packet that
  reinitialises is applied by the next update.
* **`stored_iff`** — so it is exactly where the packet is not cleared; `moved_onto_itself` is a
  packet that is, with a buffer of the default size.
* `Synchronised` — the reading starts at the first packet, nothing before it is waited for or
  counted.
* **`synchronised_iff`** — so it is for the number `1`, and for `2` where it reinitialises, only.
-/

import UniSet.UNet.Current

namespace UniSet.UNet

namespace Receiver

/-- The receiver writes to the shared memory. -/
def Writes (r : Receiver) : Prop := r.lockUpdate = false ∧ r.mode = .mEnabled

instance (r : Receiver) : Decidable r.Writes := inferInstanceAs (Decidable (_ ∧ _))

variable {c : Conf} {r : Receiver} {m : UDPMessage}

theorem setNum_zero_iff : m.setNum 0 = m ↔ m.num = 0 :=
  ⟨fun same => (congrArg UDPMessage.num same).symm, setNum_self⟩

theorem blocked_iff : (r.lockUpdate || r.mode == .mDisabled) = true ↔ ¬ r.Writes := by
  unfold Writes
  cases r.lockUpdate with
  | true => exact iff_of_true rfl fun h => absurd h.1 (by decide)
  | false => cases r.mode <;> decide

/-- **An update with one number to read** applies the packet that is in its slot. -/
theorem update_single (expired : UInt64 → Bool) (one : r.wnum = r.rnum + 1) (positive : r.rnum ≠ 0)
    (more : r.rnum + 1 ≠ 0) : (r.update c expired).2 =
      if (r.cbuf (c.slot r.rnum)).num = r.rnum ∧ r.Writes then [r.cbuf (c.slot r.rnum)]
      else [] := by
  have below : r.rnum < r.wnum := by
    rw [UInt64.lt_iff_toNat_lt, one, toNat_succ more]
    exact Nat.lt_succ_self _
  have turns : (r.wnum - r.rnum).toNat = 1 := by
    rw [UInt64.toNat_sub_of_le _ _ (UInt64.le_of_lt below), one, toNat_succ more]
    omega
  rw [update, if_neg fun h => positive h.2, turns]
  cases turn : updateTurn c expired (r, []) with
  | none =>
    rw [Lib.loop_none turn]
    rcases updateTurn_none turn (UInt64.le_of_lt below) with same | ⟨hole, -⟩
    · exact absurd same (UInt64.ne_of_lt below)
    · exact (if_neg fun h => hole h.1).symm
  | some v =>
    rw [Lib.loop_some turn]
    show v.2 = _
    obtain ⟨-, ⟨hole, -, handed, -⟩ | ⟨own, -, handed⟩⟩ := updateTurn_cases turn
    · rw [handed, if_neg fun h => hole h.1]
    · rw [handed]
      dsimp only at own ⊢
      by_cases writes : r.Writes
      · rw [if_neg fun blocked => blocked_iff.mp blocked writes, if_pos ⟨own, writes⟩]
        rfl
      · rw [if_pos (blocked_iff.mpr writes), if_neg fun h => writes h.2]

theorem mem_update_single {p : UDPMessage} (expired : UInt64 → Bool) (one : r.wnum = r.rnum + 1)
    (positive : r.rnum ≠ 0) (more : r.rnum + 1 ≠ 0) : p ∈ (r.update c expired).2 ↔
      p = r.cbuf (c.slot r.rnum) ∧ (r.cbuf (c.slot r.rnum)).num = r.rnum ∧ r.Writes := by
  rw [update_single expired one positive more]
  split
  · next reads =>
    rw [List.mem_singleton]
    exact (and_iff_left reads).symm
  · next stays => exact iff_of_false List.not_mem_nil fun h => stays h.2

/-- **After a reinitialisation** the packet is applied by the next update, if it was not cleared. -/
theorem mem_update_reinitialised (expired : UInt64 → Bool) (writes : r.Writes) :
    m ∈ ((r.reinitialise c m).update c expired).2 ↔
      m.num ≠ 0 ∧ m.num + 1 ≠ 0 ∧ c.slot m.num ≠ c.slot r.wnum := by
  rw [reinitialise_eq]
  by_cases zero : m.num = 0
  · refine iff_of_false (fun member => ?_) fun h => h.1 zero
    have unstarted : m.num + 1 = 1 ∧ m.num = 0 := ⟨by rw [zero]; rfl, zero⟩
    rw [update, if_pos unstarted] at member
    cases member
  · by_cases last : m.num + 1 = 0
    · refine iff_of_false (fun member => ?_) fun h => h.2.1 last
      have exit : updateTurn c expired ({ r with
          lostPackets := r.lostPackets + if r.wnum < m.num then m.num - r.wnum - 1 else 1
          rnum := m.num, wnum := m.num + 1, cbuf := r.moved c m }, []) = none := by
        have notBelow : ¬ m.num < m.num + 1 := by
          rw [last, UInt64.lt_iff_toNat_lt]
          exact Nat.not_lt_zero _
        unfold updateTurn
        exact if_neg notBelow
      rw [update, Lib.loop_none exit, ite_self] at member
      cases member
    · rw [mem_update_single expired rfl zero last]
      show m = r.moved c m (c.slot m.num) ∧ (r.moved c m (c.slot m.num)).num = m.num ∧ r.Writes ↔ _
      rw [moved_apply]
      by_cases parsed : c.slot m.num = c.slot r.wnum
      · rw [if_pos parsed]
        exact iff_of_false (fun h => zero h.2.1.symm) fun h => h.2.2 parsed
      · rw [if_neg parsed, if_pos rfl]
        exact iff_of_true ⟨rfl, rfl, writes⟩ ⟨zero, last, parsed⟩

end Receiver

/-! ### Stored -/

/-- **An accepted packet is stored**, if it is still to be read; one that reinitialises is applied
by the next update. -/
def Stored (c : Conf) (r : Receiver) (m : UDPMessage) : Prop :=
  let (after, ret) := r.receive c (.parsed m)
  ret = .retOK → (after.rnum ≤ m.num → after.cbuf (c.slot m.num) = m) ∧
    (r.disagree c m.num = true → r.Writes → ∀ expired, m ∈ (after.update c expired).2)

/-- **The condition**: a packet that has the slot of the expected number is the expected one and
does not reinitialise, or is old, or has the number `0`; one that reinitialises is neither that nor
the last one of the number space. -/
def NotCleared (c : Conf) (r : Receiver) (m : UDPMessage) : Prop :=
  m.isOk = true →
    if r.disagree c m.num then
      (c.slot m.num = c.slot r.wnum → m.num = 0) ∧ (r.Writes → m.num ≠ 0 ∧ m.num + 1 ≠ 0)
    else c.slot m.num = c.slot r.wnum → m.num = r.wnum ∨ m.num = 0 ∨ m.num < r.rnum

variable {c : Conf} {r : Receiver} {m : UDPMessage}

/-- A moved packet is in its slot exactly if it was not cleared. -/
theorem moved_self_iff : r.moved c m (c.slot m.num) = m ↔
    (c.slot m.num = c.slot r.wnum → m.num = 0) := by
  rw [Receiver.moved_apply]
  by_cases parsed : c.slot m.num = c.slot r.wnum
  · rw [if_pos parsed, Receiver.setNum_zero_iff]
    exact ⟨fun zero _ => zero, fun zero => zero parsed⟩
  · rw [if_neg parsed, if_pos rfl]
    exact iff_of_true rfl fun same => absurd same parsed

/-- **The packet just accepted** is stored exactly if it was not cleared. -/
theorem stored_iff (c : Conf) (r : Receiver) (m : UDPMessage) :
    Stored c r m ↔ NotCleared c r m := by
  unfold Stored NotCleared
  cases ok : m.isOk with
  | false =>
    have rejected : (r.receive c (.parsed m)).2 = .retError := by
      simp [Receiver.receive, ok]
    exact iff_of_true (fun accepted => absurd (rejected.symm.trans accepted) (by decide))
      fun valid => absurd valid (by decide)
  | true =>
    cases far : r.disagree c m.num with
    | true =>
      have received : r.receive c (.parsed m) = (r.reinitialise c m, .retOK) := by
        simp [Receiver.receive, ok, far]
      rw [received]
      have slot : (r.reinitialise c m).cbuf (c.slot m.num) = m ↔
          (c.slot m.num = c.slot r.wnum → m.num = 0) := by
        rw [Receiver.reinitialise_eq]
        exact moved_self_iff
      have position : (r.reinitialise c m).rnum ≤ m.num := UInt64.le_refl m.num
      simp only [true_imp_iff, if_true, slot, position]
      refine and_congr_right fun here => forall_congr' fun writes => ?_
      simp only [Receiver.mem_update_reinitialised _ writes]
      exact ⟨fun h => ⟨(h fun _ => false).1, (h fun _ => false).2.1⟩,
        fun h _ => ⟨h.1, h.2, fun parsed => h.1 (here parsed)⟩⟩
    | false =>
      have received : r.receive c (.parsed m) = (r.accept c m, .retOK) := by
        simp [Receiver.receive, ok, far]
      rw [received]
      simp only [true_imp_iff, Bool.false_eq_true, if_false, false_imp_iff, and_true]
      obtain ⟨here, stored⟩ | ⟨elsewhere, stored⟩ := Receiver.accept_cases (c := c) (r := r) m
      · rw [stored]
        refine iff_of_true (fun _ => ?_) fun _ => .inl here
        show r.parsedInto c m (c.slot m.num) = m
        rw [Receiver.parsedInto_apply, if_pos (by rw [here])]
      · rw [stored]
        show (r.rnum ≤ m.num → r.moved c m (c.slot m.num) = m) ↔ _
        rw [moved_self_iff]
        constructor
        · intro kept parsed
          by_cases unread : r.rnum ≤ m.num
          · exact .inr (.inl (kept unread parsed))
          · exact .inr (.inr (UInt64.not_le.mp unread))
        · intro kept unread parsed
          rcases kept parsed with same | zero | old
          · exact absurd same elsewhere
          · exact zero
          · exact absurd unread (UInt64.not_le.mpr old)

/-- The default configuration: as many slots as the packets that may be missing. -/
def hundred : Conf := ⟨100, 100, by decide⟩

/-- **A packet is moved onto itself.** With the defaults the packet `102` is accepted behind the
packet `1`, and the slot it was parsed into is its own. -/
theorem moved_onto_itself : ¬ ∀ (c : Conf) (w : Reception) (m : UDPMessage),
    (machine c).Reachable (fun _ _ => True) w → m.isOk = true → Stored c w.receiver m := by
  intro holds
  obtain ⟨w, ran, near, slot⟩ : ∃ w ∈ (machine hundred).run ⟨.new, []⟩
      [.receive (.parsed (packet 1 10))],
      (w.receiver.receive hundred (.parsed (packet 102 20))).1.rnum ≤ 102 ∧
      ((w.receiver.receive hundred (.parsed (packet 102 20))).1.cbuf 2).num = 0 := by
    decide +kernel
  have stored := holds hundred w (packet 102 20) (Lib.Machine.reachable_of_run rfl ran) rfl
  have kept := (stored rfl).1 near
  have number := congrArg UDPMessage.num kept
  have zero : ((w.receiver.receive hundred (.parsed (packet 102 20))).1.cbuf
    (hundred.slot 102)).num = 0 := slot
  exact absurd (zero.symm.trans number) (by decide)

/-! ### The first packet -/

/-- **The initial state**; the buffer may hold what was left by datagrams that are not valid. -/
structure Receiver.Fresh (r : Receiver) : Prop where
  wnum : r.wnum = 1
  rnum : r.rnum = 0
  writes : r.Writes

/-- A later step: it does not reinitialise, and the numbers do not wrap. -/
def Onward (c : Conf) (w : Reception) : Label → Prop
  | .receive (.parsed m) =>
    m.isOk = true → w.receiver.disagree c m.num = false ∧ m.num + 1 ≠ 0
  | _ => True

/-- **The reading starts at the first packet**: it is the next one to read, the next update applies
it first whatever has expired, nothing is counted when it is received, and an update, which counts
from the read position on, never stands before it. -/
structure Synchronised (c : Conf) (r : Receiver) (m : UDPMessage) : Prop where
  position : (r.receive c (.parsed m)).1.rnum = m.num
  applied : ∀ expired, ((r.receive c (.parsed m)).1.update c expired).2.head? = some m
  uncounted : (r.receive c (.parsed m)).1.lostPackets = r.lostPackets
  onward : ∀ labels t, (machine c).Meets (Onward c) ⟨(r.receive c (.parsed m)).1, [m]⟩ labels →
    (machine c).run ⟨(r.receive c (.parsed m)).1, [m]⟩ labels = some t → m.num ≤ t.receiver.rnum

/-- **The condition**: the number `1`, or the number `2` where it reinitialises. -/
def FirstFits (c : Conf) (num : UInt64) : Prop :=
  num = 1 ∧ c.cbufSize ≠ 2 ∧ c.cbufSize ≠ 3 ∨
  num = 2 ∧ (c.cbufSize = 2 ∨ c.cbufSize = 3 ∨ c.maxDifferens = 0 ∧ c.cbufSize ≠ 1)

/-- **The invariant** of the later steps. -/
def After (num : UInt64) (w : Reception) : Prop :=
  num ≠ 0 ∧ num ≤ w.receiver.rnum ∧ num < w.receiver.wnum

/-- **A later step keeps the read position** at the first packet or behind it. -/
theorem After.step {num : UInt64} {w : Reception} (after : After num w) {label : Label}
    (onward : Onward c w label) : After num (w.step c label) := by
  obtain ⟨positive, reading, writing⟩ := after
  have started : w.receiver.rnum ≠ 0 := fun zero => positive (le_zero (zero ▸ reading))
  cases label with
  | receive d =>
    obtain same | ⟨left, after, -⟩ | ⟨m, rfl, ok, far, -⟩ | ⟨m, rfl, ok, near, after⟩ :=
      w.received_cases c d
    · rw [same]
      exact ⟨positive, reading, writing⟩
    · rw [after]
      exact ⟨positive, reading, writing⟩
    · rw [(onward ok).1] at far
      cases far
    · have next := toNat_succ (onward ok).2
      rw [UInt64.lt_iff_toNat_lt] at writing
      rw [after]
      obtain ⟨here, stored⟩ | ⟨elsewhere, stored⟩ :=
        Receiver.accept_cases (c := c) (r := w.receiver) m
      · rw [stored, if_neg started]
        refine ⟨positive, reading, ?_⟩
        show num < w.receiver.wnum + 1
        rw [← here] at writing ⊢
        rw [UInt64.lt_iff_toNat_lt]
        omega
      · rw [stored]
        refine ⟨positive, reading, ?_⟩
        show num < if w.receiver.wnum ≤ m.num then m.num + 1 else w.receiver.wnum
        split
        · next ahead =>
          rw [UInt64.le_iff_toNat_le] at ahead
          rw [UInt64.lt_iff_toNat_lt]
          omega
        · exact UInt64.lt_iff_toNat_lt.mpr writing
  | update expired =>
    obtain ⟨-, wnum, on⟩ := w.receiver.update_position (c := c) expired
    refine ⟨positive, UInt64.le_trans reading on, ?_⟩
    show num < (w.receiver.update c expired).1.wnum
    rw [wnum]
    exact writing
  | forceUpdate =>
    refine ⟨positive, ?_, writing⟩
    show num ≤ w.receiver.wnum - 1
    rw [UInt64.lt_iff_toNat_lt] at writing
    have back : (w.receiver.wnum - 1).toNat = w.receiver.wnum.toNat - 1 :=
      UInt64.toNat_sub_of_le _ _ (UInt64.le_iff_toNat_le.mpr (by
        rw [UInt64.toNat_one]
        omega))
    rw [UInt64.le_iff_toNat_le]
    omega
  | setLockUpdate st => exact ⟨positive, reading, writing⟩
  | setMode mode => exact ⟨positive, reading, writing⟩

/-- A receiver that stands at the packet just stored. -/
theorem synchronised_of_stored (position : (r.receive c (.parsed m)).1.rnum = m.num)
    (next : (r.receive c (.parsed m)).1.wnum = m.num + 1)
    (stored : (r.receive c (.parsed m)).1.cbuf (c.slot m.num) = m)
    (writes : (r.receive c (.parsed m)).1.Writes)
    (uncounted : (r.receive c (.parsed m)).1.lostPackets = r.lostPackets) (positive : m.num ≠ 0)
    (more : m.num + 1 ≠ 0) : Synchronised c r m := by
  refine ⟨position, fun expired => ?_, uncounted, fun labels t onward ran => ?_⟩
  · rw [Receiver.update_single expired (by rw [next, position]) (position ▸ positive)
      (position ▸ more), position, stored, if_pos ⟨rfl, writes⟩]
    rfl
  · have after : After m.num t := by
      refine Lib.Machine.run_invariant (P := After m.num) (fun s label u after onward stepped => ?_)
        ⟨positive, ?_, ?_⟩ onward ran
      · cases stepped
        exact after.step onward
      · show m.num ≤ (r.receive c (.parsed m)).1.rnum
        rw [position]
        exact UInt64.le_refl _
      · show m.num < (r.receive c (.parsed m)).1.wnum
        rw [next, UInt64.lt_iff_toNat_lt, toNat_succ more]
        exact Nat.lt_succ_self _
    exact after.2.1

/-- The test of `receive` in the initial state. -/
theorem disagree_fresh (fresh : r.Fresh) (num : UInt64) : r.disagree c num = true ↔
    c.maxDifferens.toNat < distance num 1 ∨ c.cbufSize = 2 ∨ c.cbufSize = 3 := by
  unfold Receiver.disagree
  rw [fresh.wnum, fresh.rnum, Bool.or_eq_true, decide_eq_true_iff, decide_eq_true_iff]
  refine or_congr_right ?_
  have one : distance 1 0 = 1 := by decide
  have size := c.sized
  rw [one, ← UInt64.toNat_inj, ← UInt64.toNat_inj, UInt64.toNat_sub]
  rw [UInt64.lt_iff_toNat_lt] at size
  have := c.cbufSize.toNat_lt
  simp only [UInt64.toNat_zero, UInt64.reduceToNat] at size ⊢
  omega

/-- Two packets in a row have different slots, if there are two. -/
theorem slot_two_ne (more : c.cbufSize ≠ 1) : c.slot 2 ≠ c.slot 1 := by
  intro same
  have size := UInt64.lt_iff_toNat_lt.mp c.sized
  rw [ne_eq, ← UInt64.toNat_inj] at more
  simp only [UInt64.toNat_zero, UInt64.toNat_one] at size more
  have near : (2 : UInt64).toNat - (1 : UInt64).toNat < c.cbufSize.toNat := by
    show 1 < _
    omega
  exact absurd (slot_inj (by decide) near same.symm) (by decide)

/-- A reinitialised fresh receiver counts nothing for packet two only. -/
theorem uncounted_iff {num : UInt64} : (if 1 < num then num - 1 - 1 else 1) = 0 ↔ num = 2 := by
  constructor
  · intro none
    split at none
    · next above =>
      rw [UInt64.lt_iff_toNat_lt, UInt64.toNat_one] at above
      have zero := congrArg UInt64.toNat none
      have := num.toNat_lt
      simp only [UInt64.toNat_sub, UInt64.toNat_one, UInt64.toNat_zero] at zero
      refine UInt64.toNat_inj.mp ?_
      show num.toNat = 2
      omega
    · cases none
  · rintro rfl
    rfl

theorem synchronised_reinitialise (fresh : r.Fresh) (positive : m.num ≠ 0)
    (far : r.disagree c m.num = true)
    (received : (r.receive c (.parsed m)).1 = r.reinitialise c m) :
    Synchronised c r m ↔ FirstFits c m.num := by
  have which := (disagree_fresh fresh m.num).mp far
  constructor
  · intro synchronised
    have two : m.num = 2 := by
      have uncounted := synchronised.uncounted
      rw [received, Receiver.reinitialise_eq] at uncounted
      rw [fresh.wnum] at uncounted
      exact uncounted_iff.mp (UInt64.add_eq_left.mp uncounted)
    have applied : m ∈ ((r.receive c (.parsed m)).1.update c fun _ => false).2 :=
      List.mem_of_mem_head? (synchronised.applied _)
    rw [received, Receiver.mem_update_reinitialised _ fresh.writes, fresh.wnum, two] at applied
    refine .inr ⟨two, ?_⟩
    rw [two] at which
    rcases which with few | size | size
    · refine .inr (.inr ⟨?_, fun one => applied.2.2 ?_⟩)
      · have one : distance 2 1 = 1 := by decide
        rw [one] at few
        exact UInt64.toNat_inj.mp (Nat.lt_one_iff.mp few)
      · unfold Conf.slot
        rw [one]
        rfl
    · exact .inl size
    · exact .inr (.inl size)
  · rintro (⟨one, notTwo, notThree⟩ | ⟨two, size⟩)
    · rw [one] at which
      rcases which with few | size | size
      · exact absurd few (Nat.not_lt_zero _)
      · exact absurd size notTwo
      · exact absurd size notThree
    · have apart : c.slot m.num ≠ c.slot r.wnum := by
        rw [two, fresh.wnum]
        refine slot_two_ne fun one => ?_
        rw [one] at size
        rcases size with h | h | h
        · cases h
        · cases h
        · exact h.2 rfl
      rw [Receiver.reinitialise_eq] at received
      refine synchronised_of_stored ?_ ?_ ?_ ?_ ?_ positive (by rw [two]; decide)
      · rw [received]
      · rw [received]
      · rw [received]
        exact moved_self_iff.mpr fun same => absurd same apart
      · rw [received]
        exact fresh.writes
      · rw [received]
        rw [fresh.wnum]
        exact UInt64.add_eq_left.mpr (uncounted_iff.mpr two)

/-- **First-packet synchronisation** holds for these numbers only. -/
theorem synchronised_iff (c : Conf) {r : Receiver} (fresh : r.Fresh) {m : UDPMessage}
    (ok : m.isOk = true) (positive : m.num ≠ 0) : Synchronised c r m ↔ FirstFits c m.num := by
  cases far : r.disagree c m.num with
  | true =>
    refine synchronised_reinitialise fresh positive far ?_
    simp [Receiver.receive, ok, far]
  | false =>
    have received : (r.receive c (.parsed m)).1 = r.accept c m := by
      simp [Receiver.receive, ok, far]
    have which := mt (disagree_fresh (c := c) fresh m.num).mpr (Bool.eq_false_iff.mp far)
    rw [not_or, not_or] at which
    obtain ⟨here, stored⟩ | ⟨elsewhere, stored⟩ := Receiver.accept_cases (c := c) (r := r) m
    · have one : m.num = 1 := here.trans fresh.wnum
      rw [stored, if_pos fresh.rnum] at received
      refine iff_of_true ?_ (.inl ⟨one, which.2⟩)
      refine synchronised_of_stored ?_ ?_ ?_ ?_ ?_ positive (by rw [one]; decide)
      · rw [received]
      · rw [received, here]
      · rw [received]
        show r.parsedInto c m (c.slot m.num) = m
        rw [Receiver.parsedInto_apply, if_pos (by rw [here])]
      · rw [received]
        exact fresh.writes
      · rw [received]
    · refine iff_of_false (fun synchronised => ?_) ?_
      · have position := synchronised.position
        rw [received, stored] at position
        exact positive (position.symm.trans fresh.rnum)
      · rintro (⟨one, -⟩ | ⟨two, size⟩)
        · exact elsewhere (one.trans fresh.wnum.symm)
        · rcases size with h | h | ⟨h, -⟩
          · exact which.2.1 h
          · exact which.2.2 h
          · refine which.1 ?_
            rw [h, two]
            decide

theorem synchronised_at_one : Synchronised hundred .new (packet 1 10) :=
  (synchronised_iff hundred ⟨rfl, rfl, rfl, rfl⟩ rfl (by decide)).mpr (.inl (by decide))

/-- **The first packet is not the first to be read** if it carries the number `2`: it is moved, and
the position is read where its number was cleared. -/
theorem second_number_missed : ¬ ∀ (c : Conf) (m : UDPMessage), m.isOk = true → m.num ≠ 0 →
    Synchronised c .new m := by
  intro holds
  have position := (holds hundred (packet 2 10) rfl (by decide)).position
  revert position
  decide +kernel

end UniSet.UNet

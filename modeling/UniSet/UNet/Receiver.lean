/-
**`UNetReceiver`: the circular buffer, `receive` and `update`.**

Packet numbers and the two positions are `uint64` and wrap; the distances that `receive` compares
are taken modulo `2^64` and read as signed (`distance`). Every datagram is parsed into the slot of the
next expected number, whatever it is, and moved to its own slot afterwards.

* `receive` — one datagram; `disagree` is the test that reinitialises the read position, `moved` the
  buffer after a packet was moved.
* `rnext`, `updateTurn`, `update` — one turn of the loop of `update` and the whole call, which returns
  the packets it hands to the shared memory. `expired i` is what `ptLostTimeout.checkTime` answers
  when the loop stands at the number `i`; the loop never stands at a number twice.
* `Reception`, `machine` — runs, with the packets accepted since the last reinitialisation.

`updateTurn_cases` and `receive_cases` say once what a turn and a datagram can do.
-/

import Mathlib.Data.Int.ModEq
import Mathlib.Logic.Function.Basic
import UniSet.Lib.Loop
import UniSet.Lib.Machine
import UniSet.UNet.Packet

namespace UniSet.UNet

/-- What is configured; `setBufferSize` refuses an empty buffer. -/
structure Conf where
  cbufSize : UInt64
  maxDifferens : UInt64
  sized : 0 < cbufSize

/-- `UNetReceiver::Mode`. -/
inductive Mode
  | mEnabled | mDisabled
deriving DecidableEq, Repr

/-- **The receiver.** -/
structure Receiver where
  cbuf : Nat → UDPMessage
  /-- The number of the next expected packet. -/
  wnum : UInt64
  /-- The number of the next packet to read. -/
  rnum : UInt64
  lostPackets : UInt64
  lockUpdate : Bool
  mode : Mode

/-- A datagram as the transport and the parser deliver it. -/
inductive Datagram
  /-- The transport reported an error. -/
  | failed
  /-- Nothing was read. -/
  | empty
  /-- The parsing failed and left a message in the slot. -/
  | unparsable (left : UDPMessage)
  | parsed (m : UDPMessage)
deriving DecidableEq, Repr

inductive ReceiveRetCode
  | retOK | retError | retNoData
deriving DecidableEq, Repr

/-- The slot of a number. -/
def Conf.slot (c : Conf) (num : UInt64) : Nat := num.toNat % c.cbufSize.toNat

/-- `size_t(abs(long(a - b)))`. -/
def distance (a b : UInt64) : Nat := min (a - b).toNat (b - a).toNat

/-- Numbers nearer to each other than the size of the buffer have different slots. -/
theorem slot_inj {c : Conf} {a b : UInt64} (le : a.toNat ≤ b.toNat)
    (near : b.toNat - a.toNat < c.cbufSize.toNat) (same : c.slot a = c.slot b) : a = b := by
  have divides : c.cbufSize.toNat ∣ b.toNat - a.toNat := (Nat.modEq_iff_dvd' le).mp same
  have := Nat.eq_zero_of_dvd_of_lt divides near
  exact UInt64.toNat_inj.mp (by omega)

theorem toNat_succ {n : UInt64} (more : n + 1 ≠ 0) : (n + 1).toNat = n.toNat + 1 := by
  have apart : (n + 1).toNat ≠ 0 := fun zero => more (UInt64.toNat_inj.mp zero)
  rw [UInt64.toNat_add, UInt64.toNat_one] at apart ⊢
  have := n.toNat_lt
  omega

theorem ne_zero_iff {n : UInt64} : n ≠ 0 ↔ 1 ≤ n.toNat := by
  rw [ne_eq, ← UInt64.toNat_inj, UInt64.toNat_zero]
  omega

namespace Receiver

variable (c : Conf) (r : Receiver)

/-- A new receiver. -/
def new : Receiver := ⟨fun _ => .new, 1, 0, 0, false, .mEnabled⟩

/-! ### `receive` -/

/-- The test of `receive` that reinitialises the read position. -/
def disagree (num : UInt64) : Bool :=
  c.maxDifferens.toNat < distance num r.wnum || (c.cbufSize - 2).toNat ≤ distance r.wnum r.rnum

/-- The buffer after `m` was parsed into the slot of `wnum`. -/
def parsedInto (m : UDPMessage) : Nat → UDPMessage := Function.update r.cbuf (c.slot r.wnum) m

/-- The buffer after `m` was moved to its own slot and the number in the slot of `wnum` cleared. -/
def moved (m : UDPMessage) : Nat → UDPMessage :=
  let placed := Function.update (r.parsedInto c m) (c.slot m.num) m
  Function.update placed (c.slot r.wnum) ((placed (c.slot r.wnum)).setNum 0)

/-- `receive` of a valid packet that reinitialises. -/
def reinitialise (m : UDPMessage) : Receiver :=
  { r with
    lostPackets := r.lostPackets + if r.wnum < m.num then m.num - r.wnum - 1 else 1
    rnum := m.num
    wnum := m.num + 1
    cbuf := if m.num + 1 ≠ m.num then r.moved c m else r.parsedInto c m }

/-- `receive` of a valid packet that does not reinitialise. -/
def accept (m : UDPMessage) : Receiver :=
  let stored :=
    if m.num ≠ r.wnum then
      { r with cbuf := r.moved c m, wnum := if r.wnum ≤ m.num then m.num + 1 else r.wnum }
    else { r with cbuf := r.parsedInto c m, wnum := r.wnum + 1 }
  -- the packet is read where it was parsed, so a moved one shows the cleared number here
  { stored with rnum := if r.rnum = 0 then (stored.cbuf (c.slot r.wnum)).num else r.rnum }

/-- **`UNetReceiver::receive`.** -/
def receive : Datagram → Receiver × ReceiveRetCode
  | .failed => (r, .retError)
  | .empty => (r, .retNoData)
  | .unparsable left => ({ r with cbuf := r.parsedInto c left }, .retError)
  | .parsed m =>
    if m.isOk then
      (if r.disagree c m.num then r.reinitialise c m else r.accept c m, .retOK)
    else ({ r with cbuf := r.parsedInto c m }, .retError)

/-! ### `update` -/

/-- The search of `rnext` from `i` on. -/
def rnextFrom (num : UInt64) : Nat → UInt64 → UInt64
  | 0, _ => r.wnum
  | fuel + 1, i =>
    if i < r.wnum then
      if num < (r.cbuf (c.slot i)).num then i else rnextFrom num fuel (i + 1)
    else r.wnum

/-- **`UNetReceiver::rnext`.** -/
def rnext (num : UInt64) : UInt64 := r.rnextFrom c num (r.wnum - num).toNat (num + 1)

/-- **One turn of the loop of `update`**, with the packets handed over so far. -/
def updateTurn (expired : UInt64 → Bool) (u : Receiver × List UDPMessage) :
    Option (Receiver × List UDPMessage) :=
  let r := u.1
  if r.rnum < r.wnum then
    let p := r.cbuf (c.slot r.rnum)
    if p.num ≠ r.rnum then
      if expired r.rnum then
        some ({ r with
          lostPackets := r.lostPackets + if r.rnum < p.num then p.num - r.rnum else 1
          rnum := r.rnext c r.rnum }, u.2)
      else none
    else
      some ({ r with rnum := r.rnum + 1 },
        if r.lockUpdate || r.mode == .mDisabled then u.2 else u.2 ++ [p])
  else none

/-- **`UNetReceiver::update`**, with the packets it hands to the shared memory. -/
def update (expired : UInt64 → Bool) : Receiver × List UDPMessage :=
  if r.wnum = 1 ∧ r.rnum = 0 then (r, [])
  else Lib.loop (updateTurn c expired) (r.wnum - r.rnum).toNat (r, [])

/-- **`UNetReceiver::forceUpdate`.** -/
def forceUpdate : Receiver := { r with rnum := r.wnum - 1 }

/-! ### What a datagram and a turn can do -/

section

variable {c : Conf} {r : Receiver} {m : UDPMessage}

theorem parsedInto_apply (m : UDPMessage) (i : Nat) :
    r.parsedInto c m i = if i = c.slot r.wnum then m else r.cbuf i :=
  Function.update_apply ..

/-- A moved packet is in its own slot, unless that is the slot it was parsed into. -/
theorem moved_apply (m : UDPMessage) (i : Nat) : r.moved c m i =
    if i = c.slot r.wnum then m.setNum 0 else if i = c.slot m.num then m else r.cbuf i := by
  have here : Function.update (r.parsedInto c m) (c.slot m.num) m (c.slot r.wnum) = m := by
    rw [Function.update_apply, parsedInto_apply]
    split <;> simp
  simp only [moved, here]
  rw [Function.update_apply]
  split
  · rfl
  · rename_i apart
    rw [Function.update_apply, parsedInto_apply, if_neg apart]

theorem succ_ne (n : UInt64) : n + 1 ≠ n := by
  intro same
  have := congrArg UInt64.toNat same
  rw [UInt64.toNat_add] at this
  have := n.toNat_lt
  have one : (1 : UInt64).toNat = 1 := rfl
  omega

/-- **A reinitialisation** stands at the packet, which was moved. -/
theorem reinitialise_eq (m : UDPMessage) : r.reinitialise c m =
    { r with
      lostPackets := r.lostPackets + if r.wnum < m.num then m.num - r.wnum - 1 else 1
      rnum := m.num, wnum := m.num + 1, cbuf := r.moved c m } := by
  rw [reinitialise, if_pos (succ_ne m.num)]

/-- **An accepted packet** is the expected one, or it is moved and does not start the reading. -/
theorem accept_cases (m : UDPMessage) :
    (m.num = r.wnum ∧ r.accept c m = { r with
      cbuf := r.parsedInto c m
      wnum := r.wnum + 1
      rnum := if r.rnum = 0 then m.num else r.rnum }) ∨
    (m.num ≠ r.wnum ∧ r.accept c m = { r with
      cbuf := r.moved c m
      wnum := if r.wnum ≤ m.num then m.num + 1 else r.wnum }) := by
  by_cases same : m.num = r.wnum
  · refine .inl ⟨same, ?_⟩
    simp [accept, same, parsedInto_apply]
  · refine .inr ⟨same, ?_⟩
    have unread : (if r.rnum = 0 then 0 else r.rnum) = r.rnum := by
      split
      · rename_i zero
        exact zero.symm
      · rfl
    simp only [accept, if_pos same, moved_apply, if_pos, UDPMessage.setNum, unread]

/-- **What a datagram can do.** -/
theorem receive_cases (d : Datagram) :
    ((r.receive c d).1 = r ∧ ∀ m, d ≠ .parsed m) ∨
    (∃ left, (r.receive c d).1 = { r with cbuf := r.parsedInto c left } ∧
      (d = .unparsable left ∨ d = .parsed left ∧ left.isOk = false)) ∨
    (∃ m, d = .parsed m ∧ m.isOk = true ∧ r.disagree c m.num = true ∧
      (r.receive c d).1 = r.reinitialise c m) ∨
    (∃ m, d = .parsed m ∧ m.isOk = true ∧ r.disagree c m.num = false ∧
      (r.receive c d).1 = r.accept c m) := by
  cases d with
  | failed => exact .inl ⟨rfl, nofun⟩
  | empty => exact .inl ⟨rfl, nofun⟩
  | unparsable left => exact .inr (.inl ⟨left, rfl, .inl rfl⟩)
  | parsed m =>
    simp only [receive]
    cases ok : m.isOk with
    | false => exact .inr (.inl ⟨m, rfl, .inr ⟨rfl, ok⟩⟩)
    | true =>
      cases far : r.disagree c m.num with
      | true => exact .inr (.inr (.inl ⟨m, rfl, ok, far, rfl⟩))
      | false => exact .inr (.inr (.inr ⟨m, rfl, ok, far, rfl⟩))

theorem toNat_succ_of_lt {i w : UInt64} (below : i < w) : (i + 1).toNat = i.toNat + 1 := by
  rw [UInt64.toNat_add]
  have := UInt64.lt_iff_toNat_lt.mp below
  have := w.toNat_lt
  simp
  omega

theorem rnextFrom_bounds (num : UInt64) (fuel : Nat) {i : UInt64} (inside : i ≤ r.wnum) :
    i ≤ r.rnextFrom c num fuel i ∧ r.rnextFrom c num fuel i ≤ r.wnum := by
  induction fuel generalizing i with
  | zero => exact ⟨inside, UInt64.le_refl _⟩
  | succ fuel ih =>
    simp only [rnextFrom]
    split
    · rename_i below
      split
      · exact ⟨UInt64.le_refl _, inside⟩
      · have next := toNat_succ_of_lt below
        have : i + 1 ≤ r.wnum := by
          rw [UInt64.le_iff_toNat_le]
          have := UInt64.lt_iff_toNat_lt.mp below
          omega
        obtain ⟨lower, upper⟩ := ih this
        refine ⟨?_, upper⟩
        rw [UInt64.le_iff_toNat_le] at lower ⊢
        omega
    · exact ⟨inside, UInt64.le_refl _⟩

/-- **`rnext` moves on**, and not beyond the expected number. -/
theorem rnext_bounds {num : UInt64} (below : num < r.wnum) :
    num.toNat < (r.rnext c num).toNat ∧ (r.rnext c num).toNat ≤ r.wnum.toNat := by
  have next := toNat_succ_of_lt below
  have below := UInt64.lt_iff_toNat_lt.mp below
  have inside : num + 1 ≤ r.wnum := UInt64.le_iff_toNat_le.mpr (by omega)
  obtain ⟨lower, upper⟩ := rnextFrom_bounds (c := c) num (r.wnum - num).toNat inside
  rw [UInt64.le_iff_toNat_le] at lower upper
  exact ⟨by unfold rnext; omega, upper⟩

variable {expired : UInt64 → Bool} {u : Receiver × List UDPMessage}

/-- **What a turn can do**: a hole whose time has expired is skipped, or the packet of the read
position is read. -/
theorem updateTurn_cases {v : Receiver × List UDPMessage} (turn : updateTurn c expired u = some v) :
    u.1.rnum < u.1.wnum ∧
    (((u.1.cbuf (c.slot u.1.rnum)).num ≠ u.1.rnum ∧ expired u.1.rnum = true ∧ v.2 = u.2 ∧
        ∃ lost, v.1 = { u.1 with lostPackets := lost, rnum := u.1.rnext c u.1.rnum }) ∨
      ((u.1.cbuf (c.slot u.1.rnum)).num = u.1.rnum ∧ v.1 = { u.1 with rnum := u.1.rnum + 1 } ∧
        v.2 = if u.1.lockUpdate || u.1.mode == .mDisabled then u.2
          else u.2 ++ [u.1.cbuf (c.slot u.1.rnum)])) := by
  simp only [updateTurn] at turn
  split at turn
  · rename_i below
    refine ⟨below, ?_⟩
    split at turn
    · rename_i hole
      split at turn
      · rename_i time
        cases turn
        exact .inl ⟨hole, time, rfl, _, rfl⟩
      · cases turn
    · rename_i found
      cases turn
      exact .inr ⟨not_not.mp found, rfl, rfl⟩
  · cases turn

/-- **Where the loop ends**: at the expected number, or at a hole whose time has not expired. -/
theorem updateTurn_none (exit : updateTurn c expired u = none) (inside : u.1.rnum ≤ u.1.wnum) :
    u.1.rnum = u.1.wnum ∨
      ((u.1.cbuf (c.slot u.1.rnum)).num ≠ u.1.rnum ∧ expired u.1.rnum = false) := by
  simp only [updateTurn] at exit
  split at exit
  · split at exit
    · rename_i hole
      split at exit
      · cases exit
      · rename_i time
        exact .inr ⟨hole, Bool.eq_false_iff.mpr time⟩
    · cases exit
  · rename_i notBelow
    rw [UInt64.lt_iff_toNat_lt] at notBelow
    rw [UInt64.le_iff_toNat_le] at inside
    exact .inl (UInt64.toNat_inj.mp (by omega))

/-- Every turn brings the read position nearer to the expected number. -/
theorem updateTurn_drops {v : Receiver × List UDPMessage} (turn : updateTurn c expired u = some v) :
    v.1.wnum = u.1.wnum ∧
      u.1.rnum.toNat < v.1.rnum.toNat ∧ v.1.rnum.toNat ≤ v.1.wnum.toNat := by
  obtain ⟨below, ⟨-, -, -, lost, left⟩ | ⟨-, left, -⟩⟩ := updateTurn_cases turn
  · rw [left]
    exact ⟨rfl, rnext_bounds below⟩
  · rw [left]
    have next := toNat_succ_of_lt below
    have := UInt64.lt_iff_toNat_lt.mp below
    refine ⟨rfl, ?_, ?_⟩
    · show u.1.rnum.toNat < (u.1.rnum + 1).toNat
      omega
    · show (u.1.rnum + 1).toNat ≤ u.1.wnum.toNat
      omega

/-- **The call of `update`** keeps what every turn keeps. -/
theorem update_keeps {P : Receiver × List UDPMessage → Prop}
    (keeps : ∀ u v, ¬ (u.1.wnum = 1 ∧ u.1.rnum = 0) → P u → updateTurn c expired u = some v → P v)
    (initially : P (r, [])) : P (r.update c expired) := by
  unfold update
  split
  · exact initially
  · rename_i started
    refine (Lib.loop_keeps (P := fun u => ¬ (u.1.wnum = 1 ∧ u.1.rnum = 0) ∧ P u) ?_ _
      ⟨started, initially⟩).2
    rintro u v ⟨started, holds⟩ turn
    refine ⟨?_, keeps u v started holds turn⟩
    rintro ⟨-, zero⟩
    obtain ⟨-, on, -⟩ := updateTurn_drops turn
    rw [zero] at on
    exact absurd on (Nat.not_lt_zero _)

theorem update_position (r : Receiver) (expired : UInt64 → Bool) :
    (r.update c expired).1.cbuf = r.cbuf ∧ (r.update c expired).1.wnum = r.wnum ∧
      r.rnum ≤ (r.update c expired).1.rnum := by
  refine update_keeps (P := fun u => u.1.cbuf = r.cbuf ∧ u.1.wnum = r.wnum ∧ r.rnum ≤ u.1.rnum)
    ?_ ⟨rfl, rfl, UInt64.le_refl _⟩
  rintro u v - ⟨cbuf, wnum, on⟩ turn
  obtain ⟨same, further, -⟩ := updateTurn_drops turn
  refine ⟨?_, same.trans wnum, ?_⟩
  · obtain ⟨-, ⟨-, -, -, lost, left⟩ | ⟨-, left, -⟩⟩ := updateTurn_cases turn
    · rw [left]
      exact cbuf
    · rw [left]
      exact cbuf
  · rw [UInt64.le_iff_toNat_le] at on ⊢
    omega

/-- **The loop of `update` ends** after as many turns as the read position is behind. -/
theorem loop_ends {n : Nat} (enough : r.wnum.toNat - r.rnum.toNat ≤ n) :
    updateTurn c expired (Lib.loop (updateTurn c expired) n (r, [])) = none := by
  refine Lib.loop_exits (fun u => u.1.wnum.toNat - u.1.rnum.toNat) ?_ n enough
  intro u v turn
  obtain ⟨same, further, bound⟩ := updateTurn_drops turn
  rw [same] at bound ⊢
  omega

/-- The loop of `update` has ended when the call returns. -/
theorem update_exits (inside : r.rnum ≤ r.wnum) (started : ¬ (r.wnum = 1 ∧ r.rnum = 0)) :
    updateTurn c expired (r.update c expired) = none := by
  rw [update, if_neg started]
  refine loop_ends ?_
  rw [UInt64.toNat_sub_of_le _ _ inside]

end

end Receiver

/-! ### Runs -/

/-- The receiver with the packets it has accepted since the last reinitialisation, oldest first. -/
structure Reception where
  receiver : Receiver
  session : List UDPMessage

/-- One step of a run. -/
inductive Label
  | receive (d : Datagram)
  | update (expired : UInt64 → Bool)
  | forceUpdate
  | setLockUpdate (st : Bool)
  | setMode (mode : Mode)

/-- The packets accepted since the last reinitialisation, after one more datagram. -/
def Reception.sessionAfter (c : Conf) (w : Reception) : Datagram → List UDPMessage
  | .parsed m =>
    if m.isOk then if w.receiver.disagree c m.num then [m] else w.session ++ [m] else w.session
  | _ => w.session

/-- **One step.** -/
def Reception.step (c : Conf) (w : Reception) : Label → Reception
  | .receive d => ⟨(w.receiver.receive c d).1, w.sessionAfter c d⟩
  | .update expired => { w with receiver := (w.receiver.update c expired).1 }
  | .forceUpdate => { w with receiver := w.receiver.forceUpdate }
  | .setLockUpdate st => { w with receiver := { w.receiver with lockUpdate := st } }
  | .setMode mode => { w with receiver := { w.receiver with mode := mode } }

/-- **What a datagram can do**, with the packets accepted so far. -/
theorem Reception.received_cases (c : Conf) (w : Reception) (d : Datagram) :
    w.step c (.receive d) = w ∨
    (∃ left, w.step c (.receive d) =
        ⟨{ w.receiver with cbuf := w.receiver.parsedInto c left }, w.session⟩ ∧
      (d = .unparsable left ∨ d = .parsed left ∧ left.isOk = false)) ∨
    (∃ m, d = .parsed m ∧ m.isOk = true ∧ w.receiver.disagree c m.num = true ∧
      w.step c (.receive d) = ⟨w.receiver.reinitialise c m, [m]⟩) ∨
    (∃ m, d = .parsed m ∧ m.isOk = true ∧ w.receiver.disagree c m.num = false ∧
      w.step c (.receive d) = ⟨w.receiver.accept c m, w.session ++ [m]⟩) := by
  obtain ⟨same, invalid⟩ | ⟨left, after, which⟩ | ⟨m, rfl, ok, far, after⟩ |
    ⟨m, rfl, ok, near, after⟩ := Receiver.receive_cases (c := c) (r := w.receiver) d
  · refine .inl ?_
    have session : w.sessionAfter c d = w.session := by
      cases d with
      | parsed m => exact absurd rfl (invalid m)
      | _ => rfl
    rw [step, same, session]
  · refine .inr (.inl ⟨left, ?_, which⟩)
    have session : w.sessionAfter c d = w.session := by
      rcases which with rfl | ⟨rfl, bad⟩
      · rfl
      · simp [sessionAfter, bad]
    rw [step, after, session]
  · refine .inr (.inr (.inl ⟨m, rfl, ok, far, ?_⟩))
    rw [step, after]
    simp [sessionAfter, ok, far]
  · refine .inr (.inr (.inr ⟨m, rfl, ok, near, ?_⟩))
    rw [step, after]
    simp [sessionAfter, ok, near]

/-- **All runs of a new receiver.** -/
def machine (c : Conf) : Lib.Machine Reception Label where
  start w := w = ⟨.new, []⟩
  step w label := some (w.step c label)

end UniSet.UNet

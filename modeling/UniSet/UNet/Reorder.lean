/-
**Reordering: a window of packets arrives in any order between updates.**

The receiver has read everything, `rnum = wnum = s`, and the packets `s` to `s + k` arrive once each, in
any order, between updates during which the lost timeout does not expire. Every packet is parsed into
the slot of the next expected number first, so each arrival clears that slot; what the other slots
between `wnum` and `s + k` hold is left from earlier.

* `Tolerates` — the updates hand over exactly the packets, in order, and nothing is counted as lost.
* `Undisturbed` — no slot strictly inside the window holds its own number beforehand, the window ends
  below the last 64-bit number, and the receiver writes to the shared memory.
* `Window` — the invariant of the arrivals: what has arrived is stored, what has not is a hole.
* **`tolerates_iff`** — the one holds exactly if the other does; `left_behind_is_applied` is a state
  after a restart in which it does not.
-/

import Mathlib.Data.List.Nodup
import Mathlib.Data.List.Perm.Basic
import UniSet.UNet.Current

namespace UniSet.UNet

/-- What happens meanwhile. -/
inductive Event
  | arrival (m : UDPMessage)
  | update
deriving DecidableEq, Repr

/-- The packets that arrive. -/
def arrivals : List Event → List UDPMessage
  | [] => []
  | .arrival m :: rest => m :: arrivals rest
  | .update :: rest => arrivals rest

/-- One event, with the packets handed over so far; the lost timeout has not expired. -/
def Receiver.event (c : Conf) (u : Receiver × List UDPMessage) : Event → Receiver × List UDPMessage
  | .arrival m => ((u.1.receive c (.parsed m)).1, u.2)
  | .update =>
    let v := u.1.update c fun _ => false
    (v.1, u.2 ++ v.2)

/-- The events in order. -/
def Receiver.replay (c : Conf) (r : Receiver) (events : List Event) : Receiver × List UDPMessage :=
  events.foldl (Receiver.event c) (r, [])

/-- **Reordering is tolerated**: the packets `s` to `s + k`, in any order between updates, are handed
over in order and none is counted as lost. -/
def Tolerates (c : Conf) (r : Receiver) (k : Nat) : Prop :=
  ∀ packets : List UDPMessage, (∀ p ∈ packets, p.isOk = true) →
    packets.map (fun p => p.num.toNat) = List.range' r.wnum.toNat (k + 1) →
    ∀ events, (arrivals events).Perm packets →
      let u := r.replay c (events ++ [.update])
      u.2 = packets ∧ u.1.lostPackets = r.lostPackets ∧
        u.1.rnum.toNat = r.wnum.toNat + k + 1 ∧ u.1.wnum.toNat = r.wnum.toNat + k + 1

/-- **The condition** on the state before. -/
structure Undisturbed (c : Conf) (r : Receiver) (k : Nat) : Prop where
  unlocked : r.lockUpdate = false
  enabled : r.mode = .mEnabled
  fits : r.wnum.toNat + k + 1 < 2 ^ 64
  clear : ∀ num : UInt64, r.wnum < num → num.toNat < r.wnum.toNat + k →
    (r.cbuf (c.slot num)).num ≠ num

/-! ### `update` while the timeout has not expired -/

variable {c : Conf} {r : Receiver}

/-- **The specification of an update without expiry**: it reads the packets from the read position on
that carry their own numbers, up to the expected one or the first hole. -/
theorem Receiver.update_unexpired (inside : r.rnum ≤ r.wnum)
    (started : ¬ (r.wnum = 1 ∧ r.rnum = 0)) (unlocked : r.lockUpdate = false)
    (enabled : r.mode = .mEnabled) :
    ∃ rnum, r.rnum ≤ rnum ∧ rnum ≤ r.wnum ∧
      (r.update c fun _ => false) = ({ r with rnum := rnum },
        (List.range' r.rnum.toNat (rnum.toNat - r.rnum.toNat)).map
          fun i => r.cbuf (i % c.cbufSize.toNat)) ∧
      (∀ num, r.rnum ≤ num → num < rnum → (r.cbuf (c.slot num)).num = num) ∧
      (rnum = r.wnum ∨ (r.cbuf (c.slot rnum)).num ≠ rnum) := by
  have reads : ∃ rnum, r.rnum ≤ rnum ∧ rnum ≤ r.wnum ∧
      (r.update c fun _ => false) = ({ r with rnum := rnum },
        (List.range' r.rnum.toNat (rnum.toNat - r.rnum.toNat)).map
          fun i => r.cbuf (i % c.cbufSize.toNat)) ∧
      ∀ num, r.rnum ≤ num → num < rnum → (r.cbuf (c.slot num)).num = num := by
    refine update_keeps (P := fun u => ∃ rnum, r.rnum ≤ rnum ∧ rnum ≤ r.wnum ∧
      u = ({ r with rnum := rnum }, (List.range' r.rnum.toNat (rnum.toNat - r.rnum.toNat)).map
        fun i => r.cbuf (i % c.cbufSize.toNat)) ∧
      ∀ num, r.rnum ≤ num → num < rnum → (r.cbuf (c.slot num)).num = num) ?_ ?_
    · rintro u v - ⟨rnum, low, high, rfl, own⟩ turn
      obtain ⟨below, ⟨-, time, -⟩ | ⟨here, left, handed⟩⟩ := updateTurn_cases turn
      · cases time
      · have next := toNat_succ_of_lt below
        dsimp only at below next here left handed
        rw [unlocked, enabled] at handed
        rw [UInt64.lt_iff_toNat_lt] at below
        rw [UInt64.le_iff_toNat_le] at low
        refine ⟨rnum + 1, ?_, ?_, Prod.ext left ?_, ?_⟩
        · rw [UInt64.le_iff_toNat_le]
          omega
        · rw [UInt64.le_iff_toNat_le]
          omega
        · have one : (rnum + 1).toNat - r.rnum.toNat = rnum.toNat - r.rnum.toNat + 1 := by omega
          have last : r.rnum.toNat + (rnum.toNat - r.rnum.toNat) = rnum.toNat := by omega
          rw [handed, one, List.range'_1_concat, List.map_append, last]
          simp [Conf.slot]
        · intro num ahead behind
          rw [UInt64.lt_iff_toNat_lt] at behind
          by_cases same : num = rnum
          · rw [same]
            exact here
          · have apart : num.toNat ≠ rnum.toNat := fun equal => same (UInt64.toNat_inj.mp equal)
            exact own num ahead (UInt64.lt_iff_toNat_lt.mpr (by omega))
    · refine ⟨r.rnum, UInt64.le_refl _, inside, by simp, fun num ahead behind => ?_⟩
      rw [UInt64.le_iff_toNat_le] at ahead
      rw [UInt64.lt_iff_toNat_lt] at behind
      omega
  obtain ⟨rnum, low, high, updated, own⟩ := reads
  refine ⟨rnum, low, high, updated, own, ?_⟩
  have exit : updateTurn c (fun _ => false) (r.update c fun _ => false) = none :=
    update_exits inside started
  rw [updated] at exit
  exact (updateTurn_none exit high).imp id And.left

/-! ### The window -/

/-- **The invariant of the arrivals.** The packets `got` have arrived and are in their slots; the other
numbers below `wnum` are holes; those above it are not stored; what was handed over has arrived. -/
structure Window (c : Conf) (first : Receiver) (k : Nat) (got : List UDPMessage)
    (u : Receiver × List UDPMessage) : Prop where
  unlocked : u.1.lockUpdate = false
  enabled : u.1.mode = .mEnabled
  lost : u.1.lostPackets = first.lostPackets
  low : first.wnum ≤ u.1.rnum
  inside : u.1.rnum ≤ u.1.wnum
  high : u.1.wnum.toNat ≤ first.wnum.toNat + k + 1
  below : ∀ p ∈ got, p.num < u.1.wnum
  stored : ∀ p ∈ got, u.1.cbuf (c.slot p.num) = p
  holes : ∀ num, first.wnum ≤ num → num < u.1.wnum → (∀ p ∈ got, p.num ≠ num) →
    (u.1.cbuf (c.slot num)).num ≠ num
  clear : ∀ num, u.1.wnum < num → num.toNat < first.wnum.toNat + k →
    (u.1.cbuf (c.slot num)).num ≠ num
  numbers : u.2.map (fun p => p.num.toNat) =
    List.range' first.wnum.toNat (u.1.rnum.toNat - first.wnum.toNat)
  handed : ∀ p ∈ u.2, p ∈ got

variable {k s : Nat} {u : Receiver × List UDPMessage} {first : Receiver}

/-- The slots of the window and of its end are different. -/
theorem window_slot_inj (room : k + 4 ≤ c.cbufSize.toNat) {a b : UInt64} (aLow : s ≤ a.toNat)
    (aHigh : a.toNat ≤ s + k + 1) (bLow : s ≤ b.toNat) (bHigh : b.toNat ≤ s + k + 1)
    (same : c.slot a = c.slot b) : a = b := by
  rcases Nat.le_total a.toNat b.toNat with le | le
  · exact slot_inj le (by omega) same
  · exact (slot_inj le (by omega) same.symm).symm

/-- Inside the window no packet reinitialises. -/
theorem agree_of_window (near : k + 1 ≤ c.maxDifferens.toNat) (room : k + 4 ≤ c.cbufSize.toNat)
    {num : UInt64} (low : s ≤ num.toNat) (high : num.toNat ≤ s + k) (rLow : s ≤ r.rnum.toNat)
    (inside : r.rnum ≤ r.wnum) (wHigh : r.wnum.toNat ≤ s + k + 1) : r.disagree c num = false := by
  have apart : distance num r.wnum ≤ k + 1 := by
    rcases Nat.le_total num.toNat r.wnum.toNat with le | le
    · have := UInt64.toNat_sub_of_le _ _ (UInt64.le_iff_toNat_le.mpr le)
      have := UInt64.le_iff_toNat_le.mp inside
      unfold distance
      omega
    · have := UInt64.toNat_sub_of_le _ _ (UInt64.le_iff_toNat_le.mpr le)
      have := UInt64.le_iff_toNat_le.mp inside
      unfold distance
      omega
  have queued : distance r.wnum r.rnum ≤ k + 1 := by
    have := UInt64.toNat_sub_of_le _ _ inside
    unfold distance
    omega
  have two : (c.cbufSize - 2).toNat = c.cbufSize.toNat - 2 :=
    UInt64.toNat_sub_of_le _ _ (UInt64.le_iff_toNat_le.mpr (by
      show 2 ≤ c.cbufSize.toNat
      omega))
  simp only [Receiver.disagree, two, Bool.or_eq_false_iff, decide_eq_false_iff_not]
  omega

/-- **What an arrival inside the window does**: the packet is in its slot, the slot of the expected
number is cleared, and the window is as it was otherwise. -/
theorem Receiver.accept_window (room : k + 4 ≤ c.cbufSize.toNat) (fits : s + k + 1 < 2 ^ 64)
    {m : UDPMessage} (low : s ≤ m.num.toNat) (high : m.num.toNat ≤ s + k) (wLow : s ≤ r.wnum.toNat)
    (wHigh : r.wnum.toNat ≤ s + k + 1) (reading : r.rnum ≠ 0) :
    ∃ cbuf wnum, r.accept c m = { r with cbuf := cbuf, wnum := wnum } ∧
      wnum.toNat = max r.wnum.toNat (m.num.toNat + 1) ∧ cbuf (c.slot m.num) = m ∧
      (m.num ≠ r.wnum → (cbuf (c.slot r.wnum)).num = 0) ∧
      ∀ num : UInt64, s ≤ num.toNat → num.toNat ≤ s + k + 1 → num ≠ r.wnum → num ≠ m.num →
        cbuf (c.slot num) = r.cbuf (c.slot num) := by
  have next : (m.num + 1).toNat = m.num.toNat + 1 := by
    rw [UInt64.toNat_add]
    simp
    omega
  obtain ⟨here, stored⟩ | ⟨elsewhere, stored⟩ := accept_cases (c := c) (r := r) m
  · refine ⟨r.parsedInto c m, r.wnum + 1, ?_, ?_, ?_, fun apart => absurd here apart, ?_⟩
    · rw [stored, if_neg reading]
    · rw [← here, next]
      omega
    · rw [parsedInto_apply, if_pos (by rw [here])]
    · intro num nLow nHigh apart _
      rw [parsedInto_apply, if_neg]
      exact fun same => apart (window_slot_inj room nLow nHigh wLow wHigh same)
  · refine ⟨r.moved c m, _, stored, ?_, ?_, fun _ => ?_, ?_⟩
    · split
      · rename_i ahead
        rw [UInt64.le_iff_toNat_le] at ahead
        rw [next]
        omega
      · rename_i behind
        rw [UInt64.le_iff_toNat_le] at behind
        omega
    · rw [moved_apply, if_neg, if_pos rfl]
      exact fun same => elsewhere (window_slot_inj room low (by omega) wLow wHigh same)
    · rw [moved_apply, if_pos rfl]
      rfl
    · intro num nLow nHigh apart different
      rw [moved_apply, if_neg, if_neg]
      · exact fun same => different (window_slot_inj room nLow nHigh low (by omega) same)
      · exact fun same => apart (window_slot_inj room nLow nHigh wLow wHigh same)

section

variable {first : Receiver} {k : Nat} {got : List UDPMessage} {u : Receiver × List UDPMessage}
  {m : UDPMessage}

/-- **An arrival keeps the invariant.** -/
theorem Window.arrived (window : Window c first k got u) (positive : 1 ≤ first.wnum.toNat)
    (near : k + 1 ≤ c.maxDifferens.toNat) (room : k + 4 ≤ c.cbufSize.toNat)
    (fits : first.wnum.toNat + k + 1 < 2 ^ 64) (ok : m.isOk = true)
    (low : first.wnum.toNat ≤ m.num.toNat) (high : m.num.toNat ≤ first.wnum.toNat + k)
    (lows : ∀ p ∈ got, first.wnum.toNat ≤ p.num.toNat)
    (unique : ∀ p ∈ got, p.num = m.num → p = m) :
    Window c first k (m :: got) (Receiver.event c u (.arrival m)) := by
  have rLow := UInt64.le_iff_toNat_le.mp window.low
  have rIn := UInt64.le_iff_toNat_le.mp window.inside
  have wHigh := window.high
  have reading : u.1.rnum ≠ 0 := by
    intro zero
    rw [zero] at rLow
    exact absurd rLow (by simp; omega)
  have agree := agree_of_window near room low high rLow window.inside wHigh
  obtain ⟨cbuf, wnum, stored, isEnd, own, cleared, other⟩ := Receiver.accept_window
    room fits low high (by omega) wHigh reading
  have after : Receiver.event c u (.arrival m) = ({ u.1 with cbuf := cbuf, wnum := wnum }, u.2) := by
    simp only [Receiver.event, Receiver.receive, ok, agree, if_true, stored]
    simp
  rw [after]
  refine ⟨window.unlocked, window.enabled, window.lost, window.low, ?_, ?_, ?_, ?_, ?_, ?_,
    window.numbers, fun p member => List.mem_cons_of_mem _ (window.handed p member)⟩
  · rw [UInt64.le_iff_toNat_le]
    dsimp only
    omega
  · dsimp only
    omega
  · intro p member
    rw [UInt64.lt_iff_toNat_lt]
    dsimp only
    rcases List.mem_cons.mp member with rfl | old
    · omega
    · have := UInt64.lt_iff_toNat_lt.mp (window.below p old)
      omega
  · intro p member
    dsimp only
    by_cases same : p.num = m.num
    · rw [same, own]
      rcases List.mem_cons.mp member with rfl | old
      · rfl
      · exact (unique p old same).symm
    · have old : p ∈ got := (List.mem_cons.mp member).resolve_left fun equal => same (by rw [equal])
      have under := UInt64.lt_iff_toNat_lt.mp (window.below p old)
      have apart : p.num ≠ u.1.wnum := fun equal => by
        rw [equal] at under
        omega
      rw [other p.num (lows p old) (by omega) apart same]
      exact window.stored p old
  · intro num low under missing
    have apart : num ≠ m.num := fun same => missing m (List.mem_cons_self ..) same.symm
    have distinct : num.toNat ≠ m.num.toNat := fun same => apart (UInt64.toNat_inj.mp same)
    rw [UInt64.lt_iff_toNat_lt] at under
    dsimp only at under ⊢
    by_cases expected : num = u.1.wnum
    · rw [expected] at apart ⊢
      rw [cleared apart.symm]
      intro zero
      rw [← zero] at rIn
      exact absurd rIn (by simp; omega)
    · have different : num.toNat ≠ u.1.wnum.toNat := fun same =>
        expected (UInt64.toNat_inj.mp same)
      rw [other num (UInt64.le_iff_toNat_le.mp low) (by omega) expected apart]
      rcases Nat.lt_or_ge num.toNat u.1.wnum.toNat with before | after
      · exact window.holes num low (UInt64.lt_iff_toNat_lt.mpr before)
          fun p member => missing p (List.mem_cons_of_mem _ member)
      · exact window.clear num (UInt64.lt_iff_toNat_lt.mpr (by omega)) (by omega)
  · intro num beyond under
    rw [UInt64.lt_iff_toNat_lt] at beyond
    dsimp only at beyond ⊢
    rw [other num (by omega) (by omega) (fun same => by rw [same] at beyond; omega)
      (fun same => by rw [same] at beyond; omega)]
    exact window.clear num (UInt64.lt_iff_toNat_lt.mpr (by omega)) under

/-- **What is read carries its own number.** -/
theorem Window.reads (window : Window c first k got u) {rnum : UInt64} (inside : rnum.toNat ≤ u.1.wnum.toNat)
    (own : ∀ num : UInt64, u.1.rnum ≤ num → num < rnum → (u.1.cbuf (c.slot num)).num = num) :
    ∀ i ∈ List.range' u.1.rnum.toNat (rnum.toNat - u.1.rnum.toNat),
      ∃ num : UInt64, num.toNat = i ∧ first.wnum ≤ num ∧ num < u.1.wnum ∧ (u.1.cbuf (c.slot num)).num = num := by
  intro i member
  have rLow := UInt64.le_iff_toNat_le.mp window.low
  rw [List.mem_range'_1] at member
  have size := u.1.wnum.toNat_lt
  have same : (UInt64.ofNat i).toNat = i := UInt64.toNat_ofNat_of_lt' (by
    show i < 2 ^ 64
    omega)
  refine ⟨UInt64.ofNat i, same, ?_, ?_, own _ ?_ ?_⟩
  · rw [UInt64.le_iff_toNat_le]
    omega
  · rw [UInt64.lt_iff_toNat_lt]
    omega
  · rw [UInt64.le_iff_toNat_le]
    omega
  · rw [UInt64.lt_iff_toNat_lt]
    omega

/-- **An update keeps the invariant**, and stops at the expected number or at a packet that has not
arrived. -/
theorem Window.updated (window : Window c first k got u) (positive : 1 ≤ first.wnum.toNat) :
    Window c first k got (Receiver.event c u .update) ∧
      ((Receiver.event c u .update).1.rnum = (Receiver.event c u .update).1.wnum ∨
        ∀ p ∈ got, p.num ≠ (Receiver.event c u .update).1.rnum) := by
  have rLow := UInt64.le_iff_toNat_le.mp window.low
  have started : ¬ (u.1.wnum = 1 ∧ u.1.rnum = 0) := by
    rintro ⟨-, zero⟩
    rw [zero] at rLow
    exact absurd rLow (by simp; omega)
  obtain ⟨rnum, on, inside, updated, own, stop⟩ := Receiver.update_unexpired (c := c)
    window.inside started window.unlocked window.enabled
  have after : Receiver.event c u .update = ({ u.1 with rnum := rnum },
      u.2 ++ (List.range' u.1.rnum.toNat (rnum.toNat - u.1.rnum.toNat)).map
        fun i => u.1.cbuf (i % c.cbufSize.toNat)) := by
    simp only [Receiver.event, updated]
  have ahead := UInt64.le_iff_toNat_le.mp on
  have below := UInt64.le_iff_toNat_le.mp inside
  have reads := window.reads below own
  rw [after]
  refine ⟨⟨window.unlocked, window.enabled, window.lost, UInt64.le_trans window.low on, inside,
    window.high, window.below, window.stored, window.holes, window.clear, ?_, ?_⟩, ?_⟩
  · have joined := List.range'_append_1 (s := first.wnum.toNat)
      (m := u.1.rnum.toNat - first.wnum.toNat) (n := rnum.toNat - u.1.rnum.toNat)
    have start : first.wnum.toNat + (u.1.rnum.toNat - first.wnum.toNat) = u.1.rnum.toNat := by omega
    have total : u.1.rnum.toNat - first.wnum.toNat + (rnum.toNat - u.1.rnum.toNat) =
        rnum.toNat - first.wnum.toNat := by omega
    rw [start, total] at joined
    dsimp only
    rw [List.map_append, window.numbers, ← joined, List.map_map]
    congr 1
    refine (List.map_congr_left fun i member => ?_).trans (List.map_id _)
    obtain ⟨num, rfl, -, -, same⟩ := reads i member
    exact congrArg UInt64.toNat same
  · intro p member
    rcases List.mem_append.mp member with old | new
    · exact window.handed p old
    · obtain ⟨i, inRange, rfl⟩ := List.mem_map.mp new
      obtain ⟨num, rfl, low, under, same⟩ := reads i inRange
      obtain ⟨p, arrived, equal⟩ : ∃ p ∈ got, p.num = num := by
        by_contra missing
        exact window.holes num low under (fun p member equal => missing ⟨p, member, equal⟩) same
      show u.1.cbuf (c.slot num) ∈ got
      rw [← equal, window.stored p arrived]
      exact arrived
  · refine stop.imp id fun hole p member same => hole ?_
    dsimp only at same
    rw [← same, window.stored p member]

end

/-! ### The condition is enough -/

section

variable {k : Nat} {packets : List UDPMessage}

theorem packet_bounds (numbers : packets.map (fun p => p.num.toNat) = List.range' s (k + 1))
    {p : UDPMessage} (member : p ∈ packets) : s ≤ p.num.toNat ∧ p.num.toNat ≤ s + k := by
  have inRange : p.num.toNat ∈ List.range' s (k + 1) := by
    rw [← numbers]
    exact List.mem_map_of_mem member
  rw [List.mem_range'_1] at inRange
  omega

/-- Packets of one number are the same packet. -/
theorem packet_unique (numbers : packets.map (fun p => p.num.toNat) = List.range' s (k + 1))
    {p q : UDPMessage} (hasP : p ∈ packets) (hasQ : q ∈ packets)
    (same : p.num.toNat = q.num.toNat) : p = q := by
  have distinct : (packets.map fun p => p.num.toNat).Nodup := by
    rw [numbers]
    exact List.nodup_range'
  exact List.inj_on_of_nodup_map distinct hasP hasQ same

/-- **A run of arrivals and updates keeps the invariant.** -/
theorem Window.run (positive : 1 ≤ first.wnum.toNat) (near : k + 1 ≤ c.maxDifferens.toNat)
    (room : k + 4 ≤ c.cbufSize.toNat) (fits : first.wnum.toNat + k + 1 < 2 ^ 64)
    (valid : ∀ p ∈ packets, p.isOk = true)
    (numbers : packets.map (fun p => p.num.toNat) = List.range' first.wnum.toNat (k + 1))
    {events : List Event} {got : List UDPMessage} (window : Window c first k got u)
    (known : ∀ p ∈ got, p ∈ packets) (coming : ∀ p ∈ arrivals events, p ∈ packets) :
    ∃ all, Window c first k all (events.foldl (Receiver.event c) u) ∧ (∀ p ∈ all, p ∈ packets) ∧
      (∀ p ∈ got, p ∈ all) ∧ ∀ p ∈ arrivals events, p ∈ all := by
  induction events generalizing got u with
  | nil => exact ⟨got, window, known, fun p member => member, nofun⟩
  | cons event rest ih =>
    cases event with
    | arrival m =>
      have isPacket : m ∈ packets := coming m (List.mem_cons_self ..)
      obtain ⟨low, high⟩ := packet_bounds numbers isPacket
      have after := window.arrived positive near room fits (valid m isPacket) low high
        (fun p member => (packet_bounds numbers (known p member)).1)
        (fun p member same => packet_unique numbers (known p member) isPacket (by rw [same]))
      obtain ⟨all, final, inside, kept, arrived⟩ := ih after
        (fun p member => (List.mem_cons.mp member).elim (fun same => same ▸ isPacket) (known p))
        (fun p member => coming p (List.mem_cons_of_mem _ member))
      refine ⟨all, final, inside, fun p member => kept p (List.mem_cons_of_mem _ member), ?_⟩
      intro p member
      rcases List.mem_cons.mp member with rfl | later
      · exact kept p (List.mem_cons_self ..)
      · exact arrived p later
    | update =>
      obtain ⟨all, final, inside, kept, arrived⟩ := ih (window.updated positive).1 known coming
      exact ⟨all, final, inside, kept, arrived⟩

theorem Undisturbed.window (undisturbed : Undisturbed c r k) (equal : r.rnum = r.wnum) :
    Window c r k [] (r, []) where
  unlocked := undisturbed.unlocked
  enabled := undisturbed.enabled
  lost := rfl
  low := by rw [equal]; exact UInt64.le_refl _
  inside := by rw [equal]; exact UInt64.le_refl _
  high := by dsimp only; omega
  below := nofun
  stored := nofun
  holes num low under := absurd under (UInt64.not_lt.mpr low)
  clear := undisturbed.clear
  numbers := by simp [equal]
  handed := nofun

/-- **The condition is enough.** -/
theorem Undisturbed.tolerates (undisturbed : Undisturbed c r k) (equal : r.rnum = r.wnum)
    (positive : 1 ≤ r.wnum.toNat) (near : k + 1 ≤ c.maxDifferens.toNat)
    (room : k + 4 ≤ c.cbufSize.toNat) : Tolerates c r k := by
  intro packets valid numbers events perm
  obtain ⟨all, window, known, -, arrived⟩ := (undisturbed.window equal).run positive near room
    undisturbed.fits valid numbers nofun (fun p member => perm.mem_iff.mp member)
  obtain ⟨final, stop⟩ := window.updated positive
  have complete : ∀ p ∈ packets, p ∈ all := fun p member => arrived p (perm.mem_iff.mpr member)
  have replayed : r.replay c (events ++ [.update]) =
      Receiver.event c (events.foldl (Receiver.event c) (r, [])) .update := by
    rw [Receiver.replay, List.foldl_append]
    rfl
  simp only [replayed]
  generalize Receiver.event c (events.foldl (Receiver.event c) (r, [])) .update = u at final stop ⊢
  have number : ∀ i, i ≤ k → ∃ p ∈ packets, p.num.toNat = r.wnum.toNat + i := by
    intro i le
    have inRange : r.wnum.toNat + i ∈ packets.map fun p => p.num.toNat := by
      rw [numbers, List.mem_range'_1]
      omega
    obtain ⟨p, member, same⟩ := List.mem_map.mp inRange
    exact ⟨p, member, same⟩
  have wnum : u.1.wnum.toNat = r.wnum.toNat + k + 1 := by
    obtain ⟨p, member, last⟩ := number k (Nat.le_refl k)
    have := UInt64.lt_iff_toNat_lt.mp (final.below p (complete p member))
    have := final.high
    omega
  have rnum : u.1.rnum.toNat = r.wnum.toNat + k + 1 := by
    rcases stop with done | missing
    · rw [done, wnum]
    · have low := UInt64.le_iff_toNat_le.mp final.low
      have inside := UInt64.le_iff_toNat_le.mp final.inside
      by_contra early
      obtain ⟨p, member, same⟩ := number (u.1.rnum.toNat - r.wnum.toNat) (by omega)
      exact missing p (complete p member) (UInt64.toNat_inj.mp (by omega))
  refine ⟨?_, final.lost, rnum, wnum⟩
  have keys : u.2.map (fun p => p.num.toNat) = packets.map fun p => p.num.toNat := by
    rw [final.numbers, numbers, rnum]
    congr 1
    omega
  have length : u.2.length = packets.length := by
    simpa using congrArg List.length keys
  refine List.ext_getElem length fun i inU inPackets => ?_
  refine packet_unique numbers (known _ (final.handed _ (List.getElem_mem inU)))
    (List.getElem_mem inPackets) ?_
  have := List.getElem_of_eq keys (by simpa using inU : i < _)
  simpa using this

end

/-! ### The condition is needed -/

/-- Packets of given data, for any number. -/
def filled (data : UNetData) (i : Nat) : UDPMessage := ⟨magicNum, UInt64.ofNat i, 0, 0, data⟩

theorem filled_num {i : Nat} (fits : i < 2 ^ 64) (data : UNetData) :
    (filled data i).num.toNat = i :=
  UInt64.toNat_ofNat_of_lt' fits

theorem filled_numbers (fits : s + k < 2 ^ 64) (data : UNetData) :
    ((List.range' s (k + 1)).map (filled data)).map (fun p => p.num.toNat) =
      List.range' s (k + 1) := by
  rw [List.map_map]
  refine (List.map_congr_left fun i member => ?_).trans (List.map_id _)
  rw [List.mem_range'_1] at member
  exact filled_num (by omega) data

theorem arrivals_append (l₁ l₂ : List Event) :
    arrivals (l₁ ++ l₂) = arrivals l₁ ++ arrivals l₂ := by
  induction l₁ with
  | nil => rfl
  | cons event rest ih =>
    cases event with
    | arrival m => simp [arrivals, ih]
    | update => simp [arrivals, ih]

theorem arrivals_map (l : List UDPMessage) : arrivals (l.map Event.arrival) = l := by
  induction l with
  | nil => rfl
  | cons m rest ih => simp [arrivals, ih]

theorem replay_grows {p : UDPMessage} (member : p ∈ u.2) (events : List Event) :
    p ∈ (events.foldl (Receiver.event c) u).2 := by
  induction events generalizing u with
  | nil => exact member
  | cons event rest ih =>
    refine ih ?_
    cases event with
    | arrival m => exact member
    | update => exact List.mem_append_left _ member

theorem Receiver.receive_settings (d : Datagram) :
    (r.receive c d).1.lockUpdate = r.lockUpdate ∧ (r.receive c d).1.mode = r.mode := by
  obtain ⟨same, -⟩ | ⟨left, after, -⟩ | ⟨m, -, -, -, after⟩ | ⟨m, -, -, -, after⟩ :=
    receive_cases (c := c) (r := r) d
  · rw [same]
    exact ⟨rfl, rfl⟩
  · rw [after]
    exact ⟨rfl, rfl⟩
  · rw [after, reinitialise_eq]
    exact ⟨rfl, rfl⟩
  · rw [after]
    obtain ⟨-, stored⟩ | ⟨-, stored⟩ := accept_cases (c := c) (r := r) m
    · rw [stored]
      exact ⟨rfl, rfl⟩
    · rw [stored]
      exact ⟨rfl, rfl⟩

/-- **A locked or disabled receiver hands nothing over.** -/
theorem replay_locked (locked : (u.1.lockUpdate || u.1.mode == .mDisabled) = true)
    (events : List Event) :
    (events.foldl (Receiver.event c) u).2 = u.2 := by
  induction events generalizing u with
  | nil => rfl
  | cons event rest ih =>
    cases event with
    | arrival m =>
      obtain ⟨lock, mode⟩ := Receiver.receive_settings (c := c) (r := u.1) (.parsed m)
      refine ih (u := Receiver.event c u (.arrival m)) ?_
      simp only [Receiver.event, lock, mode]
      exact locked
    | update =>
      have quiet : ((u.1.update c fun _ => false).1.lockUpdate ||
          (u.1.update c fun _ => false).1.mode == .mDisabled) = true ∧
          (u.1.update c fun _ => false).2 = [] := by
        refine Receiver.update_keeps (P := fun v =>
          (v.1.lockUpdate || v.1.mode == .mDisabled) = true ∧ v.2 = []) ?_ ⟨locked, rfl⟩
        rintro v w - ⟨locked, none⟩ turn
        obtain ⟨-, ⟨-, -, kept, lost, left⟩ | ⟨-, left, handed⟩⟩ := Receiver.updateTurn_cases turn
        · rw [left, kept]
          exact ⟨locked, none⟩
        · rw [left, handed, if_pos locked]
          exact ⟨locked, none⟩
      have after := ih (u := Receiver.event c u .update) quiet.1
      rw [List.foldl_cons, after]
      simp [Receiver.event, quiet.2]

/-- Empty packets that arrive in order, without an update before the last. -/
theorem Tolerates.inOrder (tolerates : Tolerates c r k) (fits : r.wnum.toNat + k < 2 ^ 64) :
    ∃ events, (r.replay c events).2.length = k + 1 ∧
      (r.replay c events).1.wnum.toNat = r.wnum.toNat + k + 1 := by
  let packets := (List.range' r.wnum.toNat (k + 1)).map (filled ⟨[], [], [], []⟩)
  have valid : ∀ p ∈ packets, p.isOk = true := by
    intro p member
    obtain ⟨i, -, rfl⟩ := List.mem_map.mp member
    rfl
  obtain ⟨handed, -, -, wnum⟩ := tolerates packets valid (filled_numbers fits _)
    (packets.map Event.arrival) (by rw [arrivals_map])
  refine ⟨_, ?_, wnum⟩
  rw [handed]
  simp [packets]

theorem Tolerates.writes (tolerates : Tolerates c r k) (fits : r.wnum.toNat + k < 2 ^ 64) :
    r.lockUpdate = false ∧ r.mode = .mEnabled := by
  by_contra locked
  have locked : (r.lockUpdate || r.mode == .mDisabled) = true := by
    cases lock : r.lockUpdate with
    | true => rfl
    | false =>
      cases mode : r.mode with
      | mEnabled => exact absurd ⟨lock, mode⟩ locked
      | mDisabled => rfl
  obtain ⟨events, length, -⟩ := tolerates.inOrder fits
  rw [Receiver.replay, replay_locked (u := (r, [])) locked] at length
  cases length

/-- The last packet of the window and then its first `t` packets have arrived; the slot of `old` is as
it was at the beginning. -/
structure Leading (c : Conf) (first : Receiver) (k : Nat) (old : UInt64) (t : Nat)
    (r : Receiver) : Prop where
  unlocked : r.lockUpdate = false
  enabled : r.mode = .mEnabled
  rnum : r.rnum = first.wnum
  wnum : r.wnum.toNat = first.wnum.toNat + k + 1
  own : ∀ num : UInt64, first.wnum.toNat ≤ num.toNat → num.toNat < first.wnum.toNat + t →
    (r.cbuf (c.slot num)).num = num
  left : r.cbuf (c.slot old) = first.cbuf (c.slot old)

section

variable {k : Nat} {old : UInt64}

theorem Leading.start (equal : r.rnum = r.wnum) (positive : 1 ≤ r.wnum.toNat)
    (near : k + 1 ≤ c.maxDifferens.toNat) (room : k + 4 ≤ c.cbufSize.toNat)
    (fits : r.wnum.toNat + k + 1 < 2 ^ 64) (unlocked : r.lockUpdate = false)
    (enabled : r.mode = .mEnabled) (above : r.wnum < old) (below : old.toNat < r.wnum.toNat + k)
    (data : UNetData) :
    Leading c r k old 0 (r.receive c (.parsed (filled data (r.wnum.toNat + k)))).1 := by
  have number := filled_num (i := r.wnum.toNat + k) (by omega) data
  have inside : r.rnum ≤ r.wnum := by
    rw [equal]
    exact UInt64.le_refl _
  have reading : r.rnum ≠ 0 := by
    intro zero
    rw [← equal, zero] at positive
    exact absurd positive (by decide)
  have agree : r.disagree c (filled data (r.wnum.toNat + k)).num = false :=
    agree_of_window (s := r.wnum.toNat) near room (by omega) (by omega) (by rw [equal]) inside
      (by omega)
  obtain ⟨cbuf, wnum, stored, isEnd, -, -, other⟩ := Receiver.accept_window (r := r)
    (m := filled data (r.wnum.toNat + k)) room fits (by omega) (by omega) (Nat.le_refl _)
    (by omega) reading
  have after : (r.receive c (.parsed (filled data (r.wnum.toNat + k)))).1 =
      { r with cbuf := cbuf, wnum := wnum } := by
    simp only [Receiver.receive, agree, ← stored]
    rfl
  rw [after]
  have aboveNat := UInt64.lt_iff_toNat_lt.mp above
  refine ⟨unlocked, enabled, equal, ?_, ?_, ?_⟩
  · dsimp only
    omega
  · intro num low high
    omega
  · refine other old (by omega) (by omega) ?_ ?_
    · rintro rfl
      omega
    · intro same
      rw [← same] at number
      omega

theorem Leading.next {t : Nat} (leading : Leading c first k old t r)
    (positive : 1 ≤ first.wnum.toNat) (near : k + 1 ≤ c.maxDifferens.toNat)
    (room : k + 4 ≤ c.cbufSize.toNat) (fits : first.wnum.toNat + k + 1 < 2 ^ 64)
    (before : first.wnum.toNat + t < old.toNat) (below : old.toNat < first.wnum.toNat + k)
    (data : UNetData) :
    Leading c first k old (t + 1)
      (r.receive c (.parsed (filled data (first.wnum.toNat + t)))).1 := by
  have number := filled_num (i := first.wnum.toNat + t) (by omega) data
  have rnum : r.rnum.toNat = first.wnum.toNat := congrArg UInt64.toNat leading.rnum
  have wnum := leading.wnum
  have inside : r.rnum ≤ r.wnum := UInt64.le_iff_toNat_le.mpr (by omega)
  have reading : r.rnum ≠ 0 := by
    intro zero
    rw [zero] at rnum
    exact absurd rnum (by simp; omega)
  have agree : r.disagree c (filled data (first.wnum.toNat + t)).num = false :=
    agree_of_window (s := first.wnum.toNat) near room (by omega) (by omega) (by omega) inside
      (by omega)
  obtain ⟨cbuf, wnum', stored, isEnd, own, -, other⟩ := Receiver.accept_window (r := r)
    (m := filled data (first.wnum.toNat + t)) (s := first.wnum.toNat) room fits (by omega)
    (by omega) (by omega) (by omega) reading
  have after : (r.receive c (.parsed (filled data (first.wnum.toNat + t)))).1 =
      { r with cbuf := cbuf, wnum := wnum' } := by
    simp only [Receiver.receive, agree, ← stored]
    rfl
  rw [after]
  refine ⟨leading.unlocked, leading.enabled, leading.rnum, ?_, ?_, ?_⟩
  · dsimp only
    omega
  · intro num low high
    dsimp only
    by_cases same : num = (filled data (first.wnum.toNat + t)).num
    · rw [same, own]
    · have apart : num.toNat ≠ first.wnum.toNat + t := fun equal =>
        same (UInt64.toNat_inj.mp (equal.trans number.symm))
      have notEnd : num ≠ r.wnum := by
        rintro rfl
        omega
      rw [other num low (by omega) notEnd same]
      exact leading.own num low (by omega)
  · dsimp only
    rw [other old (by omega) (by omega), leading.left]
    · rintro rfl
      omega
    · intro same
      rw [← same] at number
      omega

/-- The packets of the window up to `old` arrive. -/
theorem Leading.run (positive : 1 ≤ first.wnum.toNat) (near : k + 1 ≤ c.maxDifferens.toNat)
    (room : k + 4 ≤ c.cbufSize.toNat) (fits : first.wnum.toNat + k + 1 < 2 ^ 64)
    (below : old.toNat < first.wnum.toNat + k) (data : UNetData) (n : Nat) {t : Nat}
    (end_ : first.wnum.toNat + t + n ≤ old.toNat) (leading : Leading c first k old t r)
    (sent : List UDPMessage) :
    ∃ r', (((List.range' (first.wnum.toNat + t) n).map (filled data)).map Event.arrival).foldl
        (Receiver.event c) (r, sent) = (r', sent) ∧ Leading c first k old (t + n) r' := by
  induction n generalizing t r with
  | zero => exact ⟨r, rfl, leading⟩
  | succ n ih =>
    have step := leading.next positive near room fits (by omega) below data
    obtain ⟨r', ran, final⟩ := ih (by omega) step
    refine ⟨r', ?_, ?_⟩
    · rw [List.range'_succ]
      exact ran
    · rw [← Nat.add_assoc, Nat.add_right_comm]
      exact final

/-- **An update reads on over what was left behind**, once the packets before it have arrived. -/
theorem Leading.update_passes {t : Nat} (leading : Leading c first k old t r)
    (positive : 1 ≤ first.wnum.toNat) (reached : first.wnum.toNat + t = old.toNat)
    (below : old.toNat < first.wnum.toNat + k) (left : (first.cbuf (c.slot old)).num = old) :
    first.cbuf (c.slot old) ∈ (r.update c fun _ => false).2 := by
  have rnum : r.rnum.toNat = first.wnum.toNat := congrArg UInt64.toNat leading.rnum
  have wnum := leading.wnum
  have started : ¬ (r.wnum = 1 ∧ r.rnum = 0) := by
    rintro ⟨-, zero⟩
    rw [zero] at rnum
    exact absurd rnum (by simp; omega)
  obtain ⟨stopAt, on, -, updated, -, stop⟩ := Receiver.update_unexpired (c := c)
    (UInt64.le_iff_toNat_le.mpr (by omega)) started leading.unlocked leading.enabled
  have passed : old.toNat < stopAt.toNat := by
    rcases stop with done | hole
    · rw [done]
      omega
    · by_contra before
      refine hole ?_
      by_cases same : stopAt = old
      · rw [same, leading.left]
        exact left
      · have apart : stopAt.toNat ≠ old.toNat := fun equal => same (UInt64.toNat_inj.mp equal)
        have low := UInt64.le_iff_toNat_le.mp on
        exact leading.own stopAt (by omega) (by omega)
  rw [updated]
  refine List.mem_map.mpr ⟨old.toNat, ?_, leading.left⟩
  rw [List.mem_range'_1]
  omega

/-- **A number left behind is read in place of its packet.** The last packet of the window arrives
first, then those before `old`; an update reads on over `old`. -/
theorem Tolerates.clear (tolerates : Tolerates c r k) (equal : r.rnum = r.wnum)
    (positive : 1 ≤ r.wnum.toNat) (near : k + 1 ≤ c.maxDifferens.toNat)
    (room : k + 4 ≤ c.cbufSize.toNat) (fits : r.wnum.toNat + k + 1 < 2 ^ 64)
    (unlocked : r.lockUpdate = false) (enabled : r.mode = .mEnabled) (above : r.wnum < old)
    (below : old.toNat < r.wnum.toNat + k) : (r.cbuf (c.slot old)).num ≠ old := by
  intro left
  -- packets whose data differ from what was left
  let data : UNetData := { (r.cbuf (c.slot old)).data with
    aID := 0 :: (r.cbuf (c.slot old)).data.aID }
  let head := (List.range' r.wnum.toNat (old.toNat - r.wnum.toNat)).map (filled data)
  let tail := (List.range' old.toNat (r.wnum.toNat + k - old.toNat)).map (filled data)
  let last := filled data (r.wnum.toNat + k)
  have aboveNat := UInt64.lt_iff_toNat_lt.mp above
  have packets : (List.range' r.wnum.toNat (k + 1)).map (filled data) = head ++ tail ++ [last] := by
    have joined := List.range'_append_1 (s := r.wnum.toNat) (m := old.toNat - r.wnum.toNat)
      (n := r.wnum.toNat + k - old.toNat)
    have start : r.wnum.toNat + (old.toNat - r.wnum.toNat) = old.toNat := by omega
    have total : old.toNat - r.wnum.toNat + (r.wnum.toNat + k - old.toNat) = k := by omega
    rw [start, total] at joined
    rw [List.range'_1_concat, ← joined]
    simp [head, tail, last]
  have valid : ∀ p ∈ head ++ tail ++ [last], p.isOk = true := by
    rw [← packets]
    intro p member
    obtain ⟨i, -, rfl⟩ := List.mem_map.mp member
    rfl
  let early := Event.arrival last :: head.map Event.arrival ++ [Event.update]
  have schedule : (arrivals (early ++ tail.map Event.arrival)).Perm (head ++ tail ++ [last]) := by
    have order : arrivals (early ++ tail.map Event.arrival) = last :: (head ++ tail) := by
      simp [early, arrivals, arrivals_append, arrivals_map]
    rw [order]
    exact (List.perm_append_singleton last _).symm
  obtain ⟨handed, -⟩ := tolerates (head ++ tail ++ [last]) valid
    (by rw [← packets]; exact filled_numbers (by omega) data) _ schedule
  -- the state at the update
  have leading := Leading.start (c := c) equal positive near room fits unlocked enabled above below
    data
  obtain ⟨r', ran, leading⟩ := Leading.run positive near room fits below data
    (old.toNat - r.wnum.toNat) (t := 0) (by omega) leading []
  have update := leading.update_passes positive (by omega) below left
  have atUpdate : early.foldl (Receiver.event c) (r, []) = r'.update c fun _ => false := by
    have before : (head.map Event.arrival).foldl (Receiver.event c)
        (Receiver.event c (r, []) (.arrival last)) = (r', []) := ran
    simp only [early, List.cons_append, List.foldl_cons, List.foldl_append, List.foldl_nil, before]
    simp only [Receiver.event, List.nil_append]
  have read : r.cbuf (c.slot old) ∈ (early.foldl (Receiver.event c) (r, [])).2 := by
    rw [atUpdate]
    exact update
  have final := replay_grows (c := c) read (tail.map Event.arrival ++ [Event.update])
  rw [← List.foldl_append, ← List.append_assoc] at final
  rw [Receiver.replay] at handed
  rw [handed, ← packets] at final
  obtain ⟨i, -, same⟩ := List.mem_map.mp final
  have lengths := congrArg (fun m : UDPMessage => m.data.aID.length) same
  simp [filled, data] at lengths

end

/-! ### The result -/

/-- **Reordering is tolerated exactly when nothing was left behind.** For a receiver that has read
everything and a window that both limits of `receive` allow. -/
theorem tolerates_iff (c : Conf) (r : Receiver) (k : Nat) (equal : r.rnum = r.wnum)
    (positive : 1 ≤ r.wnum) (near : k + 1 ≤ c.maxDifferens.toNat)
    (room : k + 4 ≤ c.cbufSize.toNat) (numbers : r.wnum.toNat + k < 2 ^ 64) :
    Tolerates c r k ↔ Undisturbed c r k := by
  have positive : 1 ≤ r.wnum.toNat := UInt64.le_iff_toNat_le.mp positive
  constructor
  · intro tolerates
    obtain ⟨unlocked, enabled⟩ := tolerates.writes numbers
    have fits : r.wnum.toNat + k + 1 < 2 ^ 64 := by
      obtain ⟨events, -, wnum⟩ := tolerates.inOrder numbers
      rw [← wnum]
      exact UInt64.toNat_lt _
    exact ⟨unlocked, enabled, fits, fun old above below =>
      tolerates.clear equal positive near room fits unlocked enabled above below⟩
  · intro undisturbed
    exact undisturbed.tolerates equal positive near room

/-- A new receiver that has read the packet `1`. -/
theorem first_window_tolerates : ∃ w, (machine eight).Reachable (fun _ _ => True) w ∧
    w.receiver.wnum = 2 ∧ Tolerates eight w.receiver 2 := by
  obtain ⟨w, ran, rnum, wnum, lock, mode, empty⟩ : ∃ w ∈ (machine eight).run ⟨.new, []⟩
      [.receive (.parsed (packet 1 10)), .update fun _ => false],
      w.receiver.rnum = 2 ∧ w.receiver.wnum = 2 ∧ w.receiver.lockUpdate = false ∧
      w.receiver.mode = .mEnabled ∧ (w.receiver.cbuf 3).num = 0 := by decide +kernel
  refine ⟨w, Lib.Machine.reachable_of_run rfl ran, wnum, ?_⟩
  refine (tolerates_iff eight w.receiver 2 (rnum.trans wnum.symm) (by rw [wnum]; decide) (by decide)
    (by decide) (by rw [wnum]; decide)).mpr ⟨lock, mode, by rw [wnum]; decide, ?_⟩
  intro num above below
  rw [wnum] at above below
  have three : num = 3 := UInt64.toNat_inj.mp (by
    have := UInt64.lt_iff_toNat_lt.mp above
    simp at this below ⊢
    omega)
  subst three
  show (w.receiver.cbuf 3).num ≠ 3
  rw [empty]
  decide

/-- The packets `1` to `5`, and the packet `1` of the sender's next session, all read. -/
def restarted : List Label :=
  [.receive (.parsed (packet 1 10)), .receive (.parsed (packet 2 20)),
    .receive (.parsed (packet 3 30)), .receive (.parsed (packet 4 40)),
    .receive (.parsed (packet 5 50)), .update fun _ => false,
    .receive (.parsed (packet 1 11)), .update fun _ => false]

/-- **What was left behind is applied.** After the restart the packets `4`, `2` and `3` arrive, with an
update before the last: the packet `3` of the earlier session is handed over in place of the new. -/
theorem left_behind_is_applied : ∃ w, (machine eight).Reachable (fun _ _ => True) w ∧
    w.receiver.rnum = w.receiver.wnum ∧ 1 ≤ w.receiver.wnum ∧
    (w.receiver.replay eight [.arrival (packet 4 41), .arrival (packet 2 21), .update,
      .arrival (packet 3 31), .update]).2 = [packet 2 21, packet 3 30, packet 4 41] ∧
    2 + 1 ≤ eight.maxDifferens.toNat ∧ 2 + 4 ≤ eight.cbufSize.toNat ∧
    ¬ Tolerates eight w.receiver 2 := by
  obtain ⟨w, ran, equal, wnum, handed⟩ : ∃ w ∈ (machine eight).run ⟨.new, []⟩ restarted,
      w.receiver.rnum = w.receiver.wnum ∧ w.receiver.wnum = 2 ∧
      (w.receiver.replay eight [.arrival (packet 4 41), .arrival (packet 2 21), .update,
        .arrival (packet 3 31), .update]).2 = [packet 2 21, packet 3 30, packet 4 41] := by
    decide +kernel
  refine ⟨w, Lib.Machine.reachable_of_run rfl ran, equal, by rw [wnum]; decide, handed, by decide,
    by decide, ?_⟩
  intro tolerates
  obtain ⟨right, -⟩ := tolerates [packet 2 21, packet 3 31, packet 4 41] (by decide)
    (by rw [wnum]; decide) [.arrival (packet 4 41), .arrival (packet 2 21), .update,
      .arrival (packet 3 31)] (by decide)
  simp only [List.cons_append, List.nil_append] at right
  rw [handed] at right
  exact absurd right (by decide)

end UniSet.UNet

/-
**What is counted as lost: `lostPackets` against the numbers that were not applied.**

At a hole whose time has expired `update` goes on with the next number whose slot holds a larger
one. It counts the distance to the number that happens to be in the slot of the missing packet, if
that is larger, and one otherwise.

* `IsNext` — the number a reading goes on with; `rnext_spec`: it is what `rnext` returns.
* `Account` — a receiver with the packets applied since the beginning of a run.
* `Accounted` — the increase of `lostPackets` is the count of the numbers that were passed over.
* **`accounted`** — so it is in every run in which every hole is met as in `HoleExact`;
  `two_missing_counted_once` is a hole of two packets.
-/

import UniSet.UNet.Stored

namespace UniSet.UNet

/-! ### `rnext` -/

/-- `j` is the first number above `num` whose slot holds a larger number than `num`, or the write
position. -/
def IsNext (c : Conf) (r : Receiver) (num j : UInt64) : Prop :=
  num < j ∧ j ≤ r.wnum ∧ (j = r.wnum ∨ num < (r.cbuf (c.slot j)).num) ∧
    ∀ i < j.toNat, num.toNat < i → ¬ num < (r.cbuf (i % c.cbufSize.toNat)).num

instance (c : Conf) (r : Receiver) (num j : UInt64) : Decidable (IsNext c r num j) :=
  inferInstanceAs (Decidable (_ ∧ _ ∧ _ ∧ ∀ i < j.toNat, _))

variable {c : Conf} {r : Receiver}

theorem IsNext.unique {num i j : UInt64} (first : IsNext c r num i) (second : IsNext c r num j) :
    i = j := by
  have order : ∀ {i j : UInt64}, IsNext c r num i → IsNext c r num j → i.toNat ≤ j.toNat := by
    rintro i j ⟨-, bound, -, none⟩ ⟨above, -, stops, -⟩
    refine Nat.le_of_not_lt fun less => ?_
    rcases stops with rfl | larger
    · rw [UInt64.le_iff_toNat_le] at bound
      omega
    · exact none j.toNat less (UInt64.lt_iff_toNat_lt.mp above) larger
  exact UInt64.toNat_inj.mp (Nat.le_antisymm (order first second) (order second first))

theorem rnextFrom_spec {num : UInt64} (fuel : Nat) {i : UInt64} (above : num < i)
    (inside : i ≤ r.wnum) (enough : r.wnum.toNat - i.toNat < fuel)
    (none : ∀ k < i.toNat, num.toNat < k → ¬ num < (r.cbuf (k % c.cbufSize.toNat)).num) :
    IsNext c r num (r.rnextFrom c num fuel i) := by
  induction fuel generalizing i with
  | zero => exact absurd enough (Nat.not_lt_zero _)
  | succ fuel ih =>
    rw [Receiver.rnextFrom]
    split
    · next below =>
      split
      · next larger => exact ⟨above, inside, .inr larger, none⟩
      · next smaller =>
        have next := Receiver.toNat_succ_of_lt below
        rw [UInt64.lt_iff_toNat_lt] at above below
        refine ih ?_ ?_ (by omega) fun k few more => ?_
        · rw [UInt64.lt_iff_toNat_lt]
          omega
        · rw [UInt64.le_iff_toNat_le]
          omega
        · by_cases same : k = i.toNat
          · rw [same]
            exact smaller
          · exact none k (by omega) more
    · next beyond =>
      have whole : i = r.wnum := UInt64.le_antisymm inside (UInt64.not_lt.mp beyond)
      rw [← whole]
      exact ⟨above, inside, .inl whole, none⟩

/-- **The specification of `rnext`.** -/
theorem rnext_spec {num : UInt64} (below : num < r.wnum) : IsNext c r num (r.rnext c num) := by
  have next := Receiver.toNat_succ_of_lt below
  have span := UInt64.toNat_sub_of_le _ _ (UInt64.le_of_lt below)
  rw [UInt64.lt_iff_toNat_lt] at below
  refine rnextFrom_spec _ ?_ ?_ (by omega) fun k few more => ?_
  · rw [UInt64.lt_iff_toNat_lt]
    omega
  · rw [UInt64.le_iff_toNat_le]
    omega
  · omega

/-! ### Runs -/

/-- A receiver, with the packets that `update` has handed to the shared memory. -/
structure Account where
  receiver : Receiver
  applied : List UDPMessage

/-- A datagram, or a call of `update` with what has expired. -/
inductive Arrival
  | receive (d : Datagram)
  | update (expired : UInt64 → Bool)

def Account.step (c : Conf) (w : Account) : Arrival → Account
  | .receive d => { w with receiver := (w.receiver.receive c d).1 }
  | .update expired =>
    ⟨(w.receiver.update c expired).1, w.applied ++ (w.receiver.update c expired).2⟩

/-- **All runs** from a state in which everything has been read. -/
def counting (c : Conf) : Lib.Machine Account Arrival where
  start w := w.receiver.rnum = w.receiver.wnum ∧ w.receiver.wnum ≠ 0 ∧ w.applied = []
  step w label := some (w.step c label)

/-- The numbers between two read positions that were not applied. -/
def skipped (first last : UInt64) (applied : List UDPMessage) : Nat :=
  ((List.range' first.toNat (last.toNat - first.toNat)).filter fun num =>
    ∀ p ∈ applied, p.num.toNat ≠ num).length

/-- **The increase of `lostPackets`** is the number of packets that were passed over. -/
def Accounted (first w : Account) : Prop :=
  w.receiver.lostPackets = first.receiver.lostPackets +
    UInt64.ofNat (skipped first.receiver.rnum w.receiver.rnum w.applied)

/-- A step without a reinitialisation. -/
def Steady (c : Conf) (w : Account) : Arrival → Prop
  | .receive (.parsed m) => m.isOk = true → w.receiver.disagree c m.num = false
  | _ => True

/-- **A hole that is counted right**: the slot of the missing packet holds the number the reading
goes on with, or it holds no larger number and the reading goes on with the next one. -/
def HoleExact (c : Conf) (expired : UInt64 → Bool) (r : Receiver) : Prop :=
  r.rnum < r.wnum → (r.cbuf (c.slot r.rnum)).num ≠ r.rnum → expired r.rnum = true →
    IsNext c r r.rnum (if r.rnum < (r.cbuf (c.slot r.rnum)).num then (r.cbuf (c.slot r.rnum)).num
      else r.rnum + 1)

/-- **The condition**: the receiver applies what it reads, and every hole `update` meets is counted
right. -/
def Exact (c : Conf) (w : Account) : Arrival → Prop
  | .receive _ => True
  | .update expired => w.receiver.Writes ∧
    ∀ n < (w.receiver.wnum - w.receiver.rnum).toNat, HoleExact c expired
      (Lib.loop (Receiver.updateTurn c expired) n (w.receiver, [])).1

instance (c : Conf) (w : Account) : ∀ label, Decidable (Steady c w label)
  | .receive (.parsed m) =>
    inferInstanceAs (Decidable (m.isOk = true → w.receiver.disagree c m.num = false))
  | .receive .failed | .receive .empty | .receive (.unparsable _) | .update _ => .isTrue trivial

instance (c : Conf) (expired : UInt64 → Bool) (r : Receiver) : Decidable (HoleExact c expired r) :=
  inferInstanceAs (Decidable (r.rnum < r.wnum → _))

instance (c : Conf) (w : Account) : ∀ label, Decidable (Exact c w label)
  | .receive _ => .isTrue trivial
  | .update expired => inferInstanceAs (Decidable (w.receiver.Writes ∧
      ∀ n < (w.receiver.wnum - w.receiver.rnum).toNat, HoleExact c expired
        (Lib.loop (Receiver.updateTurn c expired) n (w.receiver, [])).1))

/-! ### What one turn counts -/

variable {applied : List UDPMessage} {u v : Receiver × List UDPMessage} {expired : UInt64 → Bool}
  {first : Account}

/-- Numbers beyond the applied ones are passed over. -/
theorem skipped_beyond {first last next : UInt64} (low : first ≤ last) (on : last ≤ next)
    (old : ∀ p ∈ applied, p.num < last) :
    skipped first next applied = skipped first last applied + (next.toNat - last.toNat) := by
  rw [UInt64.le_iff_toNat_le] at low on
  have split : next.toNat - first.toNat =
      (last.toNat - first.toNat) + (next.toNat - last.toNat) := by omega
  have start : first.toNat + (last.toNat - first.toNat) = last.toNat := by omega
  unfold skipped
  rw [split, ← List.range'_append_1, start, List.filter_append, List.length_append]
  congr 1
  rw [List.filter_eq_self.mpr, List.length_range']
  intro num member
  refine decide_eq_true fun p hp same => ?_
  have below := UInt64.lt_iff_toNat_lt.mp (old p hp)
  have above := (List.mem_range'_1.mp member).1
  omega

/-- A packet that is applied is not passed over. -/
theorem skipped_applied {first last : UInt64} {p : UDPMessage} (low : first ≤ last)
    (more : last + 1 ≠ 0) (own : p.num = last) :
    skipped first (last + 1) (applied ++ [p]) = skipped first last applied := by
  rw [UInt64.le_iff_toNat_le] at low
  have split : (last + 1).toNat - first.toNat = (last.toNat - first.toNat) + 1 := by
    rw [toNat_succ more]
    omega
  have start : first.toNat + (last.toNat - first.toNat) = last.toNat := by omega
  unfold skipped
  rw [split, ← List.range'_append_1, start, List.filter_append, List.length_append]
  have gone : (List.range' last.toNat 1).filter
      (fun num => ∀ q ∈ applied ++ [p], q.num.toNat ≠ num) = [] := by
    rw [List.filter_eq_nil_iff]
    intro num member kept
    obtain rfl : num = last.toNat := by
      have := List.mem_range'_1.mp member
      omega
    exact of_decide_eq_true kept p (List.mem_append_right _ (List.mem_singleton_self _))
      (congrArg UInt64.toNat own)
  rw [gone, List.length_nil, Nat.add_zero]
  refine congrArg List.length (List.filter_congr fun num member => ?_)
  have below := (List.mem_range'_1.mp member).2
  refine decide_eq_decide.mpr ⟨fun h q hq => h q (List.mem_append_left _ hq), fun h q hq => ?_⟩
  rcases List.mem_append.mp hq with old | new
  · exact h q old
  · rw [List.mem_singleton.mp new, own]
    omega

/-- **The invariant** of a run that has begun at `first`. -/
structure Counted (first w : Account) : Prop where
  started : w.receiver.rnum ≠ 0
  low : first.receiver.rnum ≤ w.receiver.rnum
  old : ∀ p ∈ w.applied, p.num < w.receiver.rnum
  accounted : Accounted first w

/-- **What a turn counts** at a hole. -/
theorem lostPackets_of_hole (turn : Receiver.updateTurn c expired u = some v)
    (hole : (u.1.cbuf (c.slot u.1.rnum)).num ≠ u.1.rnum) : v.1.lostPackets = u.1.lostPackets +
      if u.1.rnum < (u.1.cbuf (c.slot u.1.rnum)).num
        then (u.1.cbuf (c.slot u.1.rnum)).num - u.1.rnum else 1 := by
  obtain ⟨below, -⟩ := Receiver.updateTurn_cases turn
  simp only [Receiver.updateTurn, if_pos below, if_pos hole] at turn
  split at turn
  · cases turn
    rfl
  · cases turn

/-- A turn at a hole keeps the invariant, if the hole is counted right. -/
theorem Counted.hole (counted : Counted first ⟨u.1, applied ++ u.2⟩)
    (turn : Receiver.updateTurn c expired u = some v) (below : u.1.rnum < u.1.wnum)
    (hole : (u.1.cbuf (c.slot u.1.rnum)).num ≠ u.1.rnum) (kept : v.2 = u.2)
    (position : v.1.rnum = u.1.rnext c u.1.rnum)
    (next : u.1.rnext c u.1.rnum = if u.1.rnum < (u.1.cbuf (c.slot u.1.rnum)).num
      then (u.1.cbuf (c.slot u.1.rnum)).num else u.1.rnum + 1) :
    Counted first ⟨v.1, applied ++ v.2⟩ := by
  obtain ⟨started, low, old, accounted⟩ := counted
  obtain ⟨on, -⟩ := Receiver.rnext_bounds (c := c) below
  have counts := lostPackets_of_hole turn hole
  have ahead : u.1.rnum ≤ v.1.rnum := by
    rw [position, UInt64.le_iff_toNat_le]
    exact Nat.le_of_lt on
  refine ⟨fun zero => ?_, UInt64.le_trans low ahead, fun p hp => ?_, ?_⟩
  · exact started (le_zero (zero ▸ ahead))
  · rw [kept] at hp
    exact UInt64.lt_of_lt_of_le (old p hp) ahead
  · unfold Accounted
    dsimp only
    rw [kept, skipped_beyond low ahead old, UInt64.ofNat_add, ← UInt64.add_assoc, ← accounted,
      counts, position, next]
    congr 1
    have further : u.1.rnum.toNat < (if u.1.rnum < (u.1.cbuf (c.slot u.1.rnum)).num
        then (u.1.cbuf (c.slot u.1.rnum)).num else u.1.rnum + 1).toNat := next ▸ on
    split
    · next larger =>
      rw [← UInt64.toNat_sub_of_le _ _ (UInt64.le_of_lt larger), UInt64.ofNat_toNat]
    · next smaller =>
      rw [if_neg smaller] at further
      rw [Receiver.toNat_succ_of_lt below, Nat.add_sub_cancel_left]
      rfl

/-- A turn that hands its packet over counts nothing. -/
theorem Counted.handed (counted : Counted first ⟨u.1, applied ++ u.2⟩) (below : u.1.rnum < u.1.wnum)
    (own : (u.1.cbuf (c.slot u.1.rnum)).num = u.1.rnum)
    (left : v.1 = { u.1 with rnum := u.1.rnum + 1 })
    (handed : v.2 = u.2 ++ [u.1.cbuf (c.slot u.1.rnum)]) :
    Counted first ⟨v.1, applied ++ v.2⟩ := by
  obtain ⟨-, low, old, accounted⟩ := counted
  have next := Receiver.toNat_succ_of_lt below
  have more : u.1.rnum + 1 ≠ 0 := fun zero => by
    rw [zero] at next
    cases next
  refine ⟨?_, ?_, fun p hp => ?_, ?_⟩
  · rw [left]
    exact more
  · rw [left, UInt64.le_iff_toNat_le]
    have := UInt64.le_iff_toNat_le.mp low
    show first.receiver.rnum.toNat ≤ (u.1.rnum + 1).toNat
    dsimp only at this
    omega
  · rw [left, UInt64.lt_iff_toNat_lt]
    show p.num.toNat < (u.1.rnum + 1).toNat
    rw [handed, ← List.append_assoc] at hp
    rcases List.mem_append.mp hp with before | new
    · have := UInt64.lt_iff_toNat_lt.mp (old p before)
      dsimp only at this
      omega
    · rw [List.mem_singleton.mp new, own]
      omega
  · unfold Accounted
    dsimp only
    rw [left, handed, ← List.append_assoc]
    show u.1.lostPackets = _ + UInt64.ofNat (skipped _ (u.1.rnum + 1) _)
    rw [skipped_applied low more own]
    exact accounted

/-- **A turn keeps the invariant**, if the hole it meets is counted right. -/
theorem Counted.turn (counted : Counted first ⟨u.1, applied ++ u.2⟩) (writes : u.1.Writes)
    (exact : HoleExact c expired u.1) (turn : Receiver.updateTurn c expired u = some v) :
    Counted first ⟨v.1, applied ++ v.2⟩ := by
  obtain ⟨below, ⟨hole, time, kept, lost, left⟩ | ⟨own, left, handed⟩⟩ :=
    Receiver.updateTurn_cases turn
  · have next := (rnext_spec (c := c) below).unique (exact below hole time)
    exact counted.hole turn below hole kept (by rw [left]) next
  · rw [if_neg fun blocked => Receiver.blocked_iff.mp blocked writes] at handed
    exact counted.handed below own left handed

/-- **A step keeps the invariant.** -/
theorem Counted.step {w : Account} (counted : Counted first w) {label : Arrival}
    (steady : Steady c w label) (exact : Exact c w label) : Counted first (w.step c label) := by
  cases label with
  | receive d =>
    have kept : (w.receiver.receive c d).1.rnum = w.receiver.rnum ∧
        (w.receiver.receive c d).1.lostPackets = w.receiver.lostPackets := by
      obtain ⟨same, -⟩ | ⟨left, after, -⟩ | ⟨m, rfl, ok, far, -⟩ | ⟨m, rfl, ok, near, after⟩ :=
        Receiver.receive_cases (c := c) (r := w.receiver) d
      · rw [same]
        exact ⟨rfl, rfl⟩
      · rw [after]
        exact ⟨rfl, rfl⟩
      · rw [steady ok] at far
        cases far
      · rw [after]
        obtain ⟨here, stored⟩ | ⟨elsewhere, stored⟩ :=
          Receiver.accept_cases (c := c) (r := w.receiver) m
        · rw [stored, if_neg counted.started]
          exact ⟨rfl, rfl⟩
        · rw [stored]
          exact ⟨rfl, rfl⟩
    obtain ⟨started, low, old, accounted⟩ := counted
    unfold Accounted at accounted
    rw [← kept.1] at started low old
    rw [← kept.1, ← kept.2] at accounted
    exact ⟨started, low, old, accounted⟩
  | update expired =>
    obtain ⟨writes, holes⟩ := exact
    show Counted first ⟨(w.receiver.update c expired).1,
      w.applied ++ (w.receiver.update c expired).2⟩
    rw [Receiver.update, if_neg fun h => counted.started h.2]
    refine (Lib.loop_keeps_turns (P := fun u => u.1.Writes ∧ Counted first ⟨u.1, w.applied ++ u.2⟩)
      (fun i few v held turn => ⟨?_, held.2.turn held.1 (holes i few) turn⟩) ⟨writes, ?_⟩).2
    · obtain ⟨-, ⟨-, -, -, lost, left⟩ | ⟨-, left, -⟩⟩ := Receiver.updateTurn_cases turn
      · rw [left]
        exact held.1
      · rw [left]
        exact held.1
    · rw [List.append_nil]
      exact counted

/-- **Lost-packet accounting.** In every run without a reinitialisation whose holes are counted
right, the increase of `lostPackets` is the number of packets that `update` passed over. -/
theorem accounted (c : Conf) {first w : Account} {labels : List Arrival}
    (begins : (counting c).start first)
    (fits : (counting c).Meets (fun w label => Steady c w label ∧ Exact c w label) first labels)
    (ran : (counting c).run first labels = some w) : Accounted first w := by
  have counted : Counted first w := by
    refine Lib.Machine.run_invariant (P := Counted first) (fun s label t counted fits stepped => ?_)
      ⟨begins.1 ▸ begins.2.1, UInt64.le_refl _, ?_, ?_⟩ fits ran
    · cases stepped
      exact counted.step fits.1 fits.2
    · rw [begins.2.2]
      exact nofun
    · unfold Accounted skipped
      rw [Nat.sub_self]
      exact (UInt64.add_zero _).symm
  exact counted.accounted

/-- Nothing has been received, and the packet `1` is expected. -/
def expecting : Account := ⟨{ Receiver.new with rnum := 1 }, []⟩

/-- The packet `2` is missing. -/
def oneMissing : List Arrival :=
  [.receive (.parsed (packet 1 10)), .receive (.parsed (packet 3 30)), .update fun _ => false,
    .update fun _ => true]

theorem oneMissing_accounted : ∃ w, (counting eight).run expecting oneMissing = some w ∧
    Accounted expecting w := by
  obtain ⟨w, ran⟩ : ∃ w, (counting eight).run expecting oneMissing = some w := ⟨_, rfl⟩
  have begins : (counting eight).start expecting := ⟨rfl, by decide, rfl⟩
  exact ⟨w, ran, accounted eight begins (by decide +kernel) ran⟩

/-- **Two packets are missing, and one is counted**: the slot of the first one has been cleared. -/
theorem two_missing_counted_once : ¬ ∀ (c : Conf) (first w : Account) (labels : List Arrival),
    (counting c).start first → first.receiver.Writes →
      (counting c).Meets (Steady c) first labels →
        (counting c).run first labels = some w → Accounted first w := by
  intro holds
  have begins : (counting eight).start expecting := ⟨rfl, by decide, rfl⟩
  have accounted := holds eight expecting _
    [.receive (.parsed (packet 3 30)), .update fun _ => true] begins ⟨rfl, rfl⟩
    (by decide +kernel) rfl
  revert accounted
  unfold Accounted
  decide +kernel

end UniSet.UNet

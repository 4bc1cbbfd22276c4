/-
**`update` applies current data only, unless old numbers are left in the buffer.**

The slots of the circular buffer are never cleared, and `update` trusts the number it finds in a
slot. `Current` is what the design promises: every packet handed to the shared memory is the latest
one accepted under its number since the read position was last initialised.

* `Clean` — the steps that leave no foreign number in a slot that is still to be read: a
  reinitialisation finds no larger number in its own slot, a datagram that is not valid does not carry
  a number that is still awaited in the slot it is parsed into, and the reading is started by the
  expected packet.
* `Sound` — the invariant: a slot that holds its own number, still to be read, holds the latest
  accepted packet of that number.
* **`applies_current`** — in every run of clean steps `update` applies current data only;
  `restart_applies_old_session` is a restart of the sender after which it does not.
-/

import UniSet.UNet.Receiver

namespace UniSet.UNet

/-- The latest packet with the number. -/
def latest (session : List UDPMessage) (num : UInt64) : Option UDPMessage :=
  (session.filter fun m => m.num = num).getLast?

theorem latest_append_self (session : List UDPMessage) (m : UDPMessage) :
    latest (session ++ [m]) m.num = some m := by
  simp [latest]

variable {m : UDPMessage}

theorem latest_append_other {num : UInt64} (other : num ≠ m.num) (session : List UDPMessage) :
    latest (session ++ [m]) num = latest session num := by
  simp [latest, Ne.symm other]

/-- **What an update applies is current.** -/
def Current (c : Conf) (w : Reception) (expired : UInt64 → Bool) : Prop :=
  ∀ p ∈ (w.receiver.update c expired).2, latest w.session p.num = some p

/-! ### Clean steps -/

/-- A number that is not awaited in the slot of the next expected packet. -/
def NotAwaited (c : Conf) (r : Receiver) (num : UInt64) : Prop :=
  ¬ (r.rnum ≤ num ∧ num < r.wnum ∧ c.slot num = c.slot r.wnum)

/-- No slot that a reinitialisation at `num` leaves alone holds a larger number as its own. -/
def NothingBeyond (c : Conf) (r : Receiver) (num : UInt64) : Prop :=
  ∀ i < c.cbufSize.toNat, i ≠ c.slot r.wnum → i ≠ c.slot num →
    num < (r.cbuf i).num → c.slot (r.cbuf i).num ≠ i

/-- The reading is started by the expected packet; before that only a packet with the number `0`
may be moved, or anything after it that is not parsed into its slot. -/
def Started (c : Conf) (w : Reception) (num : UInt64) : Prop :=
  w.receiver.rnum = 0 → num = w.receiver.wnum ∨ num = 0 ∨
    (c.slot w.receiver.wnum ≠ 0 ∧ ∃ m ∈ w.session, m.num = 0)

/-- **The condition.** -/
def Clean (c : Conf) (w : Reception) : Label → Prop
  | .receive (.unparsable left) => NotAwaited c w.receiver left.num
  | .receive (.parsed m) =>
    if m.isOk then
      if w.receiver.disagree c m.num then NothingBeyond c w.receiver m.num
      else Started c w m.num
    else NotAwaited c w.receiver m.num
  | .forceUpdate => w.receiver.rnum ≤ w.receiver.wnum
  | _ => True

instance (c : Conf) (r : Receiver) (num : UInt64) : Decidable (NotAwaited c r num) :=
  inferInstanceAs (Decidable (¬ _))

instance (c : Conf) (r : Receiver) (num : UInt64) : Decidable (NothingBeyond c r num) :=
  inferInstanceAs (Decidable (∀ i < c.cbufSize.toNat, _))

instance (c : Conf) (w : Reception) (num : UInt64) : Decidable (Started c w num) :=
  inferInstanceAs (Decidable (w.receiver.rnum = 0 → _))

instance (c : Conf) (w : Reception) (label : Label) : Decidable (Clean c w label) := by
  unfold Clean
  split <;> infer_instance

/-! ### The invariant -/

/-- A slot that holds its own number holds the latest packet of it; or it is the slot of the next
expected packet, which is written before it is read; or nothing has been received yet. -/
def Holds (c : Conf) (w : Reception) (num : UInt64) : Prop :=
  latest w.session num = some (w.receiver.cbuf (c.slot num)) ∨
  (c.slot num = c.slot w.receiver.wnum ∧ ¬ num < w.receiver.wnum) ∨
  (num = 0 ∧ w.receiver.wnum ≤ 1 ∧ ∀ m ∈ w.session, m.num ≠ 0)

/-- **The invariant**, for the numbers that `update` or `forceUpdate` can reach. -/
def Sound (c : Conf) (w : Reception) : Prop :=
  ∀ num, w.receiver.rnum ≤ num ∨ num + 1 = w.receiver.wnum →
    (w.receiver.cbuf (c.slot num)).num = num → Holds c w num

variable {c : Conf} {w : Reception}

theorem slot_zero (c : Conf) : c.slot 0 = 0 := Nat.zero_mod _

theorem slot_pred_ne (big : 3 ≤ c.cbufSize) {num wnum : UInt64} (next : num + 1 = wnum)
    (below : num < wnum) : c.slot num ≠ c.slot wnum := by
  intro same
  have size := UInt64.le_iff_toNat_le.mp big
  have succ := Receiver.toNat_succ_of_lt below
  rw [next] at succ
  have := slot_inj (c := c) (by omega) (by simp at size; omega) same
  rw [this, UInt64.lt_iff_toNat_lt] at below
  omega

theorem le_zero {n : UInt64} (le : n ≤ 0) : n = 0 := by
  rw [UInt64.le_iff_toNat_le] at le
  exact UInt64.toNat_inj.mp (Nat.le_zero.mp le)

theorem setNum_self (zero : m.num = 0) : m.setNum 0 = m := by
  cases m
  cases zero
  rfl

/-! ### One step keeps the invariant -/

/-- A datagram that is not valid changes the slot of the next expected packet only. -/
theorem Sound.spoiled (sound : Sound c w) (big : 3 ≤ c.cbufSize) {left : UDPMessage}
    (apart : NotAwaited c w.receiver left.num) :
    Sound c { w with receiver := { w.receiver with cbuf := w.receiver.parsedInto c left } } := by
  intro num reach own
  dsimp only at reach own
  rw [Receiver.parsedInto_apply] at own
  by_cases here : c.slot num = c.slot w.receiver.wnum
  · rw [if_pos here] at own
    refine .inr (.inl ⟨here, fun below => ?_⟩)
    rcases reach with ahead | next
    · exact apart ⟨own ▸ ahead, own ▸ below, own ▸ here⟩
    · exact slot_pred_ne big next below here
  · rw [if_neg here] at own
    have before := sound num reach own
    simp only [Holds, Receiver.parsedInto_apply, if_neg here] at before ⊢
    exact before

/-- The expected packet is put where it belongs. -/
theorem Sound.expected (sound : Sound c w) (here : m.num = w.receiver.wnum) :
    Sound c ⟨{ w.receiver with
      cbuf := w.receiver.parsedInto c m
      wnum := w.receiver.wnum + 1
      rnum := if w.receiver.rnum = 0 then m.num else w.receiver.rnum }, w.session ++ [m]⟩ := by
  intro num reach own
  dsimp only at reach own
  rw [Receiver.parsedInto_apply] at own
  by_cases same : c.slot num = c.slot w.receiver.wnum
  · rw [if_pos same] at own
    refine .inl ?_
    dsimp only
    rw [Receiver.parsedInto_apply, if_pos same, ← own]
    exact latest_append_self _ _
  · rw [if_neg same] at own
    have other : num ≠ m.num := fun equal => same (by rw [equal, here])
    have ahead : (if w.receiver.rnum = 0 then m.num else w.receiver.rnum) ≤ num := by
      refine reach.resolve_right fun next => other ?_
      rw [here]
      exact (UInt64.add_left_inj 1).mp next
    have before : w.receiver.rnum ≤ num := by
      by_cases zero : w.receiver.rnum = 0
      · rw [zero, UInt64.le_iff_toNat_le]
        exact Nat.zero_le _
      · rwa [if_neg zero] at ahead
    rcases sound num (.inl before) own with newest | ⟨slot, -⟩ | ⟨zero, -, -⟩
    · refine .inl ?_
      dsimp only
      rw [Receiver.parsedInto_apply, if_neg same, latest_append_other other]
      exact newest
    · exact absurd slot same
    · subst zero
      have none := le_zero before
      rw [if_pos none] at ahead
      exact absurd (le_zero ahead).symm other

/-- A moved packet leaves the number `0` where it was parsed; if this is still to be read, it is its own number. -/
theorem Started.moved_zero (started : Started c w m.num) (big : 3 ≤ c.cbufSize)
    (elsewhere : m.num ≠ w.receiver.wnum)
    (reach : w.receiver.rnum ≤ 0 ∨ 0 + 1 = if w.receiver.wnum ≤ m.num then m.num + 1 else w.receiver.wnum)
    (parsed : c.slot 0 = c.slot w.receiver.wnum) : m.num = 0 := by
  have unread : w.receiver.rnum = 0 := by
    refine le_zero (reach.resolve_right fun next => ?_)
    by_cases ahead : w.receiver.wnum ≤ m.num
    · rw [if_pos ahead] at next
      have none : m.num = 0 := ((UInt64.add_left_inj 1).mp next).symm
      rw [none] at ahead
      exact elsewhere (none.trans (le_zero ahead).symm)
    · rw [if_neg ahead] at next
      exact slot_pred_ne big next (by rw [← next]; decide) parsed
  rcases started unread with expected | none | ⟨apart, -⟩
  · exact absurd expected elsewhere
  · exact none
  · exact absurd (parsed.symm.trans (slot_zero c)) apart

/-- A moved packet is in its own slot; the slot it was parsed into shows the number `0`. -/
theorem Sound.moved (sound : Sound c w) (big : 3 ≤ c.cbufSize) (elsewhere : m.num ≠ w.receiver.wnum)
    (started : Started c w m.num) :
    Sound c ⟨{ w.receiver with
      cbuf := w.receiver.moved c m
      wnum := if w.receiver.wnum ≤ m.num then m.num + 1 else w.receiver.wnum },
      w.session ++ [m]⟩ := by
  intro num reach own
  dsimp only at reach own
  rw [Receiver.moved_apply] at own
  by_cases parsed : c.slot num = c.slot w.receiver.wnum
  · rw [if_pos parsed] at own
    have zero : num = 0 := own.symm
    subst zero
    have none := started.moved_zero big elsewhere reach parsed
    refine .inl ?_
    dsimp only
    rw [Receiver.moved_apply, if_pos parsed, setNum_self none, ← none]
    exact latest_append_self _ _
  · rw [if_neg parsed] at own
    by_cases target : c.slot num = c.slot m.num
    · rw [if_pos target] at own
      refine .inl ?_
      dsimp only
      rw [Receiver.moved_apply, if_neg parsed, if_pos target, ← own]
      exact latest_append_self _ _
    · rw [if_neg target] at own
      have other : num ≠ m.num := fun equal => target (by rw [equal])
      have reach : w.receiver.rnum ≤ num ∨ ¬ w.receiver.wnum ≤ m.num ∧
          num + 1 = w.receiver.wnum := by
        refine reach.imp id fun next => ?_
        by_cases ahead : w.receiver.wnum ≤ m.num
        · rw [if_pos ahead] at next
          exact absurd ((UInt64.add_left_inj 1).mp next) other
        · rw [if_neg ahead] at next
          exact ⟨ahead, next⟩
      rcases sound num (reach.imp id And.right) own with newest | ⟨slot, -⟩ | ⟨zero, few, fresh⟩
      · refine .inl ?_
        dsimp only
        rw [Receiver.moved_apply, if_neg parsed, if_neg target, latest_append_other other]
        exact newest
      · exact absurd slot parsed
      · subst zero
        rcases reach with ahead | ⟨late, -⟩
        · rcases started (le_zero ahead) with expected | none | ⟨-, first, member, none⟩
          · exact absurd expected elsewhere
          · exact absurd none.symm other
          · exact absurd none (fresh first member)
        · refine .inr (.inr ⟨rfl, ?_, ?_⟩)
          · rw [if_neg late]
            exact few
          · intro first member
            rcases List.mem_append.mp member with old | new
            · exact fresh first old
            · rw [List.mem_singleton.mp new]
              exact other.symm

/-- A reinitialisation leaves nothing beyond its packet. -/
theorem Sound.reinitialised (clean : NothingBeyond c w.receiver m.num) :
    Sound c ⟨w.receiver.reinitialise c m, [m]⟩ := by
  rw [Receiver.reinitialise_eq]
  intro num reach own
  have reach : m.num ≤ num := by
    rcases reach with ahead | next
    · exact ahead
    · rw [(UInt64.add_left_inj 1).mp next]
      exact UInt64.le_refl _
  have only : latest [m] m.num = some m := latest_append_self [] m
  refine .inl ?_
  simp only [Receiver.moved_apply] at own ⊢
  by_cases parsed : c.slot num = c.slot w.receiver.wnum
  · rw [if_pos parsed] at own ⊢
    have zero : num = 0 := own.symm
    have none : m.num = 0 := le_zero (zero ▸ reach)
    rw [setNum_self none, zero, ← none]
    exact only
  · rw [if_neg parsed] at own ⊢
    by_cases target : c.slot num = c.slot m.num
    · rw [if_pos target] at own ⊢
      rw [← own]
      exact only
    · rw [if_neg target] at own ⊢
      have beyond : m.num < num := by
        rw [UInt64.le_iff_toNat_le] at reach
        rw [UInt64.lt_iff_toNat_lt]
        have : m.num.toNat ≠ num.toNat := fun same => target (by
          rw [UInt64.toNat_inj.mp same])
        omega
      have inside : c.slot num < c.cbufSize.toNat :=
        Nat.mod_lt _ (UInt64.lt_iff_toNat_lt.mp c.sized)
      exact absurd (congrArg c.slot own) (clean _ inside parsed target (own.symm ▸ beyond))

theorem Sound.ahead (sound : Sound c w) {r : Receiver} (cbuf : r.cbuf = w.receiver.cbuf)
    (wnum : r.wnum = w.receiver.wnum) (on : w.receiver.rnum ≤ r.rnum) :
    Sound c { w with receiver := r } := by
  intro num reach own
  simp only [cbuf, wnum] at own reach
  have before := sound num (reach.imp (fun ahead => UInt64.le_trans on ahead) id) own
  simp only [Holds, cbuf, wnum]
  exact before

/-- `forceUpdate` goes back to the packet before the expected one, which the invariant covers. -/
theorem Sound.forced (sound : Sound c w) (inside : w.receiver.rnum ≤ w.receiver.wnum) :
    Sound c { w with receiver := w.receiver.forceUpdate } := by
  intro num reach own
  refine sound num ?_ own
  have reach : w.receiver.wnum - 1 ≤ num ∨ num + 1 = w.receiver.wnum := reach
  by_cases next : num + 1 = w.receiver.wnum
  · exact .inr next
  · left
    have ahead := reach.resolve_right next
    rw [UInt64.le_iff_toNat_le] at ahead inside ⊢
    have apart : (num + 1).toNat ≠ w.receiver.wnum.toNat := fun same =>
      next (UInt64.toNat_inj.mp same)
    have := num.toNat_lt
    have := w.receiver.wnum.toNat_lt
    simp only [UInt64.toNat_sub, UInt64.toNat_add, UInt64.toNat_one] at ahead apart
    omega

/-- **A clean datagram keeps the invariant.** -/
theorem Sound.received (sound : Sound c w) (big : 3 ≤ c.cbufSize) {d : Datagram}
    (clean : Clean c w (.receive d)) : Sound c (w.step c (.receive d)) := by
  obtain same | ⟨left, after, which⟩ | ⟨m, rfl, ok, far, after⟩ | ⟨m, rfl, ok, near, after⟩ :=
    w.received_cases c d
  · rw [same]
    exact sound
  · rw [after]
    rcases which with rfl | ⟨rfl, bad⟩
    · exact sound.spoiled big clean
    · simp only [Clean, bad] at clean
      exact sound.spoiled big clean
  · simp only [Clean, ok, far, if_true] at clean
    rw [after]
    exact Sound.reinitialised clean
  · simp only [Clean, ok, near, if_true] at clean
    rw [after]
    obtain ⟨here, stored⟩ | ⟨elsewhere, stored⟩ :=
      Receiver.accept_cases (c := c) (r := w.receiver) m
    · rw [stored]
      exact sound.expected here
    · rw [stored]
      exact sound.moved big elsewhere (by simpa using clean)

/-- **A clean step keeps the invariant.** -/
theorem Sound.step (sound : Sound c w) (big : 3 ≤ c.cbufSize) {label : Label}
    (clean : Clean c w label) : Sound c (w.step c label) := by
  cases label with
  | receive d => exact sound.received big clean
  | update expired =>
    obtain ⟨cbuf, wnum, on⟩ := w.receiver.update_position (c := c) expired
    exact sound.ahead cbuf wnum on
  | forceUpdate => exact sound.forced clean
  | setLockUpdate st => exact sound.ahead rfl rfl (UInt64.le_refl _)
  | setMode mode => exact sound.ahead rfl rfl (UInt64.le_refl _)

theorem Sound.start : Sound c ⟨.new, []⟩ := by
  intro num _ own
  exact .inr (.inr ⟨own.symm, by decide, nofun⟩)

/-- **An update in a sound state** applies current data only. -/
theorem Sound.current (sound : Sound c w) (expired : UInt64 → Bool) : Current c w expired := by
  refine (Receiver.update_keeps (r := w.receiver) (P := fun u => (u.1.cbuf = w.receiver.cbuf ∧
    u.1.wnum = w.receiver.wnum ∧ w.receiver.rnum ≤ u.1.rnum) ∧
      ∀ p ∈ u.2, latest w.session p.num = some p) ?_ ⟨⟨rfl, rfl, UInt64.le_refl _⟩, nofun⟩).2
  rintro u v unstarted ⟨⟨cbuf, wnum, on⟩, applied⟩ turn
  obtain ⟨same, further, -⟩ := Receiver.updateTurn_drops turn
  have ahead : w.receiver.rnum ≤ v.1.rnum := by
    rw [UInt64.le_iff_toNat_le] at on ⊢
    omega
  obtain ⟨below, ⟨-, -, kept, lost, left⟩ | ⟨own, left, handed⟩⟩ := Receiver.updateTurn_cases turn
  · refine ⟨⟨by rw [left]; exact cbuf, same.trans wnum, ahead⟩, ?_⟩
    rw [kept]
    exact applied
  · refine ⟨⟨by rw [left]; exact cbuf, same.trans wnum, ahead⟩, ?_⟩
    rw [handed]
    split
    · exact applied
    · intro p member
      rcases List.mem_append.mp member with old | new
      · exact applied p old
      · rw [List.mem_singleton.mp new, own]
        rw [cbuf] at own ⊢
        rw [wnum] at below unstarted
        rcases sound u.1.rnum (.inl on) own with newest | ⟨-, notBelow⟩ | ⟨zero, few, -⟩
        · exact newest
        · exact absurd below notBelow
        · refine absurd ⟨?_, zero⟩ unstarted
          rw [zero, UInt64.lt_iff_toNat_lt] at below
          rw [UInt64.le_iff_toNat_le] at few
          exact UInt64.toNat_inj.mp (Nat.le_antisymm few below)

/-! ### The result -/

/-- **Current data only.** In every run of clean steps of a receiver with at least three slots, every
packet that `update` hands to the shared memory is the latest one accepted under its number since the
read position was last initialised. -/
theorem applies_current (c : Conf) (big : 3 ≤ c.cbufSize) {w : Reception}
    (reached : (machine c).Reachable (Clean c) w) (expired : UInt64 → Bool) :
    Current c w expired := by
  have sound : Sound c w := by
    refine Lib.Machine.reachable_invariant (P := Sound c) ?_ ?_ reached
    · rintro s rfl
      exact Sound.start
    · intro s label t sound clean stepped
      cases stepped
      exact sound.step big clean
  exact sound.current expired

/-- Eight slots; a packet further than three numbers away reinitialises. -/
def eight : Conf := ⟨8, 3, by decide⟩

/-- The packets `1`, `3`, `2`, an update, and a restart of the sender at `30`. -/
def jump : List Label :=
  [.receive (.parsed (packet 1 10)), .receive (.parsed (packet 3 30)),
    .receive (.parsed (packet 2 20)), .update fun _ => false, .receive (.parsed (packet 30 40))]

theorem jump_applies_current : ∃ w, (machine eight).Reachable (Clean eight) w ∧
    (w.receiver.update eight fun _ => false).2 = [packet 30 40] ∧
    Current eight w fun _ => false := by
  obtain ⟨w, ran, applied⟩ : ∃ w ∈ (machine eight).run ⟨.new, []⟩ jump,
      (w.receiver.update eight fun _ => false).2 = [packet 30 40] := by decide +kernel
  have reached : (machine eight).Reachable (Clean eight) w :=
    ⟨_, jump, rfl, by decide +kernel, ran⟩
  exact ⟨w, reached, applied, applies_current eight (by decide) reached _⟩

/-- The packets `1` to `5` and an update; then the sender starts again and its packets `1`, `4` and `2`
arrive, `3` does not. -/
def restart : List Label :=
  [.receive (.parsed (packet 1 10)), .receive (.parsed (packet 2 20)),
    .receive (.parsed (packet 3 30)), .receive (.parsed (packet 4 40)),
    .receive (.parsed (packet 5 50)), .update fun _ => false,
    .receive (.parsed (packet 1 11)), .receive (.parsed (packet 4 41)),
    .receive (.parsed (packet 2 21))]

/-- **A restart applies old data.** The packet `3` of the earlier session is still in its slot and is
handed to the shared memory between the packets `2` and `4` of the new one. -/
theorem restart_applies_old_session :
    ∃ c : Conf, 3 ≤ c.cbufSize ∧ ∃ w, (machine c).Reachable (fun _ _ => True) w ∧
      (∀ m ∈ w.session, m.num ≠ 3) ∧
      (w.receiver.update c fun _ => false).2 =
        [packet 1 11, packet 2 21, packet 3 30, packet 4 41] ∧
      ¬ Current c w fun _ => false := by
  obtain ⟨w, ran, absent, applied⟩ : ∃ w ∈ (machine eight).run ⟨.new, []⟩ restart,
      (∀ m ∈ w.session, m.num ≠ 3) ∧ (w.receiver.update eight fun _ => false).2 =
        [packet 1 11, packet 2 21, packet 3 30, packet 4 41] := by decide +kernel
  refine ⟨eight, by decide, w, Lib.Machine.reachable_of_run rfl ran, absent, applied, ?_⟩
  intro current
  have old : latest w.session 3 = some (packet 3 30) :=
    current (packet 3 30) (by rw [applied]; simp)
  have member := List.mem_of_getLast? old
  exact absurd rfl (absent _ (List.mem_filter.mp member).1)

end UniSet.UNet

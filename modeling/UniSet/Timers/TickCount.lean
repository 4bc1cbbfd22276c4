/-
**The number of notifications of a timer.**

* `toCome` — the messages that are still to come of a timer: one more than the ticks it has left.
  A `fire` takes one of them (`toCome_fire`).
* `step_stays_or_fired` — what a call that does not order the timer can do to it. Over a run of such
  calls the messages pushed and those still to come add up (`pushed_add_toCome`).
* `turns` — how often a timer has had the time to fire at a check; it has fired as often
  (`min_toCome_turns_le`).
* `TickLaw` — what an order of a number of notifications promises. A timer that is ordered again
  is kept with its ticks as they are ordered, a new one with one less: the law is kept by the
  orders of timers that are not in the list, and by those without an end (`tick_law_iff`).
-/

import UniSet.Timers.LTObject

namespace UniSet

namespace LTObject

variable {Id : Type} {lt other : LTObject Id} {timerid : Id}

/-- The messages that are still to come of a timer. -/
def toCome (lt : LTObject Id) (timerid : Id) : Nat :=
  (lt.curTick timerid).elim 0 fun curTick => curTick.toNat + 1

/-- The ticks of the timer are counted down. -/
def Counted (lt : LTObject Id) (timerid : Id) : Prop := ∀ curTick ∈ lt.curTick timerid, 0 ≤ curTick

theorem pending_iff_toCome : lt.Pending timerid ↔ 0 < lt.toCome timerid := by
  unfold Pending toCome
  cases lt.curTick timerid <;> simp

theorem toCome_congr (same : other.curTick timerid = lt.curTick timerid) :
    other.toCome timerid = lt.toCome timerid := by
  rw [toCome, same, toCome]

theorem Counted.congr (counted : lt.Counted timerid)
    (same : other.curTick timerid = lt.curTick timerid) : other.Counted timerid := by
  rw [Counted, same]
  exact counted

variable [DecidableEq Id]

theorem toCome_fire (counted : lt.Counted timerid) (pending : lt.Pending timerid) :
    (lt.fire timerid).toCome timerid + 1 = lt.toCome timerid := by
  obtain ⟨curTick, here⟩ := Option.isSome_iff_exists.mp pending
  have nonneg := counted curTick here
  unfold toCome
  rw [curTick_fire_self, here, Option.bind_some]
  split_ifs with zero pos
  · rw [zero]
    rfl
  · show (curTick - 1).toNat + 1 + 1 = curTick.toNat + 1
    omega
  · omega

theorem Counted.fire (counted : lt.Counted timerid) : (lt.fire timerid).Counted timerid := by
  intro left h
  rw [curTick_fire_self] at h
  obtain ⟨curTick, here, h⟩ := Option.bind_eq_some_iff.mp h
  have nonneg := counted curTick here
  split_ifs at h with zero pos
  · cases h
    omega
  · cases h
    exact nonneg

end LTObject

namespace Timers

open UniSet.Processes (Priority)

variable {Id : Type} [DecidableEq Id]

/-- The call orders or cancels the timer. -/
def Event.Asks (timerid : Id) : Event Id → Prop
  | .askTimer _ asked .. => asked = timerid
  | .checkTimers _ => False

/-- The timer is in the list. -/
def LTObject.Listed (lt : LTObject Id) (timerid : Id) : Prop := ∃ ti ∈ lt.tlst, ti.id = timerid

instance (lt : LTObject Id) (timerid : Id) : Decidable (lt.Listed timerid) :=
  inferInstanceAs (Decidable (∃ ti ∈ lt.tlst, ti.id = timerid))

/-- How many checks follow one another with a gap before each. -/
def turns (gap : Nat) : Nat → List (Event Id) → Nat
  | _, [] => 0
  | since, .askTimer .. :: es => turns gap since es
  | since, .checkTimers now :: es =>
    if since + gap ≤ now then turns gap now es + 1 else turns gap since es

omit [DecidableEq Id] in
theorem turns_cons (gap ref : Nat) (e : Event Id) (es : List (Event Id)) :
    turns gap ref (e :: es) = turns gap ref es ∨
      (e = .checkTimers e.now ∧ ref + gap ≤ e.now ∧
        turns gap ref (e :: es) = turns gap e.now es + 1) := by
  cases e with
  | askTimer => exact .inl rfl
  | checkTimers now =>
    rw [turns]
    split_ifs with long
    · exact .inr ⟨rfl, long, rfl⟩
    · exact .inl rfl

namespace LTObject

variable {lt after : LTObject Id} {timerid : Id} {since : Nat} {e : Event Id}

theorem listed_iff : lt.Listed timerid ↔ lt.ticks.Pending timerid := by
  unfold Listed UniSet.LTObject.Pending
  rw [curTick_ticks, Option.isSome_map, LTObject.timer, List.find?_isSome]
  simp

/-- The timer is the same but for the time that is left of it. -/
def Stays (timerid : Id) (lt after : LTObject Id) : Prop :=
  ∃ left : TimerInfo Id → Int,
    after.timer timerid = (lt.timer timerid).map fun ti => { ti with curTimeMS := left ti }

theorem Stays.curTick (stays : Stays timerid lt after) :
    after.ticks.curTick timerid = lt.ticks.curTick timerid := by
  obtain ⟨left, stays⟩ := stays
  rw [curTick_ticks, stays, Option.map_map]
  rfl

theorem Stays.tmr (stays : Stays timerid lt after) :
    (after.timer timerid).map (·.tmr) = (lt.timer timerid).map (·.tmr) := by
  obtain ⟨left, stays⟩ := stays
  rw [stays, Option.map_map]
  rfl

/-- A message of the timer is pushed, and it goes on or is erased. -/
def Fired (timerid : Id) (now : Nat) (lt after : LTObject Id) : Prop :=
  ∃ ti, lt.timer timerid = some ti ∧ ti.tmr.checkTime now = true ∧
    after.timer timerid = ti.turn now lt.tmLast

theorem Fired.pending {now : Nat} (fired : Fired timerid now lt after) :
    lt.ticks.Pending timerid := by
  obtain ⟨ti, here, -⟩ := fired
  show (lt.ticks.curTick timerid).isSome = true
  rw [curTick_ticks, here]
  rfl

theorem Fired.curTick {now : Nat} (fired : Fired timerid now lt after) :
    after.ticks.curTick timerid = (lt.ticks.fire timerid).curTick timerid := by
  obtain ⟨ti, here, due, turned⟩ := fired
  rw [curTick_ticks, turned, TimerInfo.curTick_turn lt.tmLast due,
    UniSet.LTObject.curTick_fire_self, curTick_ticks, here]
  rfl

/-- **One call.** A call that does not order the timer leaves it as it was but for the time that is
left of it, or pushes one message of it. -/
theorem step_stays_or_fired (kept : Kept lt since) (other : ¬ e.Asks timerid) :
    (pushed timerid (lt.step e).2 = 0 ∧ Stays timerid lt (lt.step e).1 ∧
      (e = .checkTimers e.now → ¬ lt.Fires e.now timerid)) ∨
    (pushed timerid (lt.step e).2 = 1 ∧ Fired timerid e.now lt (lt.step e).1) := by
  cases e with
  | askTimer now asked timeMS ticks p =>
    have same : (lt.askTimer now asked timeMS ticks p).timer timerid = lt.timer timerid :=
      timer_askTimer_other (Ne.symm other)
    exact .inl ⟨rfl, ⟨fun ti => ti.curTimeMS, same.trans Option.map_id'.symm⟩, fun h => (nomatch h)⟩
  | checkTimers now =>
    by_cases fires : lt.Fires now timerid
    · obtain ⟨ti, here⟩ := fires.timer
      obtain ⟨due, one, turned⟩ := checkTimers_of_fires kept.nodup here fires
      exact .inr ⟨one, ti, here, due, turned⟩
    · obtain ⟨zero, stays⟩ := checkTimers_of_not_fires kept.nodup fires
      exact .inl ⟨zero, stays, fun _ => fires⟩

variable {es : List (Event Id)}

/-- **Over a run** the messages pushed and those still to come add up. -/
theorem pushed_add_toCome (kept : Kept lt since) (inOrder : InOrder since es)
    (others : ∀ e ∈ es, ¬ e.Asks timerid) (counted : lt.ticks.Counted timerid) :
    pushed timerid (lt.run es).2 + (lt.run es).1.ticks.toCome timerid =
      lt.ticks.toCome timerid := by
  induction es generalizing lt since with
  | nil => exact Nat.zero_add _
  | cons e es ih =>
    obtain ⟨later, inOrder⟩ := inOrder_cons.mp inOrder
    obtain ⟨other, others⟩ := List.forall_mem_cons.mp others
    have rest := ih (kept.step later) inOrder others
    rw [run, pushed_append, Nat.add_assoc]
    rcases step_stays_or_fired kept other with ⟨zero, stays, -⟩ | ⟨one, fired⟩
    · rw [zero, Nat.zero_add, rest (counted.congr stays.curTick),
        UniSet.LTObject.toCome_congr stays.curTick]
    · rw [one, rest (counted.fire.congr fired.curTick), UniSet.LTObject.toCome_congr fired.curTick,
        Nat.add_comm, UniSet.LTObject.toCome_fire counted fired.pending]

/-! ### Enough time -/

/-- A check long enough after the start of a timer pushes a message of it: the last scan, if it was
within `MinQuantityTime`, has come after the timer was due. -/
theorem fires_of_gap {now : Nat} {ti : TimerInfo Id} (kept : Kept lt since)
    (here : lt.timer timerid = some ti) (ends : ti.tmr.tMsec ≠ waitUpTime)
    (long : ti.tmr.tStart + (ti.tmr.tMsec + minQuantityTime).toNat * 1000000 ≤ now) :
    lt.Fires now timerid := by
  have running := kept.running ti (List.mem_of_find?_eq_some here)
  have pos := running.pos
  have waiting : ¬ ti.tmr.tMsec ≤ ti.tmr.getCurrent lt.tmLast.tStart := by
    intro elapsed
    have due := (PassiveTimer.checkTime_iff pos _).mpr ⟨ends, elapsed⟩
    rw [running.waiting] at due
    cases due
  unfold PassiveTimer.getCurrent at waiting
  unfold minQuantityTime at long
  refine ⟨?_, ?_⟩
  · rintro ⟨recent, -⟩
    unfold PassiveTimer.getCurrent minQuantityTime at recent
    omega
  · rw [here]
    refine (PassiveTimer.checkTime_iff pos now).mpr ⟨ends, ?_⟩
    unfold PassiveTimer.getCurrent
    omega

/-- The timer, if it is in the list, has an interval. -/
def Timed (timerid : Id) (tMsec : Int) (lt : LTObject Id) : Prop :=
  ∀ tmr ∈ (lt.timer timerid).map (·.tmr), tmr.tMsec = tMsec

/-- The timer, if it is in the list, has begun by an instant. -/
def Begun (timerid : Id) (ref : Nat) (lt : LTObject Id) : Prop :=
  ∀ tmr ∈ (lt.timer timerid).map (·.tmr), tmr.tStart ≤ ref

theorem Timed.step {tMsec : Int} (timed : Timed timerid tMsec lt) (kept : Kept lt since)
    (other : ¬ e.Asks timerid) : Timed timerid tMsec (lt.step e).1 := by
  rcases step_stays_or_fired kept other with ⟨-, stays, -⟩ | ⟨-, ti, here, due, turned⟩
  · unfold Timed
    rw [stays.tmr]
    exact timed
  · intro tmr h
    rw [turned] at h
    obtain ⟨left, turned, rfl⟩ := Option.map_eq_some_iff.mp h
    rw [TimerInfo.turn_tmr turned, if_pos due]
    exact timed ti.tmr (by rw [here]; rfl)

theorem Begun.of_kept (kept : Kept lt since) : Begun timerid since lt := by
  intro tmr h
  obtain ⟨ti, here, rfl⟩ := Option.map_eq_some_iff.mp h
  exact (kept.running ti (List.mem_of_find?_eq_some here)).started

/-- A timer that has had the time to fire at a check fires there. -/
theorem toCome_of_quiet {tMsec : Int} {now ref : Nat} (kept : Kept lt since)
    (ends : tMsec ≠ waitUpTime) (timed : Timed timerid tMsec lt) (begun : Begun timerid ref lt)
    (long : ref + (tMsec + minQuantityTime).toNat * 1000000 ≤ now)
    (quiet : ¬ lt.Fires now timerid) : lt.ticks.toCome timerid = 0 := by
  cases here : lt.timer timerid with
  | none =>
    unfold UniSet.LTObject.toCome
    rw [curTick_ticks, here]
    rfl
  | some ti =>
    have interval : ti.tmr.tMsec = tMsec := timed ti.tmr (by rw [here]; rfl)
    have start : ti.tmr.tStart ≤ ref := begun ti.tmr (by rw [here]; rfl)
    refine absurd (fires_of_gap kept here ?_ ?_) quiet
    · rw [interval]
      exact ends
    · rw [interval]
      exact Nat.le_trans (Nat.add_le_add_right start _) long

/-- **Each time is used.** As often as the timer has had the time to fire at a check, it has fired,
until it is gone. The first part, for a timer that has begun after the instant counted from, is
one time behind. -/
theorem min_toCome_turns_le {tMsec : Int} (ends : tMsec ≠ waitUpTime) {gap ref : Nat}
    (gap_eq : gap = (tMsec + minQuantityTime).toNat * 1000000) (kept : Kept lt since)
    (inOrder : InOrder since es) (others : ∀ e ∈ es, ¬ e.Asks timerid)
    (counted : lt.ticks.Counted timerid) (timed : Timed timerid tMsec lt) :
    min (lt.ticks.toCome timerid) (turns gap ref es - 1) ≤ pushed timerid (lt.run es).2 ∧
      (Begun timerid ref lt →
        min (lt.ticks.toCome timerid) (turns gap ref es) ≤ pushed timerid (lt.run es).2) := by
  induction es generalizing lt since ref with
  | nil => simp [turns]
  | cons e es ih =>
    obtain ⟨later, inOrder⟩ := inOrder_cons.mp inOrder
    obtain ⟨other, others⟩ := List.forall_mem_cons.mp others
    have keeps := kept.step later
    have timed' := timed.step kept other
    rw [run, pushed_append]
    rcases step_stays_or_fired kept other with ⟨zero, stays, quiet⟩ | ⟨one, fired⟩
    · have counted' := counted.congr stays.curTick
      have come := UniSet.LTObject.toCome_congr stays.curTick
      rw [zero, Nat.zero_add, ← come]
      rcases turns_cons gap ref e es with same | ⟨check, long, more⟩
      · obtain ⟨behind, level⟩ := @ih _ _ ref keeps inOrder others counted' timed'
        rw [same]
        refine ⟨behind, fun begun => level ?_⟩
        unfold Begun
        rw [stays.tmr]
        exact begun
      · have level := (ih keeps inOrder others counted' timed').2 (.of_kept keeps)
        rw [more]
        refine ⟨level, fun begun => ?_⟩
        have gone := toCome_of_quiet kept ends timed begun (gap_eq ▸ long) (quiet check)
        rw [come, gone, Nat.zero_min]
        exact Nat.zero_le _
    · have counted' := counted.fire.congr fired.curTick
      have come := UniSet.LTObject.toCome_fire counted fired.pending
      rw [← UniSet.LTObject.toCome_congr fired.curTick] at come
      rw [one, ← come]
      rcases turns_cons gap ref e es with same | ⟨-, -, more⟩
      · have behind := (@ih _ _ ref keeps inOrder others counted' timed').1
        rw [same]
        omega
      · have level := (ih keeps inOrder others counted' timed').2 (.of_kept keeps)
        rw [more]
        omega

/-! ### Timers that do not run out -/

theorem curTick_run_of_endless (kept : Kept lt since) (inOrder : InOrder since es)
    (others : ∀ e ∈ es, ¬ e.Asks timerid) (endless : lt.ticks.Endless timerid) :
    (lt.run es).1.ticks.curTick timerid = lt.ticks.curTick timerid := by
  induction es generalizing lt since with
  | nil => rfl
  | cons e es ih =>
    obtain ⟨later, inOrder⟩ := inOrder_cons.mp inOrder
    obtain ⟨other, others⟩ := List.forall_mem_cons.mp others
    have same : (lt.step e).1.ticks.curTick timerid = lt.ticks.curTick timerid := by
      rcases step_stays_or_fired kept other with ⟨-, stays, -⟩ | ⟨-, fired⟩
      · exact stays.curTick
      · rw [fired.curTick, endless.fire]
    have endless' : (lt.step e).1.ticks.Endless timerid := by
      unfold UniSet.LTObject.Endless
      rw [same]
      exact endless
    exact (ih (kept.step later) inOrder others endless').trans same

/-- A timer of the interval `WaitUpTime` never fires. -/
theorem pushed_run_of_waitUpTime (kept : Kept lt since) (inOrder : InOrder since es)
    (others : ∀ e ∈ es, ¬ e.Asks timerid) (timed : Timed timerid waitUpTime lt) :
    pushed timerid (lt.run es).2 = 0 := by
  induction es generalizing lt since with
  | nil => rfl
  | cons e es ih =>
    obtain ⟨later, inOrder⟩ := inOrder_cons.mp inOrder
    obtain ⟨other, others⟩ := List.forall_mem_cons.mp others
    have rest := ih (kept.step later) inOrder others (timed.step kept other)
    rw [run, pushed_append, rest]
    rcases step_stays_or_fired kept other with ⟨zero, -, -⟩ | ⟨-, ti, here, due, -⟩
    · exact zero
    · have interval : ti.tmr.tMsec = waitUpTime := timed ti.tmr (by rw [here]; rfl)
      rw [PassiveTimer.checkTime, if_pos interval] at due
      cases due

end LTObject

/-! ### What an order promises -/

/-- **The promise of an order** for the calls after it: no more messages than ordered, in the list
as long as there are fewer, all of them when enough time passes, and no end for `-1`. -/
structure Promise (now : Nat) (timerid : Id) (timeMS ticks : Int64) (es : List (Event Id))
    (r : LTObject Id × List (TimerMessage Id)) : Prop where
  most : 0 < ticks.toInt → pushed timerid r.2 ≤ ticks.toInt.toNat
  listed : 0 < ticks.toInt → (r.1.Listed timerid ↔ pushed timerid r.2 < ticks.toInt.toNat)
  enough : 0 < ticks.toInt → timeMS.toInt ≠ waitUpTime →
    ticks.toInt.toNat ≤ turns ((allowed timeMS + minQuantityTime).toNat * 1000000) now es →
      pushed timerid r.2 = ticks.toInt.toNat
  endless : ticks.toInt = -1 → r.1.Listed timerid

/-- An order keeps its promise, whatever calls follow that do not order or cancel the timer. -/
def TickLaw (lt : LTObject Id) (now : Nat) (timerid : Id) (timeMS ticks : Int64) (p : Priority) :
    Prop :=
  ∀ es : List (Event Id), InOrder now es → (∀ e ∈ es, ¬ e.Asks timerid) →
    Promise now timerid timeMS ticks es ((lt.askTimer now timerid timeMS ticks p).run es)

/-- Checks that follow one another with a gap before each. -/
def checksEvery (gap : Nat) : Nat → Nat → List (Event Id)
  | 0, _ => []
  | n + 1, since => .checkTimers (since + gap) :: checksEvery gap n (since + gap)

section

variable {gap n since : Nat}

omit [DecidableEq Id] in
theorem turns_checksEvery : turns gap since (checksEvery gap n since : List (Event Id)) = n := by
  induction n generalizing since with
  | zero => rfl
  | succ n ih => rw [checksEvery, turns, if_pos (Nat.le_refl _), ih]

omit [DecidableEq Id] in
theorem inOrder_checksEvery : InOrder since (checksEvery gap n since : List (Event Id)) := by
  induction n generalizing since with
  | zero => exact inOrder_nil since
  | succ n ih => exact inOrder_cons.mpr ⟨Nat.le_add_right _ _, ih⟩

omit [DecidableEq Id] in
theorem not_asks_checksEvery {timerid : Id} :
    ∀ e ∈ (checksEvery gap n since : List (Event Id)), ¬ e.Asks timerid := by
  induction n generalizing since with
  | zero => simp [checksEvery]
  | succ n ih => exact List.forall_mem_cons.mpr ⟨id, ih⟩

end

theorem allowed_eq_waitUpTime {timeMS : Int64} :
    allowed timeMS = waitUpTime ↔ timeMS.toInt = waitUpTime := by
  unfold allowed minQuantityTime waitUpTime
  split_ifs <;> omega

namespace LTObject

variable {lt : LTObject Id} {now : Nat} {timerid : Id} {timeMS ticks : Int64} {p : Priority}

theorem curTick_order (asked : 0 < timeMS.toInt) :
    (lt.askTimer now timerid timeMS ticks p).ticks.curTick timerid =
      some (if lt.Listed timerid then ticks.toInt else ticks.toInt - 1) := by
  rw [ticks_askTimer, UniSet.LTObject.curTick_askTimer_self (Int.pos_iff_toNat_pos.mp asked)]
  simp only [listed_iff]

theorem tmr_order (asked : 0 < timeMS.toInt) :
    ((lt.askTimer now timerid timeMS ticks p).timer timerid).map (·.tmr) =
      some (.setTiming now (allowed timeMS)) := by
  cases here : lt.timer timerid with
  | none =>
    rw [timer_askTimer_new asked here]
    rfl
  | some ti =>
    rw [timer_askTimer_found asked here]
    rfl

theorem timed_order (asked : 0 < timeMS.toInt) :
    Timed timerid (allowed timeMS) (lt.askTimer now timerid timeMS ticks p) := by
  unfold Timed
  rw [tmr_order asked]
  rintro _ ⟨⟩
  rfl

theorem begun_order (asked : 0 < timeMS.toInt) :
    Begun timerid now (lt.askTimer now timerid timeMS ticks p) := by
  unfold Begun
  rw [tmr_order asked]
  rintro _ ⟨⟩
  exact Nat.le_refl _

theorem counted_order (asked : 0 < timeMS.toInt) (pos : 0 < ticks.toInt) :
    (lt.askTimer now timerid timeMS ticks p).ticks.Counted timerid := by
  intro curTick h
  rw [curTick_order asked] at h
  cases h
  split_ifs <;> omega

/-- A timer that is in the list is notified once more than it is ordered. -/
theorem toCome_order (asked : 0 < timeMS.toInt) (pos : 0 < ticks.toInt) :
    (lt.askTimer now timerid timeMS ticks p).ticks.toCome timerid =
      ticks.toInt.toNat + if lt.Listed timerid then 1 else 0 := by
  unfold UniSet.LTObject.toCome
  rw [curTick_order asked]
  split_ifs
  · rfl
  · show (ticks.toInt - 1).toNat + 1 = ticks.toInt.toNat
    omega

end LTObject

section

variable {lt : LTObject Id} {since now : Nat} {timerid : Id} {timeMS ticks : Int64} {p : Priority}

/-- An order without an end keeps its promise. -/
theorem tickLaw_of_endless (kept : Kept lt since) (later : since ≤ now)
    (asked : 0 < timeMS.toInt) (endless : ticks.toInt = -1) :
    TickLaw lt now timerid timeMS ticks p := by
  intro es inOrder others
  have never : (lt.askTimer now timerid timeMS ticks p).ticks.Endless timerid := by
    intro curTick h
    rw [LTObject.curTick_order asked] at h
    cases h
    split_ifs <;> omega
  have same := LTObject.curTick_run_of_endless (kept.askTimer later timerid timeMS ticks p) inOrder
    others never
  refine ⟨by omega, by omega, by omega, fun _ => ?_⟩
  rw [LTObject.listed_iff, UniSet.LTObject.Pending, same, LTObject.curTick_order asked]
  rfl

/-- An order for `WaitUpTime` keeps its promise: no message is ever due. -/
theorem tickLaw_of_waitUpTime (kept : Kept lt since) (later : since ≤ now)
    (asked : 0 < timeMS.toInt) (pos : 0 < ticks.toInt) (never : timeMS.toInt = waitUpTime) :
    TickLaw lt now timerid timeMS ticks p := by
  intro es inOrder others
  have keeps := kept.askTimer later timerid timeMS ticks p
  have timed : LTObject.Timed timerid (allowed timeMS) (lt.askTimer now timerid timeMS ticks p) :=
    LTObject.timed_order asked
  rw [allowed_eq_waitUpTime.mpr never] at timed
  have none := LTObject.pushed_run_of_waitUpTime keeps inOrder others timed
  have sum := LTObject.pushed_add_toCome keeps inOrder others (LTObject.counted_order asked pos)
  rw [LTObject.toCome_order asked pos] at sum
  refine ⟨fun _ => by omega, fun _ => ?_, fun _ ends => absurd never ends, by omega⟩
  rw [LTObject.listed_iff, UniSet.LTObject.pending_iff_toCome]
  omega

/-- An order of a timer that is not in the list keeps its promise. -/
theorem tickLaw_of_not_listed (kept : Kept lt since) (later : since ≤ now)
    (asked : 0 < timeMS.toInt) (pos : 0 < ticks.toInt) (new : ¬ lt.Listed timerid) :
    TickLaw lt now timerid timeMS ticks p := by
  intro es inOrder others
  have keeps := kept.askTimer later timerid timeMS ticks p
  have counted : (lt.askTimer now timerid timeMS ticks p).ticks.Counted timerid :=
    LTObject.counted_order asked pos
  have sum := LTObject.pushed_add_toCome keeps inOrder others counted
  have come : (lt.askTimer now timerid timeMS ticks p).ticks.toCome timerid = ticks.toInt.toNat := by
    rw [LTObject.toCome_order asked pos, if_neg new, Nat.add_zero]
  rw [come] at sum
  refine ⟨fun _ => by omega, fun _ => ?_, fun _ ends enough => ?_, by omega⟩
  · rw [LTObject.listed_iff, UniSet.LTObject.pending_iff_toCome]
    omega
  · have level := (LTObject.min_toCome_turns_le (fun h => ends (allowed_eq_waitUpTime.mp h)) rfl keeps
      inOrder others counted (LTObject.timed_order asked)).2 (LTObject.begun_order asked)
    rw [come] at level
    omega

/-- An order of a timer that is in the list does not: when enough time has passed for the messages
ordered, the timer is still in the list. -/
theorem not_tickLaw_of_listed (kept : Kept lt since) (later : since ≤ now)
    (asked : 0 < timeMS.toInt) (pos : 0 < ticks.toInt) (ends : timeMS.toInt ≠ waitUpTime)
    (old : lt.Listed timerid) : ¬ TickLaw lt now timerid timeMS ticks p := by
  intro law
  let gap := (allowed timeMS + minQuantityTime).toNat * 1000000
  let es : List (Event Id) := checksEvery gap ticks.toInt.toNat now
  have inOrder : InOrder now es := inOrder_checksEvery
  have others : ∀ e ∈ es, ¬ e.Asks timerid := not_asks_checksEvery
  have promise := law es inOrder others
  have all := promise.enough pos ends (Nat.le_of_eq turns_checksEvery.symm)
  have gone := promise.listed pos
  have sum := LTObject.pushed_add_toCome (kept.askTimer later timerid timeMS ticks p) inOrder others
    (LTObject.counted_order asked pos)
  rw [LTObject.toCome_order asked pos, if_pos old] at sum
  rw [LTObject.listed_iff, UniSet.LTObject.pending_iff_toCome] at gone
  omega

end

/-- **The number of notifications.** After any calls, an order keeps its promise exactly if it is
without an end, never due, or of a timer that is not in the list. -/
theorem tick_law_iff {born now : Nat} {timerid : Id} {timeMS ticks : Int64} {p : Priority}
    {before : List (Event Id)}
    (inOrder : InOrder born (before ++ [.askTimer now timerid timeMS ticks p]))
    (asked : 0 < timeMS.toInt) (number : 0 < ticks.toInt ∨ ticks.toInt = -1) :
    TickLaw ((LTObject.new born).run before).1 now timerid timeMS ticks p ↔
      ticks.toInt = -1 ∨ timeMS.toInt = waitUpTime ∨
        ¬ ((LTObject.new born).run before).1.Listed timerid := by
  obtain ⟨since, kept, inOrder⟩ := (Kept.new born).run inOrder
  have later : since ≤ now := (inOrder_cons.mp inOrder).1
  constructor
  · intro law
    by_contra broken
    rw [not_or, not_or, not_not] at broken
    obtain ⟨ends, due, old⟩ := broken
    exact not_tickLaw_of_listed kept later asked (number.resolve_right ends) due old law
  · intro keeps
    rcases number with pos | endless
    · rcases keeps with endless | never | new
      · exact tickLaw_of_endless kept later asked endless
      · exact tickLaw_of_waitUpTime kept later asked pos never
      · exact tickLaw_of_not_listed kept later asked pos new
    · exact tickLaw_of_endless kept later asked endless

/-- A new timer. -/
theorem new_timer_notified : TickLaw (LTObject.new 0 : LTObject Nat) 0 1 20 3 .mpHigh :=
  have inOrder : InOrder 0 ([] ++ [Event.askTimer 0 1 20 3 .mpHigh]) := by decide
  (tick_law_iff inOrder (by decide) (.inl (by decide))).mpr (.inr (.inr (by decide)))

/-- A timer that is ordered for one notification, and before the time is over again for one: two
messages. -/
theorem ordered_again_notified_twice :
    let lt := ((LTObject.new 0 : LTObject Nat).run [.askTimer 0 1 10 1 .mpHigh]).1
    ¬ TickLaw lt 0 1 10 1 .mpHigh ∧
      pushed 1 ((lt.askTimer 0 1 10 1 .mpHigh).run
        [.checkTimers 20000000, .checkTimers 40000000]).2 = 2 := by
  refine ⟨fun law => ?_, by decide⟩
  have most := (law [.checkTimers 20000000, .checkTimers 40000000] (by decide)
    (by simp [Event.Asks])).most (by decide)
  revert most
  decide

end Timers

end UniSet

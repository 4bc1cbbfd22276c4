/-
**The time that `checkTimers` returns.**

The clock shows whole milliseconds.

* `Stored` — the time left that is kept of a timer, counted from the last scan, does not go beyond
  the instant at which the timer is due (`due`). A scan gives it up or renews it
  (`Stored.turned`), and returns no more than the least (`scan_sleepTime_le`).
* `Keeps` — an order of a timer that is in the list starts `tmr` anew and leaves the time kept of
  it: the time stays right if it does not go beyond the new instant.
* `no_oversleep` — in a run all of whose orders are so, a check returns at most the greater of
  `MinQuantityTime` and the time left of the first timer that is due. One who sleeps for it wakes at
  most `MinQuantityTime` after a timer was due, unless that timer was over already at a check that
  the protection from a stream of messages has put off.
-/

import UniSet.Timers.LTObject

namespace UniSet.Timers

open UniSet.Processes (Priority)

variable {Id : Type}

/-- The milliseconds of the clock. -/
def millis (t : Nat) : Int := (t / 1000000 : Nat)

/-- The millisecond at which a timer is due. -/
def due (tmr : PassiveTimer) : Int := millis tmr.tStart + tmr.tMsec

variable {now : Nat}

theorem getCurrent_eq {pt : PassiveTimer} (start : 1000000 ∣ pt.tStart) (whole : 1000000 ∣ now)
    (before : pt.tStart ≤ now) :
    pt.getCurrent now = millis now - millis pt.tStart := by
  unfold PassiveTimer.getCurrent millis
  omega

/-- The time that is left of a timer that is not over. -/
theorem getLeft_eq {pt : PassiveTimer} (start : 1000000 ∣ pt.tStart) (whole : 1000000 ∣ now)
    (before : pt.tStart ≤ now) (timeout : Int) :
    pt.getLeft now timeout = max 0 (millis pt.tStart + timeout - millis now) := by
  unfold PassiveTimer.getLeft
  rw [getCurrent_eq start whole before]
  split_ifs <;> omega

theorem lt_due {tmr : PassiveTimer} {last : Nat} (running : Running tmr last now)
    (start : 1000000 ∣ tmr.tStart) (whole : 1000000 ∣ now) (ends : tmr.tMsec ≠ waitUpTime) :
    tmr.checkTime now = false ↔ millis now < due tmr := by
  rw [Bool.eq_false_iff, ne_eq, PassiveTimer.checkTime_iff running.pos,
    getCurrent_eq start whole running.started]
  unfold due
  omega

theorem allowed_le (timeMS : Int64) : allowed timeMS ≤ waitUpTime := by
  have top := timeMS.toInt_lt
  unfold allowed minQuantityTime waitUpTime
  split_ifs <;> omega

/-! ### The least time left -/

theorem least_le {sleepTime curTimeMS : Int} (small : curTimeMS ≤ waitUpTime) :
    least sleepTime curTimeMS ≤ sleepTime ∧ least sleepTime curTimeMS ≤ curTimeMS := by
  unfold least
  split_ifs with less <;> omega

theorem least_le_append {sleepTime : Int} {tlst : List (TimerInfo Id)} {left : TimerInfo Id}
    (kept : ∀ ti ∈ tlst, sleepTime ≤ ti.curTimeMS) (small : left.curTimeMS ≤ waitUpTime) :
    ∀ ti ∈ tlst ++ [left], least sleepTime left.curTimeMS ≤ ti.curTimeMS := by
  obtain ⟨sleep, own⟩ : least sleepTime left.curTimeMS ≤ sleepTime ∧ _ := least_le small
  intro ti mem
  rcases List.mem_append.mp mem with mem | mem
  · exact Int.le_trans sleep (kept ti mem)
  · rw [List.mem_singleton.mp mem]
    exact own

/-- The loop finds no more than the time left of each timer that it keeps. -/
theorem scan_sleepTime_le {tmLast : PassiveTimer} {l : List (TimerInfo Id)} {s : Scan Id}
    (small : ∀ ti ∈ l.filterMap (·.turn now tmLast), ti.curTimeMS ≤ waitUpTime)
    (kept : ∀ ti ∈ s.tlst, s.sleepTime ≤ ti.curTimeMS) :
    ∀ ti ∈ (scan now tmLast l s).tlst, (scan now tmLast l s).sleepTime ≤ ti.curTimeMS := by
  induction l generalizing s with
  | nil => exact kept
  | cons li rest ih =>
    rw [List.filterMap_cons] at small
    rw [scan]
    by_cases due : li.tmr.checkTime now
    · by_cases last : li.curTick = 0
      · rw [TimerInfo.turn, if_pos due, if_pos last] at small
        rw [if_pos due, if_pos last]
        refine ih small fun ti mem => ?_
        have nonempty : s.tlst.isEmpty = false := by
          rw [List.isEmpty_eq_false_iff]
          exact List.ne_nil_of_mem mem
        show (if s.tlst.isEmpty && rest.isEmpty then waitUpTime else s.sleepTime) ≤ ti.curTimeMS
        rw [nonempty, Bool.false_and, if_neg Bool.false_ne_true]
        exact kept ti mem
      · rw [TimerInfo.turn, if_pos due, if_neg last] at small
        obtain ⟨own, small⟩ := List.forall_mem_cons.mp small
        rw [if_pos due, if_neg last]
        exact ih small (least_le_append kept own)
    · rw [TimerInfo.turn, if_neg due] at small
      obtain ⟨own, small⟩ := List.forall_mem_cons.mp small
      rw [if_neg due]
      exact ih small (least_le_append kept own)

/-! ### The time that is kept of a timer -/

/-- **The time left that is kept of a timer** holds from the last scan to no later than it is due. -/
structure Stored (tmr : PassiveTimer) (curTimeMS : Int) (last : Nat) : Prop where
  whole : 1000000 ∣ tmr.tStart
  long : tmr.tMsec ≤ waitUpTime
  small : curTimeMS ≤ waitUpTime
  stored : tmr.tMsec ≠ waitUpTime → millis last + curTimeMS ≤ due tmr

theorem Stored.turned {ti left : TimerInfo Id} {tmLast : PassiveTimer} {since : Nat}
    (stored : Stored ti.tmr ti.curTimeMS tmLast.tStart)
    (running : Running ti.tmr tmLast.tStart since) (last : 1000000 ∣ tmLast.tStart)
    (whole : 1000000 ∣ now) (before : tmLast.tStart ≤ now) (later : since ≤ now)
    (turned : ti.turn now tmLast = some left) :
    Stored left.tmr left.curTimeMS now := by
  have running' : Running ti.tmr tmLast.tStart now := running.later later
  have pos := running.pos
  have long := stored.long
  have small := stored.small
  rw [TimerInfo.turn_tmr turned, TimerInfo.turn_curTimeMS turned]
  by_cases elapsed : ti.tmr.checkTime now = true
  · have ends := ((PassiveTimer.checkTime_iff pos now).mp elapsed).1
    rw [if_pos elapsed, if_pos elapsed, PassiveTimer.getInterval, if_pos ends]
    exact ⟨whole, long, long, fun _ => Int.le_refl _⟩
  · rw [if_neg elapsed, if_neg elapsed, getLeft_eq last whole before]
    refine ⟨stored.whole, long, ?_, fun ends => ?_⟩
    · unfold millis waitUpTime at *
      omega
    · have future := (lt_due running' stored.whole whole ends).mp (Bool.eq_false_iff.mpr elapsed)
      have kept := stored.stored ends
      omega

/-- An order of the timer, which keeps the time left that is stored of it. -/
theorem Stored.order {curTimeMS : Int} {last : Nat} {timeMS : Int64} (whole : 1000000 ∣ now)
    (small : curTimeMS ≤ waitUpTime) (right : allowed timeMS ≠ waitUpTime →
      millis last + curTimeMS ≤ millis now + allowed timeMS) :
    Stored (.setTiming now (allowed timeMS)) curTimeMS last where
  whole := whole
  long := allowed_le timeMS
  small := small
  stored := right

/-! ### Runs -/

/-- What is kept of every timer holds, and the last scan was at a whole millisecond. -/
structure Timely (lt : LTObject Id) : Prop where
  whole : 1000000 ∣ lt.tmLast.tStart
  stored : ∀ ti ∈ lt.tlst, Stored ti.tmr ti.curTimeMS lt.tmLast.tStart

/-- **The time left that is kept of a timer stays right over an order**: since the last scan it does
not go beyond the time that is ordered. -/
def Keeps [DecidableEq Id] (lt : LTObject Id) : Event Id → Prop
  | .askTimer now timerid timeMS _ _ =>
    0 < timeMS.toInt → allowed timeMS ≠ waitUpTime → ∀ ti ∈ lt.tlst, ti.id = timerid →
      ti.curTimeMS ≤ lt.tmLast.getCurrent now + allowed timeMS
  | .checkTimers _ => True

instance [DecidableEq Id] (lt : LTObject Id) : (e : Event Id) → Decidable (Keeps lt e)
  | .askTimer now timerid timeMS _ _ => inferInstanceAs (Decidable
      (0 < timeMS.toInt → allowed timeMS ≠ waitUpTime → ∀ ti ∈ lt.tlst, ti.id = timerid →
        ti.curTimeMS ≤ lt.tmLast.getCurrent now + allowed timeMS))
  | .checkTimers _ => inferInstanceAs (Decidable True)

/-- Every order of a run is so. -/
def RunKeeps [DecidableEq Id] (lt : LTObject Id) : List (Event Id) → Prop
  | [] => True
  | e :: es => Keeps lt e ∧ RunKeeps (lt.step e).1 es

instance decidableRunKeeps [DecidableEq Id] :
    (lt : LTObject Id) → (es : List (Event Id)) → Decidable (RunKeeps lt es)
  | _, [] => inferInstanceAs (Decidable True)
  | lt, e :: es =>
    have := decidableRunKeeps (lt.step e).1 es
    inferInstanceAs (Decidable (Keeps lt e ∧ RunKeeps (lt.step e).1 es))

namespace Timely

variable {lt : LTObject Id} {since now : Nat}

theorem new (whole : 1000000 ∣ now) : Timely (LTObject.new now : LTObject Id) where
  whole := whole
  stored := by simp [LTObject.new]

theorem checkTimers (timely : Timely lt) (kept : Kept lt since) (later : since ≤ now)
    (whole : 1000000 ∣ now) : Timely (lt.checkTimers now).1 := by
  unfold LTObject.checkTimers
  split_ifs with empty guarded
  · exact ⟨timely.whole, timely.stored⟩
  · exact ⟨timely.whole, timely.stored⟩
  · refine ⟨whole, fun left mem => ?_⟩
    have mem : left ∈ (scan now lt.tmLast lt.tlst ⟨waitUpTime, [], []⟩).tlst := mem
    rw [scan_tlst] at mem
    obtain ⟨ti, mem, turned⟩ := List.mem_filterMap.mp mem
    exact (timely.stored ti mem).turned (kept.running ti mem) timely.whole whole
      (Nat.le_trans kept.last later) later turned

variable [DecidableEq Id]

theorem askTimer (timely : Timely lt) (kept : Kept lt since) (later : since ≤ now)
    (whole : 1000000 ∣ now) {timerid : Id} {timeMS ticks : Int64} {p : Priority}
    (keeps : Keeps lt (.askTimer now timerid timeMS ticks p)) :
    Timely (lt.askTimer now timerid timeMS ticks p) := by
  have before := Nat.le_trans kept.last later
  unfold LTObject.askTimer
  split_ifs with asked
  · cases found : reorderFirst now timerid (allowed timeMS) ticks.toInt lt.tlst with
    | some tlst =>
      refine ⟨timely.whole, fun ti mem => ?_⟩
      rcases mem_reorderFirst found mem with mem | ⟨li, old, same, rfl⟩
      · exact timely.stored ti mem
      · refine Stored.order whole (timely.stored li old).small fun ends => ?_
        have right := keeps asked ends li old same
        rw [getCurrent_eq timely.whole whole before] at right
        show millis lt.tmLast.tStart + li.curTimeMS ≤ _
        omega
    | none =>
      refine ⟨timely.whole, fun ti mem => ?_⟩
      rcases List.mem_append.mp mem with mem | mem
      · exact timely.stored ti mem
      · rw [List.mem_singleton.mp mem]
        refine Stored.order whole (allowed_le timeMS) fun _ => ?_
        show millis lt.tmLast.tStart + allowed timeMS ≤ _
        unfold millis
        omega
  · exact ⟨timely.whole, fun ti mem => timely.stored ti (List.mem_filter.mp mem).1⟩

theorem step (timely : Timely lt) (kept : Kept lt since) {e : Event Id} (later : since ≤ e.now)
    (whole : 1000000 ∣ e.now) (keeps : Keeps lt e) : Timely (lt.step e).1 := by
  cases e with
  | askTimer now timerid timeMS ticks p => exact timely.askTimer kept later whole keeps
  | checkTimers now => exact timely.checkTimers kept later whole

theorem run {es rest : List (Event Id)} (timely : Timely lt) (kept : Kept lt since)
    (inOrder : InOrder since (es ++ rest)) (whole : ∀ e ∈ es, 1000000 ∣ e.now)
    (keeps : RunKeeps lt es) : Timely (lt.run es).1 := by
  induction es generalizing lt since with
  | nil => exact timely
  | cons e es ih =>
    obtain ⟨later, inOrder⟩ := inOrder_cons.mp inOrder
    obtain ⟨first, whole⟩ := List.forall_mem_cons.mp whole
    exact ih (timely.step kept later first keeps.1) (kept.step later) inOrder whole keeps.2

end Timely

/-! ### The time returned -/

variable {lt : LTObject Id} {since now : Nat}

/-- What a scan leaves of each timer: it is not over, and what is kept of it holds from now on. -/
theorem scanned (timely : Timely lt) (kept : Kept lt since) (later : since ≤ now)
    (whole : 1000000 ∣ now) (free : ¬ lt.Guarded now) {ti : TimerInfo Id}
    (mem : ti ∈ (lt.checkTimers now).1.tlst) :
    Running ti.tmr now now ∧ Stored ti.tmr ti.curTimeMS now := by
  rw [(LTObject.checkTimers_scan free).1] at mem
  obtain ⟨old, mem, turned⟩ := List.mem_filterMap.mp mem
  have running := kept.running old mem
  constructor
  · rw [TimerInfo.turn_tmr turned]
    exact running.turned later
  · exact (timely.stored old mem).turned running timely.whole whole
      (Nat.le_trans kept.last later) later turned

/-- A scan returns no more than the time left that is kept of each timer, or `MinQuantityTime`. -/
theorem sleepTime_le (free : ¬ lt.Guarded now)
    (small : ∀ ti ∈ (lt.checkTimers now).1.tlst, ti.curTimeMS ≤ waitUpTime) {ti : TimerInfo Id}
    (mem : ti ∈ (lt.checkTimers now).1.tlst) :
    (lt.checkTimers now).1.sleepTime ≤ max minQuantityTime ti.curTimeMS := by
  rw [(LTObject.checkTimers_scan free).1] at small
  unfold LTObject.checkTimers at mem ⊢
  split_ifs at mem ⊢ with empty
  · rw [List.isEmpty_iff.mp empty] at mem
    cases mem
  · have least := scan_sleepTime_le small (s := ⟨waitUpTime, [], []⟩) (by simp) ti mem
    show (if _ then _ else _) ≤ _
    split_ifs <;> omega

/-- **A check does not oversleep.** The time it returns is at most the greater of `MinQuantityTime`
and the time left of the first timer that is due. One who sleeps for that time wakes at most
`MinQuantityTime` after a timer was due; where the check is put off by the protection from a stream
of messages, if none of the timers is over yet. -/
def NoOversleep (lt : LTObject Id) (now : Nat) : Prop :=
  let after := (lt.checkTimers now).1
  (∀ ti ∈ after.tlst, ti.tmr.tMsec ≠ waitUpTime →
    after.sleepTime ≤ max minQuantityTime (ti.tmr.getLeft now ti.tmr.tMsec)) ∧
  ((lt.Guarded now → ∀ ti ∈ lt.tlst, ti.tmr.checkTime now = false) →
    ∀ ti ∈ after.tlst, ti.tmr.tMsec ≠ waitUpTime →
      millis now + after.sleepTime ≤ due ti.tmr + minQuantityTime)

/-- A check that is put off returns `MinQuantityTime`. -/
theorem noOversleep_of_guarded (timely : Timely lt) (kept : Kept lt since) (later : since ≤ now)
    (whole : 1000000 ∣ now) (guarded : lt.Guarded now) : NoOversleep lt now := by
  obtain ⟨tlst, -⟩ := LTObject.checkTimers_guarded guarded
  have sleepTime : ∀ ti ∈ lt.tlst, (lt.checkTimers now).1.sleepTime = minQuantityTime := by
    intro ti mem
    unfold LTObject.checkTimers
    rw [if_neg (by rw [List.isEmpty_iff]; exact List.ne_nil_of_mem mem), if_pos guarded]
  constructor
  · intro ti mem _
    rw [tlst] at mem
    rw [sleepTime ti mem]
    exact le_max_left _ _
  · intro waiting ti mem ends
    rw [tlst] at mem
    have running := (kept.running ti mem).later later
    have future := (lt_due running (timely.stored ti mem).whole whole ends).mp
      (waiting guarded ti mem)
    rw [sleepTime ti mem]
    omega

/-- A scan returns no more than the time left of each timer. -/
theorem noOversleep_of_scan (timely : Timely lt) (kept : Kept lt since) (later : since ≤ now)
    (whole : 1000000 ∣ now) (free : ¬ lt.Guarded now) : NoOversleep lt now := by
  have left : ∀ ti ∈ (lt.checkTimers now).1.tlst, ti.tmr.tMsec ≠ waitUpTime →
      (lt.checkTimers now).1.sleepTime ≤ max minQuantityTime (due ti.tmr - millis now) ∧
        millis now < due ti.tmr ∧ ti.tmr.getLeft now ti.tmr.tMsec = due ti.tmr - millis now := by
    intro ti mem ends
    obtain ⟨running, stored⟩ := scanned timely kept later whole free mem
    have sleep := sleepTime_le free
      (fun ti mem => (scanned timely kept later whole free mem).2.small) mem
    have future := (lt_due running stored.whole whole ends).mp running.waiting
    have right := stored.stored ends
    have getLeft := getLeft_eq stored.whole whole running.started ti.tmr.tMsec
    unfold due at *
    refine ⟨by omega, by omega, by omega⟩
  constructor
  · intro ti mem ends
    obtain ⟨sleep, future, getLeft⟩ := left ti mem ends
    rw [getLeft]
    exact sleep
  · intro _ ti mem ends
    obtain ⟨sleep, future, -⟩ := left ti mem ends
    unfold minQuantityTime at *
    omega

variable [DecidableEq Id]

/-- **No oversleeping**, at any check after calls whose orders keep the time left right. -/
theorem no_oversleep {born : Nat} {es : List (Event Id)}
    (inOrder : InOrder born (es ++ [.checkTimers now])) (start : 1000000 ∣ born)
    (whole : ∀ e ∈ es ++ [Event.checkTimers now], 1000000 ∣ e.now)
    (keeps : RunKeeps (LTObject.new born) es) :
    NoOversleep ((LTObject.new born).run es).1 now := by
  obtain ⟨whole, last⟩ := List.forall_mem_append.mp whole
  have last : 1000000 ∣ now := last _ List.mem_cons_self
  have timely := (Timely.new start).run (Kept.new born) inOrder whole keeps
  obtain ⟨since, kept, inOrder⟩ := (Kept.new born).run inOrder
  have later : since ≤ now := (inOrder_cons.mp inOrder).1
  by_cases guarded : ((LTObject.new born).run es).1.Guarded now
  · exact noOversleep_of_guarded timely kept later last guarded
  · exact noOversleep_of_scan timely kept later last guarded

/-- A timer of 100 ms that is ordered again for 50 ms after a check has renewed it. -/
theorem short_order_no_oversleep :
    NoOversleep ((LTObject.new 0 : LTObject Nat).run [.askTimer 0 1 100 (-1) .mpHigh,
      .checkTimers 60000000, .askTimer 60000000 1 50 (-1) .mpHigh]).1 80000000 :=
  no_oversleep (by decide) (Nat.dvd_zero _) (by decide) (by decide)

/-- A timer of 1000 ms that is ordered again for 20 ms: a check 10 ms later returns 990 ms. -/
theorem short_order_oversleeps :
    let lt := ((LTObject.new 0 : LTObject Nat).run
      [.askTimer 0 1 1000 (-1) .mpHigh, .askTimer 0 1 20 (-1) .mpHigh]).1
    ¬ NoOversleep lt 10000000 ∧ (lt.checkTimers 10000000).1.sleepTime = 990 := by
  refine ⟨fun law => ?_, by decide⟩
  have bound := law.1
  revert bound
  decide

end UniSet.Timers

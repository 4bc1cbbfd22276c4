/-
**The hourglass.**

`HourGlass` does not keep the level of its sand. It keeps the sand there was at the last turn and a timer that
each turn starts anew; the timer counts whole milliseconds.

* `HourGlass` — `run`, `rotate`, `check`, `remain` and `amount`.
* `Sand` — the glass that should be: its level at an instant, for a clock that tells what has run since the last
  turn. `wholeMs` is a clock of whole milliseconds, `exactNs` one of nanoseconds.
* **`hourGlass_shows`** — every call shows the level of the glass in which the sand of each phase is counted in
  whole milliseconds, and this level is less than a millisecond away from the exact one for each turn so far.
* `hourGlass_not_exact` — a turn forgets the part of a millisecond that has run before it.
-/

import UniSet.Lib.Machine
import UniSet.Timers

namespace UniSet

open Lib (Machine)

/-- A `timeout_t`: a sum of 64 bits. -/
def toTimeout (x : Int) : Int := (x + 2 ^ 63) % 2 ^ 64 - 2 ^ 63

/-- An `int`: what is left of a value. -/
def toIntValue (x : Int) : Int := (x + 2 ^ 31) % 2 ^ 32 - 2 ^ 31

/-- **`HourGlass`**: the timer, the position, the sand at the last turn and the size. -/
structure HourGlass where
  t : PassiveTimer
  state : Bool
  sand : Int
  size : Int
deriving DecidableEq, Repr

namespace HourGlass

/-- **`run`.** -/
def run (now : Nat) (msec : Int) : HourGlass := ⟨.setTiming now msec, true, msec, msec⟩

/-- The time of the timer, no more than the size. -/
def cur (h : HourGlass) (now : Nat) : Int :=
  if h.size < h.t.getCurrent now then h.size else h.t.getCurrent now

/-- **`rotate`.** -/
def rotate (h : HourGlass) (now : Nat) (st : Bool) : HourGlass :=
  if st = h.state then h
  else if !st then
    { h with
      state := st
      sand := if h.cur now < h.sand then h.sand - h.cur now else 0
      t := .setTiming now (h.cur now) }
  else
    let sum := toTimeout (h.sand + h.cur now)
    let sand := if h.size < sum then h.size else sum
    { h with state := st, sand := sand, t := .setTiming now sand }

/-- **`check`.** -/
def check (h : HourGlass) (now : Nat) : Bool := h.state && h.t.checkTime now

/-- **`remain`.** -/
def remain (h : HourGlass) (now : Nat) : Int :=
  if !h.state then
    let ret := toTimeout (h.sand + h.cur now)
    if h.size < ret then h.size else ret
  else
    let ret := toIntValue (h.sand - h.cur now)
    if ret < 0 then 0 else ret

/-- **`amount`.** -/
def amount (h : HourGlass) (now : Nat) : Int := h.size - h.remain now

end HourGlass

/-! ### The sand -/

/-- **A glass with sand**: the level at the last turn, its instant and the position. -/
structure Sand where
  level : Int
  since : Nat
  upright : Bool
deriving DecidableEq, Repr

namespace Sand

/-- The level at an instant, with the size and a clock for what runs in a phase. -/
def levelAt (size : Int) (clock : Nat → Nat → Int) (s : Sand) (now : Nat) : Int :=
  if s.upright then max 0 (s.level - clock s.since now) else min size (s.level + clock s.since now)

/-- A turn to a position. -/
def turn (size : Int) (clock : Nat → Nat → Int) (s : Sand) (now : Nat) (st : Bool) : Sand :=
  if st = s.upright then s else ⟨s.levelAt size clock now, now, st⟩

/-- Whole milliseconds. -/
def wholeMs (since now : Nat) : Int := ((now - since) / 1000000 : Nat)

/-- Nanoseconds. -/
def exactNs (since now : Nat) : Int := (now - since : Nat)

theorem levelAt_mem {size : Int} (clock : Nat → Nat → Int) {s : Sand} (bounds : 0 ≤ s.level ∧ s.level ≤ size)
    (now : Nat) (forth : 0 ≤ clock s.since now) :
    0 ≤ s.levelAt size clock now ∧ s.levelAt size clock now ≤ size := by
  rw [levelAt]
  cases s.upright with
  | true =>
    simp only [if_true]
    omega
  | false =>
    simp only [Bool.false_eq_true, if_false]
    omega

/-- Two levels that differ little, in milliseconds and in nanoseconds, differ at a later instant by what is left
of a millisecond more. -/
theorem levelAt_near (size : Int) {whole exact : Sand} {error : Int} (since : exact.since = whole.since)
    (upright : exact.upright = whole.upright) (low : whole.level * 1000000 - exact.level ≤ error)
    (high : exact.level - whole.level * 1000000 ≤ error) (now : Nat) :
    whole.levelAt size wholeMs now * 1000000 - exact.levelAt (size * 1000000) exactNs now < error + 1000000 ∧
      exact.levelAt (size * 1000000) exactNs now - whole.levelAt size wholeMs now * 1000000 <
        error + 1000000 := by
  rw [levelAt, levelAt, since, upright, wholeMs, exactNs]
  cases whole.upright with
  | true =>
    simp only [if_true]
    omega
  | false =>
    simp only [Bool.false_eq_true, if_false]
    omega

end Sand

/-! ### The calls -/

/-- The functions of the glass. -/
inductive HourGlassOp
  | rotate (st : Bool)
  | check
  | remain
  | amount
deriving DecidableEq, Repr

/-- A call and its instant. -/
structure HourGlassCall where
  now : Nat
  op : HourGlassOp
deriving DecidableEq, Repr

/-- A glass, the sand that is counted in whole milliseconds, the exact one, the turns so far and the instant of the
last call. -/
structure HourGlassRun where
  glass : HourGlass
  whole : Sand
  exact : Sand
  turns : Nat
  now : Nat
deriving DecidableEq, Repr

namespace HourGlassRun

/-- After `run` with a duration. -/
def start (now : Nat) (duration : Int) : HourGlassRun :=
  ⟨.run now duration, ⟨duration, now, true⟩, ⟨duration * 1000000, now, true⟩, 0, now⟩

/-- A call: only `rotate` leaves anything. -/
def call (duration : Int) (r : HourGlassRun) (c : HourGlassCall) : HourGlassRun :=
  match c.op with
  | .rotate st =>
    ⟨r.glass.rotate c.now st, r.whole.turn duration Sand.wholeMs c.now st,
      r.exact.turn (duration * 1000000) Sand.exactNs c.now st,
      if st = r.glass.state then r.turns else r.turns + 1, c.now⟩
  | _ => { r with now := c.now }

end HourGlassRun

/-- **The calls for a glass of a duration**, from `run` on. -/
def hourGlass (duration : Int) : Machine HourGlassRun HourGlassCall where
  start r := ∃ now, r = .start now duration
  step r c := some (r.call duration c)

/-- A call that is not before the last one, and whose sum is a `timeout_t`. -/
def InRange (r : HourGlassRun) (c : HourGlassCall) : Prop :=
  r.now ≤ c.now ∧ (r.glass.state = false → r.glass.sand + r.glass.cur c.now < 2 ^ 63)

instance (r : HourGlassRun) (c : HourGlassCall) : Decidable (InRange r c) := inferInstanceAs (Decidable (_ ∧ _))

/-- **What is shown at the instant of a call**, for a level of the sand. -/
structure ShowsLevel (duration : Int) (r : HourGlassRun) (c : HourGlassCall) (level : Int) : Prop where
  check : r.glass.check c.now = true ↔ r.glass.state = true ∧ level = 0
  remain : duration < 2 ^ 31 → r.glass.remain c.now = level
  amount : duration < 2 ^ 31 → r.glass.amount c.now = duration - level

/-- **A glass shows the sand counted in whole milliseconds**, less than one for each turn and another one away from
the exact sand. -/
structure Shows (duration : Int) (r : HourGlassRun) (c : HourGlassCall) : Prop where
  level : ShowsLevel duration r c (r.whole.levelAt duration Sand.wholeMs c.now)
  low : r.whole.levelAt duration Sand.wholeMs c.now * 1000000 -
    r.exact.levelAt (duration * 1000000) Sand.exactNs c.now < (r.turns + 1) * 1000000
  high : r.exact.levelAt (duration * 1000000) Sand.exactNs c.now -
    r.whole.levelAt duration Sand.wholeMs c.now * 1000000 < (r.turns + 1) * 1000000

section Calls

variable {duration : Int} {r : HourGlassRun} {c : HourGlassCall}

/-- **What the glass has of the sand.** -/
structure Holds (duration : Int) (r : HourGlassRun) : Prop where
  size : r.glass.size = duration
  sand : r.glass.sand = r.whole.level
  since : r.glass.t.tStart = r.whole.since
  state : r.glass.state = r.whole.upright
  msec : r.glass.state = true → r.glass.t.tMsec = r.glass.sand
  bounds : 0 ≤ r.whole.level ∧ r.whole.level ≤ duration
  exactSince : r.exact.since = r.whole.since
  exactUpright : r.exact.upright = r.whole.upright
  low : r.whole.level * 1000000 - r.exact.level ≤ r.turns * 1000000
  high : r.exact.level - r.whole.level * 1000000 ≤ r.turns * 1000000

theorem holds_start (now : Nat) (positive : 0 ≤ duration) : Holds duration (.start now duration) where
  size := rfl
  sand := rfl
  since := rfl
  state := rfl
  msec _ := rfl
  bounds := ⟨positive, Int.le_refl _⟩
  exactSince := rfl
  exactUpright := rfl
  low := by
    show duration * 1000000 - duration * 1000000 ≤ ((0 : Nat) : Int) * 1000000
    omega
  high := by
    show duration * 1000000 - duration * 1000000 ≤ ((0 : Nat) : Int) * 1000000
    omega

theorem Holds.cur_eq (holds : Holds duration r) (now : Nat) :
    r.glass.cur now = min duration (Sand.wholeMs r.whole.since now) := by
  rw [HourGlass.cur, PassiveTimer.getCurrent, holds.size, holds.since, Sand.wholeMs]
  omega

theorem toTimeout_of_lt {x : Int} (low : 0 ≤ x) (high : x < 2 ^ 63) : toTimeout x = x := by
  rw [toTimeout]
  omega

theorem toIntValue_of_lt {x : Int} (low : -2 ^ 31 ≤ x) (high : x < 2 ^ 31) : toIntValue x = x := by
  rw [toIntValue]
  omega

theorem Holds.levelAt_upright (holds : Holds duration r) (up : r.glass.state = true) (now : Nat) :
    r.whole.levelAt duration Sand.wholeMs now = max 0 (r.glass.sand - r.glass.cur now) := by
  have bounds := holds.bounds
  rw [Sand.levelAt, ← holds.state, if_pos up, holds.cur_eq, holds.sand]
  omega

theorem Holds.levelAt_turned (holds : Holds duration r) (down : r.glass.state = false) (now : Nat) :
    r.whole.levelAt duration Sand.wholeMs now = min duration (r.glass.sand + r.glass.cur now) := by
  have bounds := holds.bounds
  rw [Sand.levelAt, ← holds.state, if_neg (by rw [down]; exact Bool.noConfusion), holds.cur_eq, holds.sand]
  have forth : 0 ≤ Sand.wholeMs r.whole.since now := Int.natCast_nonneg _
  omega

theorem Holds.cur_mem (holds : Holds duration r) (now : Nat) : 0 ≤ r.glass.cur now ∧ r.glass.cur now ≤ duration := by
  have bounds := holds.bounds
  have forth : 0 ≤ Sand.wholeMs r.whole.since now := Int.natCast_nonneg _
  rw [holds.cur_eq]
  omega

/-- **`check`** in whole milliseconds. -/
theorem Holds.check_iff (holds : Holds duration r) (finite : duration < waitUpTime) (now : Nat) :
    r.glass.check now = true ↔
      r.glass.state = true ∧ r.whole.levelAt duration Sand.wholeMs now = 0 := by
  rw [HourGlass.check, Bool.and_eq_true]
  refine and_congr_right fun up => ?_
  have bounds := holds.bounds
  have msec := holds.msec up
  have sand := holds.sand
  rw [holds.levelAt_upright up, PassiveTimer.checkTime, msec]
  by_cases zero : r.glass.sand = 0
  · have cur := holds.cur_mem now
    rw [if_neg (by omega), if_pos zero]
    exact iff_of_true rfl (by omega)
  · rw [if_neg (by omega), if_neg zero, decide_eq_true_eq, holds.cur_eq, holds.since, Sand.wholeMs]
    omega

/-- **`remain`.** -/
theorem Holds.remain_eq (holds : Holds duration r) (short : duration < 2 ^ 31) (now : Nat) :
    r.glass.remain now = r.whole.levelAt duration Sand.wholeMs now := by
  have bounds := holds.bounds
  have sand := holds.sand
  have cur := holds.cur_mem now
  rw [HourGlass.remain]
  cases up : r.glass.state with
  | true =>
    rw [holds.levelAt_upright up]
    simp only [Bool.not_true, Bool.false_eq_true, if_false]
    rw [toIntValue_of_lt (by omega) (by omega)]
    omega
  | false =>
    rw [holds.levelAt_turned up, holds.size]
    simp only [Bool.not_false, if_true]
    rw [toTimeout_of_lt (by omega) (by omega)]
    omega

theorem Holds.shows (holds : Holds duration r) (finite : duration < waitUpTime) (c : HourGlassCall) :
    Shows duration r c := by
  have near := Sand.levelAt_near duration holds.exactSince holds.exactUpright holds.low holds.high c.now
  refine ⟨⟨holds.check_iff finite c.now, fun short => holds.remain_eq short c.now, fun short => ?_⟩, ?_, ?_⟩
  · rw [HourGlass.amount, holds.size, holds.remain_eq short]
  · have := near.1
    omega
  · have := near.2
    omega

/-- **A turn** saves the level and starts the timer, upright with what has to run. -/
theorem Holds.rotate_eq (holds : Holds duration r) {now : Nat} {st : Bool} (other : st ≠ r.glass.state)
    (fits : r.glass.state = false → r.glass.sand + r.glass.cur now < 2 ^ 63) :
    ∃ msec, r.glass.rotate now st =
      ⟨⟨msec, now⟩, st, r.whole.levelAt duration Sand.wholeMs now, r.glass.size⟩ ∧
      (st = true → msec = r.whole.levelAt duration Sand.wholeMs now) := by
  have bounds := holds.bounds
  have sand := holds.sand
  have cur := holds.cur_mem now
  rw [HourGlass.rotate, if_neg other]
  cases up : r.glass.state with
  | true =>
    have down : st = false := by
      rw [up] at other
      exact Bool.eq_false_iff.mpr other
    rw [holds.levelAt_upright up, down]
    refine ⟨r.glass.cur now, ?_, fun st => Bool.noConfusion st⟩
    have level : (if r.glass.cur now < r.glass.sand then r.glass.sand - r.glass.cur now else 0) =
        max 0 (r.glass.sand - r.glass.cur now) := by omega
    simp only [Bool.not_false, if_true, level]
    rfl
  | false =>
    have turned : st = true := by
      rw [up] at other
      exact (Bool.not_eq_false st).mp other
    have fits := fits up
    rw [holds.levelAt_turned up, turned]
    refine ⟨min duration (r.glass.sand + r.glass.cur now), ?_, fun _ => rfl⟩
    have level : (if r.glass.size < toTimeout (r.glass.sand + r.glass.cur now) then r.glass.size
        else toTimeout (r.glass.sand + r.glass.cur now)) = min duration (r.glass.sand + r.glass.cur now) := by
      rw [toTimeout_of_lt (by omega) fits, holds.size]
      omega
    simp only [Bool.not_true, Bool.false_eq_true, if_false, level]
    rfl

/-- **One call.** -/
theorem holds_step {u : HourGlassRun} (holds : Holds duration r) (inRange : InRange r c)
    (stepped : (hourGlass duration).step r c = some u) : Holds duration u := by
  obtain rfl := Option.some.inj stepped
  obtain ⟨now, op⟩ := c
  have quiet : Holds duration { r with now := now } :=
    ⟨holds.1, holds.2, holds.3, holds.4, holds.5, holds.6, holds.7, holds.8, holds.9, holds.10⟩
  cases op with
  | check => exact quiet
  | remain => exact quiet
  | amount => exact quiet
  | rotate st =>
    show Holds duration ⟨r.glass.rotate now st, r.whole.turn _ _ now st, r.exact.turn _ _ now st, _, now⟩
    by_cases same : st = r.glass.state
    · have wholeSame : r.whole.turn duration Sand.wholeMs now st = r.whole := if_pos (same.trans holds.state)
      have exactSame : r.exact.turn (duration * 1000000) Sand.exactNs now st = r.exact :=
        if_pos (same.trans (holds.state.trans holds.exactUpright.symm))
      have glassSame : r.glass.rotate now st = r.glass := if_pos same
      rw [wholeSame, exactSame, glassSame, if_pos same]
      exact quiet
    · have wholeTurn : r.whole.turn duration Sand.wholeMs now st =
          ⟨r.whole.levelAt duration Sand.wholeMs now, now, st⟩ := if_neg fun up => same (up.trans holds.state.symm)
      have exactTurn : r.exact.turn (duration * 1000000) Sand.exactNs now st =
          ⟨r.exact.levelAt (duration * 1000000) Sand.exactNs now, now, st⟩ :=
        if_neg fun up => same (up.trans (holds.exactUpright.trans holds.state.symm))
      have near := Sand.levelAt_near duration holds.exactSince holds.exactUpright holds.low holds.high now
      have bounds := Sand.levelAt_mem Sand.wholeMs holds.bounds now (Int.natCast_nonneg _)
      obtain ⟨msec, turned, running⟩ := holds.rotate_eq same inRange.2
      rw [wholeTurn, exactTurn, turned, if_neg same]
      refine ⟨holds.size, rfl, rfl, rfl, running, bounds, rfl, rfl, ?_, ?_⟩
      · show r.whole.levelAt duration Sand.wholeMs now * 1000000 -
          r.exact.levelAt (duration * 1000000) Sand.exactNs now ≤ ((r.turns + 1 : Nat) : Int) * 1000000
        have := near.1
        omega
      · show r.exact.levelAt (duration * 1000000) Sand.exactNs now -
          r.whole.levelAt duration Sand.wholeMs now * 1000000 ≤ ((r.turns + 1 : Nat) : Int) * 1000000
        have := near.2
        omega

/-- **The hourglass shows its sand**, counted in whole milliseconds from turn to turn, for every duration and every
sequence of calls whose sums are no more than a `timeout_t` can have. -/
theorem hourGlass_shows (positive : 0 ≤ duration) (finite : duration < waitUpTime)
    (started : (hourGlass duration).start r) {calls : List HourGlassCall}
    (meets : (hourGlass duration).Meets InRange r calls) :
    (hourGlass duration).Meets (Shows duration) r calls := by
  obtain ⟨now, rfl⟩ := started
  exact Machine.meets_of_invariant (fun _ _ _ holds inRange stepped => holds_step holds inRange stepped)
    (fun _ c holds _ => holds.shows finite c) (holds_start now positive) meets

end Calls

/-- The debounce example: a glass of 100 ms that has run, is turned for 55 ms and for 25 ms, and back. -/
theorem hourGlass_shows_debounce :
    (hourGlass 100).Meets (Shows 100) (.start 0 100)
      [⟨110000000, .check⟩, ⟨110000000, .rotate false⟩, ⟨165000000, .rotate true⟩, ⟨190000000, .remain⟩,
        ⟨190000000, .rotate false⟩, ⟨280000000, .amount⟩] :=
  hourGlass_shows (by decide) (by decide) ⟨0, rfl⟩ (by decide)

/-- **Turns that come before the end of a millisecond.** A glass of 1 ms that is turned after 0.6 ms and back at
once has run for 1.2 ms, but begins its millisecond anew. And a glass of the greatest duration that is turned at once
and back after 2 ms adds up more than a `timeout_t` can have, and is over. -/
theorem hourGlass_not_exact :
    (¬ ∀ (duration : Int) (r : HourGlassRun) (calls : List HourGlassCall), 0 ≤ duration → duration < waitUpTime →
      (hourGlass duration).start r → (hourGlass duration).Meets (fun r c => r.now ≤ c.now) r calls →
        (hourGlass duration).Meets (fun r c => r.glass.check c.now = true ↔
          r.glass.state = true ∧ r.exact.levelAt (duration * 1000000) Sand.exactNs c.now = 0) r calls) ∧
    ∃ u, (hourGlass (waitUpTime - 1)).run (.start 0 (waitUpTime - 1))
        [⟨0, .rotate false⟩, ⟨2000000, .rotate true⟩] = some u ∧
      u.glass.check 2000000 = true ∧ u.whole.levelAt (waitUpTime - 1) Sand.wholeMs 2000000 = waitUpTime - 1 := by
  constructor
  · intro all
    have shown := all 1 (.start 0 1) [⟨600000, .rotate false⟩, ⟨600000, .rotate true⟩, ⟨1200000, .check⟩]
      (by decide) (by decide) ⟨0, rfl⟩ (by decide)
    have last := ((shown.2 _ rfl).2 _ rfl).1
    exact absurd (last.mpr (by decide)) (by decide)
  · exact ⟨_, rfl, by decide, by decide⟩

end UniSet

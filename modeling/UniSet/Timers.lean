/-
**Timers and triggers.**

* `PassiveTimer` — an interval and the instant of its start. `getInterval` of the interval
  `WaitUpTime` is zero.
* `DelayTimer` — a signal that follows its input with a delay.
* `Trigger` — the edges of a signal.
* `LTObject` — the timers an object has ordered and the ticks they have left.
-/

import Mathlib.Algebra.Group.Int.Defs
import Mathlib.Logic.Function.Basic
import Mathlib.Tactic.SplitIfs

namespace UniSet

/-- `UniSetTimer::WaitUpTime`, the greatest `timeout_t`. -/
def waitUpTime : Int := 2 ^ 63 - 1

/-- `UniSetTimer::MinQuantityTime`. -/
def minQuantityTime : Int := 10

/-- **`PassiveTimer`**: its interval in milliseconds and its start in nanoseconds of the steady
clock. -/
structure PassiveTimer where
  tMsec : Int
  tStart : Nat
deriving DecidableEq, Repr

namespace PassiveTimer

def setTiming (now : Nat) (msec : Int) : PassiveTimer := ⟨msec, now⟩

def checkTime (pt : PassiveTimer) (now : Nat) : Bool :=
  if pt.tMsec = waitUpTime then false
  else if pt.tMsec = 0 then true
  else decide (pt.tMsec ≤ ((now - pt.tStart) / 1000000 : Nat))

def getInterval (pt : PassiveTimer) : Int := if pt.tMsec ≠ waitUpTime then pt.tMsec else 0

def reset (pt : PassiveTimer) (now : Nat) : PassiveTimer := { pt with tStart := now }

def getCurrent (pt : PassiveTimer) (now : Nat) : Int := ((now - pt.tStart) / 1000000 : Nat)

/-- What is left of a timeout that began with the timer. -/
def getLeft (pt : PassiveTimer) (now : Nat) (timeout : Int) : Int :=
  if timeout ≤ pt.getCurrent now then 0 else timeout - pt.getCurrent now

theorem checkTime_iff {pt : PassiveTimer} (pos : 0 < pt.tMsec) (now : Nat) :
    pt.checkTime now = true ↔ pt.tMsec ≠ waitUpTime ∧ pt.tMsec ≤ pt.getCurrent now := by
  unfold checkTime getCurrent
  by_cases endless : pt.tMsec = waitUpTime
  · simp [endless]
  · have nonzero : pt.tMsec ≠ 0 := by omega
    simp [endless, nonzero]

theorem getCurrent_of_le {pt : PassiveTimer} {now : Nat} (before : now ≤ pt.tStart) :
    pt.getCurrent now = 0 := by
  rw [getCurrent, Nat.sub_eq_zero_of_le before]
  rfl

/-- A timer is not over when it has just begun. -/
theorem checkTime_of_le {pt : PassiveTimer} {now : Nat} (pos : 0 < pt.tMsec)
    (before : now ≤ pt.tStart) : pt.checkTime now = false := by
  rw [Bool.eq_false_iff]
  intro elapsed
  have := ((checkTime_iff pos now).mp elapsed).2
  rw [getCurrent_of_le before] at this
  omega

end PassiveTimer

/-- **`DelayTimer`.** -/
structure DelayTimer where
  pt : PassiveTimer
  prevState : Bool
  state : Bool
  onDelay : Int
  offDelay : Int
  waitingOn : Bool
  waitingOff : Bool
deriving DecidableEq, Repr

namespace DelayTimer

/-- A timer after `set`. -/
def set (now : Nat) (onMsec offMsec : Int) : DelayTimer where
  pt := .setTiming now waitUpTime
  prevState := false
  state := false
  onDelay := onMsec
  offDelay := offMsec
  waitingOn := false
  waitingOff := false

/-- The delayed state and the timer. -/
def check (d : DelayTimer) (now : Nat) (st : Bool) : Bool × DelayTimer :=
  let d := { d with prevState := st }
  if d.waitingOff then
    if d.pt.checkTime now then
      let state := d.state && st
      (state, { d with waitingOff := false, state := state })
    else (d.state, { d with waitingOff := !st })
  else if d.waitingOn then
    if d.pt.checkTime now then
      let state := d.state || st
      (state, { d with waitingOn := false, state := state })
    else (d.state, { d with waitingOn := st })
  else if d.state = st then (d.state, d)
  else
    let delay := if st then d.onDelay else d.offDelay
    if delay ≤ 0 then (st, { d with pt := .setTiming now 0, state := st })
    else (d.state, { d with pt := .setTiming now delay, waitingOn := st, waitingOff := !st })

/-- The timer does not delay the rising edge. -/
def Prompt (d : DelayTimer) : Prop := d.waitingOn = false ∧ d.onDelay ≤ 0

theorem Prompt.check {d : DelayTimer} (prompt : d.Prompt) (now : Nat) (st : Bool) :
    (d.check now st).2.Prompt := by
  obtain ⟨not, onDelay⟩ := prompt
  rw [DelayTimer.check]
  cases st <;> simp only [not, Bool.false_eq_true, if_false, if_true] <;> split_ifs <;>
    exact ⟨by first | exact not | rfl, onDelay⟩

/-- A falling edge that is not passed on yet is waited for. -/
theorem Prompt.waitingOff {d : DelayTimer} (prompt : d.Prompt) {now : Nat}
    (held : (d.check now false).1 = true) : (d.check now false).2.waitingOff = true := by
  have not := prompt.1
  rw [DelayTimer.check] at held ⊢
  simp only [not, Bool.false_eq_true, if_false] at held ⊢
  split_ifs at held ⊢ <;> simp_all

end DelayTimer

/-- **`Trigger`**: its previous state. -/
structure Trigger where
  oldstate : Bool
deriving DecidableEq, Repr

namespace Trigger

/-- The rising edge. -/
def hi (_ : Trigger) (state : Bool) : Trigger := ⟨state⟩

/-- Any change, and the trigger. -/
def change (t : Trigger) (state : Bool) : Bool × Trigger := (t.oldstate ≠ state, ⟨state⟩)

end Trigger

/-- **`LT_Object`**: the current tick of every timer that is ordered. A negative one never runs out. -/
structure LTObject (Id : Type) where
  curTick : Id → Option Int

namespace LTObject

variable {Id : Type} [DecidableEq Id]

/-- No timer is ordered. -/
def empty : LTObject Id := ⟨fun _ => none⟩

/-- `askTimer`: an order for a number of ticks, `-1` without an end; a time of zero cancels it. -/
def askTimer (lt : LTObject Id) (timerid : Id) (timeMS : Nat) (ticks : Int) : LTObject Id :=
  ⟨Function.update lt.curTick timerid (
    if 0 < timeMS then
      match lt.curTick timerid with
      | some _ => some ticks
      | none => some (ticks - 1)
    else none)⟩

/-- `checkTimers` for a timer whose time is over. -/
def fire (lt : LTObject Id) (timerid : Id) : LTObject Id :=
  ⟨Function.update lt.curTick timerid ((lt.curTick timerid).bind fun curTick =>
    if curTick = 0 then none else if 0 < curTick then some (curTick - 1) else some curTick)⟩

/-- The timer is ordered. -/
def Pending (lt : LTObject Id) (timerid : Id) : Prop := (lt.curTick timerid).isSome = true

instance (lt : LTObject Id) (timerid : Id) : Decidable (lt.Pending timerid) :=
  inferInstanceAs (Decidable (_ = true))

variable {lt : LTObject Id} {timerid other : Id}

theorem pending_askTimer {timeMS : Nat} (ordered : 0 < timeMS) (ticks : Int) :
    (lt.askTimer timerid timeMS ticks).Pending timerid := by
  unfold Pending askTimer
  rw [if_pos ordered]
  cases lt.curTick timerid <;> simp

theorem not_pending_cancel (ticks : Int) : ¬ (lt.askTimer timerid 0 ticks).Pending timerid := by
  simp [Pending, askTimer]

theorem curTick_askTimer_other (timeMS : Nat) (ticks : Int) (ne : other ≠ timerid) :
    (lt.askTimer timerid timeMS ticks).curTick other = lt.curTick other :=
  Function.update_of_ne ne _ _

theorem curTick_askTimer_self {timeMS : Nat} (ordered : 0 < timeMS) (ticks : Int) :
    (lt.askTimer timerid timeMS ticks).curTick timerid =
      some (if lt.Pending timerid then ticks else ticks - 1) := by
  show Function.update lt.curTick timerid _ timerid = _
  rw [Function.update_self, if_pos ordered]
  cases here : lt.curTick timerid <;> simp [Pending, here]

theorem curTick_fire_self : (lt.fire timerid).curTick timerid =
    (lt.curTick timerid).bind fun curTick =>
      if curTick = 0 then none else if 0 < curTick then some (curTick - 1) else some curTick :=
  Function.update_self _ _ _

theorem curTick_fire_other (ne : other ≠ timerid) : (lt.fire timerid).curTick other = lt.curTick other :=
  Function.update_of_ne ne _ _

theorem pending_askTimer_other (timeMS : Nat) (ticks : Int) (ne : other ≠ timerid) :
    (lt.askTimer timerid timeMS ticks).Pending other ↔ lt.Pending other := by
  unfold Pending
  rw [curTick_askTimer_other timeMS ticks ne]

theorem pending_fire_other (ne : other ≠ timerid) : (lt.fire timerid).Pending other ↔ lt.Pending other := by
  unfold Pending
  rw [curTick_fire_other ne]

/-- A timer of which every order is without an end. -/
def Endless (lt : LTObject Id) (timerid : Id) : Prop := ∀ curTick ∈ lt.curTick timerid, curTick < 0

theorem endless_askTimer (timeMS : Nat) :
    (lt.askTimer timerid timeMS (-1)).Endless timerid := by
  intro curTick h
  unfold LTObject.askTimer at h
  simp only [Function.update_self] at h
  split at h
  · split at h
    · cases h
      decide
    · cases h
      decide
  · cases h

theorem Endless.askTimer_other (endless : lt.Endless other) (timeMS : Nat) (ticks : Int)
    (ne : other ≠ timerid) : (lt.askTimer timerid timeMS ticks).Endless other := by
  unfold Endless
  rw [curTick_askTimer_other timeMS ticks ne]
  exact endless

theorem Endless.fire (endless : lt.Endless timerid) : lt.fire timerid = lt := by
  unfold LTObject.fire
  have same : ((lt.curTick timerid).bind fun curTick => if curTick = 0 then none
      else if 0 < curTick then some (curTick - 1) else some curTick) = lt.curTick timerid := by
    cases here : lt.curTick timerid with
    | none => rfl
    | some curTick =>
      have negative := endless curTick here
      rw [Option.bind_some, if_neg (Int.ne_of_lt negative), if_neg (Int.lt_asymm negative)]
  rw [same, Function.update_eq_self]

theorem Endless.fire_other (endless : lt.Endless other) (ne : other ≠ timerid) :
    (lt.fire timerid).Endless other := by
  unfold Endless
  rw [curTick_fire_other ne]
  exact endless

end LTObject

end UniSet

/-
**The delay element in a logic processor.**

`setIn` of a `TDelay` starts its timer and `tick` looks at it. A sensor calls `setIn` in every step, another element
where its output changes.

* `Watched` — a processor, the record of one of its elements, and the steps so far.
* `Held` — the input has been non-zero at every step since one that is at least the delay ago.
* `Delays` — after a step the output is 1 exactly if the input is held, and the children have been told it.
* `Timely` — the calls with which this is so.
* **`delays_iff`** — the steps of a run delay exactly if they are timely.
-/

import UniSet.LogicProcessor.Events

namespace UniSet.LogicProcessor

open Lib

set_option linter.unusedSectionVars false

/-- Whole milliseconds between two instants. -/
def msec (since now : Nat) : Int := ((now - since) / 1000000 : Nat)

/-- **The input is held** after the last of some steps, newest first: it has been non-zero at every step since one
that is at least the delay ago. -/
def Held (delay : Int) (past : List (Nat × Int)) : Prop :=
  ∃ last ∈ past.head?, ∃ s ∈ past.takeWhile fun s => s.2 ≠ 0, delay ≤ msec s.1 last.1

instance (delay : Int) (past : List (Nat × Int)) : Decidable (Held delay past) :=
  match past with
  | [] => isFalse fun held => absurd held.choose_spec.1 (Option.some_ne_none _).symm
  | last :: rest => decidable_of_iff (∃ s ∈ (last :: rest).takeWhile fun s => s.2 ≠ 0, delay ≤ msec s.1 last.1)
      ⟨fun held => ⟨last, rfl, held⟩, fun ⟨_, same, held⟩ => Option.some.inj same ▸ held⟩

variable {ID : Type*} [DecidableEq ID]

/-- **A processor with the record of one element**, and the steps that have read their inputs, newest first: their
instants and the values that the element had been given after them. -/
structure Watched (ID : Type*) where
  p : LProcessor ID
  seen : Seen
  past : List (Nat × Int)

namespace Watched

/-- What the element gets in a step. -/
def events (d : ID) (w : Watched ID) (moment : LProcessor.Moment) : List Event :=
  (LProcessor.events d w.p.sch (LProcessor.getInputs moment.getValue 0 w.p.extInputs).1 moment.now).getD []

/-- The record after a step. -/
def after (d : ID) (w : Watched ID) (moment : LProcessor.Moment) : Seen := w.seen.after moment.now (w.events d moment)

/-- The steps after one more. -/
def steps (d : ID) (w : Watched ID) (moment : LProcessor.Moment) : List (Nat × Int) :=
  (moment.now, (w.after d moment).given) :: w.past

end Watched

/-- **The steps of a processor**, with the record of an element. -/
def watched (d : ID) : Machine (Watched ID) LProcessor.Moment where
  start w := Schema.Inv w.p.sch ∧ w.seen = ⟨w.p.sch.el d, 0, none, none⟩ ∧ w.past = []
  step w moment := (w.p.step moment).map fun q =>
    if w.p.Answered moment then ⟨q, w.after d moment, w.steps d moment⟩ else ⟨q, w.seen, w.past⟩

/-- A step that is not before the last one. -/
def InOrder (w : Watched ID) (moment : LProcessor.Moment) : Prop := ∀ last ∈ w.past.head?, last.1 ≤ moment.now

instance (w : Watched ID) (moment : LProcessor.Moment) : Decidable (InOrder w moment) :=
  inferInstanceAs (Decidable (∀ last ∈ w.past.head?, last.1 ≤ moment.now))

/-- **A step after which the element has delayed its input**, and has told its children so. -/
def Delays (d : ID) (delay : Int) (w : Watched ID) (moment : LProcessor.Moment) : Prop :=
  ∃ q, w.p.step moment = some q ∧ (w.p.Answered moment →
    ((q.sch.el d).getOut = 1 ↔ Held delay (w.steps d moment)) ∧
      ∀ child ∈ q.sch.outs d, (w.after d moment).told = some (q.sch.el d).getOut)

instance (d : ID) (delay : Int) (w : Watched ID) (moment : LProcessor.Moment) : Decidable (Delays d delay w moment) :=
  inferInstanceAs (Decidable (∃ q ∈ w.p.step moment, w.p.Answered moment →
    ((q.sch.el d).getOut = 1 ↔ Held delay (w.steps d moment)) ∧
      ∀ child ∈ q.sch.outs d, (w.after d moment).told = some (q.sch.el d).getOut))

/-- **A step whose calls are timely.** Where the input is to be held, no 0 is given in between, and it was held
before or the first thing in the step is the `tick`, the delay after the last call. In the first step children are
told something only of a delay of zero. -/
structure Timely (d : ID) (delay : Int) (w : Watched ID) (moment : LProcessor.Moment) : Prop where
  output : w.p.Answered moment → 0 < delay → Held delay (w.steps d moment) →
    (∀ e ∈ w.events d moment, e.value ≠ some 0) ∧
      (Held delay w.past ∨ (w.events d moment).head? = some .tick ∧
        ∃ since ∈ w.seen.called, delay ≠ waitUpTime ∧ delay ≤ msec since moment.now)
  children : w.p.Answered moment → w.p.sch.outs d = [] ∨ w.past ≠ [] ∨
    delay ≤ 0 ∧ ∃ e ∈ w.events d moment, ∃ value ∈ e.value, value ≠ 0

instance (d : ID) (delay : Int) (w : Watched ID) (moment : LProcessor.Moment) : Decidable (Timely d delay w moment) :=
  decidable_of_iff
    ((w.p.Answered moment → 0 < delay → Held delay (w.steps d moment) →
      (∀ e ∈ w.events d moment, e.value ≠ some 0) ∧
        (Held delay w.past ∨ (w.events d moment).head? = some .tick ∧
          ∃ since ∈ w.seen.called, delay ≠ waitUpTime ∧ delay ≤ msec since moment.now)) ∧
      (w.p.Answered moment → w.p.sch.outs d = [] ∨ w.past ≠ [] ∨
        delay ≤ 0 ∧ ∃ e ∈ w.events d moment, ∃ value ∈ e.value, value ≠ 0))
    ⟨fun both => ⟨both.1, both.2⟩, fun timely => ⟨timely.output, timely.children⟩⟩

/-! ### The element in one step -/

section Phases

variable {delay : Int} {now since : Nat} {s : Seen} {e : Event} {events : List Event}

/-- The timer is over. -/
def Fires (delay : Int) (since now : Nat) : Prop := delay ≠ waitUpTime ∧ delay ≤ msec since now

/-- The input is 0. -/
def Idle (delay : Int) (s : Seen) : Prop :=
  s.given = 0 ∧ ∃ pt : PassiveTimer, s.el = .TDelay delay pt false ∧ pt.getInterval = 0

/-- The timer runs since an instant, that of the last call. -/
def Runs (delay : Int) (since : Nat) (s : Seen) : Prop :=
  s.given ≠ 0 ∧ s.called = some since ∧ s.el = .TDelay delay ⟨delay, since⟩ false

/-- The output is 1. -/
def On (delay : Int) (s : Seen) : Prop :=
  s.given ≠ 0 ∧ ∃ pt : PassiveTimer, s.el = .TDelay delay pt true ∧ pt.getInterval = 0

/-- **The output stays 0** at an instant: the timer does not run, or not long enough. -/
def Waits (delay : Int) (now : Nat) (s : Seen) : Prop :=
  Idle delay s ∨ ∃ since, Runs delay since s ∧ ¬ Fires delay since now

/-- **The phases** of an element with a delay. -/
def Known (delay : Int) (s : Seen) : Prop := Idle delay s ∨ (∃ since, Runs delay since s) ∨ On delay s

theorem msec_self (now : Nat) : msec now now = 0 := by
  rw [msec, Nat.sub_self]
  rfl

theorem not_fires_now (pos : 0 < delay) (now : Nat) : ¬ Fires delay now now := by
  rintro ⟨-, elapsed⟩
  rw [msec_self] at elapsed
  exact absurd elapsed (Int.not_le.mpr pos)

theorem react_zero {pt : PassiveTimer} {myout : Bool} (el : s.el = .TDelay delay pt myout) (num : Nat) :
    Idle delay (s.react now (.setIn num 0)) ∧ (myout = false → (s.react now (.setIn num 0)).told = s.told) := by
  have done : s.el.react now (.setIn num 0) = (.TDelay delay (.setTiming now 0) false, myout) := by
    rw [el]
    rfl
  refine ⟨⟨rfl, .setTiming now 0, congrArg Prod.fst done, rfl⟩, fun off => ?_⟩
  rw [Seen.react, done, off]
  rfl

theorem react_value (pos : 0 < delay) {pt : PassiveTimer} {myout : Bool} (el : s.el = .TDelay delay pt myout)
    (num : Nat) {value : Int} (nonzero : value ≠ 0) :
    (s.react now (.setIn num value)).el =
        .TDelay delay (if myout then pt else .setTiming now delay) myout ∧
      (s.react now (.setIn num value)).told = s.told := by
  have done : s.el.react now (.setIn num value) =
      (.TDelay delay (if myout then pt else .setTiming now delay) myout, false) := by
    rw [el]
    show (if value = 0 then _ else _ : Element × Bool) = _
    rw [if_neg nonzero, if_neg (Int.not_le.mpr pos)]
  rw [Seen.react, done]
  exact ⟨rfl, rfl⟩

theorem react_tick_idle {pt : PassiveTimer} {myout : Bool} (el : s.el = .TDelay delay pt myout)
    (idle : pt.getInterval = 0) : s.react now .tick = s := by
  have done : s.el.react now .tick = (s.el, false) := by
    rw [el]
    show (if pt.getInterval ≠ 0 ∧ pt.checkTime now then _ else _ : Element × Bool) = _
    rw [if_neg fun both => both.1 idle]
  rw [Seen.react, done]
  rfl

theorem react_tick_runs (pos : 0 < delay) (runs : Runs delay since s) :
    (Fires delay since now → On delay (s.react now .tick)) ∧ (¬ Fires delay since now → s.react now .tick = s) := by
  obtain ⟨given, called, el⟩ := runs
  have fired : (PassiveTimer.mk delay since).getInterval ≠ 0 ∧ (PassiveTimer.mk delay since).checkTime now ↔
      Fires delay since now := by
    rw [PassiveTimer.checkTime_iff pos]
    constructor
    · rintro ⟨-, elapsed⟩
      exact elapsed
    · intro fires
      refine ⟨?_, fires⟩
      rw [PassiveTimer.getInterval, if_pos fires.1]
      exact Int.ne_of_gt pos
  have done : s.el.react now .tick =
      if (PassiveTimer.mk delay since).getInterval ≠ 0 ∧ (PassiveTimer.mk delay since).checkTime now then
        (.TDelay delay (.setTiming now 0) true, true)
      else (.TDelay delay ⟨delay, since⟩ false, false) := by
    rw [el]
    rfl
  constructor
  · intro fires
    rw [if_pos (fired.mpr fires)] at done
    exact ⟨given, .setTiming now 0, congrArg Prod.fst done, rfl⟩
  · intro early
    rw [if_neg (mt fired.mp early), ← el] at done
    rw [Seen.react, done]
    rfl

/-- **While the output stays 0**, nothing is told. -/
theorem Waits.react (pos : 0 < delay) (waits : Waits delay now s) (e : Event) :
    Waits delay now (s.react now e) ∧ (s.react now e).told = s.told := by
  have off : ∃ pt, s.el = .TDelay delay pt false := by
    rcases waits with ⟨-, pt, el, -⟩ | ⟨since, ⟨-, -, el⟩, -⟩
    · exact ⟨pt, el⟩
    · exact ⟨_, el⟩
  obtain ⟨pt, el⟩ := off
  cases e with
  | setIn num value =>
    by_cases zero : value = 0
    · subst zero
      obtain ⟨idle, told⟩ := @react_zero delay now s pt false el num
      exact ⟨Or.inl idle, told rfl⟩
    · obtain ⟨left, told⟩ := @react_value delay now s pos pt false el num value zero
      exact ⟨Or.inr ⟨now, ⟨zero, rfl, left⟩, not_fires_now pos now⟩, told⟩
  | tick =>
    rcases waits with ⟨given, pt, el, interval⟩ | ⟨since, runs, early⟩
    · rw [react_tick_idle el interval]
      exact ⟨Or.inl ⟨given, pt, el, interval⟩, rfl⟩
    · rw [(react_tick_runs pos runs).2 early]
      exact ⟨Or.inr ⟨since, runs, early⟩, rfl⟩

theorem Waits.after (pos : 0 < delay) (waits : Waits delay now s) (events : List Event) :
    Waits delay now (s.after now events) ∧ (s.after now events).told = s.told := by
  refine Seen.after_keeps (P := fun u => Waits delay now u ∧ u.told = s.told) ?_ ⟨waits, rfl⟩ events
  rintro u e ⟨waits, told⟩
  exact ⟨(waits.react pos e).1, (waits.react pos e).2.trans told⟩

theorem Waits.not_on (waits : Waits delay now s) : ¬ On delay s := by
  rintro ⟨-, pt, on, -⟩
  rcases waits with ⟨-, pt', off, -⟩ | ⟨since, ⟨-, -, off⟩, -⟩
  · rw [on] at off
    exact absurd off (by simp)
  · rw [on] at off
    exact absurd off (by simp)

theorem Known.el (known : Known delay s) : ∃ pt myout, s.el = .TDelay delay pt myout := by
  rcases known with ⟨-, pt, el, -⟩ | ⟨since, -, -, el⟩ | ⟨-, pt, el, -⟩
  · exact ⟨pt, false, el⟩
  · exact ⟨_, false, el⟩
  · exact ⟨pt, true, el⟩

/-- A call with a value, where the output is 0. -/
theorem waits_of_value (pos : 0 < delay) {pt : PassiveTimer} (el : s.el = .TDelay delay pt false) (num : Nat)
    {value : Int} (nonzero : value ≠ 0) : Waits delay now (s.react now (.setIn num value)) := by
  have left := (@react_value delay now s pos pt false el num value nonzero).1
  exact Or.inr ⟨now, ⟨nonzero, rfl, left⟩, not_fires_now pos now⟩

theorem On.react_value (pos : 0 < delay) (on : On delay s) (num : Nat) {value : Int} (nonzero : value ≠ 0) :
    On delay (s.react now (.setIn num value)) := by
  obtain ⟨-, pt, el, idle⟩ := on
  exact ⟨nonzero, pt, (@LogicProcessor.react_value delay now s pos pt true el num value nonzero).1, idle⟩

theorem On.react_tick (on : On delay s) : s.react now .tick = s := by
  obtain ⟨-, pt, el, idle⟩ := on
  exact react_tick_idle el idle

theorem Known.react (pos : 0 < delay) (known : Known delay s) (e : Event) : Known delay (s.react now e) := by
  obtain ⟨pt, myout, el⟩ := known.el
  cases e with
  | setIn num value =>
    by_cases zero : value = 0
    · subst zero
      exact Or.inl (react_zero el num).1
    · have left := (@react_value delay now s pos pt myout el num value zero).1
      rcases known with ⟨-, _, off, -⟩ | ⟨_, -, -, off⟩ | on
      · exact Or.inr (Or.inl ⟨now, zero, rfl, (@react_value delay now s pos _ _ off num value zero).1⟩)
      · exact Or.inr (Or.inl ⟨now, zero, rfl, (@react_value delay now s pos _ _ off num value zero).1⟩)
      · exact Or.inr (Or.inr (on.react_value pos num zero))
  | tick =>
    rcases known with ⟨given, pt, off, interval⟩ | ⟨since, runs⟩ | on
    · rw [react_tick_idle off interval]
      exact Or.inl ⟨given, pt, off, interval⟩
    · by_cases fires : Fires delay since now
      · exact Or.inr (Or.inr ((react_tick_runs pos runs).1 fires))
      · rw [(react_tick_runs pos runs).2 fires]
        exact Or.inr (Or.inl ⟨since, runs⟩)
    · rw [on.react_tick]
      exact Or.inr (Or.inr on)

theorem Known.after (pos : 0 < delay) (known : Known delay s) (events : List Event) :
    Known delay (s.after now events) :=
  Seen.after_keeps (fun _ e known => known.react pos e) known events

/-- **While the output is 1**, a 0 alone ends it. -/
theorem On.after_iff (pos : 0 < delay) (on : On delay s) (events : List Event) :
    On delay (s.after now events) ↔ ∀ e ∈ events, e.value ≠ some 0 := by
  induction events generalizing s with
  | nil => exact iff_of_true on fun _ member => absurd member List.not_mem_nil
  | cons e rest ih =>
    rw [List.forall_mem_cons]
    cases e with
    | setIn num value =>
      by_cases zero : value = 0
      · obtain ⟨-, pt, el, -⟩ := on
        subst zero
        have waits : Waits delay now (s.react now (.setIn num 0)) := Or.inl (react_zero el num).1
        exact iff_of_false (waits.after pos rest).1.not_on fun none => none.1 rfl
      · have kept : Event.value (.setIn num value) ≠ some 0 := fun same => zero (Option.some.inj same)
        rw [and_iff_right kept]
        exact ih (on.react_value pos num zero)
    | tick =>
      have kept : Event.value .tick ≠ some 0 := (Option.some_ne_none 0).symm
      have same : s.after now (.tick :: rest) = s.after now rest :=
        congrArg (Seen.after now rest) (on.react_tick : s.react now .tick = s)
      rw [and_iff_right kept, same]
      exact ih on

theorem Runs.not_on (runs : Runs delay since s) : ¬ On delay s := by
  rintro ⟨-, pt, on, -⟩
  have off := runs.2.2
  rw [on] at off
  exact absurd off (by simp)

/-- **When the timer is over**, the first event decides. -/
theorem Runs.after_on_iff (pos : 0 < delay) (runs : Runs delay since s) (fires : Fires delay since now)
    (events : List Event) : On delay (s.after now events) ↔
      (∀ e ∈ events, e.value ≠ some 0) ∧ events.head? = some .tick := by
  cases events with
  | nil => exact iff_of_false runs.not_on fun both => absurd both.2 (Option.some_ne_none _).symm
  | cons e rest =>
    cases e with
    | setIn num value =>
      -- the call starts the timer again
      have waits : Waits delay now (s.react now (.setIn num value)) := by
        by_cases zero : value = 0
        · subst zero
          exact Or.inl (react_zero runs.2.2 num).1
        · exact waits_of_value pos runs.2.2 num zero
      exact iff_of_false (waits.after pos rest).1.not_on fun both => absurd (Option.some.inj both.2) (by simp)
    | tick =>
      have kept : Event.value .tick ≠ some 0 := (Option.some_ne_none 0).symm
      have first : (Event.tick :: rest).head? = some .tick := rfl
      rw [and_iff_left first, List.forall_mem_cons, and_iff_right kept]
      exact ((react_tick_runs pos runs).1 fires).after_iff pos rest

/-- **When the output is 1 after a step.** -/
theorem Known.after_on_iff (pos : 0 < delay) (known : Known delay s) (events : List Event) :
    On delay (s.after now events) ↔ (∀ e ∈ events, e.value ≠ some 0) ∧
      (On delay s ∨ ∃ since, Runs delay since s ∧ events.head? = some .tick ∧ Fires delay since now) := by
  have waiting : Waits delay now s → (On delay (s.after now events) ↔ (∀ e ∈ events, e.value ≠ some 0) ∧
      (On delay s ∨ ∃ since, Runs delay since s ∧ events.head? = some .tick ∧ Fires delay since now)) := by
    refine fun waits => iff_of_false (waits.after pos events).1.not_on ?_
    rintro ⟨-, on | ⟨since, runs, -, fires⟩⟩
    · exact waits.not_on on
    · rcases waits with idle | ⟨other, ⟨-, called, -⟩, early⟩
      · exact runs.1 idle.1
      · obtain rfl := Option.some.inj (called.symm.trans runs.2.1)
        exact early fires
  rcases known with idle | ⟨since, runs⟩ | on
  · exact waiting (Or.inl idle)
  · by_cases fires : Fires delay since now
    · rw [runs.after_on_iff pos fires, or_iff_right runs.not_on]
      refine and_congr_right fun _ => ⟨fun first => ⟨since, runs, first, fires⟩, ?_⟩
      rintro ⟨_, -, first, -⟩
      exact first
    · exact waiting (Or.inr ⟨since, runs, fires⟩)
  · rw [and_iff_left (Or.inl on)]
    exact on.after_iff pos events

theorem Known.on_iff (known : Known delay s) : On delay s ↔ s.el.getOut = 1 := by
  have off : ∀ {pt}, s.el = .TDelay delay pt false → (On delay s ↔ s.el.getOut = 1) := by
    intro pt el
    refine iff_of_false ?_ ?_
    · rintro ⟨-, pt', on, -⟩
      rw [el] at on
      exact absurd on (by simp)
    · rw [el]
      exact Int.zero_ne_one
  rcases known with ⟨-, pt, el, -⟩ | ⟨since, -, -, el⟩ | on
  · exact off el
  · exact off el
  · obtain ⟨-, pt, el, -⟩ := id on
    refine iff_of_true on ?_
    rw [el]
    rfl

/-! ### An element without a delay -/

/-- The output follows the input. -/
def Prompt (delay : Int) (s : Seen) : Prop :=
  ∃ pt : PassiveTimer, s.el = .TDelay delay pt (decide (s.given ≠ 0)) ∧ pt.getInterval = 0

theorem Prompt.react (none : delay ≤ 0) (prompt : Prompt delay s) (e : Event) : Prompt delay (s.react now e) := by
  obtain ⟨pt, el, idle⟩ := prompt
  cases e with
  | setIn num value =>
    refine ⟨.setTiming now 0, ?_, rfl⟩
    show (s.el.setIn now num value).1 = .TDelay delay (.setTiming now 0) (decide (value ≠ 0))
    rw [el, Element.setIn]
    by_cases zero : value = 0
    · rw [if_pos zero, decide_eq_false (not_not_intro zero)]
    · rw [if_neg zero, if_pos none, decide_eq_true zero]
  | tick =>
    rw [react_tick_idle el idle]
    exact ⟨pt, el, idle⟩

theorem Prompt.after (none : delay ≤ 0) (prompt : Prompt delay s) (events : List Event) :
    Prompt delay (s.after now events) :=
  Seen.after_keeps (fun _ e prompt => prompt.react none e) prompt events

/-! ### What the children are told -/

/-- **The children have been told the output**, or nothing while it is 0. -/
structure Tells (delay : Int) (s : Seen) : Prop where
  el : ∃ pt myout, s.el = .TDelay delay pt myout
  told : s.told.getD 0 = s.el.getOut

theorem Tells.react (tells : Tells delay s) (e : Event) : Tells delay (s.react now e) := by
  obtain ⟨⟨pt, myout, el⟩, told⟩ := tells
  have left : ∃ pt' myout' flag, s.el.react now e = (.TDelay delay pt' myout', flag) ∧
      (flag = false → myout' = myout) := by
    rw [el]
    cases e with
    | setIn num value =>
      show ∃ pt' myout' flag, Element.setIn now num value (.TDelay delay pt myout) = _ ∧ _
      rw [Element.setIn]
      split
      · exact ⟨_, _, _, rfl, fun off => off.symm⟩
      · split
        · refine ⟨_, _, _, rfl, fun off => ?_⟩
          rwa [Bool.not_eq_false', eq_comm] at off
        · exact ⟨_, _, _, rfl, fun _ => rfl⟩
    | tick =>
      show ∃ pt' myout' flag, Element.tick now (.TDelay delay pt myout) = _ ∧ _
      rw [Element.tick]
      split
      · exact ⟨_, _, _, rfl, fun off => absurd off (by decide)⟩
      · exact ⟨_, _, _, rfl, fun _ => rfl⟩
  obtain ⟨pt', myout', flag, done, same⟩ := left
  refine ⟨⟨pt', myout', congrArg Prod.fst done⟩, ?_⟩
  show (if (s.el.react now e).2 then some (s.el.react now e).1.getOut else s.told).getD 0 =
    (s.el.react now e).1.getOut
  rw [done]
  cases flag with
  | true => rfl
  | false =>
    rw [same rfl]
    rw [el] at told
    exact told

theorem Tells.after (tells : Tells delay s) (events : List Event) : Tells delay (s.after now events) :=
  Seen.after_keeps (fun _ e tells => tells.react e) tells events

theorem Tells.ne_none (tells : Tells delay s) (on : s.el.getOut = 1) : s.told ≠ none := by
  intro none
  have told := tells.told
  rw [none, on] at told
  exact Int.zero_ne_one told

theorem Prompt.getOut_eq (prompt : Prompt delay s) (given : s.given ≠ 0) : s.el.getOut = 1 := by
  obtain ⟨pt, el, -⟩ := prompt
  rw [el, decide_eq_true given]
  rfl

theorem told_react (told : s.told ≠ none) (e : Event) : (s.react now e).told ≠ none := by
  show (if (s.el.react now e).2 then some _ else s.told) ≠ none
  split
  · exact Option.some_ne_none _
  · exact told

theorem told_after (told : s.told ≠ none) (events : List Event) : (s.after now events).told ≠ none :=
  Seen.after_keeps (P := fun s => s.told ≠ none) (fun _ e told => told_react told e) told events

/-- **Without a delay** the children are told something once a value has been given. -/
theorem Prompt.told_after_iff (none : delay ≤ 0) (prompt : Prompt delay s) (tells : Tells delay s)
    (events : List Event) : (s.after now events).told ≠ Option.none ↔
      s.told ≠ Option.none ∨ ∃ e ∈ events, ∃ value ∈ e.value, value ≠ 0 := by
  induction events generalizing s with
  | nil => exact (or_iff_left fun ⟨_, member, _⟩ => absurd member List.not_mem_nil).symm
  | cons e rest ih =>
    refine (ih (prompt.react none e) (tells.react e)).trans ?_
    rw [List.exists_mem_cons_iff, ← or_assoc]
    refine or_congr_left ?_
    cases e with
    | setIn num value =>
      have given : (∃ x ∈ Event.value (.setIn num value), x ≠ 0) ↔ value ≠ 0 :=
        ⟨fun ⟨_, same, nonzero⟩ => Option.some.inj same ▸ nonzero, fun nonzero => ⟨value, rfl, nonzero⟩⟩
      rw [given]
      by_cases zero : value = 0
      · rw [or_iff_left (not_not_intro zero), zero]
        by_cases off : s.given = 0
        · obtain ⟨pt, el, -⟩ := prompt
          rw [decide_eq_false (not_not_intro off)] at el
          rw [(react_zero el num).2 rfl]
        · have already := tells.ne_none (prompt.getOut_eq off)
          exact iff_of_true (told_react already _) already
      · exact iff_of_true ((tells.react _).ne_none ((prompt.react none _).getOut_eq zero)) (Or.inr zero)
    | tick =>
      obtain ⟨pt, el, idle⟩ := prompt
      rw [react_tick_idle el idle]
      exact (or_iff_left fun ⟨_, same, _⟩ => absurd same (Option.some_ne_none _).symm).symm

/-- Where the output of an element without a delay is 1. -/
theorem Prompt.getOut_iff (prompt : Prompt delay s) : s.el.getOut = 1 ↔ s.given ≠ 0 := by
  refine ⟨fun on zero => ?_, prompt.getOut_eq⟩
  obtain ⟨pt, el, -⟩ := prompt
  rw [el, decide_eq_false (not_not_intro zero)] at on
  exact Int.zero_ne_one on

theorem called_after (events : List Event) : (s.after now events).called = some now ∨
    (s.after now events).called = s.called ∧ (s.after now events).given = s.given := by
  induction events generalizing s with
  | nil => exact Or.inr ⟨rfl, rfl⟩
  | cons e rest ih =>
    rcases @ih (s.react now e) with called | ⟨called, given⟩
    · exact Or.inl called
    · cases e with
      | setIn num value => exact Or.inl called
      | tick => exact Or.inr ⟨called, given⟩

end Phases

/-! ### The steps so far -/

section Steps

variable {delay : Int} {past : List (Nat × Int)} {now : Nat} {value : Int}

theorem msec_mono (since : Nat) {first last : Nat} (order : first ≤ last) : msec since first ≤ msec since last :=
  Int.ofNat_le.mpr (Nat.div_le_div_right (Nat.sub_le_sub_right order since))

theorem held_cons_iff (pos : 0 < delay) : Held delay ((now, value) :: past) ↔
    value ≠ 0 ∧ ∃ s ∈ past.takeWhile fun s => s.2 ≠ 0, delay ≤ msec s.1 now := by
  have head : Held delay ((now, value) :: past) ↔
      ∃ s ∈ ((now, value) :: past).takeWhile fun s => s.2 ≠ 0, delay ≤ msec s.1 now := by
    refine ⟨?_, fun held => ⟨_, rfl, held⟩⟩
    rintro ⟨last, same, held⟩
    obtain rfl := Option.some.inj same
    exact held
  rw [head, List.takeWhile_cons]
  by_cases zero : value = 0
  · rw [if_neg (by simp [zero])]
    exact iff_of_false (fun ⟨_, member, _⟩ => absurd member List.not_mem_nil) fun both => both.1 zero
  · have early : ¬ delay ≤ msec now now := by
      rw [msec_self]
      omega
    rw [if_pos (by simp [zero]), List.exists_mem_cons_iff, or_iff_right early, and_iff_right zero]

theorem held_cons_prompt (none : delay ≤ 0) : Held delay ((now, value) :: past) ↔ value ≠ 0 := by
  constructor
  · rintro ⟨_, -, s, member, -⟩ rfl
    rw [List.takeWhile_cons, if_neg (by simp)] at member
    exact absurd member List.not_mem_nil
  · intro nonzero
    refine ⟨_, rfl, (now, value), ?_, ?_⟩
    · rw [List.takeWhile_cons, if_pos (by simpa using nonzero)]
      exact List.mem_cons_self
    · rwa [msec_self]

end Steps

/-! ### The runs -/

section Runs

variable {d : ID} {delay : Int} {w u : Watched ID} {moment : LProcessor.Moment}

/-- **One step of the processor** does to the element what its events do. -/
theorem step_events (inv : Schema.Inv w.p.sch) (same : w.seen.el = w.p.sch.el d) (moment : LProcessor.Moment) :
    ∃ q, w.p.step moment = some q ∧ q.sch.ids = w.p.sch.ids ∧ q.sch.outs = w.p.sch.outs ∧
      (w.p.Answered moment → (w.after d moment).el = q.sch.el d) ∧ (¬ w.p.Answered moment → q.sch = w.p.sch) ∧
      q.extInputs = (LProcessor.getInputs moment.getValue 0 w.p.extInputs).1 := by
  rw [LProcessor.step]
  by_cases answered : w.p.Answered moment
  · obtain ⟨_, _, -, -, ran⟩ := LProcessor.exists_processing inv moment.now
      (LProcessor.getInputs moment.getValue 0 w.p.extInputs).1
    obtain ⟨happened, found, left⟩ := @LProcessor.processing_events ID _ d _ _ _ _ ran
    have events : w.events d moment = happened := by
      rw [Watched.events, found]
      rfl
    rw [if_pos (show (LProcessor.getInputs moment.getValue 0 w.p.extInputs).2 = true from answered), ran]
    refine ⟨_, rfl, rfl, rfl, fun _ => ?_, fun unanswered => absurd answered unanswered, rfl⟩
    rw [Watched.after, Seen.el_after, events, same]
    exact left.symm
  · rw [if_neg (show ¬ (LProcessor.getInputs moment.getValue 0 w.p.extInputs).2 = true from answered)]
    exact ⟨_, rfl, rfl, rfl, fun yes => absurd yes answered, fun _ => rfl, rfl⟩

theorem watched_step {q : LProcessor ID} (ran : w.p.step moment = some q)
    (stepped : (watched d).step w moment = some u) :
    u = if w.p.Answered moment then ⟨q, w.after d moment, w.steps d moment⟩ else ⟨q, w.seen, w.past⟩ := by
  have moved : (watched d).step w moment = some (if w.p.Answered moment then
      ⟨q, w.after d moment, w.steps d moment⟩ else ⟨q, w.seen, w.past⟩) := congrArg (Option.map _) ran
  exact (Option.some.inj (moved.symm.trans stepped)).symm

theorem inv_of_same {p q : LProcessor ID} (inv : Schema.Inv p.sch) (ids : q.sch.ids = p.sch.ids)
    (outs : q.sch.outs = p.sch.outs) : Schema.Inv q.sch where
  known := by
    rw [ids, outs]
    exact inv.known
  acyclic := by
    rw [outs]
    exact inv.acyclic

/-- **What the steps keep.** -/
structure Record (d : ID) (delay : Int) (w : Watched ID) : Prop where
  inv : Schema.Inv w.p.sch
  el : w.seen.el = w.p.sch.el d
  value : (w.past.head?.map Prod.snd).getD 0 = w.seen.given
  since : w.seen.given ≠ 0 → ∃ since ∈ w.seen.called, ∃ s ∈ w.past.takeWhile fun s => s.2 ≠ 0, s.1 = since
  tells : Tells delay w.seen
  prompt : delay ≤ 0 → Prompt delay w.seen
  known : 0 < delay → Known delay w.seen
  held : 0 < delay → (On delay w.seen ↔ Held delay w.past)
  first : w.past = [] → w.seen.told = none
  children : w.past ≠ [] → w.p.sch.outs d = [] ∨ w.seen.told ≠ none

/-- **The output is never 1 too early.** -/
theorem Record.held_of_on (record : Record d delay w) (order : InOrder w moment) (pos : 0 < delay)
    (active : On delay (w.after d moment)) : Held delay (w.steps d moment) := by
  refine (held_cons_iff pos).mpr ⟨active.1, ?_⟩
  rcases (((record.known pos).after_on_iff pos _).mp active).2 with before | ⟨since, runs, -, fires⟩
  · obtain ⟨last, there, s, member, elapsed⟩ := (record.held pos).mp before
    exact ⟨s, member, Int.le_trans elapsed (msec_mono s.1 (order last there))⟩
  · obtain ⟨other, called, s, member, same⟩ := record.since runs.1
    obtain rfl := Option.some.inj (runs.2.1.symm.trans called)
    exact ⟨s, member, same ▸ fires.2⟩

/-- Where the input is held after a step before which the output is 0, the timer runs since the last call. -/
theorem Record.runs_of_held (record : Record d delay w) (pos : 0 < delay) (held : Held delay (w.steps d moment))
    (off : ¬ On delay w.seen) {since : Nat} (called : since ∈ w.seen.called) : Runs delay since w.seen := by
  obtain ⟨-, s, member, -⟩ := (held_cons_iff pos).mp held
  have given : w.seen.given ≠ 0 := by
    rw [← record.value]
    cases steps : w.past with
    | nil =>
      rw [steps] at member
      exact absurd member List.not_mem_nil
    | cons first rest =>
      rw [steps, List.takeWhile_cons] at member
      split at member
      · next nonzero => exact of_decide_eq_true nonzero
      · exact absurd member List.not_mem_nil
  rcases record.known pos with idle | ⟨other, runs⟩ | on
  · exact absurd idle.1 given
  · obtain rfl := Option.some.inj (runs.2.1.symm.trans called)
    exact runs
  · exact absurd on off

/-- **The output after a step.** -/
theorem Record.output_iff (record : Record d delay w) (order : InOrder w moment) (pos : 0 < delay) :
    (On delay (w.after d moment) ↔ Held delay (w.steps d moment)) ↔
      (Held delay (w.steps d moment) → (∀ e ∈ w.events d moment, e.value ≠ some 0) ∧
        (Held delay w.past ∨ (w.events d moment).head? = some .tick ∧
          ∃ since ∈ w.seen.called, Fires delay since moment.now)) := by
  have on : On delay (w.after d moment) ↔ (∀ e ∈ w.events d moment, e.value ≠ some 0) ∧
      (On delay w.seen ∨ ∃ since, Runs delay since w.seen ∧ (w.events d moment).head? = some .tick ∧
        Fires delay since moment.now) := (record.known pos).after_on_iff pos _
  have both : (On delay (w.after d moment) ↔ Held delay (w.steps d moment)) ↔
      (Held delay (w.steps d moment) → On delay (w.after d moment)) :=
    ⟨fun same => same.mpr, fun given => ⟨record.held_of_on order pos, given⟩⟩
  rw [both]
  refine forall_congr' fun held => ?_
  rw [on, ← record.held pos]
  refine and_congr_right fun _ => ?_
  by_cases before : On delay w.seen
  · exact iff_of_true (Or.inl before) (Or.inl before)
  · rw [or_iff_right before, or_iff_right before]
    constructor
    · rintro ⟨since, runs, first, fires⟩
      exact ⟨first, since, runs.2.1, fires⟩
    · rintro ⟨first, since, called, fires⟩
      exact ⟨since, record.runs_of_held pos held before called, first, fires⟩

theorem Record.told_iff (record : Record d delay w) (children : w.p.sch.outs d ≠ []) :
    (w.after d moment).told ≠ none ↔
      w.past ≠ [] ∨ delay ≤ 0 ∧ ∃ e ∈ w.events d moment, ∃ value ∈ e.value, value ≠ 0 := by
  by_cases begun : w.past = []
  · rw [or_iff_right (not_not_intro begun)]
    have silent := record.first begun
    by_cases prompt : delay ≤ 0
    · rw [and_iff_right prompt]
      refine ((record.prompt prompt).told_after_iff prompt record.tells _).trans ?_
      exact or_iff_right (not_not_intro silent)
    · have pos : 0 < delay := Int.not_le.mp prompt
      have given : w.seen.given = 0 := by
        rw [← record.value, begun]
        rfl
      have waits : Waits delay moment.now w.seen := by
        rcases record.known pos with idle | ⟨since, runs⟩ | on
        · exact Or.inl idle
        · exact absurd given runs.1
        · exact absurd given on.1
      have same : (w.after d moment).told = none := (waits.after pos _).2.trans silent
      exact iff_of_false (not_not_intro same) fun both => prompt both.1
  · have told := (record.children begun).resolve_left children
    exact iff_of_true (told_after told _) (Or.inl begun)

theorem Record.getOut_iff (record : Record d delay w) (order : InOrder w moment) :
    ((w.after d moment).el.getOut = 1 ↔ Held delay (w.steps d moment)) ↔
      (0 < delay → Held delay (w.steps d moment) → (∀ e ∈ w.events d moment, e.value ≠ some 0) ∧
        (Held delay w.past ∨ (w.events d moment).head? = some .tick ∧
          ∃ since ∈ w.seen.called, Fires delay since moment.now)) := by
  by_cases pos : 0 < delay
  · have known : Known delay (w.after d moment) := (record.known pos).after pos _
    rw [← known.on_iff, record.output_iff order pos]
    exact ⟨fun timely _ => timely, fun timely => timely pos⟩
  · have none : delay ≤ 0 := Int.not_lt.mp pos
    have prompt : Prompt delay (w.after d moment) := (record.prompt none).after none _
    exact iff_of_true (prompt.getOut_iff.trans (held_cons_prompt none).symm) fun positive => absurd positive pos

theorem Record.children_iff (record : Record d delay w) :
    (∀ child ∈ w.p.sch.outs d, (w.after d moment).told = some (w.after d moment).el.getOut) ↔
      (w.p.sch.outs d = [] ∨ w.past ≠ [] ∨
        delay ≤ 0 ∧ ∃ e ∈ w.events d moment, ∃ value ∈ e.value, value ≠ 0) := by
  by_cases childless : w.p.sch.outs d = []
  · rw [childless]
    exact iff_of_true (fun _ member => absurd member List.not_mem_nil) (Or.inl rfl)
  · rw [or_iff_right childless, ← record.told_iff childless]
    constructor
    · intro all
      obtain ⟨child, member⟩ := List.exists_mem_of_ne_nil _ childless
      rw [all child member]
      exact Option.some_ne_none _
    · intro some child _
      obtain ⟨value, there⟩ := Option.ne_none_iff_exists'.mp some
      have tells : Tells delay (w.after d moment) := record.tells.after _
      have told : value = (w.after d moment).el.getOut := by
        rw [← tells.told, there]
        rfl
      rw [there, told]

/-- **Which steps delay.** -/
theorem Record.step_delays_iff (record : Record d delay w) (order : InOrder w moment) :
    Delays d delay w moment ↔ Timely d delay w moment := by
  obtain ⟨q, stepped, -, outs, el, -⟩ := step_events record.inv record.el moment
  have delays : Delays d delay w moment ↔ (w.p.Answered moment →
      ((q.sch.el d).getOut = 1 ↔ Held delay (w.steps d moment)) ∧
        ∀ child ∈ q.sch.outs d, (w.after d moment).told = some (q.sch.el d).getOut) := by
    constructor
    · rintro ⟨other, same, holds⟩
      obtain rfl := Option.some.inj (stepped.symm.trans same)
      exact holds
    · exact fun holds => ⟨q, stepped, holds⟩
  rw [delays]
  by_cases answered : w.p.Answered moment
  · rw [forall_prop_of_true answered, outs, ← el answered, record.getOut_iff order, record.children_iff]
    exact ⟨fun both => ⟨fun _ => both.1, fun _ => both.2⟩,
      fun timely => ⟨timely.output answered, timely.children answered⟩⟩
  · exact iff_of_true (fun yes => absurd yes answered)
      ⟨fun yes => absurd yes answered, fun yes => absurd yes answered⟩

theorem Record.next (record : Record d delay w) (delays : Delays d delay w moment)
    (stepped : (watched d).step w moment = some u) : Record d delay u := by
  obtain ⟨q, ran, ids, outs, el, same, -⟩ := step_events record.inv record.el moment
  obtain ⟨other, there, holds⟩ := delays
  obtain rfl := Option.some.inj (ran.symm.trans there)
  obtain rfl := watched_step ran stepped
  have inv := inv_of_same record.inv ids outs
  by_cases answered : w.p.Answered moment
  · rw [if_pos answered]
    obtain ⟨output, children⟩ := holds answered
    rw [← el answered] at output children
    refine ⟨inv, el answered, rfl, fun given => ?_, record.tells.after _,
      fun none => (record.prompt none).after none _,
      fun pos => (record.known pos).after pos _, fun pos => ?_, fun begun => absurd begun (List.cons_ne_nil _ _),
      fun _ => ?_⟩
    · have head : (w.steps d moment).takeWhile (fun s => s.2 ≠ 0) =
          (moment.now, (w.after d moment).given) :: w.past.takeWhile fun s => s.2 ≠ 0 := by
        rw [Watched.steps, List.takeWhile_cons, if_pos (decide_eq_true given)]
      show ∃ since ∈ (w.after d moment).called, ∃ s ∈ (w.steps d moment).takeWhile fun s => s.2 ≠ 0, s.1 = since
      rw [head]
      rcases @called_after moment.now w.seen (w.events d moment) with called | ⟨called, kept⟩
      · exact ⟨moment.now, called, _, List.mem_cons_self, rfl⟩
      · obtain ⟨since, before, s, member, same⟩ := record.since (kept ▸ given)
        exact ⟨since, called.trans before, s, List.mem_cons_of_mem _ member, same⟩
    · have known : Known delay (w.after d moment) := (record.known pos).after pos _
      exact known.on_iff.trans output
    · by_cases childless : q.sch.outs d = []
      · exact Or.inl childless
      · obtain ⟨child, member⟩ := List.exists_mem_of_ne_nil _ childless
        refine Or.inr ?_
        show (w.after d moment).told ≠ none
        rw [children child member]
        exact Option.some_ne_none _
  · rw [if_neg answered]
    refine ⟨inv, ?_, record.value, record.since, record.tells, record.prompt, record.known,
      record.held, record.first, ?_⟩
    · show w.seen.el = q.sch.el d
      rw [same answered]
      exact record.el
    · show w.past ≠ [] → q.sch.outs d = [] ∨ _
      rw [outs]
      exact record.children

theorem Record.new (started : (watched d).start w) (new : w.p.sch.el d = .newTDelay delay) : Record d delay w := by
  obtain ⟨inv, seen, past⟩ := started
  rw [new] at seen
  have given : w.seen.given = 0 := by rw [seen]
  have el : w.seen.el = .TDelay delay ⟨waitUpTime, 0⟩ false := by
    rw [seen]
    rfl
  have idle : Idle delay w.seen := ⟨given, _, el, rfl⟩
  have told : w.seen.told = none := by rw [seen]
  have never : ¬ Held delay w.past := by
    rintro ⟨last, there, -⟩
    rw [past] at there
    exact absurd there (Option.some_ne_none last).symm
  refine ⟨inv, ?_, ?_, fun nonzero => absurd given nonzero, ⟨⟨_, _, el⟩, ?_⟩, fun _ => ⟨⟨waitUpTime, 0⟩, ?_, rfl⟩,
    fun _ => Or.inl idle, fun pos => ?_, fun _ => told, fun begun => absurd past begun⟩
  · rw [new, el]
    rfl
  · rw [past, given]
    rfl
  · rw [told, el]
    rfl
  · rw [given]
    exact el
  · exact iff_of_false (fun on => on.1 given) never

/-- **The runs whose steps delay**, from a new element on. -/
theorem delays_iff (started : (watched d).start w) (new : w.p.sch.el d = .newTDelay delay)
    {moments : List LProcessor.Moment} (inOrder : (watched d).Meets InOrder w moments) :
    (watched d).Meets (Delays d delay) w moments ↔ (watched d).Meets (Timely d delay) w moments :=
  Machine.meets_iff_meets_within (fun _ _ record order => record.step_delays_iff order)
    (fun _ _ _ record _ delays stepped => record.next delays stepped) inOrder (Record.new started new)

/-! ### Three processors -/

/-- A sensor, an `OR` and a delay of 50 ms behind it. -/
def behindOr : Watched Nat where
  p :=
    { sch :=
        { ids := [1, 2]
          el := fun x => if x = 1 then .newTOR 1 false else .newTDelay 50
          outs := fun x => if x = 1 then [(2, 1)] else [] }
      extInputs := [⟨11, 0, 1, 1⟩] }
  seen := ⟨.newTDelay 50, 0, none, none⟩
  past := []

/-- A step at a millisecond in which the sensor has a value. -/
def sensorAt (ms : Nat) (value : Int) : LProcessor.Moment := ⟨ms * 1000000, fun _ _ => some value⟩

theorem inv_behindOr : Schema.Inv behindOr.p.sch := by
  have only : ∀ {a b}, Schema.Edge behindOr.p.sch.outs a b → a = 1 ∧ b = 2 := by
    intro a b edge
    by_cases first : a = 1
    · subst first
      exact ⟨rfl, List.mem_singleton.mp edge⟩
    · have none : behindOr.p.sch.outs a = [] := if_neg first
      rw [Schema.Edge, none] at edge
      exact absurd edge List.not_mem_nil
  refine ⟨fun a b edge => ?_, acyclic_of_rank id fun a b edge => ?_⟩
  · obtain ⟨rfl, rfl⟩ := only edge
    decide
  · obtain ⟨rfl, rfl⟩ := only edge
    decide

/-- **Behind an element** that calls it where its output changes, the delay works. -/
theorem delays_behindOr : (watched 2).Meets (Delays 2 50) behindOr
    [sensorAt 0 1, sensorAt 30 1, sensorAt 60 1, sensorAt 70 0, sensorAt 80 1, sensorAt 120 1] :=
  (delays_iff ⟨inv_behindOr, rfl, rfl⟩ rfl (by decide +kernel)).mpr (by decide +kernel)

/-- The delay on the sensor, and nothing behind it. -/
def onSensor : Watched Nat where
  p :=
    { sch := { ids := [1], el := fun _ => .newTDelay 50, outs := fun _ => [] }
      extInputs := [⟨11, 0, 1, 1⟩] }
  seen := ⟨.newTDelay 50, 0, none, none⟩
  past := []

/-- The delay on the sensor, and a `NOT` behind it. -/
def withChild : Watched Nat where
  p :=
    { sch :=
        { ids := [1, 2]
          el := fun x => if x = 1 then .newTDelay 50 else .newTNOT true
          outs := fun x => if x = 1 then [(2, 1)] else [] }
      extInputs := [⟨11, 0, 1, 1⟩] }
  seen := ⟨.newTDelay 50, 0, none, none⟩
  past := []

/-- **On a sensor** each step starts the timer again. A child is told nothing of a 0 at the beginning. -/
theorem not_delays_onSensor :
    (¬ ∀ (d : Nat) (delay : Int) (w : Watched Nat) (moments : List LProcessor.Moment),
      (watched d).start w → w.p.sch.el d = .newTDelay delay → (watched d).Meets InOrder w moments →
        (watched d).Meets (Delays d delay) w moments) ∧
    ¬ Delays 1 50 withChild (sensorAt 0 0) := by
  refine ⟨fun all => ?_, by decide +kernel⟩
  have inv : Schema.Inv onSensor.p.sch :=
    ⟨fun _ _ edge => absurd edge List.not_mem_nil, acyclic_of_rank id fun _ _ edge => absurd edge List.not_mem_nil⟩
  have meets := all 1 50 onSensor [sensorAt 0 1, sensorAt 60 1] ⟨inv, rfl, rfl⟩ rfl (by decide +kernel)
  exact absurd meets (by decide +kernel)

end Runs

end UniSet.LogicProcessor

/-
**The debounce filter over a sequence of samples.**

A pause begins with an edge of the input and ends with the first sample that is a delay away from it;
the output takes the input of this sample. Further edges do not prolong the pause.

* `after` — the filter after the first `n` samples; `shown` is the output it answers with.
* `Since` — the sample with which a pause has begun.
* `Pauses` — what the filter knows of the samples: out of a pause the output is the last input.
* **`checkDebounce_debounces`** — the output is the input wherever the input has held for the delay, it
  changes no more often than once in a delay, and only to an input that has left it for the delay.
-/

import Mathlib.Order.Monotone.Basic
import UniSet.IOBase.Delays

namespace UniSet

/-- `now` is at least `msec` milliseconds after `since`. -/
def Elapsed (msec : Int) (since now : Nat) : Prop := msec * 1000000 ≤ (now : Int) - since

instance (msec : Int) (since now : Nat) : Decidable (Elapsed msec since now) :=
  inferInstanceAs (Decidable (_ ≤ _))

/-- A timer that has just been reset is not over. -/
theorem PassiveTimer.checkTime_reset {pt : PassiveTimer} (delayed : ¬ pt.getInterval ≤ 0) (now : Nat) :
    (pt.reset now).checkTime now = false := by
  refine checkTime_of_le ?_ (le_refl now)
  show 0 < pt.tMsec
  rw [getInterval] at delayed
  split at delayed
  · exact Int.not_le.mp delayed
  · exact absurd (Int.le_refl 0) delayed

namespace DIFilters

variable {f : DIFilters}

/-- **The cases of `check_debounce`**, with a delay: the input stays as it is and there is no pause, a pause
begins, a pause goes on, a pause ends. -/
theorem checkDebounce_cases (delayed : ¬ f.ptDebounce.getInterval ≤ 0) (now : Nat) (val : Bool) :
    (f.debouncePause = false ∧ f.trdebounce.oldstate = val ∧
      f.checkDebounce now val = (f.debounceState, f)) ∨
    (f.debouncePause = false ∧ f.trdebounce.oldstate ≠ val ∧
      f.checkDebounce now val = (f.debounceState,
        { f with ptDebounce := f.ptDebounce.reset now, trdebounce := ⟨val⟩, debouncePause := true })) ∨
    (f.debouncePause = true ∧ f.ptDebounce.checkTime now = false ∧
      f.checkDebounce now val = (f.debounceState, { f with trdebounce := ⟨val⟩ })) ∨
    (f.debouncePause = true ∧ f.ptDebounce.checkTime now = true ∧
      f.checkDebounce now val =
        (val, { f with trdebounce := ⟨val⟩, debouncePause := false, debounceState := val })) := by
  have fresh := PassiveTimer.checkTime_reset delayed now
  rw [checkDebounce, if_neg delayed]
  obtain ⟨pt, ⟨oldstate⟩, pause, state, onDelay, offDelay, front, frontType, prev, fstate⟩ := f
  cases pause with
  | false =>
    by_cases same : oldstate = val
    · exact Or.inl ⟨rfl, same, by simp [Trigger.change, same]⟩
    · refine Or.inr (Or.inl ⟨rfl, same, ?_⟩)
      have fresh : (pt.reset now).checkTime now = false := fresh
      simp [Trigger.change, same, fresh]
  | true =>
    cases elapsed : pt.checkTime now with
    | false => exact Or.inr (Or.inr (Or.inl ⟨rfl, rfl, by simp [Trigger.change, elapsed]⟩))
    | true => exact Or.inr (Or.inr (Or.inr ⟨rfl, rfl, by simp [Trigger.change, elapsed]⟩))

end DIFilters

namespace Debounce

/-- The filters after the first `n` samples. -/
def after (f : DIFilters) (time : Nat → Nat) (input : Nat → Bool) : Nat → DIFilters
  | 0 => f
  | n + 1 => ((after f time input n).checkDebounce (time n) (input n)).2

/-- The output before the sample `n`: before the first one that of the filter, then the answer to the
sample before. -/
def shown (f : DIFilters) (time : Nat → Nat) (input : Nat → Bool) : Nat → Bool
  | 0 => f.debounceState
  | n + 1 => ((after f time input n).checkDebounce (time n) (input n)).1

/-- **What a debounced input is**, for a delay in milliseconds. `shown n` is the output before the sample
`n` and `shown (n + 1)` the one it is answered with. -/
structure Debounced (delay : Int) (time : Nat → Nat) (input shown : Nat → Bool) : Prop where
  /-- An input that has held for the delay is shown. -/
  steady : ∀ first last, Elapsed delay (time first) (time last) →
    (∀ k, first ≤ k → k ≤ last → input k = input last) → shown (last + 1) = input last
  /-- Two changes are a delay apart. -/
  apart : ∀ first last, first < last → shown (first + 1) ≠ shown first →
    shown (last + 1) ≠ shown last → Elapsed delay (time first) (time last)
  /-- A change shows the input. It departed from the output, which has not changed since, at least a delay
  ago. -/
  departed : ∀ last, shown (last + 1) ≠ shown last → shown (last + 1) = input last ∧
    ∃ first ≤ last, input first ≠ shown last ∧ (0 < first → input (first - 1) = shown last) ∧
      (∀ k, first ≤ k → k ≤ last → shown k = shown last) ∧ Elapsed delay (time first) (time last)

/-- **A pause that has begun with the sample `first`**, before the sample `n`: the input departed from the
output with it, the output has not changed since, and no sample was a delay away from it. -/
structure Since (delay : Int) (time : Nat → Nat) (input shown : Nat → Bool) (first n : Nat) : Prop where
  before : first < n
  edge : input first ≠ shown n
  settled : 0 < first → input (first - 1) = shown n
  kept : ∀ k, first ≤ k → k ≤ n → shown k = shown n
  running : ∀ k, first ≤ k → k < n → ¬ Elapsed delay (time first) (time k)

/-- **What the filter knows of the first `n` samples.** -/
structure Pauses (delay : Int) (time : Nat → Nat) (input shown : Nat → Bool) (n : Nat) (f : DIFilters) :
    Prop where
  msec : f.ptDebounce.tMsec = delay
  state : f.debounceState = shown n
  last : f.trdebounce.oldstate = if 0 < n then input (n - 1) else false
  quiet : f.debouncePause = false → f.debounceState = f.trdebounce.oldstate
  since : f.debouncePause = true →
    ∃ first, f.ptDebounce.tStart = time first ∧ Since delay time input shown first n

section Run

variable {delay : Int} {time : Nat → Nat} {input shown : Nat → Bool} {n : Nat} {f : DIFilters}

theorem getInterval_pos (pauses : Pauses delay time input shown n f) (positive : 0 < delay)
    (finite : delay ≠ waitUpTime) : ¬ f.ptDebounce.getInterval ≤ 0 := by
  rw [PassiveTimer.getInterval, pauses.msec, if_pos finite]
  exact Int.not_le.mpr positive

theorem checkTime_iff (pauses : Pauses delay time input shown n f) (positive : 0 < delay)
    (finite : delay ≠ waitUpTime) (now : Nat) :
    f.ptDebounce.checkTime now = true ↔ Elapsed delay f.ptDebounce.tStart now := by
  have msec := pauses.msec
  rw [PassiveTimer.checkTime_elapsed (by rw [msec]; exact positive) (by rw [msec]; exact finite), msec]
  exact decide_eq_true_iff

/-- **One more sample.** -/
theorem Pauses.step (pauses : Pauses delay time input shown n f) (positive : 0 < delay)
    (finite : delay ≠ waitUpTime)
    (answer : shown (n + 1) = (f.checkDebounce (time n) (input n)).1) :
    Pauses delay time input shown (n + 1) (f.checkDebounce (time n) (input n)).2 := by
  have last : input n = if 0 < n + 1 then input (n + 1 - 1) else false := rfl
  rcases DIFilters.checkDebounce_cases (getInterval_pos pauses positive finite) (time n) (input n) with
    ⟨quiet, same, stepped⟩ | ⟨quiet, edge, stepped⟩ | ⟨paused, early, stepped⟩ | ⟨paused, elapsed, stepped⟩
  · rw [stepped] at answer ⊢
    refine ⟨pauses.msec, answer.symm, same.trans last, pauses.quiet, fun paused => ?_⟩
    rw [quiet] at paused
    exact Bool.noConfusion paused
  · rw [stepped] at answer ⊢
    have kept : shown (n + 1) = shown n := answer.trans pauses.state
    have settled : f.debounceState = f.trdebounce.oldstate := pauses.quiet quiet
    refine ⟨pauses.msec, answer.symm, last, fun paused => Bool.noConfusion paused, fun _ => ⟨n, rfl, ?_⟩⟩
    refine ⟨Nat.lt_succ_self n, fun stays => edge ?_, fun later => ?_, fun k lower upper => ?_,
      fun k lower upper => ?_⟩
    · exact settled.symm.trans (answer.symm.trans stays.symm)
    · rw [answer, settled, pauses.last, if_pos later]
    · rcases Nat.lt_or_ge n k with after | same
      · rw [Nat.le_antisymm upper after]
      · rw [Nat.le_antisymm same lower, kept]
    · rw [Nat.le_antisymm (Nat.lt_succ_iff.mp upper) lower, Elapsed]
      omega
  · rw [stepped] at answer ⊢
    have kept : shown (n + 1) = shown n := answer.trans pauses.state
    obtain ⟨first, started, since⟩ := pauses.since paused
    refine ⟨pauses.msec, answer.symm, last, fun quiet => ?_, fun _ => ⟨first, started, ?_⟩⟩
    · exact absurd (paused.symm.trans quiet) Bool.noConfusion
    have running : ¬ Elapsed delay (time first) (time n) := by
      rw [← started, ← checkTime_iff pauses positive finite, early]
      exact Bool.noConfusion
    refine ⟨Nat.lt_succ_of_lt since.before, kept ▸ since.edge, fun later => kept ▸ since.settled later,
      fun k lower upper => ?_, fun k lower upper => ?_⟩
    · rcases Nat.lt_or_ge n k with after | before
      · rw [Nat.le_antisymm upper after]
      · rw [since.kept k lower before, kept]
    · rcases Nat.lt_or_ge k n with before | same
      · exact since.running k lower before
      · rw [Nat.le_antisymm (Nat.lt_succ_iff.mp upper) same]
        exact running
  · rw [stepped] at answer ⊢
    exact ⟨pauses.msec, answer.symm, last, fun _ => rfl, fun paused => Bool.noConfusion paused⟩

/-- **A change ends a pause.** -/
theorem Pauses.change (pauses : Pauses delay time input shown n f) (positive : 0 < delay)
    (finite : delay ≠ waitUpTime) (answer : shown (n + 1) = (f.checkDebounce (time n) (input n)).1)
    (changed : shown (n + 1) ≠ shown n) :
    shown (n + 1) = input n ∧
      ∃ first, Since delay time input shown first n ∧ Elapsed delay (time first) (time n) := by
  rw [answer, ← pauses.state] at changed
  rw [answer]
  rcases DIFilters.checkDebounce_cases (getInterval_pos pauses positive finite) (time n) (input n) with
    ⟨-, -, stepped⟩ | ⟨-, -, stepped⟩ | ⟨-, -, stepped⟩ | ⟨paused, elapsed, stepped⟩
  · rw [stepped] at changed
    exact absurd rfl changed
  · rw [stepped] at changed
    exact absurd rfl changed
  · rw [stepped] at changed
    exact absurd rfl changed
  · rw [stepped]
    obtain ⟨first, started, since⟩ := pauses.since paused
    refine ⟨rfl, first, since, ?_⟩
    rw [← started]
    exact (checkTime_iff pauses positive finite (time n)).mp elapsed

/-- The first samples, from any filters that know of none. -/
theorem pauses_after {start : DIFilters} (positive : 0 < delay) (finite : delay ≠ waitUpTime)
    (initially : Pauses delay time input (Debounce.shown start time input) 0 start) (n : Nat) :
    Pauses delay time input (Debounce.shown start time input) n (after start time input n) := by
  induction n with
  | zero => exact initially
  | succ n ih => exact ih.step positive finite rfl

end Run

/-- **A filter that keeps its pauses debounces.** -/
theorem debounced_of_pauses {delay : Int} {time : Nat → Nat} {input : Nat → Bool} {start : DIFilters}
    (positive : 0 < delay) (finite : delay ≠ waitUpTime) (ordered : Monotone time)
    (initially : Pauses delay time input (shown start time input) 0 start) :
    Debounced delay time input (shown start time input) where
  steady := by
    intro first last elapsed held
    have next := pauses_after positive finite initially (last + 1)
    cases paused : (after start time input (last + 1)).debouncePause with
    | false =>
      calc shown start time input (last + 1) = _ := next.state.symm
        _ = _ := next.quiet paused
        _ = input last := next.last
    | true =>
      -- the pause would have to begin after `first`, with an edge of an input that has none
      obtain ⟨s, -, since⟩ := next.since paused
      have late : first < s := by
        by_contra early
        have earlier := ordered (Nat.not_lt.mp early)
        have running := since.running last (Nat.lt_succ_iff.mp since.before) (Nat.lt_succ_self last)
        rw [Elapsed] at elapsed running
        omega
      have pos : 0 < s := Nat.lt_of_le_of_lt (Nat.zero_le first) late
      have here := held s (Nat.le_of_lt late) (Nat.lt_succ_iff.mp since.before)
      have prior := held (s - 1) (by omega) (by have := since.before; omega)
      exact absurd (here.trans (prior.symm.trans (since.settled pos))) since.edge
  apart := by
    intro first last earlier changed changedLater
    obtain ⟨-, s, since, elapsed⟩ :=
      (pauses_after positive finite initially last).change positive finite rfl changedLater
    have later : first < s := by
      by_contra early
      have early := Nat.not_lt.mp early
      have here := since.kept first early (Nat.le_of_lt earlier)
      have next := since.kept (first + 1) (Nat.le_succ_of_le early) earlier
      exact changed (next.trans here.symm)
    have before := ordered (Nat.le_of_lt later)
    rw [Elapsed] at elapsed ⊢
    omega
  departed := by
    intro last changed
    obtain ⟨taken, s, since, elapsed⟩ :=
      (pauses_after positive finite initially last).change positive finite rfl changed
    exact ⟨taken, s, Nat.le_of_lt since.before, since.edge, since.settled, since.kept, elapsed⟩

end Debounce

/-- **Every input is debounced**: for every delay an item can be configured with and every sequence of
samples in the order of time, whatever the other settings are. -/
theorem checkDebounce_debounces (start : Nat) {delay : Int} (positive : 0 < delay)
    (finite : delay ≠ waitUpTime) (ondelay offdelay : Int) (iofront : Option FrontType) {time : Nat → Nat}
    (ordered : Monotone time) (input : Nat → Bool) :
    Debounce.Debounced delay time input
      (Debounce.shown (.readItem start delay ondelay offdelay iofront) time input) :=
  Debounce.debounced_of_pauses positive finite ordered
    ⟨rfl, rfl, rfl, fun _ => rfl, fun paused => Bool.noConfusion paused⟩

/-- A contact that bounces: samples 4 ms apart, ones from the fifth one on with a gap, and a delay of 10 ms. -/
theorem checkDebounce_bounces :
    Debounce.Debounced 10 (fun n => n * 4000000) (fun n => decide (5 ≤ n ∧ n ≠ 6))
        (Debounce.shown (.readItem 0 10 0 0 none) (fun n => n * 4000000)
          (fun n => decide (5 ≤ n ∧ n ≠ 6))) ∧
      (List.range 10).map (Debounce.shown (.readItem 0 10 0 0 none) (fun n => n * 4000000)
          (fun n => decide (5 ≤ n ∧ n ≠ 6))) =
        [false, false, false, false, false, false, false, false, false, true] :=
  ⟨checkDebounce_debounces 0 (by decide) (by decide) 0 0 none
    (fun _ _ le => Nat.mul_le_mul_right _ le) _, by decide⟩

end UniSet

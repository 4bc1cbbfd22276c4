/-
**The filters of a discrete input, and its delays.**

* `DIFilters` — the state of the debounce filter, of the two delays and of the choice of a front of an
  `IOBase`; `check` is their order in `processingAsDI`.
* `DelayFilter` — `checkOnDelay` and `checkOffDelay`: a timer, a trigger and the state. The first
  delays the ones, the second the zeros.
* `Tracks` — what a delay filter knows of the delayed signal, whichever of the two is asked first:
  `check_front` is the filter of the level of the sample, `check_behind` the other one, which gets
  the answer of the first.
* `Waits` — what a `DelayTimer` knows of it.
* **`processingAsDI_delayTimer`** — an input with delays only, a `DelayTimer` of the same delays and
  the delayed signal answer every sequence of samples alike.
-/

import UniSet.IOBase
import UniSet.Lib.Hold
import UniSet.Timers

namespace UniSet

open UniSet.Lib (Hold outputs outputs_eq)

/-! ### The filters -/

/-- `Trigger::hi` for `level` `true` and `Trigger::low` for `false`: whether the state has just become
`level`, and the trigger. -/
def Trigger.edge (t : Trigger) (level state : Bool) : Bool × Trigger :=
  (decide (t.oldstate ≠ state) && decide (state = level), ⟨state⟩)

/-- The timer, the trigger and the state of a delay of an `IOBase`. -/
structure DelayFilter where
  pt : PassiveTimer
  tr : Trigger
  state : Bool
deriving DecidableEq, Repr

namespace DelayFilter

/-- The delay of the states `level`: the answer, and the filter. -/
def check (level : Bool) (d : DelayFilter) (now : Nat) (val : Bool) : Bool × DelayFilter :=
  if d.pt.getInterval ≤ 0 then (val, { d with state := val })
  else
    let edge := d.tr.edge level val
    let pt := if edge.1 then d.pt.reset now else d.pt
    -- the state is taken over once its time has come, or at once if it is the other one
    let state := if decide (val ≠ level) || pt.checkTime now then val else d.state
    (state, ⟨pt, edge.2, state⟩)

end DelayFilter

/-- `FrontType`. -/
inductive FrontType where
  | ftUnknown
  | ft01
  | ft10
deriving DecidableEq, Repr

/-- **The filters of a discrete input.** -/
structure DIFilters where
  ptDebounce : PassiveTimer
  trdebounce : Trigger
  debouncePause : Bool
  debounceState : Bool
  onDelay : DelayFilter
  offDelay : DelayFilter
  front : Bool
  frontType : FrontType
  frontPrevState : Bool
  frontState : Bool
deriving DecidableEq, Repr

namespace DIFilters

/-- The filters after `readItem`, with the fronts to react to, if any. -/
def readItem (now : Nat) (debouncedelay ondelay offdelay : Int) (iofront : Option FrontType) :
    DIFilters where
  ptDebounce := .setTiming now debouncedelay
  trdebounce := ⟨false⟩
  debouncePause := false
  debounceState := false
  onDelay := ⟨.setTiming now ondelay, ⟨false⟩, false⟩
  offDelay := ⟨.setTiming now offdelay, ⟨false⟩, false⟩
  front := iofront.isSome
  frontType := iofront.getD .ftUnknown
  frontPrevState := false
  frontState := false

/-- **`check_debounce`.** -/
def checkDebounce (f : DIFilters) (now : Nat) (val : Bool) : Bool × DIFilters :=
  if f.ptDebounce.getInterval ≤ 0 then (val, { f with debounceState := val })
  else
    let change := f.trdebounce.change val
    let begins := change.1 && !f.debouncePause
    let pt := if begins then f.ptDebounce.reset now else f.ptDebounce
    let pause := f.debouncePause || begins
    let expired := pause && pt.checkTime now
    let state := if expired then val else f.debounceState
    (state, { f with ptDebounce := pt, trdebounce := change.2, debouncePause := pause && !expired,
                     debounceState := state })

/-- **`check_on_delay`.** -/
def checkOnDelay (f : DIFilters) (now : Nat) (val : Bool) : Bool × DIFilters :=
  let r := f.onDelay.check true now val
  (r.1, { f with onDelay := r.2 })

/-- **`check_off_delay`.** -/
def checkOffDelay (f : DIFilters) (now : Nat) (val : Bool) : Bool × DIFilters :=
  let r := f.offDelay.check false now val
  (r.1, { f with offDelay := r.2 })

/-- **`check_front`.** -/
def checkFront (f : DIFilters) (val : Bool) : Bool × DIFilters :=
  if !f.front || decide (f.frontType = .ftUnknown) then (val, f)
  else
    let toggles :=
      (decide (f.frontType = .ft01) && (val && !f.frontPrevState)) ||
        (decide (f.frontType = .ft10) && (!val && f.frontPrevState))
    let state := f.frontState ^^ toggles
    (state, { f with frontPrevState := val, frontState := state })

/-- The two delays: the one of the level of the state is asked first. -/
def checkDelays (f : DIFilters) (now : Nat) (set : Bool) : Bool × DIFilters :=
  if set then
    let on := f.checkOnDelay now set
    on.2.checkOffDelay now on.1
  else
    let off := f.checkOffDelay now set
    off.2.checkOnDelay now off.1

/-- The filters of `processingAsDI`, in their order. -/
def check (f : DIFilters) (now : Nat) (set : Bool) : Bool × DIFilters :=
  let debounced := f.checkDebounce now set
  let delayed := debounced.2.checkDelays now debounced.1
  delayed.2.checkFront delayed.1

end DIFilters

/-- A sample of an input: its time, its state, the values in SharedMemory and `force`. -/
structure DISample where
  now : Nat
  set : Bool
  sm : SMValues
  force : Bool

namespace IOBase

/-- **`processingAsDI`** with the filters at work: the output it leaves in the item, and the item. -/
def sampleDI (it : IOBase × DIFilters) (s : DISample) : Bool × (IOBase × DIFilters) :=
  let set := if !it.1.checkDepend s.sm then decide (it.1.dOffValue ≠ 0) else s.set ^^ it.1.invert
  let filtered := it.2.check s.now set
  let item : IOBase := { it.1 with debounced := fun set => (it.2.check s.now set).1 }
  let saved := (item.processingAsDI s.set s.sm s.force).1
  (decide (saved.value ≠ 0), (saved, filtered.2))

theorem processingAsDI_value (it : IOBase) (set : Bool) (sm : SMValues) (force : Bool) :
    decide ((it.processingAsDI set sm force).1.value ≠ 0) = it.fromDI set sm := by
  rw [processingAsDI]
  split
  · show decide ((if it.fromDI set sm then 1 else 0 : Int) ≠ 0) = _
    cases it.fromDI set sm <;> rfl
  · next kept =>
    simp only [Bool.or_eq_true, decide_eq_true_eq, not_or, not_not] at kept
    exact kept.2

/-- An item without dependency and inversion hands on what its filters answer. -/
theorem sampleDI_plain {it : IOBase × DIFilters} (noDepend : it.1.depend = none)
    (noInvert : it.1.invert = false) (s : DISample) :
    (sampleDI it s).1 = (it.2.check s.now s.set).1 ∧
      (sampleDI it s).2.2 = (it.2.check s.now s.set).2 := by
  have free : it.1.checkDepend s.sm = true := by rw [checkDepend, noDepend]
  have entered : (if !it.1.checkDepend s.sm then decide (it.1.dOffValue ≠ 0)
      else s.set ^^ it.1.invert) = s.set := by
    rw [free, noInvert]
    exact Bool.xor_false s.set
  constructor
  · show decide _ = _
    rw [processingAsDI_value]
    show (it.2.check s.now _).1 = _
    exact congrArg (fun set => (it.2.check s.now set).1) entered
  · exact congrArg (fun set => (it.2.check s.now set).2) entered

theorem sampleDI_settings (it : IOBase × DIFilters) (s : DISample) :
    (sampleDI it s).2.1.depend = it.1.depend ∧ (sampleDI it s).2.1.invert = it.1.invert := by
  have kept := processingAsDI_sameItem
    { it.1 with debounced := fun set => (it.2.check s.now set).1 } s.set s.sm s.force
  have same : (sampleDI it s).2.1.SameItem _ := kept.symm
  rw [SameItem] at same
  exact ⟨(congrArg IOBase.depend same).symm, (congrArg IOBase.invert same).symm⟩

end IOBase

/-! ### The delayed signal -/

/-- The delays of a signal, in milliseconds: `on` for the ones and `off` for the zeros. -/
def delayOf (on off : Int) (level : Bool) : Int := if level then on else off

/-- A level has held for its delay. -/
def delayDue (on off : Int) (level : Bool) (since now : Nat) : Bool :=
  decide (delayOf on off level * 1000000 ≤ (now : Int) - since)

/-- A timer of a finite interval is over once the interval has passed. -/
theorem PassiveTimer.checkTime_elapsed {pt : PassiveTimer} (pos : 0 < pt.tMsec)
    (finite : pt.tMsec ≠ waitUpTime) (now : Nat) :
    pt.checkTime now = decide (pt.tMsec * 1000000 ≤ (now : Int) - pt.tStart) := by
  rw [Bool.eq_iff_iff, checkTime_iff pos, decide_eq_true_eq, getCurrent]
  constructor
  · rintro ⟨_, elapsed⟩
    omega
  · intro elapsed
    exact ⟨finite, by omega⟩

/-- Two truth values are equal if they are the same level at the same time. -/
theorem bool_eq_of_iff {a b : Bool} (level : Bool) (same : a = level ↔ b = level) : a = b := by
  cases a <;> cases b <;> cases level <;> simp_all

namespace DelayFilter

variable {on off : Int} {level v : Bool} {d : DelayFilter} {h : Hold Nat}

/-- **What the delay of the states `level` knows of the signal**: its output; that such a state is not
new while the input or the output has it; and since when the input has it, while the output is still
the other one. -/
structure Tracks (on off : Int) (level : Bool) (d : DelayFilter) (h : Hold Nat) : Prop where
  msec : d.pt.tMsec = delayOf on off level
  state : d.state = h.out
  prompt : delayOf on off level ≤ 0 → h.level = level → h.out = level
  armed : 0 < delayOf on off level → (d.tr.oldstate = level ↔ h.level = level ∨ h.out = level)
  started : 0 < delayOf on off level → h.level = level → h.out ≠ level → d.pt.tStart = h.since

theorem getInterval_eq (tracks : Tracks on off level d h)
    (finite : delayOf on off level ≠ waitUpTime) : d.pt.getInterval = delayOf on off level := by
  rw [PassiveTimer.getInterval, tracks.msec, if_pos finite]

theorem check_prompt (tracks : Tracks on off level d h)
    (finite : delayOf on off level ≠ waitUpTime) (short : ¬ 0 < delayOf on off level) (now : Nat)
    (val : Bool) : d.check level now val = (val, { d with state := val }) := by
  have short : d.pt.getInterval ≤ 0 := by
    rw [getInterval_eq tracks finite]
    exact Int.not_lt.mp short
  rw [check, if_pos short]

/-- The timer of a filter with a delay after it has got a state. -/
def timer (level : Bool) (d : DelayFilter) (now : Nat) (val : Bool) : PassiveTimer :=
  if (d.tr.edge level val).1 then d.pt.reset now else d.pt

theorem check_delayed (tracks : Tracks on off level d h)
    (finite : delayOf on off level ≠ waitUpTime) (long : 0 < delayOf on off level) (now : Nat)
    (val : Bool) : d.check level now val =
      (let state := if decide (val ≠ level) || (d.timer level now val).checkTime now then val
        else d.state
      (state, ⟨d.timer level now val, ⟨val⟩, state⟩)) := by
  have long : ¬ d.pt.getInterval ≤ 0 := by
    rw [getInterval_eq tracks finite]
    exact Int.not_le.mpr long
  rw [check, if_neg long]
  rfl

theorem timer_msec (tracks : Tracks on off level d h) (now : Nat) (val : Bool) :
    (d.timer level now val).tMsec = delayOf on off level := by
  rw [timer]
  split
  · exact tracks.msec
  · exact tracks.msec

/-- The timer runs from the beginning of the run the sample belongs to, while the output is the other
one. -/
theorem timer_start (tracks : Tracks on off level d h) (long : 0 < delayOf on off level)
    (waiting : h.out ≠ level) (now : Nat) :
    (d.timer level now level).tStart = h.begin (now, level) := by
  by_cases going : h.level = level
  · have old : d.tr.oldstate = level := (tracks.armed long).mpr (Or.inl going)
    have kept : d.timer level now level = d.pt := by simp [timer, Trigger.edge, old]
    rw [kept, tracks.started long going waiting, Hold.begin, if_pos going.symm]
  · have new : d.tr.oldstate ≠ level := fun old => by
      cases (tracks.armed long).mp old with
      | inl held => exact going held
      | inr out => exact waiting out
    have begun : d.timer level now level = d.pt.reset now := by simp [timer, Trigger.edge, new]
    rw [begun, Hold.begin, if_neg (Ne.symm going)]
    rfl

/-- **The filter of the level of the sample.** It answers the output of the signal. -/
theorem check_front (tracks : Tracks on off level d h)
    (finite : delayOf on off level ≠ waitUpTime) (now : Nat) :
    (d.check level now level).1 = (h.sample (delayDue on off) (now, level)).1 ∧
      Tracks on off level (d.check level now level).2
        (h.sample (delayDue on off) (now, level)).2 := by
  have out : (h.sample (delayDue on off) (now, level)).2.out = level ↔
      h.out = level ∨ delayDue on off level (h.begin (now, level)) now = true :=
    Hold.sample_out_iff now
  by_cases long : 0 < delayOf on off level
  · rw [check_delayed tracks finite long]
    have state : (if decide (level ≠ level) || (d.timer level now level).checkTime now then level
        else d.state) = (h.sample (delayDue on off) (now, level)).1 := by
      refine bool_eq_of_iff level (Iff.trans ?_ out.symm)
      by_cases waiting : h.out = level
      · simp [tracks.state, waiting]
      · have elapsed : (d.timer level now level).checkTime now =
            delayDue on off level (h.begin (now, level)) now := by
          have msec := timer_msec tracks now level
          rw [PassiveTimer.checkTime_elapsed (by rw [msec]; exact long) (by rw [msec]; exact finite),
            msec, timer_start tracks long waiting]
          rfl
        rw [elapsed, tracks.state]
        simp [waiting]
    refine ⟨state, timer_msec tracks now level, state, fun short => absurd long (by omega),
      fun _ => iff_of_true rfl (Or.inl rfl), fun _ _ waiting => ?_⟩
    exact timer_start tracks long (fun held => waiting (out.mpr (Or.inl held))) now
  · rw [check_prompt tracks finite long]
    have passed : (h.sample (delayDue on off) (now, level)).2.out = level := by
      rw [out]
      by_cases going : h.level = level
      · exact Or.inl (tracks.prompt (Int.not_lt.mp long) going)
      · refine Or.inr (decide_eq_true ?_)
        rw [Hold.begin, if_neg (Ne.symm going)]
        omega
    exact ⟨passed.symm, tracks.msec, passed.symm, fun _ _ => passed, fun pos => absurd pos long,
      fun pos => absurd pos long⟩

/-- **The other filter.** It gets the answer of the first and hands it on. -/
theorem check_behind (tracks : Tracks on off level d h)
    (finite : delayOf on off level ≠ waitUpTime) (now : Nat) (other : v ≠ level) :
    (d.check level now (h.sample (delayDue on off) (now, v)).1).1 =
        (h.sample (delayDue on off) (now, v)).1 ∧
      Tracks on off level (d.check level now (h.sample (delayDue on off) (now, v)).1).2
        (h.sample (delayDue on off) (now, v)).2 := by
  have moved : (h.sample (delayDue on off) (now, v)).2.level ≠ level := other
  by_cases long : 0 < delayOf on off level
  · rw [check_delayed tracks finite long]
    have state : (if decide ((h.sample (delayDue on off) (now, v)).1 ≠ level) ||
        (d.timer level now (h.sample (delayDue on off) (now, v)).1).checkTime now
          then (h.sample (delayDue on off) (now, v)).1 else d.state) =
        (h.sample (delayDue on off) (now, v)).1 := by
      by_cases held : (h.sample (delayDue on off) (now, v)).1 = level
      · -- the signal has not left the level, so the filter is in it
        have before : h.out = level := by
          by_contra out
          have same : h.out = v := by
            cases v <;> cases level <;> simp_all
          have kept : (h.sample (delayDue on off) (now, v)).1 = h.out :=
            if_neg fun change => change.1 same.symm
          exact out (kept ▸ held)
        rw [tracks.state, before, held]
        exact ite_self level
      · rw [if_pos (by simp [held])]
    refine ⟨state, timer_msec tracks now _, state, fun short => absurd long (by omega), fun _ => ?_,
      fun _ going => absurd going moved⟩
    exact ⟨Or.inr, fun either => either.resolve_left moved⟩
  · rw [check_prompt tracks finite long]
    exact ⟨rfl, tracks.msec, rfl, fun _ going => absurd going moved, fun pos => absurd pos long,
      fun pos => absurd pos long⟩

end DelayFilter

namespace DIFilters

variable {on off : Int} {f : DIFilters} {h : Hold Nat}

/-- Filters that delay only, and what they know of the delayed signal. -/
structure Tracks (on off : Int) (f : DIFilters) (h : Hold Nat) : Prop where
  noDebounce : f.ptDebounce.getInterval ≤ 0
  noFront : f.front = false ∨ f.frontType = .ftUnknown
  onDelay : DelayFilter.Tracks on off true f.onDelay h
  offDelay : DelayFilter.Tracks on off false f.offDelay h

theorem tracks_readItem (start : Nat) {debounce : Int} (noDebounce : debounce ≤ 0 ∨ debounce = waitUpTime) :
    Tracks on off (readItem start debounce on off none) (.init start) where
  noDebounce := by
    show (if debounce ≠ waitUpTime then debounce else 0) ≤ 0
    split
    · next finite => exact noDebounce.resolve_right finite
    · exact Int.le_refl 0
  noFront := Or.inl rfl
  onDelay := ⟨rfl, rfl, fun _ going => Bool.noConfusion going,
    fun _ => ⟨fun old => Bool.noConfusion old, fun either => either.elim id id⟩,
    fun _ going => Bool.noConfusion going⟩
  offDelay := ⟨rfl, rfl, fun _ _ => rfl, fun _ => iff_of_true rfl (Or.inl rfl),
    fun _ _ waiting => absurd rfl waiting⟩

theorem checkDelays_tracks (tracks : Tracks on off f h) (onFinite : on ≠ waitUpTime)
    (offFinite : off ≠ waitUpTime) (now : Nat) (set : Bool) :
    (f.checkDelays now set).1 = (h.sample (delayDue on off) (now, set)).1 ∧
      Tracks on off (f.checkDelays now set).2 (h.sample (delayDue on off) (now, set)).2 := by
  cases set with
  | true =>
    obtain ⟨first, tracksOn⟩ := DelayFilter.check_front tracks.onDelay onFinite now
    obtain ⟨second, tracksOff⟩ := DelayFilter.check_behind (v := true) tracks.offDelay offFinite now
      Bool.noConfusion
    rw [← first] at second tracksOff
    exact ⟨second.trans first, tracks.noDebounce, tracks.noFront, tracksOn, tracksOff⟩
  | false =>
    obtain ⟨first, tracksOff⟩ := DelayFilter.check_front tracks.offDelay offFinite now
    obtain ⟨second, tracksOn⟩ := DelayFilter.check_behind (v := false) tracks.onDelay onFinite now
      Bool.noConfusion
    rw [← first] at second tracksOn
    exact ⟨second.trans first, tracks.noDebounce, tracks.noFront, tracksOn, tracksOff⟩

/-- Without debounce and fronts the delays are all there is. -/
theorem checkFront_plain (noFront : f.front = false ∨ f.frontType = .ftUnknown) (val : Bool) :
    f.checkFront val = (val, f) := by
  refine if_pos ?_
  rcases noFront with noFront | noFront <;> simp [noFront]

/-- **The filters answer the output of the delayed signal.** -/
theorem check_tracks (tracks : Tracks on off f h) (onFinite : on ≠ waitUpTime)
    (offFinite : off ≠ waitUpTime) (now : Nat) (set : Bool) :
    (f.check now set).1 = (h.sample (delayDue on off) (now, set)).1 ∧
      Tracks on off (f.check now set).2 (h.sample (delayDue on off) (now, set)).2 := by
  have debounced : f.checkDebounce now set = (set, { f with debounceState := set }) :=
    if_pos tracks.noDebounce
  have passed : Tracks on off { f with debounceState := set } h :=
    ⟨tracks.noDebounce, tracks.noFront, tracks.onDelay, tracks.offDelay⟩
  have delayed := checkDelays_tracks passed onFinite offFinite now set
  rw [check, debounced]
  show (checkFront (checkDelays _ _ _).2 _).1 = _ ∧ Tracks on off (checkFront (checkDelays _ _ _).2 _).2 _
  rw [checkFront_plain delayed.2.noFront]
  exact delayed

end DIFilters

namespace DelayTimer

variable {on off : Int} {d : DelayTimer} {h : Hold Nat}

/-- **What the timer knows of the delayed signal**: its output, that it waits while the input is the
other one, and since when. -/
structure Waits (on off : Int) (d : DelayTimer) (h : Hold Nat) : Prop where
  state : d.state = h.out
  onDelay : d.onDelay = on
  offDelay : d.offDelay = off
  waitingOn : d.waitingOn = (h.level && !h.out)
  waitingOff : d.waitingOff = (!h.level && h.out)
  armed : h.level ≠ h.out → d.pt = ⟨delayOf on off h.level, h.since⟩ ∧ 0 < delayOf on off h.level

theorem waits_set (start : Nat) : Waits on off (set start on off) (.init start) :=
  ⟨rfl, rfl, rfl, rfl, rfl, fun waiting => absurd rfl waiting⟩

/-- The timer of a run that waits is over when the sample is due. -/
theorem Waits.checkTime (waits : Waits on off d h) (finite : delayOf on off h.level ≠ waitUpTime)
    (waiting : h.level ≠ h.out) (now : Nat) :
    d.pt.checkTime now = delayDue on off h.level h.since now := by
  obtain ⟨timer, long⟩ := waits.armed waiting
  rw [timer, PassiveTimer.checkTime_elapsed long finite]
  rfl

theorem Waits.eq (waits : Waits on off d h) :
    d = ⟨d.pt, d.prevState, h.out, on, off, h.level && !h.out, !h.level && h.out⟩ := by
  rw [← waits.state, ← waits.onDelay, ← waits.offDelay, waits.state, ← waits.waitingOn,
    ← waits.waitingOff, ← waits.state]

theorem check_going (waits : Waits on off d h) (finite : delayOf on off h.level ≠ waitUpTime)
    (waiting : h.level ≠ h.out) (now : Nat) :
    (d.check now h.level).1 = (h.sample (delayDue on off) (now, h.level)).1 ∧
      Waits on off (d.check now h.level).2 (h.sample (delayDue on off) (now, h.level)).2 := by
  have elapsed := waits.checkTime finite waiting now
  have armed := waits.armed waiting
  rw [waits.eq]
  obtain ⟨out, level, since⟩ := h
  simp only at elapsed armed waiting ⊢
  cases due : delayDue on off level since now <;> rw [due] at elapsed <;>
    cases level <;> cases out <;> first
    | exact absurd rfl waiting
    | (simp [check, Hold.sample, Hold.begin, elapsed, due]
       exact ⟨rfl, rfl, rfl, rfl, rfl, fun _ => armed⟩)

theorem check_back (waits : Waits on off d h) (waiting : h.level ≠ h.out) (now : Nat) :
    (d.check now h.out).1 = (h.sample (delayDue on off) (now, h.out)).1 ∧
      Waits on off (d.check now h.out).2 (h.sample (delayDue on off) (now, h.out)).2 := by
  rw [waits.eq]
  obtain ⟨out, level, since⟩ := h
  simp only at waiting ⊢
  cases elapsed : d.pt.checkTime now <;> cases level <;> cases out <;> first
    | exact absurd rfl waiting
    | (simp [check, Hold.sample, Hold.begin, elapsed]
       exact ⟨rfl, rfl, rfl, rfl, rfl, fun differ => absurd rfl differ⟩)

theorem check_idle (waits : Waits on off d h) (idle : h.level = h.out) (now : Nat) :
    (d.check now h.out).1 = (h.sample (delayDue on off) (now, h.out)).1 ∧
      Waits on off (d.check now h.out).2 (h.sample (delayDue on off) (now, h.out)).2 := by
  rw [waits.eq]
  obtain ⟨out, level, since⟩ := h
  obtain rfl : level = out := idle
  cases level <;> exact ⟨rfl, rfl, rfl, rfl, rfl, rfl, fun differ => absurd rfl differ⟩

theorem check_new (waits : Waits on off d h) (idle : h.level = h.out) (now : Nat) :
    (d.check now !h.out).1 = (h.sample (delayDue on off) (now, !h.out)).1 ∧
      Waits on off (d.check now !h.out).2 (h.sample (delayDue on off) (now, !h.out)).2 := by
  rw [waits.eq]
  obtain ⟨out, level, since⟩ := h
  obtain rfl : level = out := idle
  have due : delayDue on off (!level) now now =
      decide (delayOf on off (!level) ≤ 0) := by
    rw [delayDue, Int.sub_self]
    congr 1
    exact propext ⟨fun h => by omega, fun h => by omega⟩
  by_cases short : delayOf on off (!level) ≤ 0
  · rw [decide_eq_true short] at due
    cases level <;> simp only [delayOf, Bool.not_false, Bool.not_true, if_true, Bool.false_eq_true, if_false]
      at short due <;>
      simp [check, Hold.sample, Hold.begin, short, due] <;>
      exact ⟨rfl, rfl, rfl, rfl, rfl, fun differ => absurd rfl differ⟩
  · rw [decide_eq_false short] at due
    have long : 0 < delayOf on off (!level) := Int.not_le.mp short
    cases level <;> simp only [delayOf, Bool.not_false, Bool.not_true, if_true, Bool.false_eq_true, if_false]
      at short due long <;>
      simp [check, Hold.sample, Hold.begin, short, due] <;>
      exact ⟨rfl, rfl, rfl, rfl, rfl, fun _ => ⟨rfl, long⟩⟩

/-- **The timer answers the output of the delayed signal.** -/
theorem check_waits (waits : Waits on off d h) (onFinite : on ≠ waitUpTime)
    (offFinite : off ≠ waitUpTime) (now : Nat) (st : Bool) :
    (d.check now st).1 = (h.sample (delayDue on off) (now, st)).1 ∧
      Waits on off (d.check now st).2 (h.sample (delayDue on off) (now, st)).2 := by
  have finite : ∀ level, delayOf on off level ≠ waitUpTime := by
    intro level
    cases level
    · exact offFinite
    · exact onFinite
  have either : st = h.out ∨ st = !h.out := by cases st <;> cases h.out <;> decide
  by_cases idle : h.level = h.out
  · rcases either with rfl | rfl
    · exact check_idle waits idle now
    · exact check_new waits idle now
  · rcases either with rfl | rfl
    · exact check_back waits idle now
    · have level : (!h.out) = h.level := by
        cases out : h.out <;> cases l : h.level <;> simp_all
      rw [level]
      exact check_going waits (finite _) idle now

end DelayTimer

/-! ### The three agree -/

/-- `DelayTimer::check` of a sample. -/
def DelayTimer.sample (d : DelayTimer) (s : DISample) : Bool × DelayTimer := d.check s.now s.set

/-- One sample of the delayed signal. -/
def holdSample (on off : Int) (h : Hold Nat) (s : DISample) : Bool × Hold Nat :=
  h.sample (delayDue on off) (s.now, s.set)

/-- What ties an item with delays only to the delayed signal. -/
def IOBase.Delays (on off : Int) (it : IOBase × DIFilters) (h : Hold Nat) : Prop :=
  it.1.depend = none ∧ it.1.invert = false ∧ it.2.Tracks on off h

theorem IOBase.sampleDI_delays {on off : Int} (onFinite : on ≠ waitUpTime)
    (offFinite : off ≠ waitUpTime) (it : IOBase × DIFilters) (h : Hold Nat) (s : DISample)
    (delays : IOBase.Delays on off it h) :
    (IOBase.sampleDI it s).1 = (holdSample on off h s).1 ∧
      IOBase.Delays on off (IOBase.sampleDI it s).2 (holdSample on off h s).2 := by
  obtain ⟨noDepend, noInvert, tracks⟩ := delays
  obtain ⟨out, filters⟩ := IOBase.sampleDI_plain noDepend noInvert s
  obtain ⟨depend, invert⟩ := IOBase.sampleDI_settings it s
  obtain ⟨answer, tracked⟩ := DIFilters.check_tracks tracks onFinite offFinite s.now s.set
  exact ⟨out.trans answer, depend.trans noDepend, invert.trans noInvert, filters ▸ tracked⟩

/-- The signal of the samples is that of their times and states. -/
theorem outputs_holdSample (on off : Int) (h : Hold Nat) (samples : List DISample) :
    outputs (holdSample on off) h samples =
      outputs (Hold.sample (delayDue on off)) h (samples.map fun s => (s.now, s.set)) := by
  induction samples generalizing h with
  | nil => rfl
  | cons s rest ih => exact congrArg _ (ih _)

/-- The last output of the signal, `0` before the first sample. -/
theorem getLast?_holdSample (on off : Int) (start : Nat) (samples : List DISample) :
    (outputs (holdSample on off) (.init start) samples).getLast?.getD false =
      ((Hold.init start).after (delayDue on off) (samples.map fun s => (s.now, s.set))).out := by
  rw [outputs_holdSample]
  exact Hold.getLast?_outputs (Hold.init start) _

/-- **`processingAsDI` and `DelayTimer` are one delayed signal.** An item without dependency,
inversion, debounce and fronts and a `DelayTimer` of the same finite delays answer every sequence of
samples alike, and as the automaton: over a run of samples of one level, with none of this level
before it, the output has the level if it had it before the run or from the first sample on that is
at least the delay after the run's first sample. -/
theorem processingAsDI_delayTimer (it : IOBase) (start : Nat) {debounce on off : Int}
    (noDepend : it.depend = none) (noInvert : it.invert = false)
    (noDebounce : debounce ≤ 0 ∨ debounce = waitUpTime) (onFinite : on ≠ waitUpTime)
    (offFinite : off ≠ waitUpTime) (samples : List DISample) :
    let di := outputs IOBase.sampleDI (it, .readItem start debounce on off none)
    di samples = outputs DelayTimer.sample (.set start on off) samples ∧
      di samples = outputs (holdSample on off) (.init start) samples ∧
      ∀ past first run v, (∀ s ∈ first :: run, s.set = v) → (∀ s ∈ past.getLast?, s.set ≠ v) →
        ((di (past ++ first :: run)).getLast?.getD false = v ↔
          (di past).getLast?.getD false = v ∨
            ∃ s ∈ first :: run, delayOf on off v * 1000000 ≤ (s.now : Int) - first.now) := by
  intro di
  have signal : ∀ samples, di samples = outputs (holdSample on off) (.init start) samples :=
    outputs_eq (IOBase.Delays on off) (IOBase.sampleDI_delays onFinite offFinite)
      ⟨noDepend, noInvert, DIFilters.tracks_readItem start noDebounce⟩
  have timer : outputs DelayTimer.sample (.set start on off) samples =
      outputs (holdSample on off) (.init start) samples :=
    outputs_eq (DelayTimer.Waits on off)
      (fun d h s waits => DelayTimer.check_waits waits onFinite offFinite s.now s.set)
      (DelayTimer.waits_set start) samples
  refine ⟨(signal samples).trans timer.symm, signal samples, ?_⟩
  intro past first run v same fresh
  rw [signal, signal, getLast?_holdSample, getLast?_holdSample, List.map_append, List.map_cons]
  rw [Hold.after_run_iff (v := v)]
  · simp [delayDue]
  · simpa using same
  · simpa using fresh

/-- A discrete input without anything but its delays. -/
def plainDI : IOBase where
  si := ⟨1, 0⟩
  stype := .DI
  value := 0
  invert := false
  rawdata := false
  depend := none
  filter := none
  filtered := []
  cal := none
  debounced := id

/-- Samples of an input, their times in milliseconds. -/
def samplesDI (samples : List (Nat × Bool)) : List DISample :=
  samples.map fun s => ⟨s.1 * 1000000, s.2, fun _ => 0, false⟩

/-- A short pulse, a long one and a short gap in it, with delays of 100 and 60 ms. -/
theorem processingAsDI_delayTimer_pulses :
    let samples := samplesDI [(0, true), (90, false), (200, true), (290, true), (300, true),
      (310, false), (360, true), (400, false), (470, false)]
    outputs IOBase.sampleDI (plainDI, .readItem 0 waitUpTime 100 60 none) samples =
        outputs DelayTimer.sample (.set 0 100 60) samples ∧
      outputs DelayTimer.sample (.set 0 100 60) samples =
        [false, false, false, false, true, true, true, true, false] :=
  ⟨(processingAsDI_delayTimer plainDI 0 rfl rfl (Or.inr rfl) (by decide) (by decide) _).1, by decide⟩

end UniSet

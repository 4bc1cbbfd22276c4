/-
**The threshold items of an exchange process.**

`processingThreshold` makes a discrete item follow an analog sensor with a hysteresis. It has no state of
its own for this: in the dead band the value of the item, which has passed the inversion, the delays and the
fronts, is taken for the state of the hysteresis.

* `ItemThreshold.next` — the comparison with the limits; `ItemThreshold.latch` is the hysteresis that
  should be.
* `thresholds` — the calls of `processingThreshold` for an item, and beside it the same item driven by
  the hysteresis itself.
* `Recovered` — a call that finds the state of the hysteresis in the value, if it asks for it.
* **`processingThreshold_ideal`** — the calls that do drive the item as the hysteresis does.
* `plain_meets` — an item without inversion, dependency and filters always meets them;
  `inverted_meets_iff` — an inverted one does not with a second call in the dead band.
-/

import UniSet.IOBase.Debounce
import UniSet.Lib.Latch
import UniSet.Lib.Machine

namespace UniSet

open Lib (latch Machine)
open ModbusMaster (ObjectId)

/-! ### A delay that does not run -/

namespace DelayFilter

/-- The filter waits for the end of its delay. -/
def Waiting (level : Bool) (d : DelayFilter) : Prop :=
  0 < d.pt.getInterval ∧ d.tr.oldstate = level ∧ d.state ≠ level

theorem getInterval_check (level : Bool) (d : DelayFilter) (now : Nat) (val : Bool) :
    (d.check level now val).2.pt.getInterval = d.pt.getInterval := by
  rw [check]
  by_cases prompt : d.pt.getInterval ≤ 0
  · rw [if_pos prompt]
  · rw [if_neg prompt]
    show (if (d.tr.edge level val).1 then d.pt.reset now else d.pt).getInterval = _
    split
    · rfl
    · rfl

/-- **A filter that does not wait has handed on the state.** -/
theorem check_of_not_waiting {level : Bool} {d : DelayFilter} {now : Nat} {val : Bool}
    (rest : ¬ (d.check level now val).2.Waiting level) : (d.check level now val).1 = val := by
  rw [Waiting, getInterval_check] at rest
  rw [check] at rest ⊢
  by_cases prompt : d.pt.getInterval ≤ 0
  · rw [if_pos prompt]
  · rw [if_neg prompt] at rest ⊢
    by_cases other : val = level
    · by_contra held
      refine rest ⟨Int.not_le.mp prompt, other, fun same => held ?_⟩
      exact same.trans other.symm
    · exact if_pos (by simp [other])

/-- **A filter that does not wait hands on the same state again.** -/
theorem check_again {level : Bool} {d : DelayFilter} {now : Nat} {val : Bool}
    (rest : ¬ (d.check level now val).2.Waiting level) (later : Nat) :
    ((d.check level now val).2.check level later val).1 = val := by
  have passed := check_of_not_waiting rest
  have interval := getInterval_check level d now val
  by_cases prompt : d.pt.getInterval ≤ 0
  · rw [check, if_pos (by rw [interval]; exact prompt)]
  · have after : (d.check level now val).2.state = val := by
      rw [check, if_neg prompt] at passed ⊢
      exact passed
    rw [check, if_neg (by rw [interval]; exact prompt), after]
    exact ite_self val

/-- Two filters one after another, neither of which waits. -/
theorem check_check_again {first last : Bool} {d e : DelayFilter} {now : Nat} {val : Bool}
    (firstRest : ¬ (d.check first now val).2.Waiting first)
    (lastRest : ¬ (e.check last now (d.check first now val).1).2.Waiting last) (later : Nat) :
    (e.check last now (d.check first now val).1).1 = val ∧
      ((e.check last now (d.check first now val).1).2.check last later
        ((d.check first now val).2.check first later val).1).1 = val := by
  rw [check_of_not_waiting firstRest] at lastRest
  rw [check_of_not_waiting firstRest, check_again firstRest later]
  exact ⟨check_of_not_waiting lastRest, check_again lastRest later⟩

end DelayFilter

namespace DIFilters

/-- **A delay is running**: a pause of the debounce filter, or one of the two delays. -/
def Running (f : DIFilters) : Prop :=
  (0 < f.ptDebounce.getInterval ∧ f.debouncePause = true) ∨ f.onDelay.Waiting true ∨
    f.offDelay.Waiting false

/-- Out of a pause the debounce filter has the last state. -/
def Quiet (f : DIFilters) : Prop :=
  0 < f.ptDebounce.getInterval → f.debouncePause = false → f.debounceState = f.trdebounce.oldstate

theorem quiet_readItem (now : Nat) (debouncedelay ondelay offdelay : Int) (iofront : Option FrontType) :
    (readItem now debouncedelay ondelay offdelay iofront).Quiet := fun _ _ => rfl

variable {f : DIFilters}

theorem getInterval_checkDebounce (now : Nat) (val : Bool) :
    (f.checkDebounce now val).2.ptDebounce.getInterval = f.ptDebounce.getInterval := by
  rw [checkDebounce]
  by_cases prompt : f.ptDebounce.getInterval ≤ 0
  · rw [if_pos prompt]
  · rw [if_neg prompt]
    show (if _ then f.ptDebounce.reset now else f.ptDebounce).getInterval = _
    split
    · rfl
    · rfl

/-- A sample leaves the debounce filter with it, out of a pause. -/
theorem checkDebounce_quiet (quiet : f.Quiet) (now : Nat) (val : Bool) :
    (f.checkDebounce now val).2.Quiet := by
  rw [Quiet, getInterval_checkDebounce]
  intro delayed noPause
  have delayed : ¬ f.ptDebounce.getInterval ≤ 0 := Int.not_le.mpr delayed
  rcases checkDebounce_cases delayed now val with
    ⟨pause, -, stepped⟩ | ⟨-, -, stepped⟩ | ⟨pause, -, stepped⟩ | ⟨-, -, stepped⟩
  · rw [stepped]
    exact quiet (Int.not_le.mp delayed) pause
  · rw [stepped] at noPause
    exact Bool.noConfusion noPause
  · rw [stepped] at noPause
    exact absurd (pause.symm.trans noPause) Bool.noConfusion
  · rw [stepped]

/-- **Out of a pause the debounce filter hands on the state**, and again if it comes again. -/
theorem checkDebounce_again (quiet : f.Quiet) (now : Nat) (val : Bool)
    (rest : 0 < f.ptDebounce.getInterval → (f.checkDebounce now val).2.debouncePause = false) (later : Nat) :
    (f.checkDebounce now val).1 = val ∧ ((f.checkDebounce now val).2.checkDebounce later val).1 = val := by
  have interval := getInterval_checkDebounce (f := f) now val
  by_cases prompt : f.ptDebounce.getInterval ≤ 0
  · constructor
    · rw [checkDebounce, if_pos prompt]
    · rw [checkDebounce, if_pos (by rw [interval]; exact prompt)]
  · have rest := rest (Int.not_le.mp prompt)
    have settled := checkDebounce_quiet quiet now val (by rw [interval]; exact Int.not_le.mp prompt) rest
    have last : (f.checkDebounce now val).2.trdebounce.oldstate = val := by
      rw [checkDebounce, if_neg prompt]
      rfl
    have answer : (f.checkDebounce now val).1 = (f.checkDebounce now val).2.debounceState := by
      rw [checkDebounce, if_neg prompt]
    refine ⟨answer.trans (settled.trans last), ?_⟩
    rcases checkDebounce_cases (f := (f.checkDebounce now val).2) (by rw [interval]; exact prompt) later val with
      ⟨-, -, stepped⟩ | ⟨-, edge, -⟩ | ⟨pause, -, -⟩ | ⟨pause, -, -⟩
    · rw [stepped]
      exact settled.trans last
    · exact absurd last edge
    · exact absurd (pause.symm.trans rest) Bool.noConfusion
    · exact absurd (pause.symm.trans rest) Bool.noConfusion

/-- The state of the debounce filter. -/
def debouncePart (f : DIFilters) : PassiveTimer × Trigger × Bool × Bool :=
  (f.ptDebounce, f.trdebounce, f.debouncePause, f.debounceState)

/-- The state of the delays. -/
def delayPart (f : DIFilters) : DelayFilter × DelayFilter := (f.onDelay, f.offDelay)

/-- The state of the choice of a front. -/
def frontPart (f : DIFilters) : Bool × FrontType × Bool × Bool :=
  (f.front, f.frontType, f.frontPrevState, f.frontState)

theorem checkDebounce_frame (now : Nat) (val : Bool) :
    (f.checkDebounce now val).2.delayPart = f.delayPart ∧
      (f.checkDebounce now val).2.frontPart = f.frontPart := by
  rw [checkDebounce]
  split
  · exact ⟨rfl, rfl⟩
  · exact ⟨rfl, rfl⟩

theorem checkDelays_frame (now : Nat) (set : Bool) :
    (f.checkDelays now set).2.debouncePart = f.debouncePart ∧
      (f.checkDelays now set).2.frontPart = f.frontPart := by
  cases set with
  | true => exact ⟨rfl, rfl⟩
  | false => exact ⟨rfl, rfl⟩

theorem checkFront_frame (val : Bool) :
    (f.checkFront val).2.debouncePart = f.debouncePart ∧ (f.checkFront val).2.delayPart = f.delayPart := by
  rw [checkFront]
  split
  · exact ⟨rfl, rfl⟩
  · exact ⟨rfl, rfl⟩

theorem checkDebounce_congr {g : DIFilters} (same : g.debouncePart = f.debouncePart) (now : Nat)
    (val : Bool) : (g.checkDebounce now val).1 = (f.checkDebounce now val).1 := by
  simp only [debouncePart, Prod.mk.injEq] at same
  obtain ⟨pt, tr, pause, state⟩ := same
  rw [checkDebounce, checkDebounce, pt, tr, pause, state]
  split
  · rfl
  · rfl

/-- The delays that are not waited for hand on the state, and again if it comes again. -/
theorem checkDelays_again (now : Nat) (set : Bool)
    (onRest : ¬ (f.checkDelays now set).2.onDelay.Waiting true)
    (offRest : ¬ (f.checkDelays now set).2.offDelay.Waiting false) {g : DIFilters}
    (same : g.delayPart = (f.checkDelays now set).2.delayPart) (later : Nat) :
    (f.checkDelays now set).1 = set ∧ (g.checkDelays later set).1 = set := by
  have onDelay : g.onDelay = (f.checkDelays now set).2.onDelay := congrArg (·.1) same
  have offDelay : g.offDelay = (f.checkDelays now set).2.offDelay := congrArg (·.2) same
  cases set with
  | true =>
    have again := DelayFilter.check_check_again onRest offRest later
    refine ⟨again.1, ?_⟩
    show (g.offDelay.check false later (g.onDelay.check true later true).1).1 = true
    rw [onDelay, offDelay]
    exact again.2
  | false =>
    have again := DelayFilter.check_check_again offRest onRest later
    refine ⟨again.1, ?_⟩
    show (g.onDelay.check true later (g.offDelay.check false later false).1).1 = false
    rw [onDelay, offDelay]
    exact again.2

/-- The choice of a front answers the same state alike again. -/
theorem checkFront_again (val : Bool) {g : DIFilters} (same : g.frontPart = (f.checkFront val).2.frontPart) :
    (g.checkFront val).1 = (f.checkFront val).1 := by
  simp only [frontPart, Prod.mk.injEq] at same
  obtain ⟨front, frontType, prev, state⟩ := same
  rw [checkFront] at front frontType prev state
  rw [checkFront, checkFront]
  by_cases off : (!f.front || decide (f.frontType = .ftUnknown)) = true
  · rw [if_pos off] at front frontType ⊢
    rw [front, frontType, if_pos off]
  · rw [if_neg off] at front frontType prev state ⊢
    rw [front, frontType, prev, state, if_neg off]
    cases val <;> simp

/-- **While no delay runs the filters answer a state that comes again alike.** -/
theorem check_again (quiet : f.Quiet) {now : Nat} {set : Bool} (rest : ¬ (f.check now set).2.Running)
    (later : Nat) : ((f.check now set).2.check later set).1 = (f.check now set).1 := by
  have debounceSame : (f.check now set).2.debouncePart = (f.checkDebounce now set).2.debouncePart :=
    (checkFront_frame _).1.trans (checkDelays_frame now _).1
  have delaySame : (f.check now set).2.delayPart =
      ((f.checkDebounce now set).2.checkDelays now (f.checkDebounce now set).1).2.delayPart :=
    (checkFront_frame _).2
  have passed := checkDebounce_again quiet now set (fun delayed => by
    by_contra paused
    rw [Bool.not_eq_false] at paused
    refine rest (Or.inl ⟨?_, (congrArg (·.2.2.1) debounceSame).trans paused⟩)
    have interval := getInterval_checkDebounce (f := f) now set
    rw [← interval] at delayed
    exact delayed.trans_eq (congrArg (fun part => part.1.getInterval) debounceSame).symm) later
  have again : ((f.check now set).2.checkDebounce later set).1 = set :=
    (checkDebounce_congr debounceSame later set).trans passed.2
  have onKept : (f.check now set).2.onDelay =
      ((f.checkDebounce now set).2.checkDelays now (f.checkDebounce now set).1).2.onDelay :=
    congrArg (·.1) delaySame
  have offKept : (f.check now set).2.offDelay =
      ((f.checkDebounce now set).2.checkDelays now (f.checkDebounce now set).1).2.offDelay :=
    congrArg (·.2) delaySame
  have kept := (checkDebounce_frame (f := (f.check now set).2) later set).1.trans delaySame
  rw [passed.1] at onKept offKept kept
  obtain ⟨delayPassed, delayAgain⟩ := checkDelays_again now set
    (fun waits => rest (Or.inr (Or.inl (onKept ▸ waits))))
    (fun waits => rest (Or.inr (Or.inr (offKept ▸ waits)))) kept later
  have answer : (f.check now set).1 =
      (((f.checkDebounce now set).2.checkDelays now set).2.checkFront set).1 := by
    rw [check, passed.1, delayPassed]
  have frontSame : (f.check now set).2.frontPart =
      (((f.checkDebounce now set).2.checkDelays now set).2.checkFront set).2.frontPart := by
    rw [check, passed.1, delayPassed]
  rw [answer, check, again, delayAgain]
  refine checkFront_again set ?_
  calc (((f.check now set).2.checkDebounce later set).2.checkDelays later set).2.frontPart
      = ((f.check now set).2.checkDebounce later set).2.frontPart := (checkDelays_frame later set).2
    _ = (f.check now set).2.frontPart := (checkDebounce_frame later set).2
    _ = _ := frontSame

theorem check_quiet (quiet : f.Quiet) (now : Nat) (set : Bool) :
    (f.check now set).2.Quiet := by
  have same : (f.check now set).2.debouncePart = (f.checkDebounce now set).2.debouncePart :=
    (checkFront_frame _).1.trans (checkDelays_frame now _).1
  have kept := checkDebounce_quiet quiet now set
  simp only [debouncePart, Prod.mk.injEq] at same
  obtain ⟨pt, tr, pause, state⟩ := same
  rw [Quiet, pt, tr, pause, state]
  exact kept

/-- No filter works. -/
structure Prompt (f : DIFilters) : Prop where
  noDebounce : f.ptDebounce.getInterval ≤ 0
  noOnDelay : f.onDelay.pt.getInterval ≤ 0
  noOffDelay : f.offDelay.pt.getInterval ≤ 0
  noFront : f.front = false ∨ f.frontType = .ftUnknown

/-- Filters that do not work hand on the state. -/
theorem Prompt.check (prompt : f.Prompt) (now : Nat) (set : Bool) :
    (f.check now set).1 = set ∧ (f.check now set).2.Prompt := by
  obtain ⟨noDebounce, noOnDelay, noOffDelay, noFront⟩ := prompt
  have debounced : f.checkDebounce now set = (set, { f with debounceState := set }) := if_pos noDebounce
  have on : ∀ val, f.onDelay.check true now val = (val, { f.onDelay with state := val }) :=
    fun _ => if_pos noOnDelay
  have off : ∀ val, f.offDelay.check false now val = (val, { f.offDelay with state := val }) :=
    fun _ => if_pos noOffDelay
  obtain ⟨g, kept, delayed⟩ : ∃ g : DIFilters, g.Prompt ∧
      DIFilters.checkDelays { f with debounceState := set } now set = (set, g) := by
    refine ⟨{ f with
        debounceState := set
        onDelay := { f.onDelay with state := set }
        offDelay := { f.offDelay with state := set } }, ⟨noDebounce, noOnDelay, noOffDelay, noFront⟩, ?_⟩
    cases set with
    | true => simp only [checkDelays, checkOnDelay, checkOffDelay, on, off, if_true]
    | false => simp only [checkDelays, checkOnDelay, checkOffDelay, on, off, Bool.false_eq_true, if_false]
  rw [DIFilters.check, debounced]
  show (DIFilters.checkFront (DIFilters.checkDelays _ now set).2 _).1 = _ ∧ (DIFilters.checkFront _ _).2.Prompt
  rw [delayed]
  show (g.checkFront set).1 = set ∧ (g.checkFront set).2.Prompt
  rw [checkFront_plain kept.noFront]
  exact ⟨rfl, kept⟩

end DIFilters

/-! ### The items -/

/-- **A threshold of an item**: the analog sensor and the limits. -/
structure ItemThreshold where
  tAi : ObjectId
  tLowlimit : Int
  tHilimit : Int
  tInvert : Bool
deriving DecidableEq, Repr

namespace ItemThreshold

/-- The state that the comparison of a value with the limits makes of a state. -/
def next (t : ItemThreshold) (val : Int) (set : Bool) : Bool :=
  if t.tInvert then
    if val ≤ t.tLowlimit then true else if t.tHilimit ≤ val then false else set
  else
    if val ≤ t.tLowlimit then false else if t.tHilimit ≤ val then true else set

/-- The value is in the dead band. -/
def InBand (t : ItemThreshold) (val : Int) : Prop := t.tLowlimit < val ∧ val < t.tHilimit

instance (t : ItemThreshold) (val : Int) : Decidable (t.InBand val) := inferInstanceAs (Decidable (_ ∧ _))

/-- **The hysteresis**: a latch with the limits, the other way round if it is inverted. -/
def latch (t : ItemThreshold) (set : Bool) (val : Int) : Bool :=
  if t.tInvert then Lib.latch (fun v => v ≤ t.tLowlimit) (fun v => t.tHilimit ≤ v) true false set val
  else Lib.latch (fun v => t.tHilimit ≤ v) (fun v => v ≤ t.tLowlimit) true false set val

variable {t : ItemThreshold}

theorem next_eq_latch (apart : t.tLowlimit < t.tHilimit) (val : Int) (set : Bool) :
    t.next val set = t.latch set val := by
  rw [next, latch]
  split
  · rw [Lib.latch]
    by_cases low : val ≤ t.tLowlimit
    · rw [if_pos low, if_neg (by omega), if_pos low]
    · rw [if_neg low, if_neg low]
  · rfl

theorem next_inBand {val : Int} (band : t.InBand val) (set : Bool) : t.next val set = set := by
  obtain ⟨above, below⟩ := band
  rw [next, if_neg (Int.not_le.mpr above), if_neg (Int.not_le.mpr below), if_neg (Int.not_le.mpr above),
    if_neg (Int.not_le.mpr below)]
  exact ite_self set

/-- Out of the dead band the state does not matter. -/
theorem next_not_inBand {val : Int} (out : ¬ t.InBand val) (set other : Bool) :
    t.next val set = t.next val other := by
  rw [next, next]
  by_cases low : val ≤ t.tLowlimit
  · simp only [if_pos low]
  · have high : t.tHilimit ≤ val := by
      by_contra below
      exact out ⟨Int.not_le.mp low, Int.not_le.mp below⟩
    simp only [if_neg low, if_pos high]

end ItemThreshold

/-- A call of `processingThreshold`: its time, the values in SharedMemory and `force`. -/
structure ThresholdCall where
  now : Nat
  sm : SMValues
  force : Bool

/-- A discrete item and its filters. -/
abbrev DiscreteItem := IOBase × DIFilters

variable {c : ThresholdCall}

namespace DiscreteItem

/-- The item has been set. -/
def isSet (it : DiscreteItem) : Bool := decide (it.1.value ≠ 0)

/-- `processingAsDI` in a call: the item it leaves. -/
def processingAsDI (it : DiscreteItem) (set : Bool) (c : ThresholdCall) : DiscreteItem :=
  (IOBase.sampleDI it ⟨c.now, set, c.sm, c.force⟩).2

/-- **`processingThreshold`**: nothing without a threshold. -/
def processingThreshold (t : Option ItemThreshold) (it : DiscreteItem) (c : ThresholdCall) : DiscreteItem :=
  match t with
  | none => it
  | some t => it.processingAsDI (t.next (c.sm t.tAi) it.isSet) c

/-- What the filters get. -/
def entered (it : DiscreteItem) (set : Bool) (c : ThresholdCall) : Bool :=
  if !it.1.checkDepend c.sm then decide (it.1.dOffValue ≠ 0) else set ^^ it.1.invert

theorem isSet_processingAsDI (it : DiscreteItem) (set : Bool) (c : ThresholdCall) :
    (it.processingAsDI set c).isSet = (it.2.check c.now (it.entered set c)).1 :=
  IOBase.processingAsDI_value _ _ _ _

theorem filters_processingAsDI (it : DiscreteItem) (set : Bool) (c : ThresholdCall) :
    (it.processingAsDI set c).2 = (it.2.check c.now (it.entered set c)).2 := rfl

/-- An item whose dependency does not hold does not look at the state. -/
theorem processingAsDI_congr {it : DiscreteItem} {set other : Bool}
    (same : it.1.checkDepend c.sm = true → set = other) :
    it.processingAsDI set c = it.processingAsDI other c := by
  cases depend : it.1.checkDepend c.sm with
  | true => rw [same depend]
  | false =>
    have off : it.entered set c = it.entered other c := by
      rw [entered, entered, depend]
      rfl
    have item : IOBase.fromDI { it.1 with debounced := fun set => (it.2.check c.now set).1 } set c.sm =
        IOBase.fromDI { it.1 with debounced := fun set => (it.2.check c.now set).1 } other c.sm :=
      congrArg (fun set => (it.2.check c.now set).1) off
    refine Prod.ext ?_ (congrArg (fun set => (it.2.check c.now set).2) off)
    show (IOBase.processingAsDI _ set c.sm c.force).1 = (IOBase.processingAsDI _ other c.sm c.force).1
    rw [IOBase.processingAsDI, IOBase.processingAsDI, item]

/-- The settings that decide what the filters get stay. -/
theorem entered_processingAsDI (it : DiscreteItem) (state set : Bool) {later : ThresholdCall}
    (depend : (it.processingAsDI state c).1.checkDepend later.sm =
      (it.processingAsDI state c).1.checkDepend c.sm) :
    (it.processingAsDI state c).entered set later = it.entered set c := by
  obtain ⟨depends, inverts⟩ := IOBase.sampleDI_settings it ⟨c.now, state, c.sm, c.force⟩
  have same : (it.processingAsDI state c).1.checkDepend c.sm = it.1.checkDepend c.sm := by
    show IOBase.checkDepend (IOBase.sampleDI it _).2.1 c.sm = _
    rw [IOBase.checkDepend, IOBase.checkDepend, depends]
  have value : (it.processingAsDI state c).1.dOffValue = it.1.dOffValue := congrArg (Option.elim · 0 _) depends
  have invert : (it.processingAsDI state c).1.invert = it.1.invert := inverts
  rw [entered, entered, depend, same, value, invert]

end DiscreteItem

/-! ### The calls -/

/-- An item that `processingThreshold` works on, the same item driven by the hysteresis, and the state of
the hysteresis. -/
structure ThresholdRun where
  item : DiscreteItem
  ideal : DiscreteItem
  hyst : Bool

/-- **The calls of `processingThreshold`** for an item that has been read from the configuration. -/
def thresholds (t : ItemThreshold) : Machine ThresholdRun ThresholdCall where
  start r := r.ideal = r.item ∧ r.hyst = false ∧ ∃ now debouncedelay ondelay offdelay iofront,
    r.item.2 = .readItem now debouncedelay ondelay offdelay iofront
  step r c :=
    let hyst := t.latch r.hyst (c.sm t.tAi)
    some ⟨r.item.processingThreshold (some t) c, r.ideal.processingAsDI hyst c, hyst⟩

/-- **The value has the state of the hysteresis**, if the call takes the state from it. -/
def Recovered (t : ItemThreshold) (r : ThresholdRun) (c : ThresholdCall) : Prop :=
  t.InBand (c.sm t.tAi) → r.item.1.checkDepend c.sm = true → r.item.isSet = r.hyst

instance (t : ItemThreshold) (r : ThresholdRun) (c : ThresholdCall) : Decidable (Recovered t r c) :=
  inferInstanceAs (Decidable (_ → _))

section Calls

variable {t : ItemThreshold} {r u : ThresholdRun}

/-- **A call that finds the state of the hysteresis** does what the hysteresis does. -/
theorem processingThreshold_of_recovered (apart : t.tLowlimit < t.tHilimit)
    (recovered : Recovered t r c) : r.item.processingThreshold (some t) c =
      r.item.processingAsDI (t.latch r.hyst (c.sm t.tAi)) c := by
  refine DiscreteItem.processingAsDI_congr fun depend => ?_
  rw [← ItemThreshold.next_eq_latch apart]
  by_cases band : t.InBand (c.sm t.tAi)
  · rw [recovered band depend]
  · exact ItemThreshold.next_not_inBand band _ _

/-- What a run of such calls keeps. -/
def Driven (r : ThresholdRun) : Prop := r.ideal = r.item ∧ r.item.2.Quiet

theorem driven_step (apart : t.tLowlimit < t.tHilimit) (driven : Driven r)
    (recovered : Recovered t r c) (stepped : (thresholds t).step r c = some u) :
    Driven u ∧ u.item = r.item.processingAsDI u.hyst c := by
  obtain rfl := Option.some.inj stepped
  have item := processingThreshold_of_recovered apart recovered
  obtain ⟨same, quiet⟩ := driven
  refine ⟨⟨?_, ?_⟩, item⟩
  · show r.ideal.processingAsDI _ c = r.item.processingThreshold (some t) c
    rw [same, item]
  · show (r.item.processingThreshold (some t) c).2.Quiet
    rw [item, DiscreteItem.filters_processingAsDI]
    exact DIFilters.check_quiet quiet c.now _

theorem driven_run (apart : t.tLowlimit < t.tHilimit) {calls : List ThresholdCall}
    (started : (thresholds t).start r) (meets : (thresholds t).Meets (Recovered t) r calls)
    (ran : (thresholds t).run r calls = some u) : Driven u := by
  obtain ⟨same, -, now, debouncedelay, ondelay, offdelay, iofront, filters⟩ := started
  have initially : Driven r := ⟨same, by rw [filters]; exact DIFilters.quiet_readItem _ _ _ _ _⟩
  exact Machine.run_invariant (fun s c v driven recovered stepped =>
    (driven_step apart driven recovered stepped).1) initially meets ran

/-- **The items whose calls drive them as the hysteresis does.** If every call that comes in the dead band
finds the state of the hysteresis in the value, the value is the one `processingAsDI` makes of the state of the
hysteresis; and a call in the dead band leaves the state as it is, unless a delay is running or the dependency
has changed. -/
theorem processingThreshold_ideal (apart : t.tLowlimit < t.tHilimit) {calls : List ThresholdCall}
    (started : (thresholds t).start r) (meets : (thresholds t).Meets (Recovered t) r calls)
    (ran : (thresholds t).run r calls = some u) :
    u.item.1.value = u.ideal.1.value ∧
      ∀ past last, calls = past ++ [last] → ∀ c, Recovered t u c → t.InBand (c.sm t.tAi) →
        u.item.1.checkDepend c.sm = u.item.1.checkDepend last.sm → ¬ u.item.2.Running →
          (u.item.processingThreshold (some t) c).isSet = u.item.isSet := by
  refine ⟨by rw [(driven_run apart started meets ran).1], ?_⟩
  rintro past last rfl c recovered band depend rest
  obtain ⟨v, ranPast, stepped⟩ := Option.bind_eq_some_iff.mp ((Machine.run_concat past last).symm.trans ran)
  have driven := driven_run apart started meets.past ranPast
  have item := (driven_step apart driven (meets.last ranPast) stepped).2
  have next : t.latch u.hyst (c.sm t.tAi) = u.hyst := by
    rw [← ItemThreshold.next_eq_latch apart]
    exact ItemThreshold.next_inBand band _
  rw [processingThreshold_of_recovered apart recovered, next, DiscreteItem.isSet_processingAsDI]
  rw [item] at depend rest ⊢
  rw [DiscreteItem.entered_processingAsDI _ _ _ depend, DiscreteItem.isSet_processingAsDI,
    DiscreteItem.filters_processingAsDI]
  exact DIFilters.check_again driven.2 rest c.now

end Calls

/-- A discrete item without anything but an inversion and a delay of the ones. -/
def thresholdItem (invert : Bool) (ondelay : Int) : ThresholdRun where
  item := ({ plainDI with invert := invert }, .readItem 0 waitUpTime ondelay waitUpTime none)
  ideal := ({ plainDI with invert := invert }, .readItem 0 waitUpTime ondelay waitUpTime none)
  hyst := false

/-- Calls with a value of the analog sensor, their times in milliseconds. -/
def thresholdCalls (values : List (Nat × Int)) : List ThresholdCall :=
  values.map fun v => ⟨v.1 * 1000000, fun _ => v.2, false⟩

/-- A value above the limits for longer than the delay, then one in the dead band. -/
theorem processingThreshold_ideal_ondelay :
    ∃ u, (thresholds ⟨2, 3, 5, false⟩).run (thresholdItem false 100)
        (thresholdCalls [(0, 6), (50, 6), (200, 6), (300, 4)]) = some u ∧
      u.item.1.value = u.ideal.1.value ∧ u.item.1.value = 1 :=
  ⟨_, rfl, (@processingThreshold_ideal ⟨2, 3, 5, false⟩ (thresholdItem false 100) _ (by decide)
    (thresholdCalls [(0, 6), (50, 6), (200, 6), (300, 4)])
    ⟨rfl, rfl, 0, waitUpTime, 100, waitUpTime, none, rfl⟩ (by decide) rfl).1, by decide⟩

/-- **An item with `ioinvert`** is switched on by a value that stays in the dead band: its value `0` of a
hysteresis that is on is taken for a hysteresis that is off. -/
theorem processingThreshold_ioinvert :
    ¬ ∀ (t : ItemThreshold) (r u : ThresholdRun) (calls : List ThresholdCall), t.tLowlimit < t.tHilimit →
      (thresholds t).start r → (thresholds t).run r calls = some u → u.item.1.value = u.ideal.1.value := by
  intro all
  have same := all ⟨2, 3, 5, false⟩ (thresholdItem true waitUpTime) _ (thresholdCalls [(0, 6), (10, 4)])
    (by decide) ⟨rfl, rfl, 0, waitUpTime, waitUpTime, waitUpTime, none, rfl⟩ rfl
  exact absurd same (by decide)

section Calls

variable {t : ItemThreshold} {r u : ThresholdRun}

/-! ### Items without filters -/

/-- **An item without dependency and filters** whose value is the state of the hysteresis, or its inverse. -/
structure Settles (invert : Bool) (r : ThresholdRun) : Prop where
  noDepend : r.item.1.depend = none
  inverts : r.item.1.invert = invert
  prompt : r.item.2.Prompt
  state : r.item.isSet = (r.hyst ^^ invert)

theorem settles_step {invert : Bool} (apart : t.tLowlimit < t.tHilimit) (settles : Settles invert r)
    (recovered : Recovered t r c) (stepped : (thresholds t).step r c = some u) :
    Settles invert u := by
  obtain rfl := Option.some.inj stepped
  have item := processingThreshold_of_recovered apart recovered
  obtain ⟨depends, inverts⟩ := IOBase.sampleDI_settings r.item
    ⟨c.now, t.latch r.hyst (c.sm t.tAi), c.sm, c.force⟩
  have free : r.item.1.checkDepend c.sm = true := by rw [IOBase.checkDepend, settles.noDepend]
  have entered : r.item.entered (t.latch r.hyst (c.sm t.tAi)) c = (t.latch r.hyst (c.sm t.tAi) ^^ invert) := by
    rw [DiscreteItem.entered, free, settles.inverts]
    rfl
  have passed := settles.prompt.check c.now (t.latch r.hyst (c.sm t.tAi) ^^ invert)
  refine ⟨?_, ?_, ?_, ?_⟩
  · rw [item]
    exact depends.trans settles.noDepend
  · rw [item]
    exact inverts.trans settles.inverts
  · rw [item, DiscreteItem.filters_processingAsDI, entered]
    exact passed.2
  · rw [item, DiscreteItem.isSet_processingAsDI, entered]
    exact passed.1

/-- **Without inversion every call finds the state of the hysteresis.** -/
theorem plain_meets (apart : t.tLowlimit < t.tHilimit) (settles : Settles false r)
    (calls : List ThresholdCall) : (thresholds t).Meets (Recovered t) r calls := by
  have finds : ∀ s c, Settles false s → Recovered t s c := fun s c settles _ _ => by
    rw [settles.state]
    exact Bool.xor_false s.hyst
  exact Machine.meets_of_invariant (fun s c u settles _ stepped =>
    settles_step apart settles (finds s c settles) stepped)
    (fun s c settles _ => finds s c settles) settles (Machine.meets_true calls)

/-- **With inversion no call in the dead band does.** -/
theorem inverted_meets_iff (apart : t.tLowlimit < t.tHilimit) (settles : Settles true r)
    (calls : List ThresholdCall) :
    (thresholds t).Meets (Recovered t) r calls ↔ ∀ c ∈ calls, ¬ t.InBand (c.sm t.tAi) := by
  have misses : ∀ s c, Settles true s → (Recovered t s c ↔ ¬ t.InBand (c.sm t.tAi)) := by
    intro s c settles
    have free : s.item.1.checkDepend c.sm = true := by rw [IOBase.checkDepend, settles.noDepend]
    constructor
    · intro recovered band
      have found := recovered band free
      rw [settles.state, Bool.xor_true] at found
      cases level : s.hyst with
      | true => exact Bool.noConfusion (level ▸ found)
      | false => exact Bool.noConfusion (level ▸ found)
    · exact fun out band => absurd band out
  induction calls generalizing r with
  | nil => exact iff_of_true trivial (List.forall_mem_nil _)
  | cons c rest ih =>
    rw [List.forall_mem_cons, ← misses r c settles]
    refine and_congr_right fun recovered => ?_
    have later := ih (settles_step apart settles recovered rfl)
    exact ⟨fun all => later.mp (all _ rfl), fun out u stepped => Option.some.inj stepped ▸ later.mpr out⟩

end Calls

end UniSet

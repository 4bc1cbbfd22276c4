/-
**Items with a calibration diagram.**

`processingAsAI` and `processingAsAO` share one memo: the raw value and the calibrated one of the last
conversion, both zero at the start.

* `Diagram` — a diagram of the item and its precision; `Diagram.calibration` is what they make of a value.
* `DiagramItem.processingAsAI`, `DiagramItem.processingAsAO` — the conversions through the memo.
* `diagramCalls` — the calls for an item, with the last conversion; `Exact` is a call that does what the item
  does without the memo.
* **`diagram_exact_iff`** — the calls of a run are all exact exactly if none of them finds the zeros of the
  start, or the result of the last opposite conversion, where its own result is another one.
-/

import UniSet.IOBase
import UniSet.Lib.Machine
import UniSet.Lib.PairMemo

namespace UniSet

open Lib (Machine PairMemo)
open Lib.PairMemo (Last Keeps OwnForth OwnBack)

/-- **A calibration diagram**, with the precision of its item. -/
structure Diagram where
  getValue : Int → Int
  getRawValue : Int → Int
  /-- `lround(val * pow(10.0, precision))`, or the value itself with `noprecision`. -/
  precise : Int → Int

/-- What the diagram makes of a raw value, and back. -/
def Diagram.calibration (d : Diagram) : Calibration :=
  ⟨fun raw => d.precise (d.getValue raw), d.getRawValue, true⟩

/-- **An item with a diagram**: `craw` and `cprev` are the halves of the memo. -/
structure DiagramItem where
  it : IOBase
  memo : PairMemo Int Int

namespace DiagramItem

variable (d : Diagram) (s : DiagramItem)

/-- The end of `processingAsAI`, with the memo. -/
def save (val fed : Int) (sm : SMValues) (force : Bool) (memo : PairMemo Int Int) : DiagramItem × SMValues :=
  let saved := (s.it.feed fed sm).save val sm force
  (⟨saved.1, memo⟩, saved.2)

/-- **`processingAsAI`.** -/
def processingAsAI (val : Int) (sm : SMValues) (force : Bool) : DiagramItem × SMValues :=
  if s.it.isDiscrete then s.save (if val ≠ 0 then 1 else 0) val sm force s.memo
  else if !s.it.checkDepend sm then s.save s.it.dOffValue val sm force s.memo
  else
    let filtered := s.it.filter.elim val fun df => df (val :: s.it.filtered)
    if s.it.rawdata then s.save filtered val sm force s.memo
    else
      let converted := s.memo.forth d.getValue filtered
      s.save (d.precise converted.1) val sm force converted.2

/-- **`processingAsAO`**: the value that is read, and the item. -/
def processingAsAO (sm : SMValues) (force : Bool) : Int × DiagramItem :=
  if !s.it.checkDepend sm then (s.it.dOffValue, s)
  else
    let value := if force then sm s.it.si.id else s.it.value
    let it := { s.it with value := value }
    if s.it.rawdata || s.it.isDiscrete then (value, ⟨it, s.memo⟩)
    else
      let converted := s.memo.back d.getRawValue value
      (converted.1, ⟨it, converted.2⟩)

/-- The raw value that `processingAsAI` converts, if any. -/
def rawOf (val : Int) (sm : SMValues) : Option Int :=
  if s.it.isDiscrete || !s.it.checkDepend sm || s.it.rawdata then none
  else some (s.it.filter.elim val fun df => df (val :: s.it.filtered))

/-- The value that `processingAsAO` converts, if any. -/
def valueOf (sm : SMValues) (force : Bool) : Option Int :=
  if !s.it.checkDepend sm || s.it.rawdata || s.it.isDiscrete then none
  else some (if force then sm s.it.si.id else s.it.value)

end DiagramItem

/-! ### The calls -/

/-- A call for an item, with the values that SharedMemory has in it. -/
inductive DiagramCall where
  | processingAsAI (val : Int) (sm : SMValues) (force : Bool)
  | processingAsAO (sm : SMValues) (force : Bool)

/-- An item, and its last conversion. -/
structure DiagramRun where
  item : DiagramItem
  last : Last Int Int

/-- `craw` and `cprev` of a new item. -/
def newMemo : PairMemo Int Int := ⟨0, 0⟩

/-- **The calls for an item with a diagram**, from the start on. -/
def diagramCalls (d : Diagram) : Machine DiagramRun DiagramCall where
  start r := r.item.it.cal = some d.calibration ∧ r.item.memo = newMemo ∧ r.last = .never
  step r
    | .processingAsAI val sm force => some ⟨(r.item.processingAsAI d val sm force).1,
        (r.item.rawOf val sm).elim r.last .forth⟩
    | .processingAsAO sm force => some ⟨(r.item.processingAsAO d sm force).2,
        (r.item.valueOf sm force).elim r.last .back⟩

/-- **A call that uses the diagram's own answer to its argument**, and so does what the item does without the
memo. -/
def Exact (d : Diagram) (r : DiagramRun) : DiagramCall → Prop
  | .processingAsAI val sm force =>
    (∀ raw ∈ r.item.rawOf val sm, (r.item.memo.forth d.getValue raw).1 = d.getValue raw) ∧
      (r.item.processingAsAI d val sm force).1.it = (r.item.it.processingAsAI val sm force).1 ∧
      (r.item.processingAsAI d val sm force).2 = (r.item.it.processingAsAI val sm force).2
  | .processingAsAO sm force =>
    (∀ value ∈ r.item.valueOf sm force,
        (r.item.memo.back d.getRawValue value).1 = d.getRawValue value) ∧
      (r.item.processingAsAO d sm force).1 = r.item.it.processingAsAO sm force ∧
      (r.item.processingAsAO d sm force).2.it = r.item.it.refresh sm force

/-- **A call whose argument the memo does not have from elsewhere**: neither from the start nor from the last
opposite conversion, or the diagram has there the same result. -/
def OwnResult (d : Diagram) (r : DiagramRun) : DiagramCall → Prop
  | .processingAsAI val sm _ => ∀ raw ∈ r.item.rawOf val sm, OwnForth d.getValue d.getRawValue newMemo r.last raw
  | .processingAsAO sm force => ∀ value ∈ r.item.valueOf sm force,
      OwnBack d.getValue d.getRawValue newMemo r.last value

instance (d : Diagram) (r : DiagramRun) : ∀ call, Decidable (OwnResult d r call)
  | .processingAsAI val sm _ => inferInstanceAs (Decidable (∀ raw ∈ r.item.rawOf val sm, _))
  | .processingAsAO sm force => inferInstanceAs (Decidable (∀ value ∈ r.item.valueOf sm force, _))

namespace DiagramItem

variable {d : Diagram} {s : DiagramItem} {val : Int} {sm : SMValues} {force : Bool}

/-- **A right conversion does what the item does without the memo.** -/
theorem processingAsAI_of_exact (cal : s.it.cal = some d.calibration)
    (right : ∀ raw ∈ s.rawOf val sm, (s.memo.forth d.getValue raw).1 = d.getValue raw) :
    (s.processingAsAI d val sm force).1.it = (s.it.processingAsAI val sm force).1 ∧
      (s.processingAsAI d val sm force).2 = (s.it.processingAsAI val sm force).2 := by
  rw [IOBase.processingAsAI, IOBase.fromAI, processingAsAI]
  rw [rawOf] at right
  by_cases discrete : s.it.isDiscrete = true
  · simp only [if_pos discrete]
    exact ⟨rfl, rfl⟩
  · by_cases off : (!s.it.checkDepend sm) = true
    · simp only [if_neg discrete, if_pos off]
      exact ⟨rfl, rfl⟩
    · by_cases raw : s.it.rawdata = true
      · simp only [if_neg discrete, if_neg off, if_pos raw]
        exact ⟨rfl, rfl⟩
      · have converts : (s.it.isDiscrete || !s.it.checkDepend sm || s.it.rawdata) = false := by
          simp [discrete, off, raw]
        rw [converts] at right
        have same := right _ rfl
        simp only [if_neg discrete, if_neg off, if_neg raw, cal, Option.elim_some, same]
        exact ⟨rfl, rfl⟩

theorem processingAsAO_of_exact (cal : s.it.cal = some d.calibration)
    (right : ∀ value ∈ s.valueOf sm force, (s.memo.back d.getRawValue value).1 = d.getRawValue value) :
    (s.processingAsAO d sm force).1 = s.it.processingAsAO sm force ∧
      (s.processingAsAO d sm force).2.it = s.it.refresh sm force := by
  have refreshed : s.it.checkDepend sm = true → s.it.refresh sm force =
      { s.it with value := if force then sm s.it.si.id else s.it.value } := by
    intro depend
    rw [IOBase.refresh, depend, Bool.true_and]
    cases force <;> rfl
  rw [IOBase.processingAsAO, processingAsAO]
  rw [valueOf] at right
  cases depend : s.it.checkDepend sm with
  | false => exact ⟨rfl, by rw [IOBase.refresh, depend]; rfl⟩
  | true =>
    rw [refreshed depend]
    rw [depend, Bool.not_true, Bool.false_or] at right
    by_cases asIs : (s.it.rawdata || s.it.isDiscrete) = true
    · simp only [Bool.not_true, Bool.false_eq_true, if_false, if_pos asIs, and_self]
    · rw [if_neg asIs] at right
      have same := right _ rfl
      simp only [Bool.not_true, Bool.false_eq_true, if_false, if_neg asIs, cal, Option.elim_some, same]
      exact ⟨rfl, trivial⟩

theorem processingAsAI_memo : (s.processingAsAI d val sm force).1.memo =
    (s.rawOf val sm).elim s.memo fun raw => (s.memo.forth d.getValue raw).2 := by
  rw [processingAsAI, rawOf]
  cases s.it.isDiscrete with
  | true => rfl
  | false =>
    cases s.it.checkDepend sm with
    | false => rfl
    | true =>
      cases s.it.rawdata with
      | true => rfl
      | false => rfl

theorem processingAsAO_memo : (s.processingAsAO d sm force).2.memo =
    (s.valueOf sm force).elim s.memo fun value => (s.memo.back d.getRawValue value).2 := by
  rw [processingAsAO, valueOf]
  cases s.it.checkDepend sm with
  | false => rfl
  | true =>
    cases s.it.rawdata with
    | true => rfl
    | false =>
      cases s.it.isDiscrete with
      | true => rfl
      | false => rfl

end DiagramItem

section Calls

variable {d : Diagram} {r u : DiagramRun}

/-- What right calls keep: the memo has the last conversion. -/
def Remembers (d : Diagram) (r : DiagramRun) : Prop :=
  r.item.it.cal = some d.calibration ∧ r.item.memo = Keeps d.getValue d.getRawValue newMemo r.last

theorem exact_iff (remembers : Remembers d r) (call : DiagramCall) : Exact d r call ↔ OwnResult d r call := by
  obtain ⟨cal, memo⟩ := remembers
  cases call with
  | processingAsAI val sm force =>
    have own : (∀ raw ∈ r.item.rawOf val sm, (r.item.memo.forth d.getValue raw).1 = d.getValue raw) ↔
        OwnResult d r (.processingAsAI val sm force) :=
      forall₂_congr fun raw _ => by rw [memo, PairMemo.forth_exact_iff]
    rw [← own]
    exact ⟨And.left, fun right => ⟨right, DiagramItem.processingAsAI_of_exact cal right⟩⟩
  | processingAsAO sm force =>
    have own : (∀ value ∈ r.item.valueOf sm force,
        (r.item.memo.back d.getRawValue value).1 = d.getRawValue value) ↔
        OwnResult d r (.processingAsAO sm force) :=
      forall₂_congr fun value _ => by rw [memo, PairMemo.back_exact_iff]
    rw [← own]
    exact ⟨And.left, fun right => ⟨right, DiagramItem.processingAsAO_of_exact cal right⟩⟩

theorem remembers_step (remembers : Remembers d r) {call : DiagramCall} (exact : Exact d r call)
    (stepped : (diagramCalls d).step r call = some u) : Remembers d u := by
  obtain ⟨cal, memo⟩ := remembers
  cases call with
  | processingAsAI val sm force =>
    obtain rfl := Option.some.inj stepped
    obtain ⟨right, item, -⟩ := exact
    refine ⟨?_, ?_⟩
    · rw [item, IOBase.processingAsAI_sameItem r.item.it val sm force]
      exact cal
    · show (r.item.processingAsAI d val sm force).1.memo = _
      rw [DiagramItem.processingAsAI_memo]
      cases raw : r.item.rawOf val sm with
      | none => exact memo
      | some raw' => exact PairMemo.forth_keeps (right raw' raw)
  | processingAsAO sm force =>
    obtain rfl := Option.some.inj stepped
    obtain ⟨right, -, item⟩ := exact
    refine ⟨?_, ?_⟩
    · rw [item, IOBase.refresh_sameItem r.item.it sm force]
      exact cal
    · show (r.item.processingAsAO d sm force).2.memo = _
      rw [DiagramItem.processingAsAO_memo]
      cases value : r.item.valueOf sm force with
      | none => exact memo
      | some value' => exact PairMemo.back_keeps (right value' value)

/-- **The calls that do what the item does without the memo.** The calls of a run are all exact exactly if none of
them converts the zero of the start, or the result of the last opposite conversion, where the diagram has another
result. -/
theorem diagram_exact_iff (started : (diagramCalls d).start r) (calls : List DiagramCall) :
    (diagramCalls d).Meets (Exact d) r calls ↔ (diagramCalls d).Meets (OwnResult d) r calls :=
  Machine.meets_iff_meets (P := Remembers d) (fun _ call remembers (_ : True) => exact_iff remembers call)
    (fun _ _ _ remembers _ exact stepped => remembers_step remembers exact stepped) (fun _ _ => trivial)
    ⟨started.1, started.2.1.trans (by rw [started.2.2]; rfl)⟩

end Calls

/-- The diagram of a sensor whose raw values begin at ten. -/
def shiftedDiagram : Diagram := ⟨fun raw => raw - 10, fun value => value + 10, id⟩

/-- An analog item with this diagram and nothing else. -/
def diagramItem : DiagramRun where
  item := ⟨{
    si := ⟨1, 0⟩
    stype := .AI
    value := 0
    invert := false
    rawdata := false
    depend := none
    filter := none
    filtered := []
    cal := some shiftedDiagram.calibration
    debounced := id }, newMemo⟩
  last := .never

/-- Values that are received, and one that is sent back. -/
theorem diagram_exact_received :
    (diagramCalls shiftedDiagram).Meets (Exact shiftedDiagram) diagramItem
      [.processingAsAI 15 (fun _ => 0) false, .processingAsAI 15 (fun _ => 0) false,
        .processingAsAO (fun _ => 5) true, .processingAsAI 10 (fun _ => 5) false] :=
  (diagram_exact_iff ⟨rfl, rfl, rfl⟩ _).mpr (by decide)

/-- **The first value is a zero**: the diagram makes `-10` of it, and the item keeps the zero. -/
theorem diagram_first_zero :
    ¬ ∀ (d : Diagram) (r : DiagramRun) (calls : List DiagramCall), (diagramCalls d).start r →
      (diagramCalls d).Meets (Exact d) r calls := by
  intro all
  have first := (all shiftedDiagram diagramItem [.processingAsAI 0 (fun _ => 0) false] ⟨rfl, rfl, rfl⟩).1.1
  exact absurd (first 0 rfl) (by decide)

end UniSet

/-
**Calibration diagrams: their parts and the lookup.**

A diagram is a list of points; `build` makes a part of every two neighbours and sorts the parts by their right ends.
The floating arithmetic of the points is that of the rationals here.

* `Part` — a piece of a diagram, its left end first; `interpolation` is the line through its ends.
* `Characteristic` — the parts of a list of points, in an order that the sort may leave.
* `findRange`, `getValue` — the lookup; `getValue` is the one without the cache.
* `LooksUp` — the lookup returns a part that has the raw value, and the value on it.
* `Met` — one of the parts that the halving towards the value's place meets has it.
* **`getValue_looksUp_iff`** — the lookup is right exactly for the raw values that are met.
* **`found_of_chain`** — so it is for every value within the limits of parts that follow each other.
-/

import Mathlib.Data.Rat.Floor
import Mathlib.Tactic.Linarith
import Mathlib.Tactic.FieldSimp
import Mathlib.Tactic.NormNum
import UniSet.Lib.Halving

namespace UniSet.CalibrationDiagram

open Lib (halving unroll ends mem_ends halving_iff unroll_halving Towards)

/-! ### Points and parts -/

/-- The point of a diagram: a raw value and a calibrated one. -/
structure Point where
  x : ℚ
  y : ℚ
deriving DecidableEq

/-- `FLT_MAX`, for a value outside a part. -/
def valueOutOfRange : ℚ := (2 ^ 24 - 1) * 2 ^ 104

/-- `LONG_MAX`, for a value outside the diagram. -/
def outOfRange : ℤ := 2 ^ 63 - 1

/-- The conversion of a `float` to a `long`. -/
def toLong (q : ℚ) : ℤ := if 0 ≤ q then ⌊q⌋ else ⌈q⌉

/-- `lround`: halves are rounded away from zero. -/
def tRound (q : ℚ) : ℤ := if 0 ≤ q then ⌊q + 1 / 2⌋ else ⌈q - 1 / 2⌉

/-- **A part of a diagram.** -/
structure Part where
  pLeft : Point
  pRight : Point
  ordered : pLeft.x ≤ pRight.x
deriving DecidableEq

namespace Part

/-- The constructor: the ends are swapped where the right one is on the left. -/
def make (pleft pright : Point) : Part :=
  if swapped : pright.x < pleft.x then ⟨pright, pleft, le_of_lt swapped⟩ else ⟨pleft, pright, not_lt.mp swapped⟩

/-- The part of the constructor without arguments. -/
instance : Inhabited Part := ⟨⟨⟨outOfRange, outOfRange⟩, ⟨outOfRange, outOfRange⟩, le_refl _⟩⟩

variable (p : Part)

/-- The slope, as the constructor computes it. -/
def k : ℚ :=
  if (p.pRight.y = 0 ∧ p.pLeft.y = 0) ∨ (p.pRight.x = 0 ∧ p.pLeft.x = 0) then 0
  else (p.pRight.y - p.pLeft.y) / (p.pRight.x - p.pLeft.x)

def checkX (x : ℚ) : Bool := if x < p.pLeft.x ∨ x > p.pRight.x then false else true

def checkY (y : ℚ) : Bool := if y < p.pLeft.y ∨ y > p.pRight.y then false else true

def calcY (x : ℚ) : ℚ := p.k * (x - p.pLeft.x) + p.pLeft.y

def calcX (y : ℚ) : ℚ := if p.k = 0 then p.pLeft.x else (y - p.pLeft.y) / p.k + p.pLeft.x

def getY (x : ℚ) : ℚ :=
  if !p.checkX x then valueOutOfRange
  else if x = p.pLeft.x then p.pLeft.y
  else if x = p.pRight.x then p.pRight.y
  else p.calcY x

def getX (y : ℚ) : ℚ :=
  if !p.checkY y then valueOutOfRange
  else if y = p.pLeft.y then p.pLeft.x
  else if y = p.pRight.y then p.pRight.x
  else p.calcX y

/-- **The line through the ends of a part.** -/
def interpolation (x : ℚ) : ℚ :=
  p.pLeft.y + (p.pRight.y - p.pLeft.y) / (p.pRight.x - p.pLeft.x) * (x - p.pLeft.x)

/-- The side of a part that a raw value is on. -/
def side (x : ℚ) : Ordering := if x < p.pLeft.x then .lt else if x > p.pRight.x then .gt else .eq

variable {p} {x : ℚ}

theorem checkX_iff : p.checkX x = true ↔ p.pLeft.x ≤ x ∧ x ≤ p.pRight.x := by
  rw [checkX]
  split <;> rename_i outside
  · refine iff_of_false Bool.false_ne_true fun inside => ?_
    rcases outside with below | above
    · exact not_lt.mpr inside.1 below
    · exact not_lt.mpr inside.2 above
  · rw [not_or, not_lt, not_lt] at outside
    exact iff_of_true rfl outside

theorem side_eq_iff : p.side x = .eq ↔ p.checkX x = true := by
  rw [side, checkX]
  by_cases below : x < p.pLeft.x
  · simp [below]
  · by_cases above : x > p.pRight.x
    · simp [below, above]
    · simp [below, above]

/-- A raw value right of the right end, and no other, is on the right side. -/
theorem side_gt_iff : p.side x = .gt ↔ p.pRight.x < x := by
  rw [side]
  by_cases below : x < p.pLeft.x
  · have notAbove := not_lt.mpr (le_trans (le_of_lt below) p.ordered)
    simp [below, notAbove]
  · by_cases above : x > p.pRight.x
    · simp [below, above]
    · simp [below, above]

theorem interpolation_left : p.interpolation p.pLeft.x = p.pLeft.y := by
  rw [interpolation, sub_self, mul_zero, add_zero]

theorem interpolation_right (wide : p.pLeft.x < p.pRight.x) : p.interpolation p.pRight.x = p.pRight.y := by
  rw [interpolation, div_mul_cancel₀ _ (sub_pos.mpr wide).ne']
  ring

/-- **Within the part, the code computes the line through its ends.** -/
theorem getY_of_checkX (inside : p.checkX x = true) : p.getY x = p.interpolation x := by
  rw [getY, inside]
  simp only [Bool.not_true, Bool.false_eq_true, if_false]
  by_cases atLeft : x = p.pLeft.x
  · rw [if_pos atLeft, atLeft, interpolation_left]
  have wide : p.pLeft.x < x := lt_of_le_of_ne (checkX_iff.mp inside).1 (Ne.symm atLeft)
  have ends : p.pLeft.x < p.pRight.x := lt_of_lt_of_le wide (checkX_iff.mp inside).2
  rw [if_neg atLeft]
  by_cases atRight : x = p.pRight.x
  · rw [if_pos atRight, atRight, interpolation_right ends]
  rw [if_neg atRight, calcY, interpolation, k]
  split <;> rename_i flat
  · rcases flat with ⟨right, left⟩ | ⟨right, left⟩
    · rw [right, left]
      ring
    · exact absurd (left.trans right.symm) ends.ne
  · ring

end Part

/-! ### The diagram -/

/-- The parts that `build` makes: one of every two neighbours. -/
def segments : List Point → List Part
  | p :: q :: rest => Part.make p q :: segments (q :: rest)
  | _ => []

/-- **A diagram**: the parts of the points, sorted by their right ends. The sort may leave parts with the same right
end in any order. -/
structure Characteristic (points : List Point) where
  pvec : List Part
  perm : pvec.Perm (segments points)
  sorted : pvec.Pairwise fun p q => p.pRight.x ≤ q.pRight.x

section Lookup

variable (pvec : List Part)

/-- The part at a place. -/
def part (i : Nat) : Part := pvec.getD i default

/-- `--pvec.end()`. -/
def last : Nat := pvec.length - 1

def leftRaw : ℤ := toLong (part pvec 0).pLeft.x

def leftVal : ℤ := toLong (part pvec 0).pLeft.y

def rightRaw : ℤ := toLong (part pvec (last pvec)).pRight.x

def rightVal : ℤ := toLong (part pvec (last pvec)).pRight.y

/-- The body of `find_range`. -/
def findRangeBody (raw : ℤ) (call : Nat × Nat → Option Nat) (range : Nat × Nat) : Option Nat :=
  if (part pvec range.1).checkX raw then some range.1
  else if (part pvec range.2).checkX raw then some range.2
  else
    let it := range.1 + (range.2 - range.1) / 2
    if (raw : ℚ) < (part pvec it).pLeft.x then call (range.1, it)
    else if (raw : ℚ) > (part pvec it).pRight.x then call (it, range.2)
    else some it

/-- **`find_range`** on the whole diagram, with so many nested calls at most. -/
def findRangeWithin (calls : Nat) (raw : ℤ) : Option Nat :=
  unroll (findRangeBody pvec raw) calls (0, last pvec)

/-- `find_range`: with a nested call for each part. -/
def findRange (raw : ℤ) : Option Nat := findRangeWithin pvec pvec.length raw

/-- What is looked up for a raw value, none if the lookup does not return. -/
def compute (raw : ℤ) : Option ℤ :=
  (findRange pvec raw).map fun fit =>
    if fit = pvec.length then outOfRange
    else
      let q := (part pvec fit).getY raw
      if q ≠ valueOutOfRange then tRound q else outOfRange

/-- **`getValue`** without the cache. -/
def getValue (raw : ℤ) (cropRaw : Bool) : Option ℤ :=
  if raw < leftRaw pvec then some (if cropRaw then leftVal pvec else outOfRange)
  else if raw > rightRaw pvec then some (if cropRaw then rightVal pvec else outOfRange)
  else compute pvec raw

/-- **The lookup is right for a raw value**: with enough nested calls it returns a part of the diagram that has the
value, and the answer is the value of the line there. -/
def LooksUp (raw : ℤ) : Prop :=
  ∃ fit ∈ pvec, (∃ calls i, findRangeWithin pvec calls raw = some i ∧ pvec[i]? = some fit) ∧
    fit.pLeft.x ≤ raw ∧ (raw : ℚ) ≤ fit.pRight.x ∧
    ∀ cropRaw, getValue pvec raw cropRaw = some (tRound (fit.interpolation raw))

/-- The place of a raw value: the first part that does not end left of it. -/
def place (raw : ℤ) : Nat := pvec.findIdx fun p => (raw : ℚ) ≤ p.pRight.x

/-- The parts that the halving towards the place of the value meets: the first one, and the upper ends. -/
def met (raw : ℤ) : List Nat := 0 :: ends (place pvec raw) (last pvec) 0 (last pvec)

/-- **The value is met**: the halving towards its place meets a part that has it, and the line is not at `FLT_MAX`
there. -/
def Met (raw : ℤ) : Prop :=
  ∃ i ∈ (met pvec raw).find? (fun i => (part pvec i).checkX raw), (part pvec i).interpolation raw ≠ valueOutOfRange

instance (raw : ℤ) : Decidable (Met pvec raw) :=
  inferInstanceAs (Decidable (∃ i ∈ (met pvec raw).find? fun i => (part pvec i).checkX raw,
    (part pvec i).interpolation raw ≠ valueOutOfRange))

variable {pvec} {raw : ℤ} {i : Nat}

theorem part_eq (inside : i < pvec.length) : part pvec i = pvec[i] := by
  rw [part, List.getD_eq_getElem?_getD, List.getElem?_eq_getElem inside, Option.getD_some]

theorem last_lt (parts : pvec ≠ []) : last pvec < pvec.length :=
  Nat.sub_lt (List.length_pos_iff.mpr parts) Nat.one_pos

/-- **`find_range` is a search by halving** for the side of the parts. -/
theorem findRangeBody_eq : findRangeBody pvec raw = halving fun i => (part pvec i).side raw := by
  funext call range
  rw [findRangeBody, halving]
  simp only [← Part.side_eq_iff]
  by_cases left : (part pvec range.1).side raw = .eq
  · rw [if_pos left, if_pos left]
  by_cases right : (part pvec range.2).side raw = .eq
  · rw [if_neg left, if_neg left, if_pos right, if_pos right]
  rw [if_neg left, if_neg left, if_neg right, if_neg right, Lib.middle, Part.side]
  by_cases below : (raw : ℚ) < (part pvec (range.1 + (range.2 - range.1) / 2)).pLeft.x
  · simp only [if_pos below]
  · by_cases above : (raw : ℚ) > (part pvec (range.1 + (range.2 - range.1) / 2)).pRight.x
    · simp only [if_neg below, if_pos above]
    · simp only [if_neg below, if_neg above]

/-- **The sorted parts show the side of the value's place.** -/
theorem towards_place (parts : pvec ≠ []) (sorted : pvec.Pairwise fun p q => p.pRight.x ≤ q.pRight.x) (raw : ℤ) :
    Towards (fun i => (part pvec i).side raw) (place pvec raw) (last pvec) where
  before i inside before := by
    have within : i < pvec.length := Nat.lt_of_le_of_lt inside (last_lt parts)
    have ends := List.not_of_lt_findIdx before
    rw [decide_eq_false_iff_not, not_le] at ends
    rw [Part.side_gt_iff, part_eq within]
    exact ends
  after i inside after := by
    have within : i < pvec.length := Nat.lt_of_le_of_lt inside (last_lt parts)
    have placed : place pvec raw < pvec.length := Nat.lt_of_le_of_lt after within
    have reaches : (raw : ℚ) ≤ (pvec[place pvec raw]).pRight.x := by
      exact of_decide_eq_true (List.findIdx_getElem (w := placed))
    rw [Ne, Part.side_gt_iff, part_eq within, not_lt]
    rcases Nat.eq_or_lt_of_le after with same | later
    · subst same
      exact reaches
    · exact le_trans reaches (List.pairwise_iff_getElem.mp sorted _ _ placed within later)

/-- **What `find_range` returns.** -/
theorem findRangeWithin_iff (parts : pvec ≠ []) (sorted : pvec.Pairwise fun p q => p.pRight.x ≤ q.pRight.x) :
    (∃ calls, findRangeWithin pvec calls raw = some i) ↔
      (met pvec raw).find? (fun i => (part pvec i).checkX raw) = some i := by
  have search := halving_iff (i := i) (towards_place parts sorted raw) (Nat.zero_le _)
  simp only [findRangeWithin, findRangeBody_eq, search, Nat.sub_zero, met]
  simp only [Part.side_eq_iff, Bool.decide_eq_true]

theorem findRange_eq (parts : pvec ≠ []) (sorted : pvec.Pairwise fun p q => p.pRight.x ≤ q.pRight.x) :
    findRange pvec raw = (met pvec raw).find? fun i => (part pvec i).checkX raw := by
  have search := unroll_halving (towards_place parts sorted raw) (Nat.zero_le _)
  have calls : last pvec - 0 + 1 = pvec.length := Nat.sub_add_cancel (List.length_pos_iff.mpr parts)
  rw [calls] at search
  rw [findRange, findRangeWithin, findRangeBody_eq, search, met]
  simp only [Part.side_eq_iff, Bool.decide_eq_true, Nat.sub_zero]

/-- Every part that is met is one of the diagram. -/
theorem lt_of_met (parts : pvec ≠ []) (member : i ∈ met pvec raw) : i < pvec.length := by
  rcases List.mem_cons.mp member with rfl | member
  · exact List.length_pos_iff.mpr parts
  · exact Nat.lt_of_le_of_lt (Lib.ends_le (Nat.zero_le _) member) (last_lt parts)

theorem getValue_of_findRange (within : leftRaw pvec ≤ raw ∧ raw ≤ rightRaw pvec) (inside : i < pvec.length)
    (found : findRange pvec raw = some i) (holds : (part pvec i).checkX raw = true) (cropRaw : Bool) :
    getValue pvec raw cropRaw = some (if (part pvec i).interpolation raw ≠ valueOutOfRange
      then tRound ((part pvec i).interpolation raw) else outOfRange) := by
  rw [getValue, if_neg (not_lt.mpr within.1), if_neg (not_lt.mpr within.2), compute, found, Option.map_some,
    if_neg (Nat.ne_of_lt inside), Part.getY_of_checkX holds]

theorem met_of_looksUp (parts : pvec ≠ []) (sorted : pvec.Pairwise fun p q => p.pRight.x ≤ q.pRight.x)
    (within : leftRaw pvec ≤ raw ∧ raw ≤ rightRaw pvec) (looksUp : LooksUp pvec raw) : Met pvec raw := by
  obtain ⟨fit, -, ⟨calls, i, found, at_i⟩, lower, upper, answers⟩ := looksUp
  have first := (findRangeWithin_iff parts sorted).mp ⟨calls, found⟩
  refine ⟨i, first, fun reserved => ?_⟩
  obtain ⟨inside, rfl⟩ := List.getElem?_eq_some_iff.mp at_i
  rw [← part_eq inside] at lower upper answers
  have holds := Part.checkX_iff.mpr ⟨lower, upper⟩
  have answer := answers false
  rw [getValue_of_findRange within inside ((findRange_eq parts sorted).trans first) holds,
    if_neg (not_not_intro reserved), reserved] at answer
  exact absurd (Option.some.inj answer) (by decide +kernel)

theorem looksUp_of_met (parts : pvec ≠ []) (sorted : pvec.Pairwise fun p q => p.pRight.x ≤ q.pRight.x)
    (within : leftRaw pvec ≤ raw ∧ raw ≤ rightRaw pvec) (meets : Met pvec raw) : LooksUp pvec raw := by
  obtain ⟨i, first, free⟩ := meets
  have inside := lt_of_met parts (List.mem_of_find?_eq_some first)
  have holds : (part pvec i).checkX raw = true := by simpa using List.find?_some first
  refine ⟨part pvec i, ?_, ?_, (Part.checkX_iff.mp holds).1, (Part.checkX_iff.mp holds).2, fun cropRaw => ?_⟩
  · rw [part_eq inside]
    exact List.getElem_mem inside
  · obtain ⟨calls, found⟩ := (findRangeWithin_iff parts sorted).mpr first
    exact ⟨calls, i, found, by rw [part_eq inside, List.getElem?_eq_getElem inside]⟩
  · rw [getValue_of_findRange within inside ((findRange_eq parts sorted).trans first) holds, if_pos free]

/-- **Parts that follow each other have every value within their limits**: the part at its place does. -/
theorem found_of_chain (raw : ℤ) (parts : pvec ≠ []) (sorted : pvec.Pairwise fun p q => p.pRight.x ≤ q.pRight.x)
    (chain : ∀ i, i + 1 < pvec.length → (part pvec i).pRight.x = (part pvec (i + 1)).pLeft.x)
    (lower : (part pvec 0).pLeft.x ≤ raw) (upper : (raw : ℚ) ≤ (part pvec (last pvec)).pRight.x) :
    ∃ i < pvec.length, findRange pvec raw = some i ∧ (part pvec i).checkX raw = true := by
  have towards := towards_place parts sorted raw
  have placed : place pvec raw ≤ last pvec := by
    by_contra beyond
    have after := towards.before _ (Nat.le_refl _) (Nat.lt_of_not_le beyond)
    exact not_lt.mpr upper (Part.side_gt_iff.mp after)
  have holds : (part pvec (place pvec raw)).checkX raw = true := by
    have notAfter := towards.after _ placed (Nat.le_refl _)
    rw [Ne, Part.side_gt_iff, not_lt] at notAfter
    refine Part.checkX_iff.mpr ⟨?_, notAfter⟩
    cases first : place pvec raw with
    | zero => exact lower
    | succ before =>
      have passed := towards.before before (by omega) (by omega)
      rw [← chain before (by have := last_lt parts; omega)]
      exact le_of_lt (Part.side_gt_iff.mp passed)
  have member : place pvec raw ∈ met pvec raw :=
    List.mem_cons_of_mem _ (mem_ends _ _ _ (Nat.zero_le _) placed (Nat.le_refl _))
  obtain ⟨i, first⟩ := Option.isSome_iff_exists.mp
    (List.find?_isSome.mpr ⟨place pvec raw, member, holds⟩ :
      ((met pvec raw).find? fun i => (part pvec i).checkX raw).isSome = true)
  exact ⟨i, lt_of_met parts (List.mem_of_find?_eq_some first), (findRange_eq parts sorted).trans first,
    by simpa using List.find?_some first⟩

end Lookup

section Diagram

variable {points : List Point}

theorem segments_length : ∀ points : List Point, (segments points).length = points.length - 1
  | [] => rfl
  | [_] => rfl
  | _ :: q :: rest => congrArg (· + 1) (segments_length (q :: rest))

/-- The ends of a part are points of the diagram. -/
theorem ends_mem : ∀ {points : List Point} {p : Part}, p ∈ segments points → p.pLeft ∈ points ∧ p.pRight ∈ points
  | [], _, member => absurd member List.not_mem_nil
  | [_], _, member => absurd member List.not_mem_nil
  | p :: q :: rest, part, member => by
    rcases List.mem_cons.mp member with rfl | later
    · rw [Part.make]
      split
      · exact ⟨List.mem_cons_of_mem _ List.mem_cons_self, List.mem_cons_self⟩
      · exact ⟨List.mem_cons_self, List.mem_cons_of_mem _ List.mem_cons_self⟩
    · exact ⟨List.mem_cons_of_mem _ (ends_mem later).1, List.mem_cons_of_mem _ (ends_mem later).2⟩

theorem Characteristic.pvec_ne_nil (d : Characteristic points) (many : 2 ≤ points.length) : d.pvec ≠ [] := by
  have length := d.perm.length_eq
  rw [segments_length] at length
  exact List.ne_nil_of_length_pos (by omega)

/-- **The lookup in a diagram.** It is right exactly for the raw values that the halving towards their place meets
in a part. -/
theorem getValue_looksUp_iff (d : Characteristic points) (many : 2 ≤ points.length) {raw : ℤ}
    (within : leftRaw d.pvec ≤ raw ∧ raw ≤ rightRaw d.pvec) : LooksUp d.pvec raw ↔ Met d.pvec raw :=
  ⟨met_of_looksUp (d.pvec_ne_nil many) d.sorted within, looksUp_of_met (d.pvec_ne_nil many) d.sorted within⟩

/-- The diagram of the documentation. -/
def testcal : Characteristic
    [⟨-200, -60⟩, ⟨-100, -60⟩, ⟨-50, -20⟩, ⟨0, 0⟩, ⟨50, 20⟩, ⟨100, 60⟩, ⟨200, 60⟩] where
  pvec := segments [⟨-200, -60⟩, ⟨-100, -60⟩, ⟨-50, -20⟩, ⟨0, 0⟩, ⟨50, 20⟩, ⟨100, 60⟩, ⟨200, 60⟩]
  perm := List.Perm.refl _
  sorted := by decide +kernel

/-- A value between two points of it. -/
theorem testcal_looksUp : LooksUp testcal.pvec 75 :=
  (getValue_looksUp_iff testcal (by decide) (by decide +kernel)).mpr (by decide +kernel)

/-- A diagram that begins after the zero: its left limit is cut to zero. -/
def afterZero : Characteristic [⟨1 / 2, 0⟩, ⟨10, 10⟩] where
  pvec := segments [⟨1 / 2, 0⟩, ⟨10, 10⟩]
  perm := List.Perm.refl _
  sorted := by decide +kernel

/-- The points of a diagram that goes back, as the sort leaves its parts. -/
def goesBack : Characteristic [⟨13, 13⟩, ⟨10, 10⟩, ⟨11, 11⟩, ⟨12, 12⟩, ⟨2, 2⟩, ⟨0, 0⟩] where
  pvec := [Part.make ⟨2, 2⟩ ⟨0, 0⟩, Part.make ⟨10, 10⟩ ⟨11, 11⟩, Part.make ⟨11, 11⟩ ⟨12, 12⟩,
    Part.make ⟨12, 12⟩ ⟨2, 2⟩, Part.make ⟨13, 13⟩ ⟨10, 10⟩]
  perm := by decide +kernel
  sorted := by decide +kernel

/-- **The search does not return**: for the cut limit, which is in no part, and for a value whose part the halving
passes. -/
theorem lookup_endless :
    (leftRaw afterZero.pvec ≤ 0 ∧ 0 ≤ rightRaw afterZero.pvec ∧ ¬ LooksUp afterZero.pvec 0) ∧
      leftRaw goesBack.pvec ≤ 5 ∧ 5 ≤ rightRaw goesBack.pvec ∧ ¬ LooksUp goesBack.pvec 5 := by
  have cut : ¬ Met afterZero.pvec 0 := by decide +kernel
  have passed : ¬ Met goesBack.pvec 5 := by decide +kernel
  refine ⟨⟨by decide +kernel, by decide +kernel, fun looksUp => cut ?_⟩, by decide +kernel, by decide +kernel,
    fun looksUp => passed ?_⟩
  · exact met_of_looksUp (by decide) afterZero.sorted (by decide +kernel) looksUp
  · exact met_of_looksUp (by decide) goesBack.sorted (by decide +kernel) looksUp

end Diagram

end UniSet.CalibrationDiagram

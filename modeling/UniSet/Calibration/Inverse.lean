/-
**Calibration diagrams: from a calibrated value back to the raw one.**

`getRawValue` takes the first part whose calibrated values, the left one first, reach the value; a part that falls
reaches none. Outside the parts the value is compared with the two end values, whatever their order.

* `getRawValue` — the inverse of the lookup.
* `Inverse` — every point of the diagram comes back, and what is beyond an end value goes to that end.
* **`getRawValue_inverse_iff`** — of the strictly monotone diagrams of whole points, the inverse is right for
  exactly the rising ones.
-/

import Mathlib.Data.List.Sort
import UniSet.Calibration.Parts

namespace UniSet.CalibrationDiagram

/-- **`getRawValue`.** -/
def getRawValue (pvec : List Part) (cal : ℤ) (range : Bool) : ℤ :=
  (pvec.findSome? fun it => if it.getX cal ≠ valueOutOfRange then some (it.getX cal) else none).elim
    (if range && cal < leftVal pvec then leftRaw pvec
      else if range && cal > rightVal pvec then rightRaw pvec
      else outOfRange)
    tRound

/-- Points with whole coordinates. -/
def whole (points : List (ℤ × ℤ)) : List Point := points.map fun p => ⟨p.1, p.2⟩

/-- The points are from left to right. -/
def FromLeft (points : List (ℤ × ℤ)) : Prop := points.Pairwise fun p q => p.1 < q.1

/-- The points of a diagram that rises. -/
def Rising (points : List (ℤ × ℤ)) : Prop := points.Pairwise fun p q => p.1 < q.1 ∧ p.2 < q.2

/-- The points of a diagram that falls. -/
def Falling (points : List (ℤ × ℤ)) : Prop := points.Pairwise fun p q => p.1 < q.1 ∧ q.2 < p.2

instance (points : List (ℤ × ℤ)) : Decidable (Rising points) := inferInstanceAs (Decidable (List.Pairwise _ _))

/-- A value is beyond the one of two end values that the other end is not at. -/
def Beyond (near far cal : ℤ) : Prop := (near < far ∧ cal < near) ∨ (far < near ∧ near < cal)

/-- **The inverse is right**: every point comes back from its calibrated value, and what is beyond an end value goes
to the raw value of that end. -/
structure Inverse (pvec : List Part) (points : List (ℤ × ℤ)) : Prop where
  comesBack : ∀ p ∈ points, ∀ cropRaw range,
    ∃ cal, getValue pvec p.1 cropRaw = some cal ∧ getRawValue pvec cal range = p.1
  beyondFirst : ∀ first ∈ points.head?, ∀ final ∈ points.getLast?, ∀ cal, Beyond first.2 final.2 cal →
    getRawValue pvec cal true = first.1
  beyondFinal : ∀ first ∈ points.head?, ∀ final ∈ points.getLast?, ∀ cal, Beyond final.2 first.2 cal →
    getRawValue pvec cal true = final.1

/-- The values of the type `long`. -/
def IsLong (z : ℤ) : Prop := -2 ^ 63 ≤ z ∧ z < 2 ^ 63

instance (z : ℤ) : Decidable (IsLong z) := inferInstanceAs (Decidable (_ ∧ _))

namespace Part

variable {p : Part} {y : ℚ}

theorem checkY_iff : p.checkY y = true ↔ p.pLeft.y ≤ y ∧ y ≤ p.pRight.y := by
  rw [checkY, ← not_lt, ← not_lt, ← not_or]
  split <;> rename_i outside
  · exact iff_of_false Bool.false_ne_true (not_not_intro outside)
  · exact iff_of_true rfl outside

/-- A part that does not have the value answers the reserved one. -/
theorem getX_outside (outside : ¬ (p.pLeft.y ≤ y ∧ y ≤ p.pRight.y)) : p.getX y = valueOutOfRange := by
  rw [← checkY_iff, Bool.not_eq_true] at outside
  rw [getX, outside]
  rfl

theorem getX_left (rises : p.pLeft.y ≤ p.pRight.y) : p.getX p.pLeft.y = p.pLeft.x := by
  rw [getX, checkY_iff.mpr ⟨le_refl _, rises⟩]
  simp

theorem getX_right (rises : p.pLeft.y < p.pRight.y) : p.getX p.pRight.y = p.pRight.x := by
  rw [getX, checkY_iff.mpr ⟨le_of_lt rises, le_refl _⟩]
  simp [rises.ne']

end Part

section Back

variable {pvec : List Part} {cal : ℤ} {range : Bool}

/-- The answer of the first part that has one, where all that have one agree. -/
theorem getRawValue_of_getX {q : ℚ} (some' : ∃ it ∈ pvec, it.getX cal ≠ valueOutOfRange)
    (agree : ∀ it ∈ pvec, it.getX cal ≠ valueOutOfRange → it.getX cal = q) :
    getRawValue pvec cal range = tRound q := by
  obtain ⟨it, member, answers⟩ := some'
  have found : (pvec.findSome? fun it => if it.getX cal ≠ valueOutOfRange then some (it.getX cal) else none).isSome :=
    List.findSome?_isSome_iff.mpr ⟨it, member, by rw [if_pos answers]; rfl⟩
  obtain ⟨q', first⟩ := Option.isSome_iff_exists.mp found
  obtain ⟨it', member', answer⟩ := List.exists_of_findSome?_eq_some first
  rw [getRawValue, first, Option.elim_some]
  split at answer
  · rename_i has
    rw [← Option.some.inj answer, agree it' member' has]
  · cases answer

theorem getRawValue_of_none (none' : ∀ it ∈ pvec, it.getX cal = valueOutOfRange) :
    getRawValue pvec cal range = if range && cal < leftVal pvec then leftRaw pvec
      else if range && cal > rightVal pvec then rightRaw pvec else outOfRange := by
  have missing : (pvec.findSome? fun it =>
      if it.getX cal ≠ valueOutOfRange then some (it.getX cal) else none) = none :=
    List.findSome?_eq_none_iff.mpr fun it member => if_neg (not_not_intro (none' it member))
  rw [getRawValue, missing, Option.elim_none]

end Back

/-! ### Conversions of whole numbers -/

section Conversions

variable {z : ℤ}

theorem toLong_intCast (z : ℤ) : toLong z = z := by
  rw [toLong, Int.floor_intCast, Int.ceil_intCast, ite_self]

theorem tRound_intCast (z : ℤ) : tRound z = z := by
  rw [tRound]
  split
  · rw [Int.floor_eq_iff]
    constructor <;> linarith
  · rw [Int.ceil_eq_iff]
    constructor <;> linarith

/-- A `long` is not the reserved value of a part. -/
theorem intCast_ne_valueOutOfRange (long : IsLong z) : (z : ℚ) ≠ valueOutOfRange := by
  have reserved : valueOutOfRange = ((2 ^ 24 - 1) * 2 ^ 104 : ℤ) := by
    norm_num [valueOutOfRange]
  rw [reserved]
  intro same
  have equal : z = (2 ^ 24 - 1) * 2 ^ 104 := by exact_mod_cast same
  have := long.2
  omega

end Conversions

/-! ### The parts of monotone points -/

section Monotone

variable {points : List Point}

theorem make_of_lt {p q : Point} (rises : p.x < q.x) : (Part.make p q).pLeft = p ∧ (Part.make p q).pRight = q := by
  rw [Part.make, dif_neg (not_lt.mpr (le_of_lt rises))]
  exact ⟨rfl, rfl⟩

/-- **The parts of points from left to right** are between the neighbours, in their order. -/
theorem segments_getElem : ∀ {points : List Point}, points.Pairwise (fun p q => p.x < q.x) →
    ∀ i (inside : i < (segments points).length) (next : i + 1 < points.length),
      (segments points)[i].pLeft = points[i] ∧ (segments points)[i].pRight = points[i + 1]
  | [], _, _, _, next => absurd next (Nat.not_lt_zero _)
  | [_], _, _, _, next => absurd (Nat.lt_of_succ_lt_succ next) (Nat.not_lt_zero _)
  | _ :: q :: _, rises, 0, _, _ => make_of_lt ((List.pairwise_cons.mp rises).1 q List.mem_cons_self)
  | _ :: _ :: _, rises, i + 1, inside, next =>
    segments_getElem (List.pairwise_cons.mp rises).2 i (Nat.lt_of_succ_lt_succ inside) (Nat.lt_of_succ_lt_succ next)

theorem segments_pairwise (rises : points.Pairwise fun p q => p.x < q.x) :
    (segments points).Pairwise fun p q => p.pRight.x < q.pRight.x := by
  rw [List.pairwise_iff_getElem]
  intro i j insideI insideJ before
  have length := segments_length points
  rw [(segments_getElem rises i insideI (by omega)).2, (segments_getElem rises j insideJ (by omega)).2]
  exact List.pairwise_iff_getElem.mp rises _ _ _ _ (by omega)

/-- **The sort has no choice**: it leaves them in their order. -/
theorem pvec_eq (d : Characteristic points) (rises : points.Pairwise fun p q => p.x < q.x) :
    d.pvec = segments points := by
  have strictly := segments_pairwise rises
  refine d.perm.eq_of_pairwise ?_ d.sorted (strictly.imp le_of_lt)
  intro a b left right ab ba
  have distinct : ((segments points).map fun p => p.pRight.x).Nodup :=
    List.pairwise_map.mpr (strictly.imp ne_of_lt)
  exact List.inj_on_of_nodup_map distinct (d.perm.mem_iff.mp left) right (le_antisymm ab ba)

end Monotone

variable {i j : Nat}

section Whole

variable {points : List (ℤ × ℤ)} (d : Characteristic (whole points)) (many : 2 ≤ points.length)
  (fromLeft : FromLeft points)

theorem pvec_length : d.pvec.length = points.length - 1 := by
  rw [d.perm.length_eq, segments_length, whole, List.length_map]

include many fromLeft

/-- The part at a place is between two neighbours. -/
theorem part_whole (i : Nat) (next : i + 1 < points.length) :
    (part d.pvec i).pLeft = ⟨points[i].1, points[i].2⟩ ∧
      (part d.pvec i).pRight = ⟨points[i + 1].1, points[i + 1].2⟩ := by
  have rises : (whole points).Pairwise fun p q => p.x < q.x :=
    List.pairwise_map.mpr (fromLeft.imp fun before => Int.cast_lt.mpr before)
  have same := pvec_eq d rises
  have length := pvec_length d
  have inside : i < (segments (whole points)).length := by rw [← same]; omega
  have ends := segments_getElem rises i inside (by rw [whole, List.length_map]; exact next)
  rw [same, part_eq inside, ends.1, ends.2]
  simp [whole]

/-- The limits of the diagram are its first and its last point. -/
theorem limits_whole : leftRaw d.pvec = (points[0]).1 ∧ leftVal d.pvec = (points[0]).2 ∧
    rightRaw d.pvec = (points[points.length - 1]).1 ∧ rightVal d.pvec = (points[points.length - 1]).2 := by
  have length := pvec_length d
  have first := (part_whole d many fromLeft 0 (by omega)).1
  have final := (part_whole d many fromLeft (points.length - 2) (by omega)).2
  have place : last d.pvec = points.length - 2 := by rw [last]; omega
  have next : points.length - 2 + 1 = points.length - 1 := by omega
  simp only [next] at final
  rw [leftRaw, leftVal, rightRaw, rightVal, place, first, final]
  simp only [toLong_intCast, and_self]

omit many in
theorem abscissa_lt_iff (hi : i < points.length) (hj : j < points.length) :
    points[i].1 < points[j].1 ↔ i < j := by
  have rises := List.pairwise_iff_getElem.mp fromLeft
  refine ⟨fun less => ?_, fun before => rises i j hi hj before⟩
  by_contra notBefore
  rcases Nat.eq_or_lt_of_le (Nat.le_of_not_lt notBefore) with rfl | after
  · exact lt_irrefl _ less
  · exact lt_asymm less (rises j i hj hi after)

/-- **A part that has the abscissa of a point has the point as an end.** -/
theorem end_of_checkX (next : i + 1 < points.length) (hj : j < points.length)
    (holds : (part d.pvec i).checkX points[j].1 = true) : j = i ∨ j = i + 1 := by
  obtain ⟨left, right⟩ := part_whole d many fromLeft i next
  rw [Part.checkX_iff, left, right, Int.cast_le, Int.cast_le] at holds
  by_contra neither
  rw [not_or] at neither
  rcases Nat.lt_or_gt_of_ne neither.1 with before | after
  · exact not_lt.mpr holds.1 ((abscissa_lt_iff fromLeft hj (by omega)).mpr before)
  · exact not_lt.mpr holds.2 ((abscissa_lt_iff fromLeft next hj).mpr (by omega))

/-- **The lookup of a point's abscissa gives its ordinate.** -/
theorem getValue_point (longs : ∀ p ∈ points, IsLong p.1 ∧ IsLong p.2) (hj : j < points.length)
    (cropRaw : Bool) : getValue d.pvec points[j].1 cropRaw = some points[j].2 := by
  have length := pvec_length d
  have parts : d.pvec ≠ [] := List.ne_nil_of_length_pos (by omega)
  obtain ⟨leftRaw_eq, -, rightRaw_eq, -⟩ := limits_whole d many fromLeft
  have place : last d.pvec + 1 = points.length - 1 := by rw [last]; omega
  have ordered : ∀ i k (hi : i < points.length) (hk : k < points.length), i ≤ k → points[i].1 ≤ points[k].1 :=
    fun i k hi hk before => le_of_not_gt fun less => absurd ((abscissa_lt_iff fromLeft hk hi).mp less) (by omega)
  obtain ⟨i, inside, found, holds⟩ := found_of_chain points[j].1 parts d.sorted
    (fun i next => by
      rw [(part_whole d many fromLeft i (by omega)).2, (part_whole d many fromLeft (i + 1) (by omega)).1])
    (by rw [(part_whole d many fromLeft 0 (by omega)).1, Int.cast_le]; exact ordered _ _ _ _ (Nat.zero_le _))
    (by rw [(part_whole d many fromLeft (last d.pvec) (by omega)).2, Int.cast_le]; exact ordered _ _ _ _ (by omega))
  have within : leftRaw d.pvec ≤ points[j].1 ∧ points[j].1 ≤ rightRaw d.pvec := by
    rw [leftRaw_eq, rightRaw_eq]
    exact ⟨ordered _ _ _ _ (Nat.zero_le _), ordered _ _ _ _ (by omega)⟩
  obtain ⟨left, right⟩ := part_whole d many fromLeft i (by omega)
  have value : (part d.pvec i).interpolation points[j].1 = points[j].2 := by
    rcases end_of_checkX d many fromLeft (by omega) hj holds with rfl | rfl
    · have atLeft := Part.interpolation_left (p := part d.pvec j)
      rwa [left] at atLeft
    · have atRight := Part.interpolation_right (p := part d.pvec i) (by
        rw [left, right, Int.cast_lt]
        exact (abscissa_lt_iff fromLeft _ _).mpr (Nat.lt_succ_self i))
      rwa [right] at atRight
  rw [getValue_of_findRange within inside found holds, value, tRound_intCast,
    if_pos (intCast_ne_valueOutOfRange (longs _ (List.getElem_mem hj)).2)]

omit fromLeft in
theorem exists_place {it : Part} (member : it ∈ d.pvec) : ∃ i, i + 1 < points.length ∧ part d.pvec i = it := by
  obtain ⟨i, inside, rfl⟩ := List.getElem_of_mem member
  have length := pvec_length d
  exact ⟨i, by omega, part_eq inside⟩

omit fromLeft in
theorem part_mem (next : i + 1 < points.length) : part d.pvec i ∈ d.pvec := by
  have length := pvec_length d
  have inside : i < d.pvec.length := by omega
  rw [part_eq inside]
  exact List.getElem_mem inside

end Whole

section Main

variable {points : List (ℤ × ℤ)} (d : Characteristic (whole points)) (many : 2 ≤ points.length)

include many

omit many in
theorem Rising.fromLeft (rising : Rising points) : FromLeft points := rising.imp And.left

omit many in
theorem ordinate_lt (rising : Rising points) (hi : i < points.length) (hj : j < points.length)
    (before : i < j) : points[i].2 < points[j].2 :=
  (List.pairwise_iff_getElem.mp rising i j hi hj before).2

/-- A part of a rising diagram answers at its ends. -/
theorem getX_ends (rising : Rising points) (next : i + 1 < points.length) (hj : j < points.length)
    (place : j = i ∨ j = i + 1) : (part d.pvec i).getX points[j].2 = points[j].1 := by
  obtain ⟨left, right⟩ := part_whole d many rising.fromLeft i next
  have rises : (part d.pvec i).pLeft.y < (part d.pvec i).pRight.y := by
    rw [left, right]
    exact Int.cast_lt.mpr (ordinate_lt rising _ _ (Nat.lt_succ_self i))
  rcases place with rfl | rfl
  · have answer := Part.getX_left (le_of_lt rises)
    rwa [left] at answer
  · have answer := Part.getX_right rises
    rwa [right] at answer

/-- **In a rising diagram a part that has the ordinate of a point answers its abscissa.** -/
theorem getX_point (rising : Rising points) (next : i + 1 < points.length) (hj : j < points.length)
    (answers : (part d.pvec i).getX points[j].2 ≠ valueOutOfRange) :
    (part d.pvec i).getX points[j].2 = points[j].1 := by
  obtain ⟨left, right⟩ := part_whole d many rising.fromLeft i next
  have inside : (part d.pvec i).pLeft.y ≤ points[j].2 ∧ (points[j].2 : ℚ) ≤ (part d.pvec i).pRight.y :=
    not_not.mp fun outside => answers (Part.getX_outside outside)
  rw [left, right, Int.cast_le, Int.cast_le] at inside
  refine getX_ends d many rising next hj ?_
  by_contra neither
  rw [not_or] at neither
  rcases Nat.lt_or_gt_of_ne neither.1 with before | after
  · exact not_lt.mpr inside.1 (ordinate_lt rising hj (by omega) before)
  · exact not_lt.mpr inside.2 (ordinate_lt rising next hj (by omega))

/-- Beyond its end values a rising diagram has no part. -/
theorem getX_beyond (rising : Rising points) {cal : ℤ}
    (beyond : cal < (points[0]).2 ∨ (points[points.length - 1]).2 < cal) :
    ∀ it ∈ d.pvec, it.getX cal = valueOutOfRange := by
  intro it member
  obtain ⟨i, next, rfl⟩ := exists_place d many member
  obtain ⟨left, right⟩ := part_whole d many rising.fromLeft i next
  refine Part.getX_outside ?_
  rw [left, right, Int.cast_le, Int.cast_le]
  rintro ⟨above, below⟩
  have lower : (points[0]).2 ≤ points[i].2 := by
    rcases Nat.eq_zero_or_pos i with rfl | later
    · exact le_refl _
    · exact le_of_lt (ordinate_lt rising _ _ later)
  have upper : points[i + 1].2 ≤ (points[points.length - 1]).2 := by
    rcases Nat.eq_or_lt_of_le (by omega : i + 1 ≤ points.length - 1) with same | later
    · simp only [same, le_refl]
    · exact le_of_lt (ordinate_lt rising _ _ later)
  omega

/-- **A rising diagram is inverted.** -/
theorem inverse_of_rising (longs : ∀ p ∈ points, IsLong p.1 ∧ IsLong p.2) (rising : Rising points) :
    Inverse d.pvec points := by
  have fromLeft := rising.fromLeft
  obtain ⟨leftRaw_eq, leftVal_eq, rightRaw_eq, rightVal_eq⟩ := limits_whole d many fromLeft
  have endsRise := ordinate_lt rising (by omega) (by omega) (by omega : 0 < points.length - 1)
  have first_eq : points.head? = some points[0] := by rw [List.head?_eq_getElem?, List.getElem?_eq_getElem]
  have final_eq : points.getLast? = some points[points.length - 1] := by
    rw [List.getLast?_eq_getElem?, List.getElem?_eq_getElem]
  refine ⟨fun p member cropRaw range => ?_, ?_, ?_⟩
  · obtain ⟨j, hj, rfl⟩ := List.getElem_of_mem member
    refine ⟨points[j].2, getValue_point d many fromLeft longs hj cropRaw, ?_⟩
    refine (getRawValue_of_getX (q := points[j].1) ?_ ?_).trans (tRound_intCast _)
    · obtain ⟨i, next, place⟩ : ∃ i, i + 1 < points.length ∧ (j = i ∨ j = i + 1) := by
        rcases Nat.eq_zero_or_pos j with rfl | later
        · exact ⟨0, by omega, .inl rfl⟩
        · exact ⟨j - 1, by omega, .inr (by omega)⟩
      refine ⟨_, part_mem d many next, ?_⟩
      rw [getX_ends d many rising next hj place]
      exact intCast_ne_valueOutOfRange (longs _ (List.getElem_mem hj)).1
    · intro it member answers
      obtain ⟨i, next, rfl⟩ := exists_place d many member
      exact getX_point d many rising next hj answers
  · rw [first_eq, final_eq]
    rintro _ ⟨⟩ _ ⟨⟩ cal beyond
    have below : cal < (points[0]).2 := by unfold Beyond at beyond; omega
    rw [getRawValue_of_none (getX_beyond d many rising (.inl below)), leftVal_eq, leftRaw_eq]
    simp [below]
  · rw [first_eq, final_eq]
    rintro _ ⟨⟩ _ ⟨⟩ cal beyond
    have above : (points[points.length - 1]).2 < cal := by unfold Beyond at beyond; omega
    have notBelow : ¬ cal < (points[0]).2 := by omega
    rw [getRawValue_of_none (getX_beyond d many rising (.inr above)), leftVal_eq, rightVal_eq, rightRaw_eq]
    simp [above, notBelow]

/-- **No part of a falling diagram has a value**, so no point comes back. -/
theorem not_inverse_of_falling (falling : Falling points) : ¬ Inverse d.pvec points := by
  intro inverse
  have fromLeft : FromLeft points := falling.imp And.left
  have reserved : ∀ p ∈ points, p.1 = outOfRange := by
    intro p member
    obtain ⟨cal, -, back⟩ := inverse.comesBack p member false false
    rw [← back, getRawValue_of_none fun it member => ?_]
    · rfl
    · obtain ⟨i, next, rfl⟩ := exists_place d many member
      obtain ⟨left, right⟩ := part_whole d many fromLeft i next
      have falls := (List.pairwise_iff_getElem.mp falling i (i + 1) (by omega) next (Nat.lt_succ_self i)).2
      refine Part.getX_outside ?_
      rw [left, right, Int.cast_le, Int.cast_le]
      omega
  have apart := (abscissa_lt_iff fromLeft (by omega) (by omega)).mpr Nat.zero_lt_one
  rw [reserved _ (List.getElem_mem _), reserved _ (List.getElem_mem _)] at apart
  exact lt_irrefl _ apart

/-- **The inverse of a monotone diagram.** Of the diagrams of whole points from left to right that rise or fall
strictly, it is right for exactly the rising ones. -/
theorem getRawValue_inverse_iff (longs : ∀ p ∈ points, IsLong p.1 ∧ IsLong p.2)
    (monotone : Rising points ∨ Falling points) : Inverse d.pvec points ↔ Rising points := by
  refine ⟨fun inverse => ?_, inverse_of_rising d many longs⟩
  rcases monotone with rising | falling
  · exact rising
  · exact absurd inverse (not_inverse_of_falling d many falling)

end Main

/-- The rising part of the diagram of the documentation. -/
def rises : Characteristic (whole [(-50, -20), (0, 0), (50, 20), (100, 60)]) where
  pvec := segments (whole [(-50, -20), (0, 0), (50, 20), (100, 60)])
  perm := List.Perm.refl _
  sorted := by decide +kernel

theorem rises_inverse : Inverse rises.pvec [(-50, -20), (0, 0), (50, 20), (100, 60)] :=
  (getRawValue_inverse_iff rises (by decide) (by decide) (.inl (by decide))).mpr (by decide)

/-- A diagram that falls. -/
def falls : Characteristic (whole [(0, 10), (10, 0)]) where
  pvec := segments (whole [(0, 10), (10, 0)])
  perm := List.Perm.refl _
  sorted := by decide +kernel

/-- **A falling diagram is not inverted**: its first point becomes ten, which no part has. -/
theorem falls_not_inverse : Falling [(0, 10), (10, 0)] ∧ ¬ Inverse falls.pvec [(0, 10), (10, 0)] := by
  have falling : Falling [(0, 10), (10, 0)] := by
    unfold Falling
    decide
  exact ⟨falling, not_inverse_of_falling falls (by decide) falling⟩

end UniSet.CalibrationDiagram

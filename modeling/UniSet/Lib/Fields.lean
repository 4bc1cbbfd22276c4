/-
**Fields of a word: sets of bits that are written together.**

* `put` — a word with the bits of a mask replaced; `getLsbD_put` says what every bit of it is.
* `putAll` — a sequence of such writes to the fields of a family.
* **`putAll_field`** — where the fields are disjoint, a field has its last value.
* **`putAll_outside`** — the bits of no field are as they were.
-/

import Mathlib.Data.List.Induction

namespace UniSet.Lib

variable {w : Nat}

/-- The word with the bits of the mask replaced. -/
def put (mask val x : BitVec w) : BitVec w := (x &&& ~~~ mask) ||| (val &&& mask)

theorem getLsbD_put (mask val x : BitVec w) (i : Nat) :
    (put mask val x).getLsbD i = if mask.getLsbD i then val.getLsbD i else x.getLsbD i := by
  unfold put
  rw [BitVec.getLsbD_or, BitVec.getLsbD_and, BitVec.getLsbD_and, BitVec.getLsbD_not]
  by_cases inside : i < w
  · rw [decide_eq_true inside]
    cases mask.getLsbD i <;> simp
  · have beyond := Nat.le_of_not_lt inside
    rw [BitVec.getLsbD_of_ge mask i beyond, BitVec.getLsbD_of_ge x i beyond]
    simp

theorem getLsbD_of_disjoint {mask other : BitVec w} (disjoint : mask &&& other = 0) {i : Nat}
    (here : mask.getLsbD i = true) : other.getLsbD i = false := by
  have both := congrArg (BitVec.getLsbD · i) disjoint
  simpa [here] using both

theorem put_and_self (mask val x : BitVec w) : put mask val x &&& mask = val &&& mask := by
  apply BitVec.eq_of_getLsbD_eq
  intro i _
  rw [BitVec.getLsbD_and, BitVec.getLsbD_and, getLsbD_put]
  cases mask.getLsbD i <;> simp

theorem put_and_of_disjoint {mask other : BitVec w} (disjoint : mask &&& other = 0) (val x : BitVec w) :
    put mask val x &&& other = x &&& other := by
  apply BitVec.eq_of_getLsbD_eq
  intro i _
  rw [BitVec.getLsbD_and, BitVec.getLsbD_and, getLsbD_put]
  cases here : mask.getLsbD i with
  | false => rfl
  | true => rw [getLsbD_of_disjoint disjoint here, Bool.and_false, Bool.and_false]

theorem shift_and_shift (val mask : BitVec w) (k : Nat) :
    ((val <<< k) &&& mask) >>> k = val &&& (mask >>> k) := by
  apply BitVec.eq_of_getLsbD_eq
  intro i _
  simp only [BitVec.getLsbD_ushiftRight, BitVec.getLsbD_and, BitVec.getLsbD_shiftLeft]
  by_cases inside : k + i < w
  · have behind : ¬ k + i < k := Nat.not_lt.mpr (Nat.le_add_right k i)
    rw [decide_eq_true inside, decide_eq_false behind, Nat.add_sub_cancel_left, Bool.not_false, Bool.true_and,
      Bool.true_and]
  · rw [BitVec.getLsbD_of_ge mask (k + i) (Nat.le_of_not_lt inside), Bool.and_false, Bool.and_false]

section Family

variable {ι : Type*} (fields : ι → BitVec w)

/-- The word after the writes, taken in order. -/
def putAll (x : BitVec w) (writes : List (ι × BitVec w)) : BitVec w :=
  writes.foldl (fun x write => put (fields write.1) write.2 x) x

theorem putAll_concat (x : BitVec w) (writes : List (ι × BitVec w)) (last : ι × BitVec w) :
    putAll fields x (writes ++ [last]) = put (fields last.1) last.2 (putAll fields x writes) := by
  rw [putAll, List.foldl_append]
  rfl

variable {fields}

/-- **The bits of no field are as they were.** -/
theorem putAll_outside {mask : BitVec w} (outside : ∀ i, fields i &&& mask = 0) (x : BitVec w)
    (writes : List (ι × BitVec w)) : putAll fields x writes &&& mask = x &&& mask := by
  induction writes using List.reverseRecOn with
  | nil => rfl
  | append_singleton writes last ih => rw [putAll_concat, put_and_of_disjoint (outside last.1), ih]

/-- **A field has its last value**, if the others do not meet it. -/
theorem putAll_field [DecidableEq ι] {i : ι} (disjoint : ∀ j, j ≠ i → fields j &&& fields i = 0)
    (x : BitVec w) (writes : List (ι × BitVec w)) :
    putAll fields x writes &&& fields i =
      ((writes.filter fun write => write.1 = i).getLast?.map Prod.snd).getD x &&& fields i := by
  induction writes using List.reverseRecOn with
  | nil => rfl
  | append_singleton writes last ih =>
    rw [putAll_concat, List.filter_append]
    by_cases here : last.1 = i
    · subst here
      have own : [last].filter (fun write => write.1 = last.1) = [last] :=
        List.filter_eq_self.mpr fun write mem => by rw [List.mem_singleton.mp mem, decide_eq_true rfl]
      rw [put_and_self, own, List.getLast?_append]
      rfl
    · rw [put_and_of_disjoint (disjoint last.1 here), ih,
        List.filter_cons_of_neg (by rw [decide_eq_true_eq]; exact here), List.filter_nil, List.append_nil]

end Family

end UniSet.Lib

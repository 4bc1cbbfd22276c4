/-
**The remainder register of a reflected CRC.**

A register of `w` bits takes the data a bit at a time, low bits first. `crcShift` is one shift of the
register: the polynomial is added when a one falls out.

* `crcShifts_xor` — the shifts are linear in exclusive or.
* **`crcShifts_split`** — `k` shifts are those of the low `k` bits, and the other bits moved down: what
  makes a table of the low bits enough.
* `crcFeed` — the loop over the bits of one data word; `crcFeed_eq` says that feeding the data is
  shifting the register with the data added to it, `crcFeed_table` that it is one step of the table.
-/

import Mathlib.Data.Nat.Basic
import Mathlib.Data.Nat.Bitwise

namespace UniSet.Lib

variable {w : Nat}

/-! ### Shifts of the register -/

/-- One shift of the register. -/
def crcShift (poly c : BitVec w) : BitVec w := if c.getLsbD 0 then (c >>> 1) ^^^ poly else c >>> 1

/-- `n` shifts of the register. -/
def crcShifts (poly : BitVec w) : Nat → BitVec w → BitVec w
  | 0, c => c
  | n + 1, c => crcShifts poly n (crcShift poly c)

/-- Adding the polynomial to both sides of a sum leaves the sum as it was. -/
theorem xor_xor_cancel (a b p : BitVec w) : (a ^^^ p) ^^^ (b ^^^ p) = a ^^^ b := by
  ext i inside
  simp only [BitVec.getElem_xor]
  cases a[i] <;> cases b[i] <;> cases p[i] <;> rfl

theorem crcShift_xor (poly a b : BitVec w) :
    crcShift poly (a ^^^ b) = crcShift poly a ^^^ crcShift poly b := by
  unfold crcShift
  simp only [BitVec.getLsbD_xor, BitVec.ushiftRight_xor_distrib]
  cases a.getLsbD 0 <;> cases b.getLsbD 0
  · rfl
  · simp only [Bool.false_xor, if_true, Bool.false_eq_true, if_false]
    exact BitVec.xor_assoc _ _ _
  · simp only [Bool.true_xor, Bool.not_false, if_true, Bool.false_eq_true, if_false]
    ac_rfl
  · simp only [Bool.true_xor, Bool.not_true, if_true, Bool.false_eq_true, if_false]
    exact (xor_xor_cancel _ _ _).symm

/-- **The shifts are linear.** -/
theorem crcShifts_xor (poly : BitVec w) (n : Nat) (a b : BitVec w) :
    crcShifts poly n (a ^^^ b) = crcShifts poly n a ^^^ crcShifts poly n b := by
  induction n generalizing a b with
  | zero => rfl
  | succ n ih => rw [crcShifts, crcShift_xor, ih]; rfl

/-- A register whose low bits are clear only moves down. -/
theorem crcShifts_of_clear (poly : BitVec w) {k : Nat} {c : BitVec w}
    (clear : ∀ i < k, c.getLsbD i = false) : crcShifts poly k c = c >>> k := by
  induction k generalizing c with
  | zero => exact (BitVec.ushiftRight_zero c).symm
  | succ k ih =>
    have falls : crcShift poly c = c >>> 1 := by
      rw [crcShift, clear 0 (Nat.succ_pos k)]
      rfl
    have rest : ∀ i < k, (c >>> 1).getLsbD i = false := by
      intro i low
      rw [BitVec.getLsbD_ushiftRight]
      exact clear (1 + i) (by omega)
    rw [crcShifts, falls, ih rest, ← BitVec.shiftRight_add, Nat.add_comm]

/-- The low `k` bits. -/
def lowBits (k : Nat) (c : BitVec w) : BitVec w := BitVec.ofNat w (c.toNat % 2 ^ k)

theorem getLsbD_lowBits (k : Nat) (c : BitVec w) (i : Nat) :
    (lowBits k c).getLsbD i = (decide (i < k) && c.getLsbD i) := by
  rw [lowBits, BitVec.getLsbD_ofNat, Nat.testBit_mod_two_pow, BitVec.testBit_toNat]
  by_cases inside : i < w
  · simp [inside]
  · simp [BitVec.getLsbD_of_ge c i (Nat.le_of_not_lt inside)]

/-- Adding its low bits to a register clears them. -/
theorem clear_lowBits (k : Nat) (c : BitVec w) :
    ∀ i < k, (c ^^^ lowBits k c).getLsbD i = false := by
  intro i low
  simp [getLsbD_lowBits, low]

/-- The bits above the low ones are not touched. -/
theorem high_lowBits (k : Nat) (c : BitVec w) : (c ^^^ lowBits k c) >>> k = c >>> k := by
  apply BitVec.eq_of_getLsbD_eq
  intro i _
  have beyond : ¬ k + i < k := by omega
  simp [getLsbD_lowBits, beyond]

/-- **`k` shifts: those of the low `k` bits, and the other bits moved down.** -/
theorem crcShifts_split (poly : BitVec w) (k : Nat) (c : BitVec w) :
    crcShifts poly k c = crcShifts poly k (lowBits k c) ^^^ (c >>> k) := by
  have parts : c = lowBits k c ^^^ (c ^^^ lowBits k c) := by
    rw [BitVec.xor_comm c, ← BitVec.xor_assoc, BitVec.xor_self, BitVec.zero_xor]
  calc crcShifts poly k c
      = crcShifts poly k (lowBits k c ^^^ (c ^^^ lowBits k c)) := by rw [← parts]
    _ = crcShifts poly k (lowBits k c) ^^^ crcShifts poly k (c ^^^ lowBits k c) :=
        crcShifts_xor poly k _ _
    _ = crcShifts poly k (lowBits k c) ^^^ (c >>> k) := by
        rw [crcShifts_of_clear poly (clear_lowBits k c), high_lowBits]

/-! ### Feeding data -/

/-- The loop over the `n` low bits of a data word: the register and what is left of the data. -/
def crcFeed (poly : BitVec w) : Nat → BitVec w → BitVec w → BitVec w × BitVec w
  | 0, c, d => (c, d)
  | n + 1, c, d =>
    crcFeed poly n (if (c ^^^ d).getLsbD 0 then (c >>> 1) ^^^ poly else c >>> 1) (d >>> 1)

/-- The register after the loop and the data left add up to the shifted sum of the two. -/
theorem crcFeed_xor (poly : BitVec w) (n : Nat) (c d : BitVec w) :
    (crcFeed poly n c d).1 ^^^ (d >>> n) = crcShifts poly n (c ^^^ d) := by
  induction n generalizing c d with
  | zero => rw [BitVec.ushiftRight_zero]; rfl
  | succ n ih =>
    have step : (if (c ^^^ d).getLsbD 0 then (c >>> 1) ^^^ poly else c >>> 1) ^^^ (d >>> 1) =
        crcShift poly (c ^^^ d) := by
      unfold crcShift
      rw [BitVec.ushiftRight_xor_distrib]
      split
      · ac_rfl
      · rfl
    have left : d >>> (n + 1) = (d >>> 1) >>> n := by rw [← BitVec.shiftRight_add, Nat.add_comm]
    rw [left, crcFeed, ih, step]
    rfl

/-- **Feeding a data word of `n` bits is shifting the register with the data added to it.** -/
theorem crcFeed_eq (poly : BitVec w) {n : Nat} (c : BitVec w) {d : BitVec w}
    (short : d >>> n = 0#w) : (crcFeed poly n c d).1 = crcShifts poly n (c ^^^ d) := by
  rw [← crcFeed_xor, short, BitVec.xor_zero]

/-- **One step of the table**: the entry of the low bits of the sum, added to the register moved
down. -/
theorem crcFeed_table (poly : BitVec w) {n : Nat} (c : BitVec w) {d : BitVec w}
    (short : d >>> n = 0#w) :
    (crcFeed poly n c d).1 = (c >>> n) ^^^ crcShifts poly n (lowBits n (c ^^^ d)) := by
  rw [crcFeed_eq poly c short, crcShifts_split, BitVec.ushiftRight_xor_distrib, short,
    BitVec.xor_zero, BitVec.xor_comm]

/-- A register fed its own low bits only moves down. -/
theorem crcFeed_lowBits (poly : BitVec w) (n : Nat) (c : BitVec w) :
    (crcFeed poly n c (lowBits n c)).1 = c >>> n := by
  have short : lowBits n c >>> n = 0#w := by
    apply BitVec.eq_of_getLsbD_eq
    intro i _
    have beyond : ¬ n + i < n := by omega
    simp [getLsbD_lowBits, beyond]
  rw [crcFeed_eq poly c short, crcShifts_of_clear poly (clear_lowBits n c), high_lowBits]

end UniSet.Lib

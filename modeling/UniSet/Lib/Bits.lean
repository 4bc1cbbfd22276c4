/-
**Bits of words and of byte arrays.**

* `putBit` — a word with one bit replaced; `getLsbD_putBit` says what every bit of it is.
* `bitAt`, `writeBit` — the bits of an array of bytes, numbered through: bit `i` is bit `i % 8` of
  byte `i / 8`.
* **`bitAt_writeBit`** — a write changes its own bit and no other; `bitAt_set`: so does a byte.
* `bitOf` — the bits of a list of bytes; `bitOf_take` says that those of the array are among them.
* `byteBits` — the bits of one byte.
-/

import Mathlib.Data.List.GetD
import Mathlib.Data.Nat.Basic

namespace UniSet.Lib

/-! ### One word -/

/-- The word with bit `i` replaced. -/
def putBit {w : Nat} (x : BitVec w) (i : Nat) (s : Bool) : BitVec w :=
  if s then x ||| BitVec.twoPow w i else x &&& ~~~ BitVec.twoPow w i

theorem getLsbD_putBit {w : Nat} (x : BitVec w) {i j : Nat} (s : Bool) (inside : i < w) :
    (putBit x i s).getLsbD j = if j = i then s else x.getLsbD j := by
  unfold putBit
  by_cases here : j = i
  · subst here
    cases s <;> simp [inside]
  · rw [if_neg here]
    have other : ¬ i = j := fun same => here same.symm
    cases s with
    | true => simp [other]
    | false =>
      by_cases beyond : j < w
      · simp [here, beyond]
      · simp [BitVec.getLsbD_of_ge x j (Nat.le_of_not_lt beyond)]

/-! ### An array of bytes -/

variable {n : Nat}

/-- Bit `i` of the array; there are no bits behind its end. -/
def bitAt (bytes : Vector UInt8 n) (i : Nat) : Bool :=
  if inside : i / 8 < n then bytes[i / 8].toBitVec.getLsbD (i % 8) else false

/-- The byte with one of its bits replaced. -/
def putByteBit (b : UInt8) (i : Nat) (s : Bool) : UInt8 := UInt8.ofBitVec (putBit b.toBitVec i s)

/-- The array with bit `i` replaced. -/
def writeBit (bytes : Vector UInt8 n) (i : Nat) (s : Bool) : Vector UInt8 n :=
  if inside : i / 8 < n then bytes.set (i / 8) (putByteBit bytes[i / 8] (i % 8) s) else bytes

variable {bytes : Vector UInt8 n}

theorem bitAt_of_lt {i : Nat} (inside : i / 8 < n) :
    bitAt bytes i = bytes[i / 8].toBitVec.getLsbD (i % 8) := dif_pos inside

/-- **A write changes its own bit and no other.** -/
theorem bitAt_writeBit (bytes : Vector UInt8 n) {i : Nat} (s : Bool) (inside : i / 8 < n) (j : Nat) :
    bitAt (writeBit bytes i s) j = if j = i then s else bitAt bytes j := by
  rw [writeBit, dif_pos inside]
  by_cases within : j / 8 < n
  · rw [bitAt_of_lt within, bitAt_of_lt within]
    by_cases sameByte : i / 8 = j / 8
    · have place : (i % 8 = j % 8) ↔ (i = j) := by omega
      have byte : (bytes.set (i / 8) (putByteBit bytes[i / 8] (i % 8) s))[j / 8] =
          putByteBit bytes[j / 8] (i % 8) s := by
        simp only [Vector.getElem_set, sameByte, if_true]
      rw [byte, putByteBit, UInt8.toBitVec_ofBitVec,
        getLsbD_putBit _ _ (Nat.mod_lt i (by decide))]
      by_cases here : j = i
      · rw [if_pos here, if_pos (congrArg (· % 8) here)]
      · rw [if_neg here, if_neg fun same => here (place.mp same.symm).symm]
    · have other : j ≠ i := fun same => sameByte (congrArg (· / 8) same.symm)
      rw [if_neg other]
      have kept : (bytes.set (i / 8) (putByteBit bytes[i / 8] (i % 8) s))[j / 8] = bytes[j / 8] :=
        Vector.getElem_set_ne inside within sameByte
      rw [kept]
  · have other : j ≠ i := fun same => within (same ▸ inside)
    rw [if_neg other, bitAt, bitAt, dif_neg within, dif_neg within]

/-- A bit by its byte and its place in the byte. -/
theorem bitAt_byte {d k : Nat} (place : k < 8) (inside : d < n) :
    bitAt bytes (d * 8 + k) = bytes[d].toBitVec.getLsbD k := by
  have byte : (d * 8 + k) / 8 = d := by omega
  have bit : (d * 8 + k) % 8 = k := by omega
  have inside' : (d * 8 + k) / 8 < n := by rwa [byte]
  rw [bitAt_of_lt inside']
  simp only [byte, bit]

theorem writeBit_byte {d k : Nat} (s : Bool) (place : k < 8) (inside : d < n) :
    writeBit bytes (d * 8 + k) s = bytes.set d (putByteBit bytes[d] k s) := by
  have byte : (d * 8 + k) / 8 = d := by omega
  have bit : (d * 8 + k) % 8 = k := by omega
  have inside' : (d * 8 + k) / 8 < n := by rwa [byte]
  rw [writeBit, dif_pos inside']
  simp only [byte, bit]

theorem bitAt_set (bytes : Vector UInt8 n) {d : Nat} (b : UInt8) (inside : d < n) (i : Nat) :
    bitAt (bytes.set d b) i = if i / 8 = d then b.toBitVec.getLsbD (i % 8) else bitAt bytes i := by
  by_cases within : i / 8 < n
  · rw [bitAt_of_lt within, bitAt_of_lt within, Vector.getElem_set]
    by_cases here : i / 8 = d
    · rw [if_pos here, if_pos here.symm]
    · rw [if_neg here, if_neg (Ne.symm here)]
  · have other : i / 8 ≠ d := fun same => within (same ▸ inside)
    rw [if_neg other, bitAt, bitAt, dif_neg within, dif_neg within]

/-! ### Lists of bytes, and lists of bits -/

/-- Bit `i` of the bytes; there are no bits behind their end. -/
def bitOf (bytes : List UInt8) (i : Nat) : Bool := (bytes.getD (i / 8) 0).toBitVec.getLsbD (i % 8)

/-- The first bytes of an array have its bits. -/
theorem bitOf_take (bytes : Vector UInt8 n) {k : Nat} (inside : k ≤ n) (more : List UInt8) {i : Nat}
    (before : i < 8 * k) : bitOf (bytes.toList.take k ++ more) i = bitAt bytes i := by
  have place : i / 8 < k := by omega
  have length : i / 8 < (bytes.toList.take k).length := by
    rw [List.length_take, Vector.length_toList]
    omega
  rw [bitAt_of_lt (Nat.lt_of_lt_of_le place inside), bitOf, List.getD_eq_getElem?_getD,
    List.getElem?_append_left length, List.getElem?_eq_getElem length, Option.getD_some,
    List.getElem_take, Vector.getElem_toList]

/-- The bits of a byte, the lowest one first. -/
def byteBits (b : UInt8) : List Bool := (List.range 8).map b.toBitVec.getLsbD

@[simp] theorem byteBits_length (b : UInt8) : (byteBits b).length = 8 := by
  rw [byteBits, List.length_map, List.length_range]

theorem byteBits_getD (b : UInt8) (i : Nat) : (byteBits b).getD i false = b.toBitVec.getLsbD i := by
  by_cases inside : i < 8
  · rw [List.getD_eq_getElem?_getD, List.getElem?_eq_getElem (by rw [byteBits_length]; exact inside),
      Option.getD_some]
    simp only [byteBits, List.getElem_map, List.getElem_range]
  · rw [List.getD_eq_getElem?_getD,
      List.getElem?_eq_none (by rw [byteBits_length]; exact Nat.not_lt.mp inside),
      BitVec.getLsbD_of_ge _ _ (Nat.not_lt.mp inside)]
    rfl

theorem eq_zero_of_bits {b : UInt8} (none : ∀ i < 8, b.toBitVec.getLsbD i = false) : b = 0 := by
  refine UInt8.toBitVec_inj.mp (BitVec.eq_of_getLsbD_eq fun i inside => ?_)
  rw [none i inside]
  exact (BitVec.getLsbD_zero).symm

theorem getD_append (bits more : List Bool) (i : Nat) :
    (bits ++ more).getD i false =
      if i < bits.length then bits.getD i false else more.getD (i - bits.length) false := by
  by_cases inside : i < bits.length
  · rw [if_pos inside, List.getD_append _ _ _ _ inside]
  · rw [if_neg inside, List.getD_append_right _ _ _ _ (Nat.not_lt.mp inside)]

end UniSet.Lib

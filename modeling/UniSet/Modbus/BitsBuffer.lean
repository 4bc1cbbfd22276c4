/-
**`BitsBuffer`: the coils of a reply to 0x01 and 0x02.**

A bit is addressed by a number of 16 bits, and its byte by a number of 8: from bit 2048 on the number
of the byte starts again from zero, before it is compared with the size of the buffer.

* `BitsBuffer` — the bytes and how many of them are used. Every operation returns such a buffer, so
  every reachable buffer is one.
* `setByBitNum`, `getByBitNum` — the access to a bit by its number.
* `BitArray` — what they are to do.
* **`bitArray_iff`** — they do it for all bits but those whose byte is taken for a lower one.
* `reply_keeps_bits` — a reply brings the bits of the buffer to the other side.
-/

import UniSet.Lib.Bits
import UniSet.Modbus.Types

namespace UniSet.Modbus

/-- **`BitsBuffer`.** -/
structure BitsBuffer where
  bcnt : Byte
  data : Vector Byte maxPduLen
  small : bcnt.toNat ≤ maxPduLen

namespace BitsBuffer

/-- `BitsBuffer()` and `clear`. -/
def clear : BitsBuffer := ⟨0, Vector.replicate maxPduLen 0, by decide⟩

variable (b : BitsBuffer)

def isFull : Bool := decide (maxPduLen ≤ b.bcnt.toNat)

theorem next_bcnt {c : Byte} (room : c.toNat < maxPduLen) : (c + 1).toNat = c.toNat + 1 := by
  unfold maxPduLen at room
  rw [UInt8.toNat_add, UInt8.toNat_one]
  omega

/-- **`addData`.** -/
def addData (d : Byte) : Bool × BitsBuffer :=
  if room : b.bcnt.toNat < maxPduLen then
    (true, ⟨b.bcnt + 1, b.data.set b.bcnt.toNat d, by rw [next_bcnt room]; exact room⟩)
  else (false, b)

/-- `DataBits d(data[dnum]); d.b[bnum] = state; data[dnum] = d;` -/
def put (dnum bnum : Nat) (inside : dnum < maxPduLen) (state : Bool) : Vector Byte maxPduLen :=
  b.data.set dnum (Lib.putByteBit b.data[dnum] bnum state)

/-- `setBit`. -/
def setBit (dnum bnum : Byte) (state : Bool) : Bool × BitsBuffer :=
  if inside : dnum.toNat < b.bcnt.toNat ∧ bnum.toNat < bitsPerByte then
    (true, { b with data := b.put dnum.toNat bnum.toNat (Nat.lt_of_lt_of_le inside.1 b.small) state })
  else (false, b)

/-- The number of a byte, a `uint8_t`. -/
def byteNum (num : UInt16) : Byte := UInt8.ofNat (num.toNat / bitsPerByte)

/-- **`setByBitNum`.** -/
def setByBitNum (num : UInt16) (state : Bool) : Bool × BitsBuffer :=
  if inside : (byteNum num).toNat < maxPduLen then
    (true,
      { bcnt := if b.bcnt.toNat ≤ (byteNum num).toNat then byteNum num + 1 else b.bcnt
        data := b.put (byteNum num).toNat (num.toNat % bitsPerByte) inside state
        small := by
          split
          · rw [next_bcnt inside]
            exact inside
          · exact b.small })
  else (false, b)

/-- `getData`. -/
def getData (dnum : Byte) : Option Byte :=
  if inside : dnum.toNat < b.bcnt.toNat then
    some (b.data.get ⟨dnum.toNat, Nat.lt_of_lt_of_le inside b.small⟩)
  else none

/-- `getBit`. -/
def getBit (dnum bnum : Byte) : Option Bool :=
  if bnum.toNat < bitsPerByte then
    (b.getData dnum).map fun d => d.toBitVec.getLsbD bnum.toNat
  else none

/-- **`getByBitNum`.** -/
def getByBitNum (num : UInt16) : Option Bool :=
  b.getBit (byteNum num) (UInt8.ofNat (num.toNat % bitsPerByte))

/-- Bit `i` of the array behind the buffer. -/
def bit (i : Nat) : Bool := Lib.bitAt b.data i

/-- **The buffer is an array of bits** for the bit `num`. -/
structure BitArray (num : UInt16) (state : Bool) : Prop where
  accepts : (b.setByBitNum num state).1 = true ↔ num.toNat < bitsPerByte * maxPduLen
  /-- An accepted bit is written, and no other. -/
  written : (b.setByBitNum num state).1 = true →
    (b.setByBitNum num state).2.getByBitNum num = some state ∧
      ∀ i ≠ num.toNat, (b.setByBitNum num state).2.bit i = b.bit i
  refused : (b.setByBitNum num state).1 = false → (b.setByBitNum num state).2 = b
  reads : b.getByBitNum num = none ↔ bitsPerByte * b.bcnt.toNat ≤ num.toNat

/-! ### One access -/

variable {b}

/-- The bit that a number of 16 bits addresses. -/
def bitNum (num : UInt16) : Nat := (byteNum num).toNat * 8 + num.toNat % 8

variable {num : UInt16}

theorem put_eq (inside : (byteNum num).toNat < maxPduLen) (state : Bool) :
    b.put (byteNum num).toNat (num.toNat % bitsPerByte) inside state =
      Lib.writeBit b.data (bitNum num) state :=
  (Lib.writeBit_byte state (Nat.mod_lt num.toNat (by decide)) inside).symm

/-- The number of the byte is the one of the bit, unless it is too large for it. -/
theorem byteNum_toNat (num : UInt16) : (byteNum num).toNat = num.toNat / 8 % 256 := by
  rw [byteNum, UInt8.toNat_ofNat']
  rfl

theorem getByBitNum_eq (num : UInt16) :
    b.getByBitNum num =
      if (byteNum num).toNat < b.bcnt.toNat then some (b.bit (bitNum num)) else none := by
  have place : num.toNat % 8 < 8 := Nat.mod_lt num.toNat (by decide)
  have small : (UInt8.ofNat (num.toNat % bitsPerByte)).toNat = num.toNat % 8 := by
    rw [UInt8.toNat_ofNat']
    exact Nat.mod_eq_of_lt (Nat.lt_trans place (by decide))
  rw [getByBitNum, getBit, small]
  refine (if_pos place).trans ?_
  rw [getData]
  split
  · rename_i used
    have inside := Nat.lt_of_lt_of_le used b.small
    rw [bit, bitNum, Lib.bitAt_byte place inside]
    rfl
  · rfl

theorem setByBitNum_inside (inside : (byteNum num).toNat < maxPduLen) (state : Bool) :
    (b.setByBitNum num state).1 = true := by
  rw [setByBitNum, dif_pos inside]

theorem setByBitNum_outside (outside : ¬ (byteNum num).toNat < maxPduLen) (state : Bool) :
    b.setByBitNum num state = (false, b) := by
  rw [setByBitNum, dif_neg outside]

/-- An accepted write changes the addressed bit and no other, and the byte is used. -/
theorem setByBitNum_bit (inside : (byteNum num).toNat < maxPduLen) (state : Bool) :
    (∀ i, (b.setByBitNum num state).2.bit i = if i = bitNum num then state else b.bit i) ∧
      (byteNum num).toNat < (b.setByBitNum num state).2.bcnt.toNat := by
  rw [setByBitNum, dif_pos inside]
  constructor
  · intro i
    have within : bitNum num / 8 < maxPduLen := by
      have byte : bitNum num / 8 = (byteNum num).toNat := by
        unfold bitNum
        omega
      rwa [byte]
    rw [bit, put_eq inside, Lib.bitAt_writeBit _ _ within]
    rfl
  · show (byteNum num).toNat <
      (if b.bcnt.toNat ≤ (byteNum num).toNat then byteNum num + 1 else b.bcnt).toNat
    split
    · rw [next_bcnt inside]
      exact Nat.lt_succ_self _
    · rename_i used
      exact Nat.lt_of_not_le used

/-- **The bits of the array are written and read by their number**, unless that of their byte is
taken for a lower one. -/
theorem bitArray_iff (b : BitsBuffer) (num : UInt16) (state : Bool) :
    b.BitArray num state ↔
      num.toNat < bitsPerByte * maxPduLen ∨ maxPduLen ≤ num.toNat / bitsPerByte % 256 := by
  have byte := byteNum_toNat num
  have small := b.small
  unfold bitsPerByte maxPduLen at *
  constructor
  · intro array
    by_contra aliased
    have inside : (byteNum num).toNat < maxPduLen := by
      rw [maxPduLen]
      omega
    have accepted : (b.setByBitNum num state).1 = true := by
      rw [setByBitNum, dif_pos inside]
    have low := array.accepts.mp accepted
    rw [bitsPerByte, maxPduLen] at low
    omega
  · intro addressed
    have same : (byteNum num).toNat < 253 → bitNum num = num.toNat := by
      unfold bitNum
      omega
    refine ⟨⟨fun accepted => ?_, fun low => ?_⟩, fun accepted => ?_, fun refused => ?_, ?_⟩
    · by_contra high
      have outside : ¬ (byteNum num).toNat < maxPduLen := by
        unfold bitsPerByte maxPduLen at *
        omega
      rw [setByBitNum_outside outside] at accepted
      cases accepted
    · refine setByBitNum_inside ?_ state
      unfold bitsPerByte maxPduLen at *
      omega
    · have inside : (byteNum num).toNat < maxPduLen := by
        by_contra outside
        rw [setByBitNum_outside outside] at accepted
        cases accepted
      obtain ⟨bits, used⟩ := b.setByBitNum_bit inside state
      refine ⟨?_, fun i other => ?_⟩
      · rw [getByBitNum_eq, if_pos used, bits, if_pos rfl]
      · rw [bits, same inside, if_neg other]
    · by_cases inside : (byteNum num).toNat < maxPduLen
      · rw [setByBitNum_inside inside] at refused
        cases refused
      · rw [setByBitNum_outside inside]
    · rw [getByBitNum_eq]
      unfold bitsPerByte
      split
      · refine iff_of_false (Option.some_ne_none _) ?_
        omega
      · refine iff_of_true rfl ?_
        omega

/-- **Bit 2048 is taken for bit 0.** -/
theorem bit_2048_aliases : ¬ clear.BitArray 2048 true ∧
    (clear.setByBitNum 2048 true).2.bit 0 = true ∧ clear.bit 0 = false := by
  have inside : (byteNum 2048).toNat < maxPduLen := by decide
  refine ⟨fun array => ?_, ?_, by decide +kernel⟩
  · exact absurd (array.accepts.mp (setByBitNum_inside inside true)) (by decide)
  · rw [(setByBitNum_bit inside true).1 0]
    rfl

/-! ### The replies to 0x01 and 0x02 -/

/-- `transport_msg_to` of `ReadCoilRetMessage` and `ReadInputStatusRetMessage`. -/
def transportMsg (addr func : Byte) (b : BitsBuffer) : Message :=
  .withCRC addr func (b.bcnt :: b.data.toList.take b.bcnt.toNat)

/-- **`init` of `ReadCoilRetMessage` and `ReadInputStatusRetMessage`**: too many bytes throw. -/
def ofMessage (m : Message) : Except MbErrCode BitsBuffer :=
  if small : (m.byteAt 0).toNat ≤ maxPduLen then
    .ok ⟨m.byteAt 0,
      Vector.ofFn fun i => if i.val < (m.byteAt 0).toNat then m.byteAt (i.val + 1) else 0, small⟩
  else .error .erPacketTooLong

/-- **A reply brings the bits of the buffer to the other side.** -/
theorem reply_keeps_bits (addr func : Byte) (b : BitsBuffer) :
    ∃ received, ofMessage (transportMsg addr func b) = .ok received ∧
      ∀ num, received.getByBitNum num = b.getByBitNum num := by
  have count : (transportMsg addr func b).byteAt 0 = b.bcnt := rfl
  have small : ((transportMsg addr func b).byteAt 0).toNat ≤ maxPduLen := by
    rw [count]
    exact b.small
  refine ⟨_, dif_pos small, fun num => ?_⟩
  rw [getByBitNum_eq, getByBitNum_eq]
  simp only [count]
  split
  · rename_i used
    have inside := Nat.lt_of_lt_of_le used b.small
    have place : num.toNat % 8 < 8 := Nat.mod_lt num.toNat (by decide)
    have byte : (transportMsg addr func b).byteAt ((byteNum num).toNat + 1) =
        b.data[(byteNum num).toNat] := by
      have length : (byteNum num).toNat < (b.data.toList.take b.bcnt.toNat).length := by
        rw [List.length_take, Vector.length_toList]
        omega
      simp only [transportMsg, Message.withCRC, Message.byteAt, List.cons_append,
        List.getElem?_cons_succ, List.getD_eq_getElem?_getD, List.getElem?_append_left length,
        List.getElem?_eq_getElem length, Option.getD_some, List.getElem_take,
        Vector.getElem_toList]
    rw [bit, bit, bitNum, Lib.bitAt_byte place inside, Lib.bitAt_byte place inside,
      Vector.getElem_ofFn]
    simp only [if_pos used, byte]
  · rfl

end BitsBuffer

end UniSet.Modbus

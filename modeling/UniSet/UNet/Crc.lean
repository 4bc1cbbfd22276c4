/-
**The table-driven CRC-16 is the bitwise one.**

`get_crc_16` stands twice in the sources, in `ModbusTypes.cc` and in `UDPPacket.cc`, each with its own
table of 256 words and with a loop over the bits of a byte in the branch that is not compiled.

* `crc16Tab_toNat` — the two tables are one.
* `crc16Tab_shifts` — an entry is its index shifted eight times.
* `getCrc16_step` — one byte of the table is one byte of the loop.
* **`getCrc16_bitwise`** — so it is for every string and every initial value, in both copies; and a
  string followed by its check sum, low byte first, has the check sum `0`.
-/

import UniSet.Lib.Crc
import UniSet.Modbus.Types
import UniSet.UNet.Packet

namespace UniSet.UNet

open UniSet.Lib (crcShift crcShifts crcFeed crcFeed_table crcFeed_lowBits lowBits getLsbD_lowBits)

/-! ### The loop over the bits -/

/-- `for( i = 0; i < n; i++ )` of the branch without the table: the register and the byte. -/
def crc16Bits : Nat → UInt16 → UInt16 → UInt16
  | 0, crc, _ => crc
  | n + 1, crc, ch =>
    crc16Bits n (if (crc ^^^ ch) &&& 1 ≠ 0 then (crc >>> 1) ^^^ 0xa001 else crc >>> 1) (ch >>> 1)

/-- **`get_crc_16`**, without the table. -/
def getCrc16Bitwise (crc : UInt16) (buf : List UInt8) : UInt16 :=
  buf.foldl (fun crc byte => crc16Bits 8 crc byte.toUInt16) crc

/-- The polynomial of the loop. -/
def crc16Poly : BitVec 16 := 0xa001

theorem low_bit (x : UInt16) : (x &&& 1 ≠ 0) ↔ x.toBitVec.getLsbD 0 = true := by
  have bits : (x &&& 1).toBitVec = BitVec.setWidth 16 (BitVec.ofBool (x.toBitVec.getLsbD 0)) := by
    rw [UInt16.toBitVec_and]
    exact BitVec.and_one_eq_setWidth_ofBool_getLsbD
  cases low : x.toBitVec.getLsbD 0 with
  | false =>
    have zero : x &&& 1 = 0 := UInt16.toBitVec_inj.mp (by rw [bits, low]; decide)
    simp [zero]
  | true =>
    have one : x &&& 1 = 1 := UInt16.toBitVec_inj.mp (by rw [bits, low]; decide)
    simp [one]

/-- The loop feeds the register of the polynomial. -/
theorem crc16Bits_eq (n : Nat) (crc ch : UInt16) :
    (crc16Bits n crc ch).toBitVec = (crcFeed crc16Poly n crc.toBitVec ch.toBitVec).1 := by
  induction n generalizing crc ch with
  | zero => rfl
  | succ n ih =>
    have bit : ((crc ^^^ ch) &&& 1 ≠ 0) ↔ (crc.toBitVec ^^^ ch.toBitVec).getLsbD 0 = true := by
      rw [low_bit, UInt16.toBitVec_xor]
    rw [crc16Bits, ih, crcFeed]
    by_cases odd : (crc.toBitVec ^^^ ch.toBitVec).getLsbD 0 = true
    · rw [if_pos (bit.mpr odd), if_pos odd]
      rfl
    · rw [if_neg fun h => odd (bit.mp h), if_neg odd]
      rfl

/-! ### The table -/

/-- **An entry of the table is its index, shifted eight times.** -/
theorem crc16Tab_shifts : ∀ i < 256,
    (crc16Tab.getD i 0).toBitVec = crcShifts crc16Poly 8 (BitVec.ofNat 16 i) := by
  decide +kernel

/-- The table of `ModbusTypes.cc` is that of `UDPPacket.cc`. -/
theorem crc16Tab_toNat : Modbus.crc16Tab = crc16Tab.map UInt16.toNat := by decide +kernel

theorem byte_short (byte : UInt8) : byte.toUInt16.toBitVec >>> 8 = 0#16 := by
  apply BitVec.eq_of_toNat_eq
  have small : byte.toNat < 256 := byte.toNat_lt
  simp [Nat.shiftRight_eq_div_pow, Nat.div_eq_of_lt small]

/-- **One byte of the table is one byte of the loop.** -/
theorem getCrc16_step (crc : UInt16) (byte : UInt8) :
    (crc >>> 8) ^^^ crc16Tab.getD ((crc ^^^ byte.toUInt16) &&& 0xff).toNat 0 =
      crc16Bits 8 crc byte.toUInt16 := by
  apply UInt16.toBitVec_inj.mp
  have index : ((crc ^^^ byte.toUInt16) &&& 0xff).toNat =
      (crc.toBitVec ^^^ byte.toUInt16.toBitVec).toNat % 2 ^ 8 := by
    rw [UInt16.toNat_and]
    exact Nat.and_two_pow_sub_one_eq_mod _ 8
  have small : ((crc ^^^ byte.toUInt16) &&& 0xff).toNat < 256 := by
    rw [index]
    exact Nat.mod_lt _ (by decide)
  have entry : (crc16Tab.getD ((crc ^^^ byte.toUInt16) &&& 0xff).toNat 0).toBitVec =
      crcShifts crc16Poly 8 (lowBits 8 (crc.toBitVec ^^^ byte.toUInt16.toBitVec)) := by
    rw [crc16Tab_shifts _ small, index]
    rfl
  rw [crc16Bits_eq, crcFeed_table crc16Poly crc.toBitVec (byte_short byte), UInt16.toBitVec_xor,
    entry]
  rfl

theorem getCrc16_eq (crc : UInt16) (buf : List UInt8) :
    getCrc16 crc buf = getCrc16Bitwise crc buf := by
  unfold getCrc16 getCrc16Bitwise
  congr 1
  funext crc byte
  exact getCrc16_step crc byte

/-! ### The other copy -/

/-- **The copy of `ModbusTypes.cc` computes the same register.** -/
theorem modbus_getCrc16 (crc : UInt16) (buf : List UInt8) :
    Modbus.getCrc16 crc.toNat buf = (getCrc16 crc buf).toNat := by
  induction buf generalizing crc with
  | nil => rfl
  | cons byte rest ih =>
    have index : (crc.toNat ^^^ byte.toNat) &&& 0xff =
        ((crc ^^^ byte.toUInt16) &&& 0xff).toNat := by
      simp
    have step : (crc.toNat >>> 8) ^^^ Modbus.crc16Tab.getD ((crc.toNat ^^^ byte.toNat) &&& 0xff) 0 =
        ((crc >>> 8) ^^^ crc16Tab.getD ((crc ^^^ byte.toUInt16) &&& 0xff).toNat 0).toNat := by
      rw [index, crc16Tab_toNat, UInt16.toNat_xor]
      congr 1
      exact List.getD_map _ (0 : UInt16) UInt16.toNat
    rw [Modbus.getCrc16, step, ih]
    rfl

/-! ### A string and its check sum -/

theorem getCrc16_append (crc : UInt16) (buf more : List UInt8) :
    getCrc16 crc (buf ++ more) = getCrc16 (getCrc16 crc buf) more := List.foldl_append

/-- A register fed its own low byte moves down by a byte. -/
theorem crc16Bits_low (crc : UInt16) : crc16Bits 8 crc crc.toUInt8.toUInt16 = crc >>> 8 := by
  apply UInt16.toBitVec_inj.mp
  have byte : crc.toUInt8.toUInt16.toBitVec = lowBits 8 crc.toBitVec := by
    apply BitVec.eq_of_toNat_eq
    have small : crc.toNat % 256 < 65536 := by omega
    simp [lowBits, Nat.mod_eq_of_lt small]
  rw [crc16Bits_eq, byte, crcFeed_lowBits]
  rfl

/-- **The two bytes of the register clear it.** -/
theorem getCrc16_self (crc : UInt16) :
    getCrc16 crc [crc.toUInt8, (crc >>> 8).toUInt8] = 0 := by
  have twice : (crc >>> 8) >>> 8 = (0 : UInt16) := by
    apply UInt16.toNat_inj.mp
    have small : crc.toNat < 65536 := crc.toNat_lt
    simp [Nat.shiftRight_eq_div_pow]
    omega
  rw [getCrc16_eq, getCrc16Bitwise, List.foldl_cons, crc16Bits_low, List.foldl_cons, crc16Bits_low,
    twice]
  rfl

/-- The two bytes of the serial line are those of the register. -/
theorem crcBytes_toNat (crc : UInt16) :
    Modbus.crcBytes crc.toNat = [crc.toUInt8, (crc >>> 8).toUInt8] := by
  have high : UInt8.ofNat (crc.toNat / 256) = (crc >>> 8).toUInt8 := by
    apply UInt8.toNat_inj.mp
    simp [Nat.shiftRight_eq_div_pow]
  rw [Modbus.crcBytes, high]
  rfl

/-- **Both copies of `get_crc_16` are the loop over the bits**, for every string and every initial
value, and a string followed by its check sum, low byte first, has the check sum `0`. -/
theorem getCrc16_bitwise (crc : UInt16) (buf : List UInt8) :
    Modbus.getCrc16 crc.toNat buf = (getCrc16Bitwise crc buf).toNat ∧
      getCrc16 crc buf = getCrc16Bitwise crc buf ∧
      Modbus.getCrc16 crc.toNat (buf ++ Modbus.crcBytes (Modbus.getCrc16 crc.toNat buf)) = 0 ∧
      getCrc16 crc (buf ++ [(getCrc16 crc buf).toUInt8, (getCrc16 crc buf >>> 8).toUInt8]) = 0 ∧
      Modbus.checkCRC (buf ++ Modbus.crcBytes (Modbus.checkCRC buf)) = 0 ∧
      makeCRC (buf ++ [(makeCRC buf).toUInt8, (makeCRC buf >>> 8).toUInt8]) = 0 := by
  have modbusZero : ∀ init : UInt16,
      Modbus.getCrc16 init.toNat (buf ++ Modbus.crcBytes (Modbus.getCrc16 init.toNat buf)) = 0 := by
    intro init
    rw [modbus_getCrc16 init buf, crcBytes_toNat, modbus_getCrc16, getCrc16_append, getCrc16_self]
    rfl
  have unetZero : ∀ init : UInt16,
      getCrc16 init (buf ++ [(getCrc16 init buf).toUInt8, (getCrc16 init buf >>> 8).toUInt8]) = 0 := by
    intro init
    rw [getCrc16_append, getCrc16_self]
  refine ⟨?_, getCrc16_eq crc buf, modbusZero crc, unetZero crc, modbusZero 0xffff, unetZero 0xffff⟩
  rw [modbus_getCrc16, getCrc16_eq]

end UniSet.UNet

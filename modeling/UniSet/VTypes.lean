/-
**Values of several words: the classes of `VTypes`.**

* `Byte`, `I2`, `I2r`, `U2`, `U2r` — a value made of data words, and the words of a value. The low word
  of memory is the first one; the types with an `r` take and give the words in the other order.
* `I2.words_toLong` and its like — the words of a value made of words are these words.
-/

import UniSet.ModbusMaster.Config

namespace UniSet

/-- `ModbusRTU::ModbusData`. -/
abbrev ModbusData := BitVec 16

namespace VTypes

/-- `raw.v` of a memory cell of two words. -/
def rawV (val : BitVec 32) (k : Nat) : ModbusData := val.extractLsb' (16 * k) 16

/-- The cell whose `raw.v` are these words. -/
def ofRawV (v : Nat → ModbusData) : BitVec 32 := v 1 ++ v 0

/-- The words in the other order, `std::swap(raw.v[0], raw.v[1])`. -/
def swap (v : Nat → ModbusData) (k : Nat) : ModbusData := if k = 0 then v 1 else v 0

theorem getLsbD_ofRawV (v : Nat → ModbusData) (i : Nat) :
    (ofRawV v).getLsbD i = if i < 16 then (v 0).getLsbD i else (v 1).getLsbD (i - 16) :=
  BitVec.getLsbD_append

variable {v v' data : Nat → ModbusData}

theorem rawV_ofRawV {k : Nat} (hk : k < 2) : rawV (ofRawV v) k = v k := by
  have hcases : k = 0 ∨ k = 1 := by omega
  apply BitVec.eq_of_getLsbD_eq
  intro i hi
  rcases hcases with rfl | rfl
  · simp [rawV, getLsbD_ofRawV, hi]
  · simp [rawV, getLsbD_ofRawV, hi]

theorem ofRawV_congr (h : ∀ k < 2, v k = v' k) : ofRawV v = ofRawV v' := by
  rw [ofRawV, ofRawV, h 0 (by decide), h 1 (by decide)]

theorem swap_congr (h : ∀ k < 2, v k = v' k) (k : Nat) : swap v k = swap v' k := by
  rw [swap, swap, h 0 (by decide), h 1 (by decide)]

/-! ### The classes -/

namespace Byte

/-- `raw.b[nbyte - 1]`. -/
def b (dat : ModbusData) (nbyte : Nat) : BitVec 8 := dat.extractLsb' (8 * (nbyte - 1)) 8

end Byte

namespace I2

def toLong (data : Nat → ModbusData) : Int := (ofRawV data).toInt

def rawV (v : Int) (k : Nat) : ModbusData := VTypes.rawV (.ofInt 32 v) k

end I2

namespace I2r

def toLong (data : Nat → ModbusData) : Int := (ofRawV (swap data)).toInt

def rawBackorder (v : Int) (k : Nat) : ModbusData := swap (VTypes.rawV (.ofInt 32 v)) k

end I2r

namespace U2

def toLong (data : Nat → ModbusData) : Int := (ofRawV data).toNat

def rawV (v : Int) (k : Nat) : ModbusData := VTypes.rawV (.ofInt 32 v) k

end U2

namespace U2r

def toLong (data : Nat → ModbusData) : Int := (ofRawV (swap data)).toNat

def rawBackorder (v : Int) (k : Nat) : ModbusData := swap (VTypes.rawV (.ofInt 32 v)) k

end U2r

/-! ### There and back -/

theorem I2.toLong_congr (h : ∀ k < 2, v k = v' k) :
    I2.toLong v = I2.toLong v' := congrArg BitVec.toInt (ofRawV_congr h)

theorem I2r.toLong_congr (h : ∀ k < 2, v k = v' k) : I2r.toLong v = I2r.toLong v' :=
  congrArg BitVec.toInt (ofRawV_congr fun k _ => swap_congr h k)

theorem U2.toLong_congr (h : ∀ k < 2, v k = v' k) : U2.toLong v = U2.toLong v' :=
  congrArg (fun val : BitVec 32 => (val.toNat : Int)) (ofRawV_congr h)

theorem U2r.toLong_congr (h : ∀ k < 2, v k = v' k) : U2r.toLong v = U2r.toLong v' :=
  congrArg (fun val : BitVec 32 => (val.toNat : Int)) (ofRawV_congr fun k _ => swap_congr h k)

theorem ofInt_toNat {w : Nat} (x : BitVec w) : BitVec.ofInt w (x.toNat : Int) = x := by
  rw [BitVec.ofInt_natCast, BitVec.ofNat_toNat, BitVec.setWidth_eq]

theorem I2.words_toLong {k : Nat} (hk : k < 2) : I2.rawV (I2.toLong data) k = data k := by
  rw [I2.rawV, I2.toLong, BitVec.ofInt_toInt, rawV_ofRawV hk]

theorem I2r.words_toLong {k : Nat} (hk : k < 2) :
    I2r.rawBackorder (I2r.toLong data) k = data k := by
  have hcases : k = 0 ∨ k = 1 := by omega
  rw [I2r.rawBackorder, I2r.toLong, BitVec.ofInt_toInt]
  rcases hcases with rfl | rfl
  · exact rawV_ofRawV (k := 1) (by decide)
  · exact rawV_ofRawV (k := 0) (by decide)

theorem U2.words_toLong {k : Nat} (hk : k < 2) : U2.rawV (U2.toLong data) k = data k := by
  rw [U2.rawV, U2.toLong, ofInt_toNat, rawV_ofRawV hk]

theorem U2r.words_toLong {k : Nat} (hk : k < 2) :
    U2r.rawBackorder (U2r.toLong data) k = data k := by
  have hcases : k = 0 ∨ k = 1 := by omega
  rw [U2r.rawBackorder, U2r.toLong, ofInt_toNat]
  rcases hcases with rfl | rfl
  · exact rawV_ofRawV (k := 1) (by decide)
  · exact rawV_ofRawV (k := 0) (by decide)

end VTypes

end UniSet

/-
**A device in safe mode: the safe value of a sensor.**

* `getBits_forceSetBits` — a field that is written reads as what was written, if it can hold it.
* `getBits_self_iff` — which words the mask of a field leaves as they are.
* `Fits` — the field can hold the safe value; `SafeRead` — the read path leaves the safe value as it is.
* `SafeShown` — a sensor of a read function is given the safe value, the field of a sensor of a write
  function reads as the safe value.
* **`safeShown_iff`** — which updates in safe mode do that.
-/

import UniSet.ModbusMaster.SharedRegister

namespace UniSet.ModbusMaster.Update

open VTypes
open UniSet.Lib (putBit getLsbD_putBit getLsbD_put put_and_self shift_and_shift)

/-! ### Fields of a word -/

theorem mask_below_firstBit {mask : ModbusData} {i : Nat} (below : i < firstBit mask) :
    mask.getLsbD i = false := BitVec.getLsbD_false_of_lt_ctz below

theorem mask_firstBit {mask : ModbusData} (masked : mask ≠ 0) : mask.getLsbD (firstBit mask) = true :=
  BitVec.getLsbD_true_ctz_of_ne_zero masked

/-- **A field that is written reads as what was written**, if the field can hold it. -/
theorem getBits_forceSetBits (mbval w mask : ModbusData) (offset : Nat) :
    getBits (forceSetBits mbval (getBits w mask offset) mask offset) mask offset = getBits w mask offset := by
  rw [forceSetBits]
  by_cases masked : mask = 0
  · rw [if_pos masked, getBits, if_pos masked]
  · rw [if_neg masked, setBits, if_neg masked, getBits, if_neg masked, getBits, if_neg masked,
      put_and_self, shift_and_shift]
    apply BitVec.eq_of_getLsbD_eq
    intro i _
    simp only [BitVec.getLsbD_ushiftRight, BitVec.getLsbD_and]
    cases mask.getLsbD (offset + i) <;> simp

/-- **The words a mask leaves as they are**: a mask that does not start at bit 0 moves them. -/
theorem getBits_self_iff (x mask : ModbusData) :
    getBits x mask (firstBit mask) = x ↔ mask = 0 ∨ x = 0 ∨ mask.getLsbD 0 = true ∧ x &&& mask = x := by
  rw [getBits]
  by_cases masked : mask = 0
  · rw [if_pos masked]
    exact iff_of_true rfl (Or.inl masked)
  rw [if_neg masked]
  constructor
  · intro same
    rcases Nat.eq_zero_or_pos (firstBit mask) with first | moved
    · have low := mask_firstBit masked
      rw [first] at low same
      exact Or.inr (Or.inr ⟨low, by rw [BitVec.ushiftRight_zero] at same; exact same⟩)
    · -- a word that is moved down is less, unless it is 0
      have number := congrArg BitVec.toNat same
      rw [BitVec.toNat_ushiftRight, BitVec.toNat_and, Nat.shiftRight_eq_div_pow] at number
      have most : x.toNat &&& mask.toNat ≤ x.toNat := Nat.and_le_left
      have half : (x.toNat &&& mask.toNat) / 2 ^ firstBit mask ≤ (x.toNat &&& mask.toNat) / 2 :=
        Nat.div_le_div_left (Nat.le_self_pow (Nat.ne_of_gt moved) 2) Nat.two_pos
      have zero : x.toNat = 0 := by omega
      exact Or.inr (Or.inl (BitVec.eq_of_toNat_eq zero))
  · rintro (none | rfl | ⟨low, inside⟩)
    · exact absurd none masked
    · simp
    · have first : firstBit mask = 0 := by
        by_contra positive
        rw [mask_below_firstBit (Nat.pos_of_ne_zero positive)] at low
        exact Bool.false_ne_true low
      rw [first, BitVec.ushiftRight_zero, inside]

/-- The bits of a mask are moved, but not lost. -/
theorem getBits_eq_zero_iff {x mask : ModbusData} (masked : mask ≠ 0) :
    getBits x mask (firstBit mask) = 0 ↔ x &&& mask = 0 := by
  rw [getBits, if_neg masked]
  constructor
  · intro none
    apply BitVec.eq_of_getLsbD_eq
    intro i _
    refine Eq.trans ?_ BitVec.getLsbD_zero.symm
    rw [BitVec.getLsbD_and]
    rcases Nat.lt_or_ge i (firstBit mask) with below | above
    · rw [mask_below_firstBit below, Bool.and_false]
    · have bit := congrArg (BitVec.getLsbD · (i - firstBit mask)) none
      rw [BitVec.getLsbD_ushiftRight, BitVec.getLsbD_and, Nat.add_sub_cancel' above] at bit
      exact bit.trans BitVec.getLsbD_zero
  · intro none
    rw [none]
    exact BitVec.zero_ushiftRight

/-! ### Words and their values -/

/-- **How a word of a type is a value**: every word is the one of its value, and these are the values from
`low` to `high`. -/
structure WordType (toVal : ModbusData → Int) (low high : Int) : Prop where
  ofInt_toVal : ∀ x, BitVec.ofInt 16 (toVal x) = x
  toVal_ofInt : ∀ v, toVal (.ofInt 16 v) = v ↔ low ≤ v ∧ v ≤ high
  toVal_zero : toVal 0 = 0

theorem wordType_signed : WordType BitVec.toInt (-32768) 32767 where
  ofInt_toVal x := BitVec.ofInt_toInt
  toVal_ofInt v := by
    rw [BitVec.toInt_ofInt, Int.bmod_def]
    omega
  toVal_zero := rfl

theorem wordType_unsigned : WordType (fun val => (val.toNat : Int)) 0 65535 where
  ofInt_toVal x := ofInt_toNat x
  toVal_ofInt v := by
    rw [BitVec.toNat_ofInt]
    omega
  toVal_zero := rfl

namespace WordType

variable {toVal : ModbusData → Int} {low high : Int}

theorem toVal_eq_zero_iff (type : WordType toVal low high) (x : ModbusData) : toVal x = 0 ↔ x = 0 := by
  constructor
  · intro zero
    rw [← type.ofInt_toVal x, zero]
    rfl
  · rintro rfl
    exact type.toVal_zero

theorem toVal_eq_iff (type : WordType toVal low high) (x : ModbusData) (v : Int) :
    toVal x = v ↔ x = .ofInt 16 v ∧ low ≤ v ∧ v ≤ high := by
  constructor
  · rintro rfl
    have own := type.ofInt_toVal x
    exact ⟨own.symm, (type.toVal_ofInt _).mp (by rw [own])⟩
  · rintro ⟨rfl, range⟩
    exact (type.toVal_ofInt v).mpr range

end WordType

/-! ### The safe value of a sensor -/

namespace Property

variable (p : Property)

/-- The safe value as an input: a state for what is read as one. -/
def safeInput : Input := if p.asDO then .di (decide (p.safeval ≠ 0)) else .ai p.safeval

/-- The same field for an analog sensor. -/
def analog : Property := p.withBase { p.toIOBase with stype := .AI }

/-- **The safe value fits the field**: some words read as this number. A bit holds any state. -/
def Fits : Prop :=
  (p.vType = .vtUnknown ∧ p.nbit ≠ none) ∨ ∃ mbval, p.analog.read false mbval = some (.ai p.safeval)

/-- **The read path leaves the safe value of a word as it is**: for a state, a bit of it is left; for a
value, it is one of the type, and the mask starts at bit 0 and has all its bits. -/
def SafeWord (low high : Int) : Prop :=
  p.safeval = 0 ∨
    if p.isDiscrete then (if p.mask = 0 then BitVec.ofInt 16 p.safeval ≠ 0
      else BitVec.ofInt 16 p.safeval &&& p.mask ≠ 0)
    else low ≤ p.safeval ∧ p.safeval ≤ high ∧ (p.mask = 0 ∨
      p.mask.getLsbD 0 = true ∧ BitVec.ofInt 16 p.safeval &&& p.mask = BitVec.ofInt 16 p.safeval)

/-- **The read path leaves the safe value as it is.** -/
def SafeRead : Prop :=
  match p.vType with
  | .vtUnknown => p.nbit ≠ none ∨ p.SafeWord (-32768) 32767
  | .vtSigned => p.SafeWord (-32768) 32767
  | .vtUnsigned => p.SafeWord 0 65535
  | .vtByte => p.nbyte ≠ 0
  | _ => True

variable {p}

theorem getBits_offset (x : ModbusData) : getBits x p.mask p.offset = getBits x p.mask (firstBit p.mask) := by
  rw [getBits, getBits, offset]
  by_cases masked : p.mask = 0
  · rw [if_pos masked, if_pos masked]
  · rw [if_neg masked, if_neg masked, if_neg masked]

theorem getBits_safe_self_iff : getBits (.ofInt 16 p.safeval) p.mask p.offset = .ofInt 16 p.safeval ↔
    p.mask = 0 ∨ BitVec.ofInt 16 p.safeval = 0 ∨
      p.mask.getLsbD 0 = true ∧ BitVec.ofInt 16 p.safeval &&& p.mask = BitVec.ofInt 16 p.safeval := by
  rw [getBits_offset, getBits_self_iff]

section Words

variable {toVal : ModbusData → Int} {low high : Int}

/-- A state that is read of the safe value is that of the safe value where a bit of it is left. -/
theorem state_safe_iff : (getBits (.ofInt 16 p.safeval) p.mask p.offset ≠ 0 ↔ p.safeval ≠ 0) ↔
    p.safeval = 0 ∨ if p.mask = 0 then BitVec.ofInt 16 p.safeval ≠ 0
      else BitVec.ofInt 16 p.safeval &&& p.mask ≠ 0 := by
  have left : getBits (.ofInt 16 p.safeval) p.mask p.offset ≠ 0 ↔
      if p.mask = 0 then BitVec.ofInt 16 p.safeval ≠ 0 else BitVec.ofInt 16 p.safeval &&& p.mask ≠ 0 := by
    by_cases masked : p.mask = 0
    · rw [if_pos masked, getBits, if_pos masked]
    · rw [if_neg masked, getBits_offset, Ne, getBits_eq_zero_iff masked]
  have nothing : p.safeval = 0 → ¬ getBits (.ofInt 16 p.safeval) p.mask p.offset ≠ 0 := by
    intro zero
    rw [zero, getBits]
    split <;> simp
  rw [← left]
  by_cases zero : p.safeval = 0
  · exact iff_of_true (iff_of_false (nothing zero) (fun other => other zero)) (Or.inl zero)
  · rw [iff_true_right zero, or_iff_right zero]

/-- What is read of the safe value in a word is the safe value. -/
theorem readWord_safe_iff (type : WordType toVal low high) (asState : p.asDO = p.isDiscrete)
    (mbval : ModbusData) :
    some (p.readWord true mbval toVal) = some p.safeInput ↔ p.SafeWord low high := by
  rw [Option.some_inj, readWord, safeInput, asState, SafeWord]
  by_cases discrete : p.isDiscrete = true
  · rw [if_pos discrete, if_pos discrete, if_pos discrete, Input.di.injEq, decide_eq_decide]
    exact state_safe_iff
  · rw [if_neg discrete, if_neg discrete, if_neg discrete, Input.ai.injEq, type.toVal_eq_iff, if_pos rfl,
      getBits_safe_self_iff]
    constructor
    · rintro ⟨none | zero | inside, low_le, le_high⟩
      · exact Or.inr ⟨low_le, le_high, Or.inl none⟩
      · have own := (type.toVal_ofInt p.safeval).mpr ⟨low_le, le_high⟩
        rw [zero, type.toVal_zero] at own
        exact Or.inl own.symm
      · exact Or.inr ⟨low_le, le_high, Or.inr inside⟩
    · rintro (zero | ⟨low_le, le_high, inside⟩)
      · rw [zero]
        exact ⟨Or.inr (Or.inl rfl), (type.toVal_ofInt 0).mp type.toVal_zero⟩
      · exact ⟨inside.imp_right Or.inr, low_le, le_high⟩

end Words

/-- **What is read in safe mode is the safe value** where the read path leaves it as it is. -/
theorem read_safe_iff (mbval : Nat → ModbusData) : p.read true mbval = some p.safeInput ↔ p.SafeRead := by
  rw [read, SafeRead]
  cases type : p.vType <;> simp only
  case vtUnknown =>
    cases bit : p.nbit with
    | none =>
      have one : p.rnum ≤ 1 := by rw [rnum, type]; decide
      have asState : p.asDO = p.isDiscrete := by rw [asDO, type, bit]; rfl
      rw [if_pos one, readWord_safe_iff wordType_signed asState (mbval 0)]
      exact (or_iff_right fun some => some rfl).symm
    | some nbit =>
      have asState : p.asDO = true := by rw [asDO, type, bit]; rfl
      rw [safeInput, asState]
      exact iff_of_true rfl (Or.inl (Option.some_ne_none nbit))
  case vtSigned => exact readWord_safe_iff wordType_signed (by rw [asDO, type]) (mbval 0)
  case vtUnsigned => exact readWord_safe_iff wordType_unsigned (by rw [asDO, type]) (mbval 0)
  case vtByte =>
    have asValue : p.asDO = false := by rw [asDO, type]
    have size := p.bsize
    by_cases none : p.nbyte = 0
    · rw [if_pos (Or.inl none)]
      exact iff_of_false (fun same => Option.some_ne_none _ same.symm) (fun other => other none)
    · have inside : ¬ (p.nbyte = 0 ∨ 2 < p.nbyte) := by omega
      rw [if_neg inside, safeInput, asValue]
      exact iff_of_true rfl none
  all_goals
    have asValue : p.asDO = false := by rw [asDO, type]
    rw [safeInput, asValue, readValue]
    exact iff_of_true rfl trivial

/-! ### The safe value in a register -/

/-- The words of a register read as the safe value. -/
def Gives (words : List ModbusData) : Prop :=
  ∀ after : Nat → ModbusData, (∀ k (inside : k < words.length), after k = words[k]) →
    p.read false after = some p.safeInput

/-- The safe value in a word is read back, if the field can hold it. -/
theorem readWord_forceSetBits {toVal : ModbusData → Int} {low high : Int}
    (type : WordType toVal low high) (asState : p.asDO = p.isDiscrete) {w : ModbusData}
    (fits : toVal (getBits w p.mask p.offset) = p.safeval) (mbval : ModbusData) :
    p.readWord false (forceSetBits mbval (.ofInt 16 p.safeval) p.mask p.offset) toVal = p.safeInput := by
  have held : BitVec.ofInt 16 p.safeval = getBits w p.mask p.offset := by
    rw [← fits, type.ofInt_toVal]
  have state : getBits w p.mask p.offset ≠ 0 ↔ p.safeval ≠ 0 := by
    rw [← fits, Ne, Ne, type.toVal_eq_zero_iff]
  rw [readWord, if_neg Bool.false_ne_true, held, getBits_forceSetBits, safeInput, asState]
  by_cases discrete : p.isDiscrete = true
  · rw [if_pos discrete, if_pos discrete, Input.di.injEq, decide_eq_decide]
    exact state
  · rw [if_neg discrete, if_neg discrete, fits]

theorem b_setByte (mbval : ModbusData) {nbyte : Nat} (byte : BitVec 8) (inside : nbyte ≤ 2) :
    Byte.b (setByte mbval nbyte byte) nbyte = byte := by
  apply BitVec.eq_of_getLsbD_eq
  intro i small
  have place : 8 * (nbyte - 1) + i < 16 := by omega
  have behind : ¬ 8 * (nbyte - 1) + i < 8 * (nbyte - 1) := by omega
  have low : (0xFF : ModbusData).getLsbD i = true := by
    show (BitVec.ofNat 16 (2 ^ 8 - 1)).getLsbD i = true
    rw [BitVec.getLsbD_ofNat, Nat.testBit_two_pow_sub_one, decide_eq_true small, Bool.and_true,
      decide_eq_true_eq]
    omega
  rw [Byte.b, BitVec.getLsbD_extractLsb', setByte, getLsbD_put, BitVec.getLsbD_shiftLeft,
    BitVec.getLsbD_shiftLeft, Nat.add_sub_cancel_left, low, decide_eq_true small, decide_eq_true place,
    decide_eq_false behind, BitVec.getLsbD_setWidth]
  have wide : i < 16 := by omega
  simp [wide]

/-- The words of a value of two words are read back, if they are those of some value. -/
theorem gives_two {toLong : (Nat → ModbusData) → Int} {raw : Int → Nat → ModbusData}
    (words_toLong : ∀ data k, k < 2 → raw (toLong data) k = data k)
    (toLong_congr : ∀ v v' : Nat → ModbusData, (∀ k < 2, v k = v' k) → toLong v = toLong v')
    (read_eq : ∀ mbval, p.read false mbval = some (.ai (toLong mbval))) (asValue : p.asDO = false)
    {data : Nat → ModbusData} (fits : toLong data = p.safeval) :
    p.Gives ((List.range 2).map (raw p.safeval)) := by
  intro after same
  have first := same 0 (Nat.succ_pos 1)
  have second := same 1 (Nat.lt_succ_self 1)
  have as_data : ∀ k < 2, after k = data k := by
    intro k inside
    rw [← words_toLong data k inside, fits]
    rcases (by omega : k = 0 ∨ k = 1) with rfl | rfl
    · exact first
    · exact second
  rw [read_eq, toLong_congr after data as_data, fits, safeInput, asValue]
  rfl

/-- The read of an analog sensor with the same field. -/
theorem readWord_analog (mbval : ModbusData) (toVal : ModbusData → Int) :
    p.analog.readWord false mbval toVal = .ai (toVal (getBits mbval p.mask p.offset)) := rfl

theorem gives_word {toVal : ModbusData → Int} {low high : Int} (type : WordType toVal low high)
    (asState : p.asDO = p.isDiscrete)
    (read_eq : ∀ mbval, p.read false mbval = some (p.readWord false (mbval 0) toVal))
    {w : ModbusData} (fits : toVal (getBits w p.mask p.offset) = p.safeval) (mbval : ModbusData) :
    p.Gives [forceSetBits mbval (.ofInt 16 p.safeval) p.mask p.offset] := by
  intro after same
  have first : after 0 = forceSetBits mbval (.ofInt 16 p.safeval) p.mask p.offset := same 0 Nat.one_pos
  rw [read_eq, first, readWord_forceSetBits type asState fits]

theorem gives_bit {nbit : Fin 16} (type : p.vType = .vtUnknown) (bit : p.nbit = some nbit)
    (mbval : ModbusData) : p.Gives [putBit mbval nbit (decide (p.safeval ≠ 0))] := by
  intro after same
  have first : after 0 = putBit mbval nbit (decide (p.safeval ≠ 0)) := same 0 Nat.one_pos
  have asState : p.asDO = true := by rw [asDO, type, bit]; rfl
  have read_eq : p.read false after = some (.di ((after 0).getLsbD nbit)) := by rw [read, type, bit]; rfl
  rw [read_eq, first, getLsbD_putBit _ _ nbit.isLt, if_pos rfl, safeInput, asState]
  rfl

theorem mask_of_byte (numbered : p.nbyte ≠ 0) : p.mask = 0 := by
  by_contra masked
  exact numbered (p.exclusive masked).2

theorem byte_number (numbered : p.nbyte ≠ 0) (byte : BitVec 8) :
    (getBits (byte.setWidth 16) p.mask p.offset).toNat = byte.toNat := by
  rw [getBits, if_pos (mask_of_byte numbered), BitVec.toNat_setWidth_of_le (by decide)]

theorem gives_byte (type : p.vType = .vtByte) (numbered : p.nbyte ≠ 0) {byte : BitVec 8}
    (fits : (byte.toNat : Int) = p.safeval) (mbval : ModbusData) :
    p.Gives [forceSetBits mbval (setByte mbval p.nbyte (.ofInt 8 p.safeval)) p.mask p.offset] := by
  intro after same
  have first : after 0 = forceSetBits mbval (setByte mbval p.nbyte (.ofInt 8 p.safeval)) p.mask p.offset :=
    same 0 Nat.one_pos
  have size := p.bsize
  have inside : ¬ (p.nbyte = 0 ∨ 2 < p.nbyte) := by omega
  have asValue : p.asDO = false := by rw [asDO, type]
  have read_eq : p.read false after = some (.ai (Byte.b (after 0) p.nbyte).toNat) := by
    rw [read, type]
    simp only [inside, if_false, readValue, Bool.false_eq_true, byte_number numbered]
  rw [read_eq, first, forceSetBits, if_pos (mask_of_byte numbered), b_setByte _ _ size,
    ← fits, ofInt_toNat, safeInput, asValue]
  rw [← fits]
  rfl

/-- **What is written in safe mode reads as the safe value**, if the field can hold it. -/
theorem written_gives (proc : Process) (fits : p.Fits) (mbval : ModbusData) (sm : SMValues) :
    ∃ words, p.written proc true mbval sm = some words ∧ p.Gives words := by
  rw [written]
  rcases fits with ⟨type, bit⟩ | ⟨data, fits⟩
  · obtain ⟨nbit, bit⟩ := Option.ne_none_iff_exists'.mp bit
    rw [type, bit]
    exact ⟨_, rfl, gives_bit type bit mbval⟩
  rw [read] at fits
  have same : p.analog.vType = p.vType := rfl
  cases type : p.vType <;> rw [same, type] at fits
  case vtUnknown =>
    cases bit : p.nbit with
    | some nbit => exact ⟨_, rfl, gives_bit type bit mbval⟩
    | none =>
      have one : p.rnum ≤ 1 := by rw [rnum, type]; decide
      have asState : p.asDO = p.isDiscrete := by rw [asDO, type, bit]; rfl
      have analogBit : p.analog.nbit = none := bit
      have analogOne : p.analog.rnum ≤ 1 := one
      rw [analogBit] at fits
      simp only [analogOne, if_true, readWord_analog] at fits
      have fits : (getBits (data 0) p.mask p.offset).toInt = p.safeval := Input.ai.inj (Option.some.inj fits)
      refine ⟨_, if_pos one, gives_word wordType_signed asState (fun mbval => ?_) fits mbval⟩
      rw [read, type, bit]
      exact if_pos one
  case vtSigned =>
    have fits : (getBits (data 0) p.mask p.offset).toInt = p.safeval := Input.ai.inj (Option.some.inj fits)
    exact ⟨_, rfl, gives_word wordType_signed (by rw [asDO, type]) (fun _ => by rw [read, type]) fits mbval⟩
  case vtUnsigned =>
    have fits : ((getBits (data 0) p.mask p.offset).toNat : Int) = p.safeval := Input.ai.inj (Option.some.inj fits)
    exact ⟨_, rfl, gives_word wordType_unsigned (by rw [asDO, type]) (fun _ => by rw [read, type]) fits mbval⟩
  case vtByte =>
    by_cases ignored : p.nbyte = 0 ∨ 2 < p.nbyte
    · exact absurd ((if_pos ignored).symm.trans fits) (Option.some_ne_none _).symm
    · have numbered : p.nbyte ≠ 0 := fun none => ignored (Or.inl none)
      have fits : ((Byte.b (data 0) p.nbyte).toNat : Int) = p.safeval := by
        have value := Input.ai.inj (Option.some.inj ((if_neg ignored).symm.trans fits))
        rw [← value]
        exact congrArg Nat.cast (byte_number numbered (Byte.b (data 0) p.nbyte)).symm
      exact ⟨_, if_neg ignored, gives_byte type numbered fits mbval⟩
  case vtI2 =>
    have fits : I2.toLong data = p.safeval := Input.ai.inj (Option.some.inj fits)
    exact ⟨_, rfl, gives_two (fun _ _ => I2.words_toLong) (fun _ _ => I2.toLong_congr)
      (fun _ => by rw [read, type]; rfl) (by rw [asDO, type]) fits⟩
  case vtI2r =>
    have fits : I2r.toLong data = p.safeval := Input.ai.inj (Option.some.inj fits)
    exact ⟨_, rfl, gives_two (fun _ _ => I2r.words_toLong) (fun _ _ => I2r.toLong_congr)
      (fun _ => by rw [read, type]; rfl) (by rw [asDO, type]) fits⟩
  case vtU2 =>
    have fits : U2.toLong data = p.safeval := Input.ai.inj (Option.some.inj fits)
    exact ⟨_, rfl, gives_two (fun _ _ => U2.words_toLong) (fun _ _ => U2.toLong_congr)
      (fun _ => by rw [read, type]; rfl) (by rw [asDO, type]) fits⟩
  case vtU2r =>
    have fits : U2r.toLong data = p.safeval := Input.ai.inj (Option.some.inj fits)
    exact ⟨_, rfl, gives_two (fun _ _ => U2r.words_toLong) (fun _ _ => U2r.toLong_congr)
      (fun _ => by rw [read, type]; rfl) (by rw [asDO, type]) fits⟩
  all_goals exact Input.noConfusion (Option.some.inj fits)

end Property

/-! ### The updates of safe mode -/

/-- **An update shows the safe value**: a sensor of a read function is given it; the field of a sensor of a
write function reads as it, if it fits. -/
def SafeShown (proc : Process) (e : Env) (p : Property) (r : Reg) : Prop :=
  if r.mbfunc.isWriteFunction then
    p.Fits → p.read false (updateRSProperty proc e p r).reg.mbval = some p.safeInput
  else e.input proc p r = some p.safeInput

/-- **The updates that can show it.** A write needs a register that is initialised, a read needs SharedMemory
and a safe value that the read path leaves as it is; the modes of the exchange let both pass. -/
def Env.ShowsSafe (proc : Process) (e : Env) (p : Property) (r : Reg) : Prop :=
  if r.mbfunc.isWriteFunction then
    ¬ p.Fits ∨ p.read false r.mbval = some p.safeInput ∨
      isUpdateSM proc.exchangeMode e.dev.mode true = true ∧ r.mbInitOK = true
  else e.writeOnly = false ∧ isUpdateSM proc.exchangeMode e.dev.mode false = true ∧ e.fails = false ∧ p.SafeRead

theorem Reg.mbval_setMBVals (r : Reg) (words : List ModbusData) {k : Nat} (inside : k < words.length) :
    (r.setMBVals words).mbval k = words[k] := by
  rw [Reg.mbval, Reg.setMBVals]
  by_cases first : k = 0
  · subst first
    simp [inside, Cell.setMBVal]
  · simp [first, inside, Cell.setMBVal]

/-- In safe mode an initialised register of a write function is given the safe value, if it fits. -/
theorem read_written {proc : Process} {e : Env} {p : Property} {r : Reg}
    (save : r.mbfunc.isWriteFunction = true) (safe : e.useSafeval p = true)
    (passes : isUpdateSM proc.exchangeMode e.dev.mode true = true) (initOK : r.mbInitOK = true)
    (fits : p.Fits) :
    p.read false (updateRSProperty proc e p r).reg.mbval = some p.safeInput := by
  obtain ⟨words, written, gives⟩ := Property.written_gives proc fits (r.mbval 0) e.sm
  have writes : e.writes proc p r = true := by rw [Env.writes, passes, initOK, safe]; rfl
  have cell : (updateRSProperty proc e p r).reg.cell = (r.setMBVals words).cell := by
    rw [updateRSProperty_cell_write _ _ _ save, if_pos writes, safe, written]
    rfl
  apply gives
  intro k inside
  rw [← Reg.mbval_setMBVals r words inside, Reg.mbval, Reg.mbval, cell]

/-- A register that the modes keep from being written stays. -/
theorem mbval_kept {proc : Process} {e : Env} {p : Property} {r : Reg}
    (save : r.mbfunc.isWriteFunction = true)
    (kept : ¬ (isUpdateSM proc.exchangeMode e.dev.mode true = true ∧ r.mbInitOK = true)) :
    (updateRSProperty proc e p r).reg.mbval = r.mbval := by
  have silent : ¬ e.writes proc p r = true := by
    intro writes
    rw [Env.writes, Bool.and_eq_true, Bool.and_eq_true] at writes
    exact kept writes.1
  funext k
  rw [Reg.mbval, updateRSProperty_cell_write _ _ _ save, if_neg silent, Reg.mbval]

/-- **Safe mode shows the safe value** in these updates only. -/
theorem safeShown_iff (proc : Process) (e : Env) (p : Property) (r : Reg)
    (safeMode : e.dev.isSafeMode = true) (defined : p.safevalDefined = true) :
    SafeShown proc e p r ↔ e.ShowsSafe proc p r := by
  have safe : e.useSafeval p = true := by rw [Env.useSafeval, safeMode, defined]; rfl
  rw [SafeShown, Env.ShowsSafe]
  cases save : r.mbfunc.isWriteFunction with
  | true =>
    rw [if_pos rfl, if_pos rfl]
    by_cases gets : isUpdateSM proc.exchangeMode e.dev.mode true = true ∧ r.mbInitOK = true
    · exact iff_of_true (read_written save safe gets.1 gets.2) (Or.inr (Or.inr gets))
    · rw [mbval_kept save gets, or_iff_left gets, imp_iff_not_or]
  | false =>
    rw [if_neg Bool.false_ne_true, if_neg Bool.false_ne_true, Env.input, Env.passes, save, safe, safeMode]
    cases e.writeOnly <;> cases isUpdateSM proc.exchangeMode e.dev.mode false <;> cases e.fails <;>
      simp [Property.read_safe_iff]

/-- An analog sensor with a mask and a safe value. -/
def maskedAI (mask : ModbusData) (safeval : Int) : Property :=
  { plainDO 1 none mask .vtUnknown fun _ => rfl with
    stype := .AI, safeval := safeval, safevalDefined := true }

/-- An update while the device does not respond. -/
def silentEnv : Env := ⟨⟨0, safeResetIfNotRespond, false⟩, false, fun _ => 0, false⟩

/-- A register of function 0x03. -/
def inputReg : Reg := { singleReg 0 with mbfunc := .fnReadOutputRegisters }

/-- A mask of the low bits lets the safe value through. -/
theorem safeShown_lowMask : SafeShown plainProcess silentEnv (maskedAI 0x000F 5) inputReg :=
  (safeShown_iff plainProcess silentEnv (maskedAI 0x000F 5) inputReg rfl rfl).mpr
    ⟨rfl, rfl, rfl, Or.inr (Or.inr (by decide))⟩

/-- **A mask of other bits does not**: the safe value fits the field, and 0 is stored. -/
theorem safeShown_fails :
    ¬ ∀ (proc : Process) (e : Env) (p : Property) (r : Reg), e.dev.isSafeMode = true →
      p.safevalDefined = true → p.Fits → e.passes proc r = true → e.fails = false →
      SafeShown proc e p r := by
  intro shown
  have fits : (maskedAI 0x0F00 5).Fits := Or.inr ⟨fun _ => 0x0500, by decide⟩
  have given : silentEnv.input plainProcess (maskedAI 0x0F00 5) inputReg = some (.ai 5) :=
    shown plainProcess silentEnv (maskedAI 0x0F00 5) inputReg rfl rfl fits rfl rfl
  exact absurd given (by decide)

end UniSet.ModbusMaster.Update

/-
**`ForceCoilsMessage`: the coils of a request 0x0F, added one by one or in bytes.**

`addBit` puts a bit behind the last one, `addData` a byte behind the last byte, and `setBit` takes
the number of a bit in one byte. Only `addData` asks whether there is room.

* `ForceCoilsMessage`, `Call` — the message and its operations; a `step` also keeps the list of the
  bits added so far, as the operations report them.
* `CarriesBits` — what is promised of the message after every call.
* `Fitting` — the calls that keep the promise: at most 256 bits, and no byte but zero behind a part
  of a byte.
* **`coils_carried_iff`** — the message carries its bits throughout a run exactly if all its calls
  are fitting.
-/

import UniSet.Lib.Bits
import UniSet.Lib.Machine
import UniSet.Modbus.FixedFrames

namespace UniSet.Modbus

/-- The size of `ForceCoilsMessage::data`. -/
def coilBytes : Nat := 503

/-- **`ForceCoilsMessage`.** -/
structure ForceCoilsMessage where
  addr : Byte
  start : UInt16
  quant : UInt16
  bcnt : Byte
  data : Vector Byte coilBytes

namespace ForceCoilsMessage

/-- `ForceCoilsMessage( ModbusAddr, ModbusData )`. -/
def empty (addr : Byte) (start : UInt16) : ForceCoilsMessage :=
  ⟨addr, start, 0, 0, Vector.replicate coilBytes 0⟩

variable (m : ForceCoilsMessage)

def isFull : Bool := decide (maxPduLen ≤ m.bcnt.toNat)

theorem byte_inside (b : Byte) : b.toNat < coilBytes := Nat.lt_trans b.toNat_lt (by decide)

/-- **`addData`.** -/
def addData (d : Byte) : Bool × ForceCoilsMessage :=
  if m.isFull then (false, m)
  else
    (true, { m with
      data := m.data.set m.bcnt.toNat d (byte_inside m.bcnt)
      bcnt := m.bcnt + 1
      quant := m.quant + 8 })

/-- **`addBit`**, with the number it returns. The byte in front of `data` is `bcnt`: the structure is
packed. -/
def addBit (state : Bool) : Int × ForceCoilsMessage :=
  let qnum := m.quant.toNat % bitsPerByte
  let bcnt := if qnum = 0 then m.bcnt + 1 else m.bcnt
  let quant := m.quant + 1
  ((quant.toNat : Int) - 1,
    if bcnt = 0 then { m with bcnt := Lib.putByteBit bcnt qnum state, quant := quant }
    else
      have inside : bcnt.toNat - 1 < coilBytes := Nat.lt_of_le_of_lt (Nat.sub_le _ _) (byte_inside bcnt)
      { m with
        data := m.data.set (bcnt.toNat - 1) (Lib.putByteBit m.data[bcnt.toNat - 1] qnum state) inside
        bcnt := bcnt
        quant := quant })

/-- **`setBit`.** -/
def setBit (nbit : Byte) (state : Bool) : Bool × ForceCoilsMessage :=
  if nbit.toNat < m.quant.toNat then
    have inside : nbit.toNat / bitsPerByte < coilBytes :=
      Nat.lt_of_le_of_lt (Nat.div_le_self _ _) (byte_inside nbit)
    (true, { m with
      data := m.data.set (nbit.toNat / bitsPerByte)
        (Lib.putByteBit m.data[nbit.toNat / bitsPerByte] (nbit.toNat % bitsPerByte) state) inside })
  else (false, m)

/-- The five bytes in front of the coils. -/
def head : List Byte := wordBytes m.start.toNat ++ wordBytes m.quant.toNat ++ [m.bcnt]

/-- The bytes of the coils. -/
def coils : List Byte := m.data.toList.take m.bcnt.toNat

/-- **`transport_msg`.** -/
def transportMsg : Message := .withCRC m.addr 0x0F (m.head ++ m.coils)

/-! ### Sequences of calls -/

/-- A call, with its arguments. -/
inductive Call
  | addBit (state : Bool)
  | addData (d : Byte)
  | setBit (nbit : Byte) (state : Bool)
deriving DecidableEq, Repr

/-- A call: whether it reports success, and the message after it. -/
def call : Call → Bool × ForceCoilsMessage
  | .addBit state => (decide (0 ≤ (m.addBit state).1), (m.addBit state).2)
  | .addData d => m.addData d
  | .setBit nbit state => m.setBit nbit state

/-- The bits after a call that reported success. -/
def Call.counted (bits : List Bool) : Call → List Bool
  | .addBit state => bits ++ [state]
  | .addData d => bits ++ Lib.byteBits d
  | .setBit nbit state => bits.set nbit.toNat state

/-- A message, and the bits that were added to it. -/
abbrev Filled : Type := ForceCoilsMessage × List Bool

def Filled.empty (addr : Byte) (start : UInt16) : Filled := (.empty addr start, [])

/-- **One call.** -/
def Filled.call (f : Filled) (c : Call) : Filled :=
  ((f.1.call c).2, if (f.1.call c).1 then c.counted f.2 else f.2)

/-- All sequences of calls. -/
def machine : Lib.Machine Filled Call where
  start f := ∃ addr start, f = .empty addr start
  step f c := some (f.call c)

/-! ### What is promised -/

/-- **The message carries exactly its bits.** `arrived` is what the server makes of a message and of
the bytes behind it. -/
structure CarriesBits (arrived : Message → List Byte → MbErrCode × Message) (f : Filled) : Prop where
  quant : f.1.quant.toNat = f.2.length
  bcnt : f.1.bcnt.toNat = (f.2.length + 7) / 8
  settable : ∀ i < f.2.length, ∀ state,
    (f.1.setBit (UInt8.ofNat i) state).1 = true ∧
      ∀ j, Lib.bitAt (f.1.setBit (UInt8.ofNat i) state).2.data j =
        if j = i then state else Lib.bitAt f.1.data j
  decoded : ∀ rest, ∃ m bcnt data, arrived f.1.transportMsg rest = (.erNoError, m) ∧
    m.decode .fnForceMultipleCoils =
      .ok (.forceCoils f.1.start.toNat f.2.length bcnt data) ∧
    ∀ i < f.2.length, Lib.bitOf data i = f.2.getD i false
  /-- A bit for which there is no byte left. -/
  refused : f.1.isFull = true → f.2.length % 8 = 0 → ∀ state, (f.1.addBit state).1 = -1

/-- **The calls that keep the promise.** -/
def Fitting (f : Filled) : Call → Prop
  | .addBit _ => f.1.quant.toNat < 256
  | .addData d => f.1.quant.toNat + 8 ≤ 256 ∧ (f.1.quant.toNat % 8 = 0 ∨ d = 0)
  | .setBit _ _ => True

instance (f : Filled) : ∀ c, Decidable (Fitting f c)
  | .addBit _ => inferInstanceAs (Decidable (_ < _))
  | .addData _ => inferInstanceAs (Decidable (_ ∧ (_ ∨ _)))
  | .setBit _ _ => inferInstanceAs (Decidable True)

/-- **What fitting calls keep**: the bits of the array are those added, and there are no others. -/
structure Tidy (f : Filled) : Prop where
  quant : f.1.quant.toNat = f.2.length
  bcnt : f.1.bcnt.toNat = (f.2.length + 7) / 8
  few : f.2.length ≤ 256
  bits : ∀ i, Lib.bitAt f.1.data i = f.2.getD i false

/-! ### One call -/

variable {m} {f : Filled}

/-- **`addBit` while the bytes can be counted.** -/
theorem addBit_eq (bytes : m.bcnt.toNat = (m.quant.toNat + 7) / 8) (few : m.quant.toNat < 2040)
    (state : Bool) :
    m.addBit state = ((m.quant.toNat : Int), { m with
      data := Lib.writeBit m.data m.quant.toNat state
      bcnt := UInt8.ofNat (m.quant.toNat / 8 + 1)
      quant := m.quant + 1 }) := by
  have next : (m.quant + 1).toNat = m.quant.toNat + 1 := by
    rw [UInt16.toNat_add, UInt16.toNat_one]
    omega
  have exactly : (UInt8.ofNat (m.quant.toNat / 8 + 1)).toNat = m.quant.toNat / 8 + 1 := by
    rw [UInt8.toNat_ofNat']
    omega
  have count : (if m.quant.toNat % bitsPerByte = 0 then m.bcnt + 1 else m.bcnt) =
      UInt8.ofNat (m.quant.toNat / 8 + 1) := by
    refine UInt8.toNat_inj.mp ?_
    rw [exactly]
    by_cases first : m.quant.toNat % 8 = 0
    · refine (congrArg UInt8.toNat (if_pos first)).trans ?_
      rw [UInt8.toNat_add, UInt8.toNat_one]
      omega
    · refine (congrArg UInt8.toNat (if_neg first)).trans ?_
      omega
  have some : UInt8.ofNat (m.quant.toNat / 8 + 1) ≠ 0 := by
    intro zero
    rw [zero] at exactly
    cases exactly
  have inside : m.quant.toNat / 8 < coilBytes := by
    show m.quant.toNat / 8 < 503
    omega
  have written : Lib.writeBit m.data (m.quant.toNat / 8 * 8 + m.quant.toNat % 8) state = _ :=
    Lib.writeBit_byte state (Nat.mod_lt m.quant.toNat (by decide)) inside
  rw [Nat.div_add_mod'] at written
  unfold addBit
  simp only [count, if_neg some, exactly, Nat.add_sub_cancel, next, written]
  refine Prod.ext ?_ rfl
  show ((m.quant.toNat + 1 : Nat) : Int) - 1 = _
  omega

theorem addData_eq (room : m.bcnt.toNat < maxPduLen) (d : Byte) :
    m.addData d = (true, { m with
      data := m.data.set m.bcnt.toNat d (byte_inside m.bcnt)
      bcnt := m.bcnt + 1
      quant := m.quant + 8 }) := by
  have notFull : ¬ m.isFull = true := by
    rw [isFull, decide_eq_true_eq]
    exact Nat.not_le.mpr room
  rw [addData, if_neg notFull]

theorem setBit_eq {nbit : Byte} (below : nbit.toNat < m.quant.toNat) (state : Bool) :
    m.setBit nbit state = (true, { m with data := Lib.writeBit m.data nbit.toNat state }) := by
  have inside : nbit.toNat / 8 < coilBytes := Nat.lt_of_le_of_lt (Nat.div_le_self _ _) (byte_inside nbit)
  rw [setBit, if_pos below, Lib.writeBit, dif_pos inside]
  rfl

theorem setBit_bits {nbit : Byte} (below : nbit.toNat < m.quant.toNat) (state : Bool) (j : Nat) :
    Lib.bitAt (m.setBit nbit state).2.data j =
      if j = nbit.toNat then state else Lib.bitAt m.data j := by
  have inside : nbit.toNat / 8 < coilBytes := Nat.lt_of_le_of_lt (Nat.div_le_self _ _) (byte_inside nbit)
  rw [setBit_eq below]
  exact Lib.bitAt_writeBit m.data state inside j

/-! ### Fitting calls -/

theorem Tidy.empty (addr : Byte) (start : UInt16) : Tidy (.empty addr start) := by
  refine ⟨rfl, (by decide : (0 : Byte).toNat = 7 / 8), Nat.zero_le _, fun i => ?_⟩
  rw [Filled.empty, ForceCoilsMessage.empty, List.getD_nil, Lib.bitAt]
  split
  · rw [Vector.getElem_replicate]
    exact BitVec.getLsbD_zero
  · rfl

theorem Tidy.room (tidy : Tidy f) : f.1.bcnt.toNat < maxPduLen := by
  have few := tidy.few
  rw [tidy.bcnt]
  show (f.2.length + 7) / 8 < 253
  omega

/-- **What `addBit` leaves**: the bit stands behind the last one. -/
theorem Tidy.addBit_bits (tidy : Tidy f) (state : Bool) :
    f.call (.addBit state) = ({ f.1 with
      data := Lib.writeBit f.1.data f.1.quant.toNat state
      bcnt := UInt8.ofNat (f.1.quant.toNat / 8 + 1)
      quant := f.1.quant + 1 }, f.2 ++ [state]) := by
  have count := tidy.quant
  have few := tidy.few
  have added := addBit_eq (m := f.1) (by rw [tidy.bcnt, count]) (by omega) state
  have success : decide (0 ≤ (f.1.addBit state).1) = true := by
    rw [added]
    exact decide_eq_true (Int.natCast_nonneg _)
  rw [Filled.call, ForceCoilsMessage.call, if_pos success, added]
  rfl

theorem Tidy.addBit (tidy : Tidy f) (room : f.1.quant.toNat < 256) (state : Bool) :
    Tidy (f.call (.addBit state)) := by
  have count := tidy.quant
  have length : (f.2 ++ [state]).length = f.1.quant.toNat + 1 := by
    rw [List.length_append, count]
    rfl
  rw [tidy.addBit_bits]
  refine ⟨?_, ?_, ?_, fun i => ?_⟩
  · rw [length]
    dsimp only
    rw [UInt16.toNat_add, UInt16.toNat_one]
    omega
  · rw [length]
    dsimp only
    rw [UInt8.toNat_ofNat']
    omega
  · rw [length]
    exact room
  · have inside : f.1.quant.toNat / 8 < coilBytes := by
      show f.1.quant.toNat / 8 < 503
      omega
    refine (Lib.bitAt_writeBit f.1.data state inside i).trans ?_
    rw [Lib.getD_append, tidy.bits, count]
    by_cases here : i = f.2.length
    · rw [if_pos here, if_neg (by omega), here, Nat.sub_self]
      rfl
    · rw [if_neg here]
      by_cases before : i < f.2.length
      · rw [if_pos before]
      · rw [if_neg before, List.getD_eq_default _ _ (Nat.not_lt.mp before),
          List.getD_eq_default _ _ (by rw [List.length_singleton]; omega)]

theorem Tidy.setBit (tidy : Tidy f) (nbit : Byte) (state : Bool) :
    Tidy (f.call (.setBit nbit state)) := by
  by_cases below : nbit.toNat < f.1.quant.toNat
  · have called : f.call (.setBit nbit state) =
        ((f.1.setBit nbit state).2, f.2.set nbit.toNat state) := by
      have success : (f.1.setBit nbit state).1 = true := by
        rw [setBit_eq below]
      exact congrArg (Prod.mk _) (if_pos success)
    rw [called]
    refine ⟨?_, ?_, ?_, fun i => ?_⟩
    · rw [List.length_set, setBit_eq below]
      exact tidy.quant
    · rw [List.length_set, setBit_eq below]
      exact tidy.bcnt
    · rw [List.length_set]
      exact tidy.few
    · rw [tidy.quant] at below
      rw [setBit_bits (by rw [tidy.quant]; exact below), tidy.bits, List.getD_eq_getElem?_getD,
        List.getD_eq_getElem?_getD, List.getElem?_set]
      by_cases here : i = nbit.toNat
      · rw [if_pos here, if_pos here.symm, if_pos below]
        rfl
      · rw [if_neg here, if_neg (Ne.symm here)]
  · have refused : f.1.setBit nbit state = (false, f.1) := by
      rw [ForceCoilsMessage.setBit, if_neg below]
    have called : f.call (.setBit nbit state) = f := by
      rw [Filled.call, ForceCoilsMessage.call, refused]
      rfl
    rw [called]
    exact tidy

/-- **What `addData` leaves**: the byte stands behind the last one. -/
theorem Tidy.addData_bits (tidy : Tidy f) (d : Byte) :
    f.call (.addData d) = ((f.1.addData d).2, f.2 ++ Lib.byteBits d) ∧
      (f.1.addData d).2.quant = f.1.quant + 8 ∧ (f.1.addData d).2.bcnt = f.1.bcnt + 1 ∧
      ∀ i, Lib.bitAt (f.1.addData d).2.data i =
        if i / 8 = f.1.bcnt.toNat then d.toBitVec.getLsbD (i % 8) else f.2.getD i false := by
  have added := addData_eq tidy.room d
  refine ⟨?_, ?_, ?_, fun i => ?_⟩
  · rw [Filled.call, ForceCoilsMessage.call, added]
    rfl
  · rw [added]
  · rw [added]
  · rw [added, ← tidy.bits]
    exact Lib.bitAt_set f.1.data d (byte_inside f.1.bcnt) i

theorem Tidy.addData (tidy : Tidy f) (room : f.1.quant.toNat + 8 ≤ 256) {d : Byte}
    (aligned : f.1.quant.toNat % 8 = 0 ∨ d = 0) : Tidy (f.call (.addData d)) := by
  obtain ⟨called, quant, bcnt, bits⟩ := tidy.addData_bits d
  have count := tidy.quant
  have bytes := tidy.bcnt
  have length : (f.2 ++ Lib.byteBits d).length = f.2.length + 8 := by
    rw [List.length_append, Lib.byteBits_length]
  rw [called]
  refine ⟨?_, ?_, ?_, fun i => ?_⟩
  · rw [length, quant, UInt16.toNat_add]
    show (f.1.quant.toNat + 8) % 65536 = _
    omega
  · rw [length, bcnt, UInt8.toNat_add, UInt8.toNat_one]
    omega
  · rw [length]
    omega
  · rw [bits, Lib.getD_append, Lib.byteBits_getD]
    rcases aligned with whole | zero
    · by_cases before : i < f.2.length
      · rw [if_pos before, if_neg (by omega)]
      · by_cases here : i / 8 = f.1.bcnt.toNat
        · have place : i % 8 = i - f.2.length := by omega
          rw [if_pos here, if_neg before, place]
        · rw [if_neg here, if_neg before, List.getD_eq_default _ _ (Nat.not_lt.mp before),
            BitVec.getLsbD_of_ge _ _ (by omega)]
    · subst zero
      have none : ∀ k, (0 : Byte).toBitVec.getLsbD k = false := fun k => BitVec.getLsbD_zero
      by_cases before : i < f.2.length
      · rw [if_pos before, if_neg (by omega)]
      · rw [if_neg before, none, none, List.getD_eq_default _ _ (Nat.not_lt.mp before), ite_self]

theorem Tidy.call (tidy : Tidy f) {c : Call} (fits : Fitting f c) : Tidy (f.call c) := by
  cases c with
  | addBit state => exact tidy.addBit fits state
  | addData d => exact tidy.addData fits.1 fits.2
  | setBit nbit state => exact tidy.setBit nbit state

/-! ### The server -/

theorem coils_length (m : ForceCoilsMessage) : m.coils.length = m.bcnt.toNat := by
  rw [coils, List.length_take, Vector.length_toList]
  exact Nat.min_eq_left (Nat.le_of_lt (byte_inside m.bcnt))

/-- **`ForceCoilsMessage::init`** finds the coils behind the head. -/
theorem decode_head (m : ForceCoilsMessage) (func : Byte) (more : List Byte) :
    (Message.mk m.addr func (m.head ++ more)).decode .fnForceMultipleCoils =
      .ok (.forceCoils m.start.toNat m.quant.toNat m.bcnt.toNat more) := by
  obtain ⟨start, quant⟩ := wordAt_words m.addr func m.start.toNat_lt m.quant.toNat_lt ([m.bcnt] ++ more)
  have regroup : m.head ++ more =
      wordBytes m.start.toNat ++ wordBytes m.quant.toNat ++ ([m.bcnt] ++ more) :=
    List.append_assoc _ _ _
  rw [Message.decode, Message.forceCoilsMessage, regroup, start, quant]
  rfl

section Server

variable {C : Type} {ch : Channel C} {stream : C → List Byte} {I : C → Prop}

/-- The head alone, of a message without coils on a line without check sums: what a read of length
zero brings is not looked at. -/
theorem recvPdu_noCoils (delivers : Delivers ch.getNextData stream I) (cfg : Settings) {c : C}
    (inv : I c) (unchecked : cfg.crcNoCheckit = true) {m : ForceCoilsMessage}
    (none : m.bcnt.toNat = 0) {rest : List Byte} (bytes : stream c = 0x0F :: (m.head ++ rest)) :
    ∃ more c', recvPdu ch cfg m.addr c = ((.erNoError, ⟨m.addr, 0x0F, m.head ++ more⟩), c') := by
  obtain ⟨c₁, read, left, inv₁⟩ := delivers.streams.read_cons inv bytes
  have five : SlaveFunctionCode.fnForceMultipleCoils.format.first cfg.crcNoCheckit = m.head.length :=
    rfl
  have whole : SlaveFunctionCode.fnForceMultipleCoils.format.first cfg.crcNoCheckit ≤
      (stream c₁).length := by
    rw [five, left]
    exact (List.sublist_append_left m.head rest).length_le
  obtain ⟨m', c₂, begin, -, inv₂, received⟩ := recvData_head cfg delivers inv₁ m.addr 0x0F whole
  rw [five, left, List.take_left] at begin
  have second : SlaveFunctionCode.fnForceMultipleCoils.format.second cfg.crcNoCheckit m' = some 0 := by
    rw [begin, unchecked]
    exact congrArg some none
  obtain ⟨more, c₃, nothing⟩ := delivers.zero c₂ inv₂
  refine ⟨more, c₃, ?_⟩
  rw [recvPdu, read]
  show recvData ch cfg .fnForceMultipleCoils ⟨m.addr, 0x0F, []⟩ c₁ = _
  rw [received, second]
  dsimp only
  rw [recvMore, nothing, begin]
  exact checkPdu_ok ch cfg (.inl unchecked) rfl c₃

/-- **The server receives the head and the coils.** -/
theorem recvPdu_coils (delivers : Delivers ch.getNextData stream I) (cfg : Settings) {c : C}
    (inv : I c) {m : ForceCoilsMessage} {rest : List Byte}
    (bytes : stream c = m.transportMsg.wire cfg.crcNoCheckit ++ rest) :
    ∃ more c', recvPdu ch cfg m.addr c =
      ((.erNoError, ⟨m.addr, 0x0F, m.head ++ (m.coils ++ more)⟩), c') := by
  by_cases nothing : cfg.crcNoCheckit = true ∧ m.bcnt.toNat = 0
  · obtain ⟨unchecked, none⟩ := nothing
    have noCoils : m.coils = [] := List.eq_nil_of_length_eq_zero (by rw [coils_length, none])
    have sent : stream c = 0x0F :: (m.head ++ rest) := by
      rw [bytes, transportMsg, wire_withCRC, unchecked, noCoils, List.append_nil]
      exact congrArg (_ :: · ++ rest) (List.append_nil m.head)
    obtain ⟨more, c', received⟩ := recvPdu_noCoils delivers cfg inv unchecked none sent
    refine ⟨more, c', ?_⟩
    rw [received, noCoils, List.nil_append]
  · have length : (m.head ++ m.coils).length = 5 + m.bcnt.toNat := by
      rw [List.length_append, coils_length]
      rfl
    obtain ⟨c', received, -⟩ := recvPdu_withCRC delivers cfg inv .fnForceMultipleCoils bytes rfl
      (by rw [length]; exact Nat.le_trans (Nat.le_add_right 5 m.bcnt.toNat) (Nat.le_add_right _ _))
      (fun more => by
        rw [length]
        show 5 + (m.bcnt.toNat + crcLen cfg.crcNoCheckit) = 5 + m.bcnt.toNat + crcLen cfg.crcNoCheckit
        exact (Nat.add_assoc _ _ _).symm)
      (fun more none => by
        have zero : m.bcnt.toNat + crcLen cfg.crcNoCheckit = 0 := Option.some.inj none
        refine nothing ⟨?_, (Nat.add_eq_zero_iff.mp zero).1⟩
        exact Format.second_zero none)
      (fun more => rfl)
    refine ⟨crcTail cfg.crcNoCheckit m.addr 0x0F (m.head ++ m.coils), c', ?_⟩
    rw [← List.append_assoc]
    exact received

variable (ch) in
/-- **What the server makes of a message** and of the bytes behind it, if they are all that comes. -/
def arrived (cfg : Settings) (load : List Byte → C) (m : Message) (rest : List Byte) :
    MbErrCode × Message :=
  (recvPdu ch cfg m.addr (load (m.wire cfg.crcNoCheckit ++ rest))).1

variable {load : List Byte → C}

/-- The bits that are decoded are those of the array. -/
theorem arrived_decoded (delivers : Delivers ch.getNextData stream I) (cfg : Settings)
    (loaded : ∀ bytes, I (load bytes) ∧ stream (load bytes) = bytes) (m : ForceCoilsMessage)
    (rest : List Byte) :
    ∃ received data, arrived ch cfg load m.transportMsg rest = (.erNoError, received) ∧
      received.decode .fnForceMultipleCoils =
        .ok (.forceCoils m.start.toNat m.quant.toNat m.bcnt.toNat data) ∧
      ∀ i < 8 * m.bcnt.toNat, Lib.bitOf data i = Lib.bitAt m.data i := by
  obtain ⟨inv, bytes⟩ := loaded (m.transportMsg.wire cfg.crcNoCheckit ++ rest)
  obtain ⟨more, c', received⟩ := recvPdu_coils delivers cfg inv bytes
  refine ⟨_, m.coils ++ more, congrArg Prod.fst received, decode_head m 0x0F _, fun i before => ?_⟩
  exact Lib.bitOf_take m.data (Nat.le_of_lt (byte_inside m.bcnt)) more before

/-! ### Runs -/

/-- **A tidy message carries its bits.** -/
theorem Tidy.carries (delivers : Delivers ch.getNextData stream I) (cfg : Settings)
    (loaded : ∀ bytes, I (load bytes) ∧ stream (load bytes) = bytes) (tidy : Tidy f) :
    CarriesBits (arrived ch cfg load) f := by
  have few := tidy.few
  have count := tidy.quant
  refine ⟨count, tidy.bcnt, fun i below state => ?_, fun rest => ?_, fun full => ?_⟩
  · have exactly : (UInt8.ofNat i).toNat = i := by
      rw [UInt8.toNat_ofNat']
      omega
    have inside : (UInt8.ofNat i).toNat < f.1.quant.toNat := by
      rw [exactly, count]
      exact below
    refine ⟨by rw [setBit_eq inside], fun j => ?_⟩
    rw [setBit_bits inside, exactly]
  · obtain ⟨received, data, came, decoded, bits⟩ := arrived_decoded delivers cfg loaded f.1 rest
    refine ⟨received, f.1.bcnt.toNat, data, came, by rw [decoded, count], fun i below => ?_⟩
    rw [bits i (by rw [tidy.bcnt]; omega), tidy.bits]
  · rw [isFull, decide_eq_true_eq] at full
    exact absurd tidy.room (Nat.not_lt.mpr full)

/-- A message that carries its bits has them in its array. -/
theorem CarriesBits.bits (delivers : Delivers ch.getNextData stream I) (cfg : Settings)
    (loaded : ∀ bytes, I (load bytes) ∧ stream (load bytes) = bytes)
    (carries : CarriesBits (arrived ch cfg load) f) {i : Nat} (below : i < f.2.length) :
    Lib.bitAt f.1.data i = f.2.getD i false := by
  obtain ⟨received, bcnt, data, came, decoded, bits⟩ := carries.decoded []
  obtain ⟨received', data', came', decoded', bits'⟩ := arrived_decoded delivers cfg loaded f.1 []
  have same : received = received' := congrArg Prod.snd (came.symm.trans came')
  rw [same, decoded'] at decoded
  obtain ⟨-, -, -, coils⟩ := Request.forceCoils.inj (Except.ok.inj decoded)
  rw [← bits i below, ← coils, bits' i (by rw [carries.bcnt]; omega)]

/-- **There is no number for bit 256.** -/
theorem CarriesBits.few {arrived : Message → List Byte → MbErrCode × Message}
    (carries : CarriesBits arrived f) : f.2.length ≤ 256 := by
  by_contra many
  have first : (UInt8.ofNat 256).toNat < f.1.quant.toNat := by
    rw [carries.quant]
    exact Nat.lt_of_le_of_lt (Nat.zero_le 256) (Nat.not_le.mp many)
  have kept : ∀ state, Lib.bitAt f.1.data 256 = state := by
    intro state
    have set := (carries.settable 256 (Nat.not_le.mp many) state).2 256
    rw [setBit_bits first] at set
    exact set
  exact absurd ((kept true).symm.trans (kept false)) (by decide)

/-- **A byte that is not zero, behind a part of a byte, is misplaced.** -/
theorem Tidy.misplaced (delivers : Delivers ch.getNextData stream I) (cfg : Settings)
    (loaded : ∀ bytes, I (load bytes) ∧ stream (load bytes) = bytes) (tidy : Tidy f) {d : Byte}
    (partly : f.1.quant.toNat % 8 ≠ 0)
    (carries : CarriesBits (arrived ch cfg load) (f.call (.addData d))) : d = 0 := by
  obtain ⟨called, -, -, bits⟩ := tidy.addData_bits d
  have count := tidy.quant
  have bytes := tidy.bcnt
  rw [called] at carries
  have length : (f.2 ++ Lib.byteBits d).length = f.2.length + 8 := by
    rw [List.length_append, Lib.byteBits_length]
  -- Bit `k` of the byte is where the byte was put, or the zero in front of it.
  have placed : ∀ k < 8, d.toBitVec.getLsbD k =
      if (f.2.length + k) / 8 = f.1.bcnt.toNat then d.toBitVec.getLsbD ((f.2.length + k) % 8)
      else false := by
    intro k small
    have held := carries.bits delivers cfg loaded (i := f.2.length + k) (by rw [length]; omega)
    have behind : ¬ f.2.length + k < f.2.length := by omega
    rw [bits, Lib.getD_append, if_neg behind, Nat.add_sub_cancel_left, Lib.byteBits_getD,
      List.getD_eq_default _ _ (Nat.le_add_right _ _)] at held
    exact held.symm
  refine Lib.eq_zero_of_bits fun k => ?_
  induction k using Nat.strongRecOn with
  | ind k ih =>
    intro small
    rw [placed k small]
    split
    · rename_i here
      exact ih _ (by omega) (by omega)
    · rfl

/-- **Every other call breaks the promise.** -/
theorem Tidy.loses (delivers : Delivers ch.getNextData stream I) (cfg : Settings)
    (loaded : ∀ bytes, I (load bytes) ∧ stream (load bytes) = bytes) (tidy : Tidy f) {c : Call}
    (unfit : ¬ Fitting f c) : ¬ CarriesBits (arrived ch cfg load) (f.call c) := by
  intro carries
  have few := carries.few
  have count := tidy.quant
  cases c with
  | addBit state =>
    have many := Nat.not_lt.mp unfit
    rw [tidy.addBit_bits, List.length_append, List.length_singleton] at few
    omega
  | addData d =>
    rw [(tidy.addData_bits d).1, List.length_append, Lib.byteBits_length] at few
    rcases not_and_or.mp unfit with many | misplaced
    · omega
    · obtain ⟨partly, some⟩ := not_or.mp misplaced
      exact some (tidy.misplaced delivers cfg loaded partly carries)
  | setBit nbit state => exact unfit trivial

/-- **The message carries its bits throughout a run exactly if all its calls are fitting.** -/
theorem coils_carried_iff (delivers : Delivers ch.getNextData stream I) (cfg : Settings)
    (loaded : ∀ bytes, I (load bytes) ∧ stream (load bytes) = bytes) (addr : Byte) (start : UInt16)
    (calls : List Call) :
    machine.Always (CarriesBits (arrived ch cfg load)) (.empty addr start) calls ↔
      machine.Meets Fitting (.empty addr start) calls := by
  refine Lib.Machine.always_iff_meets (fun f tidy => tidy.carries delivers cfg loaded) ?_ ?_
    (Tidy.empty addr start)
  · intro f c f' tidy fits stepped
    cases stepped
    exact tidy.call fits
  · intro f c tidy unfit
    exact ⟨f.call c, rfl, tidy.loses delivers cfg loaded unfit⟩

end Server

/-! ### On a serial line -/

/-- What comes over the line. -/
def serialLoad (bytes : List Byte) : RTUSlave.Port := ⟨bytes, [], []⟩

/-- A byte, a bit, a bit of the byte again, and a byte of zeros behind the bit. -/
theorem coils_carried_mixed :
    machine.Always (CarriesBits (arrived RTUSlave.silentSlave RTUSlave.serial serialLoad))
      (.empty 1 100) [.addData 0xA5, .addBit true, .setBit 3 true, .addData 0, .setBit 12 true] := by
  have delivers : Delivers RTUSlave.silentSlave.getNextData RTUSlave.Port.input fun _ => True :=
    RTUSlave.delivers
  exact (coils_carried_iff delivers RTUSlave.serial (fun bytes => ⟨trivial, rfl⟩) 1 100 _).mpr
    (by decide +kernel)

/-- **What is not carried**: a byte of ones behind a bit. And a message that is full refuses a byte,
but takes one bit more. -/
theorem coils_misplaced :
    ¬ machine.Always (CarriesBits (arrived RTUSlave.silentSlave RTUSlave.serial serialLoad))
      (.empty 1 100) [.addBit true, .addData 0xFF] ∧
    (machine.run (.empty 1 100) (List.replicate 253 (.addData 0))).map
      (fun f => (f.1.isFull, (f.1.addData 0).1, (f.1.addBit true).1)) = some (true, false, 2024) := by
  refine ⟨fun always => ?_, by decide +kernel⟩
  have delivers : Delivers RTUSlave.silentSlave.getNextData RTUSlave.Port.input fun _ => True :=
    RTUSlave.delivers
  have tidy := (Tidy.empty 1 100).addBit (by decide) true
  exact tidy.loses delivers RTUSlave.serial (fun bytes => ⟨trivial, rfl⟩) (by decide +kernel)
    ((always.2 _ rfl).2 _ rfl)

end ForceCoilsMessage

end UniSet.Modbus

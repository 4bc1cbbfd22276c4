/-
**What a master writes to a register of the slave, and what it reads there afterwards.**

* `ofWords` — the value `real_write_prop` makes of the words. For every type but a byte its words are the
  words written (`word_ofWords`).
* `updateRSProperty` — the value a master makes of the words it reads.
* `ReadsBack` — a read gives the words written, and a master with the type reads the value stored.
* **`reads_back_iff`**: this holds exactly for the writes with `ReadsBackWhen`. A byte must be the low one,
  since it is read as the low byte of the word. Without `force` the second word of a value is read
  from a copy of its own, and a write does not change this copy.
-/

import Mathlib.Data.List.GetD
import UniSet.ModbusSlave.InitItem

namespace UniSet.ModbusSlave

open ModbusMaster (ObjectId IOType VType RSProperty genRegID)
open VTypes

/-! ### The master -/

/-- `MBExchange::getBits`. -/
def getBits (value mask : ModbusData) (offset : Nat) : ModbusData :=
  if mask = 0 then value else (value &&& mask) >>> offset

@[simp] theorem getBits_zero (value : ModbusData) (offset : Nat) : getBits value 0 offset = value :=
  if_pos rfl

/-- **`MBExchange::updateRSProperty`** for an analog sensor and a read function: the value given to
`processingAsAI`. The registers of the sensor have been read and the device is not in a safe mode. -/
def updateRSProperty (p : RSProperty) (mask : ModbusData) (offset : Nat) (mbval : Nat → ModbusData) :
    Option Int :=
  match p.vType with
  | .vtUnknown =>
    if p.nbit = none ∧ p.rnum ≤ 1 then some (getBits (mbval 0) mask offset).toInt else none
  | .vtSigned => some (getBits (mbval 0) mask offset).toInt
  | .vtUnsigned => some (getBits (mbval 0) mask offset).toNat
  | .vtByte =>
    if p.nbyte = 0 ∨ 2 < p.nbyte then none
    else some (getBits ((Byte.b (mbval 0) p.nbyte).setWidth 16) mask offset).toNat
  | .vtI2 => some (I2.toLong mbval)
  | .vtI2r => some (I2r.toLong mbval)
  | .vtU2 => some (U2.toLong mbval)
  | .vtU2r => some (U2r.toLong mbval)
  | .vtF2 | .vtF2r | .vtF4 => none

variable {dat : List ModbusData}

/-! ### The words of a value -/

namespace IOProperty

variable (p : IOProperty)

/-- The value a complete write makes of the words. -/
def ofWords (dat : List ModbusData) : Int :=
  match p.vtype with
  | .vtUnknown | .vtSigned => (dat.getD 0 0).toInt
  | .vtUnsigned => (dat.getD 0 0).toNat
  | .vtByte => (Byte.b (dat.getD 0 0) p.nbyte).toNat
  | .vtI2 => I2.toLong fun k => dat.getD k 0
  | .vtI2r => I2r.toLong fun k => dat.getD k 0
  | .vtU2 => U2.toLong fun k => dat.getD k 0
  | .vtU2r => U2r.toLong fun k => dat.getD k 0
  | .vtF2 | .vtF2r | .vtF4 => 0

/-- The word of a value in the register of a number. -/
def wordAt (val : Int) (k : Nat) : ModbusData := { p with wnum := k }.word val

/-- An analog item of an integer type on a register that is written and read. -/
structure Integer : Prop where
  analog : p.isDiscrete = false
  notFloat : p.isFloat = false
  amRW : p.amode = .amRW
  first : p.wnum = 0
  /-- `initItem` refuses other bytes. -/
  nbyte : p.vtype = .vtByte → p.nbyte = 1 ∨ p.nbyte = 2

/-- Nothing converts the value, or the item is one of raw data. -/
def AsIs : Prop :=
  (p.depend = none ∧ p.filter = none ∧ p.cal = none) ∨ p.rawdata = true

variable {p}

theorem word_congr {q : IOProperty} (same : q.vtype = p.vtype) (val : Int) :
    q.word val = p.wordAt val q.wnum := by
  rw [wordAt, word, word]
  simp only [same]

theorem Integer.wsize_cases (integer : p.Integer) : p.vtype.wsize = 1 ∨ p.vtype.wsize = 2 := by
  have whole := integer.notFloat
  rw [isFloat] at whole
  cases kind : p.vtype <;> simp_all [VType.wsize]

/-- A complete write stores the value of its words. -/
theorem Integer.realWriteProp_eq (s : Slave) (integer : p.Integer) {rest : List ModbusData}
    (sm : SMValues) (len : dat.length = p.vtype.wsize) :
    p.realWriteProp s (dat ++ rest) sm = p.writeAI s (p.ofWords dat) p.taken sm := by
  have apart : p.amode ≠ .amRO := by rw [integer.amRW]; decide
  have whole := integer.notFloat
  have get : ∀ k < p.vtype.wsize, (dat ++ rest).getD k 0 = dat.getD k 0 := fun k inside =>
    List.getD_append _ _ _ _ (by omega)
  have short : ¬(dat ++ rest).length < p.vtype.wsize := by
    rw [List.length_append]
    omega
  have pos : 0 < p.vtype.wsize := by rcases integer.wsize_cases with size | size <;> omega
  rw [realWriteProp, if_neg apart, ofWords, taken]
  simp only [apart, false_or, writeWords, if_neg short, get 0 pos, integer.analog]
  rw [isFloat] at whole
  cases kind : p.vtype <;> simp only [kind] at whole get <;> simp only [VType.wsize] at get ⊢
  case vtUnknown => rfl
  case vtF2 => cases whole
  case vtF2r => cases whole
  case vtF4 => cases whole
  case vtByte => rfl
  case vtUnsigned => rfl
  case vtSigned => rfl
  case vtI2 => rw [I2.toLong_congr get]; rfl
  case vtI2r => rw [I2r.toLong_congr get]; rfl
  case vtU2 => rw [U2.toLong_congr get]; rfl
  case vtU2r => rw [U2r.toLong_congr get]; rfl

/-- **The words of the value written are the words written**, unless it is a byte. -/
theorem Integer.word_ofWords (integer : p.Integer) (wide : p.vtype ≠ .vtByte) (dat : List ModbusData)
    {k : Nat} (less : k < p.vtype.wsize) : p.wordAt (p.ofWords dat) k = dat.getD k 0 := by
  have whole := integer.notFloat
  rw [isFloat] at whole
  rw [wordAt, word, ofWords]
  cases kind : p.vtype <;> simp only [kind] at whole wide less <;> simp only [VType.wsize] at less
  case vtUnknown => rw [Nat.lt_one_iff.mp less]; exact BitVec.ofInt_toInt
  case vtF2 => cases whole
  case vtF2r => cases whole
  case vtF4 => cases whole
  case vtByte => exact absurd rfl wide
  case vtUnsigned => rw [Nat.lt_one_iff.mp less]; exact ofInt_toNat _
  case vtSigned => rw [Nat.lt_one_iff.mp less]; exact BitVec.ofInt_toInt
  case vtI2 => exact I2.words_toLong less
  case vtI2r => exact I2r.words_toLong less
  case vtU2 => exact U2.words_toLong less
  case vtU2r => exact U2r.words_toLong less

/-- The word carries the one written: it is this word, or has the byte of the item. -/
def Carries (p : IOProperty) (word dat : ModbusData) : Prop :=
  if p.vtype = .vtByte then Byte.b word p.nbyte = Byte.b dat p.nbyte else word = dat

instance (p : IOProperty) (word dat : ModbusData) : Decidable (p.Carries word dat) :=
  inferInstanceAs (Decidable (if p.vtype = .vtByte then _ else _))

theorem Integer.ofWords_eq (integer : p.Integer) {dat' : List ModbusData}
    (carries : ∀ k < p.vtype.wsize, p.Carries (dat'.getD k 0) (dat.getD k 0)) :
    p.ofWords dat' = p.ofWords dat := by
  have whole := integer.notFloat
  rw [isFloat] at whole
  rw [ofWords, ofWords]
  cases kind : p.vtype <;> simp only [Carries, kind] at whole carries <;> simp only [VType.wsize] at carries
  case vtUnknown => exact congrArg BitVec.toInt (carries 0 (by decide))
  case vtF2 => cases whole
  case vtF2r => cases whole
  case vtF4 => cases whole
  case vtByte => exact congrArg (fun b : BitVec 8 => (b.toNat : Int)) (carries 0 (by decide))
  case vtUnsigned => exact congrArg (fun w : ModbusData => (w.toNat : Int)) (carries 0 (by decide))
  case vtSigned => exact congrArg BitVec.toInt (carries 0 (by decide))
  case vtI2 => exact I2.toLong_congr carries
  case vtI2r => exact I2r.toLong_congr carries
  case vtU2 => exact U2.toLong_congr carries
  case vtU2r => exact U2r.toLong_congr carries

end IOProperty

/-- **A master that has the item with the same type**, with the whole registers for its value. -/
structure SameType (p : IOProperty) (r : RSProperty) : Prop where
  vType : r.vType = p.vtype
  nbyte : r.nbyte = p.nbyte
  nbit : r.nbit = none
  rnum : r.rnum ≤ 1

/-- The master makes of the words what the slave makes of them. -/
theorem SameType.updateRSProperty_eq {p : IOProperty} {r : RSProperty} (sameType : SameType p r)
    (integer : p.Integer) (offset : Nat) (dat : List ModbusData) :
    updateRSProperty r 0 offset (fun k => dat.getD k 0) = some (p.ofWords dat) := by
  have whole := integer.notFloat
  have byte := integer.nbyte
  rw [IOProperty.isFloat] at whole
  rw [updateRSProperty, IOProperty.ofWords, sameType.vType, sameType.nbyte]
  cases kind : p.vtype <;> simp only [kind] at whole byte
  case vtUnknown => rw [if_pos ⟨sameType.nbit, sameType.rnum⟩]; rfl
  case vtF2 => cases whole
  case vtF2r => cases whole
  case vtF4 => cases whole
  case vtByte =>
    have range : ¬(p.nbyte = 0 ∨ 2 < p.nbyte) := by rcases byte trivial with one | two <;> omega
    have less := (Byte.b (dat.getD 0 0) p.nbyte).isLt
    dsimp only
    rw [if_neg range, getBits_zero, BitVec.toNat_setWidth, Nat.mod_eq_of_lt (by omega)]
  case vtUnsigned => rfl
  case vtSigned => rfl
  case vtI2 => rfl
  case vtI2r => rfl
  case vtU2 => rfl
  case vtU2r => rfl

/-! ### A write and a read -/

/-- **A complete write of an item**: the request stops at its first register and has all its words. -/
structure CompleteWrite (s : Slave) (m : RegMap) (w : Slave.Write) (p : IOProperty)
    (dat : List ModbusData) : Prop where
  stop : ∃ rest, (⟨p, none⟩, dat ++ rest) ∈ s.writeStops m w
  length : dat.length = p.vtype.wsize

/-- The request writes no sensor the item reads by another register. -/
def OnlyWriter (s : Slave) (m : RegMap) (w : Slave.Write) (p : IOProperty) : Prop :=
  ∀ other ∈ s.writeStops m w, other.1.regID ≠ p.regID → ∀ id ∈ other.1.ids, ¬p.Reads id

/-- **The item of the second word** of a value, as `initItem` makes it: a copy of the first one. -/
structure SecondWord (m : RegMap) (p q : IOProperty) : Prop where
  find : m.find (p.regID + 1) = some ⟨q, none⟩
  vtype : q.vtype = p.vtype
  wnum : q.wnum = 1
  amode : q.amode = p.amode
  base : p.toIOBase.SameItem q.toIOBase

/-- **What is written to the registers of the item is read back.** -/
structure ReadsBack (s : Slave) (m : RegMap) (sm : SMValues) (p : IOProperty) (dat : List ModbusData)
    (start func : Nat) (r : RSProperty) (offset : Nat) : Prop where
  code : (s.readOutputRegisters m start p.vtype.wsize func sm).1 = .erNoError
  words : ∀ k < p.vtype.wsize, p.Carries
    ((s.readOutputRegisters m start p.vtype.wsize func sm).2.1.getD k 0) (dat.getD k 0)
  /-- The master reads the value the slave stores. -/
  master : ∃ p' : IOProperty, m.find p.regID = some ⟨p', none⟩ ∧
    updateRSProperty r 0 offset
      (fun k => (s.readOutputRegisters m start p.vtype.wsize func sm).2.1.getD k 0) = some p'.value

/-- SharedMemory once the value of the words is stored. -/
def IOProperty.stored (s : Slave) (p : IOProperty) (dat : List ModbusData) (sm : SMValues) :
    SMValues :=
  (p.processingAsAI (p.ofWords dat) sm s.force).2

/-- **The writes that are read back.** -/
structure ReadsBackWhen (s : Slave) (sm : SMValues) (p q : IOProperty) (dat : List ModbusData) :
    Prop where
  /-- The dependency and the filter, which raw data may have, let the value in. -/
  same : p.fromAI (p.ofWords dat) sm = p.ofWords dat
  /-- If the item then misses what it depends on, another value is read. -/
  off : p.checkDepend (p.stored s dat sm) = false →
    ∀ k < p.vtype.wsize, p.Carries (p.wordAt p.dOffValue k) (dat.getD k 0)
  /-- A byte is read as the low one. -/
  lowByte : p.checkDepend (p.stored s dat sm) = true → p.vtype = .vtByte →
    p.nbyte = 1 ∨ Byte.b (dat.getD 0 0) p.nbyte = 0
  /-- The second word is read from its own copy. -/
  secondWord : p.checkDepend (p.stored s dat sm) = true → p.vtype.wsize = 2 →
    s.force = true ∨ p.wordAt q.value 1 = dat.getD 1 0

/-- An item without conversions is written and read as it is. -/
theorem readsBackWhen_plain {s : Slave} {sm : SMValues} {p q : IOProperty} (integer : p.Integer)
    (dep : p.depend = none) (absent : p.filter = none) (absent' : p.cal = none)
    (low : p.vtype = .vtByte → p.nbyte = 1 ∨ Byte.b (dat.getD 0 0) p.nbyte = 0)
    (second : p.vtype.wsize = 2 → s.force = true ∨ p.wordAt q.value 1 = dat.getD 1 0) :
    ReadsBackWhen s sm p q dat := by
  have met : ∀ sm, p.checkDepend sm = true := fun sm => by rw [IOBase.checkDepend, dep]
  refine ⟨?_, ?_, fun _ => low, fun _ => second⟩
  · rw [IOBase.fromAI, integer.analog, met, absent, absent']
    simp
  · intro unmet
    rw [met] at unmet
    cases unmet

/-! ### What a read finds -/

section Found

variable {s : Slave} {m m' : RegMap} {sm sm' : SMValues} {w : Slave.Write} {p q : IOProperty}
  {dat : List ModbusData}

/-- The state a complete write leaves for a read of the item. -/
structure Found (s : Slave) (m' : RegMap) (sm sm' : SMValues) (p q p' : IOProperty)
    (dat : List ModbusData) : Prop where
  first : m'.find p.regID = some ⟨p', none⟩
  item : p.SameItem p'
  value : p'.value = p.fromAI (p.ofWords dat) sm
  second : p.vtype.wsize = 2 → SecondWord m' p q
  reads : ∀ id, p.Reads id → sm' id = p.stored s dat sm id

/-- **What a complete write leaves**: the value in the copy of the first word and in SharedMemory, the
copy of the second word as it was. -/
theorem CompleteWrite.found (integer : p.Integer) (write : CompleteWrite s m w p dat)
    (onlyWriter : OnlyWriter s m w p) (second : p.vtype.wsize = 2 → SecondWord m p q) :
    ∃ p', Found s (s.exec m sm w).2.1 sm (s.exec m sm w).2.2 p q p' dat := by
  obtain ⟨rest, stops⟩ := write.stop
  obtain ⟨sm₁, memory, placed, after⟩ := Slave.exec_stop sm p.Reads stops onlyWriter
  have holds : (Register.mk p none).realWriteIt s (dat ++ rest) sm₁ =
      ⟨.erNoError, ⟨p.withBase (p.processingAsAI (p.ofWords dat) sm₁ s.force).1, none⟩,
        p.stored s dat sm₁, p.taken⟩ := by
    rw [Register.realWriteIt]
    dsimp only
    rw [integer.realWriteProp_eq s sm₁ write.length]
    rfl
  rw [holds] at placed after
  dsimp only at after
  refine ⟨_, placed, ?_, ?_, ?_, ?_⟩
  · exact p.withBase_sameItem (IOBase.processingAsAI_sameItem _ _ _ _)
  · show (p.processingAsAI (p.ofWords dat) sm₁ s.force).1.value = _
    rw [IOBase.processingAsAI_value, IOBase.fromAI_congr memory]
  · intro size
    have second' := second size
    have same : (Register.mk q none).regID = p.regID + 1 := (m.mem_of_find second'.find).2
    have same' : sub (Register.mk p none).taken = 2 := by
      have apart' : p.amode ≠ .amRO := by rw [integer.amRW]; decide
      show sub p.taken = 2
      rw [IOProperty.taken, size]
      simp [apart', sub]
    refine { second' with find := ?_ }
    rw [← same]
    refine Slave.exec_passed sm (by rw [same]; exact second'.find) ?_
    intro other mem equal
    by_cases equal' : other = (⟨p, none⟩, dat ++ rest)
    · subst equal'
      have same'' : p.regID = p.regID + 1 := equal.trans same
      omega
    · have first : (Register.mk p none).regID = p.regID := rfl
      rcases Slave.writeStops_apart stops mem equal' with apart | apart
      · dsimp only at apart
        omega
      · dsimp only at apart
        omega
  · intro id reads
    rw [after id reads]
    exact IOBase.processingAsAI_congr memory _ _ reads

theorem realReadIt_eq {x : IOProperty} (integer : p.Integer) (hasIs : p.AsIs)
    (base : p.toIOBase.SameItem x.toIOBase) (same : x.vtype = p.vtype) (same' : x.amode = p.amode)
    (reads : ∀ id, p.Reads id → sm' id = p.stored s dat sm id) :
    (Register.mk x none).realReadIt s sm' = (.erNoError, p.wordAt
      (if p.checkDepend (p.stored s dat sm) then
        (if s.force then p.fromAI (p.ofWords dat) sm else x.value) else p.dOffValue) x.wnum) := by
  have apart : x.amode ≠ .amWO := by rw [same', integer.amRW]; decide
  have discrete : x.isDiscrete = false := by rw [base]; exact integer.analog
  have float : x.isFloat = false := by rw [IOProperty.isFloat, same]; exact integer.notFloat
  have depend : x.checkDepend sm' = p.checkDepend (p.stored s dat sm) := by
    rw [base.checkDepend, IOBase.checkDepend_congr reads]
  have either : x.cal = none ∨ x.rawdata = true := by
    rw [base]
    rcases hasIs with ⟨_, _, either⟩ | raw
    · exact Or.inl either
    · exact Or.inr raw
  have off : x.dOffValue = p.dOffValue := by rw [base]; rfl
  rw [Register.realReadIt]
  dsimp only
  rw [IOProperty.realReadProp, if_neg apart, discrete, float, if_neg Bool.false_ne_true,
    if_neg Bool.false_ne_true, IOProperty.word_congr same, IOBase.processingAsAO_asIs either, depend,
    off]
  cases forced : s.force with
  | false => rfl
  | true =>
    have self : sm' x.si.id = p.fromAI (p.ofWords dat) sm := by
      rw [base.si, reads _ (Or.inl rfl), IOProperty.stored, forced, IOBase.processingAsAI_force]
    simp only [if_true, self]

/-- The value the word of a number is read from. -/
def IOProperty.seen (s : Slave) (p q : IOProperty) (dat : List ModbusData) (sm : SMValues)
    (k : Nat) : Int :=
  if p.checkDepend (p.stored s dat sm) then
    (if s.force = true ∨ k = 0 then p.fromAI (p.ofWords dat) sm else q.value)
  else p.dOffValue

/-- **A read of the item gives the words of what is seen.** -/
theorem Found.read {p' : IOProperty} (found : Found s m' sm sm' p q p' dat) (integer : p.Integer)
    (hasIs : p.AsIs) {start func : Nat} (same : s.regID start func = p.regID) :
    (s.readOutputRegisters m' start p.vtype.wsize func sm').1 = .erNoError ∧
    ∀ k < p.vtype.wsize, (s.readOutputRegisters m' start p.vtype.wsize func sm').2.1.getD k 0 =
      p.wordAt (p.seen s q dat sm k) k := by
  have equal : p'.wnum = 0 := by rw [found.item.1]; exact integer.first
  have holds' : (Register.mk p' none).realReadIt s sm' =
      (.erNoError, p.wordAt (p.seen s q dat sm 0) 0) := by
    rw [realReadIt_eq integer hasIs found.item.2 (by rw [found.item.1]; rfl)
      (by rw [found.item.1]; rfl) found.reads, equal,
      IOProperty.seen, found.value]
    simp
  rcases integer.wsize_cases with size | size
  · rw [size, Slave.readOutputRegisters, if_neg (by decide), if_pos rfl, Slave.realRead, same,
      found.first]
    dsimp only
    rw [holds']
    refine ⟨rfl, ?_⟩
    intro k inside
    rw [Nat.lt_one_iff.mp inside]
    rfl
  · have next := found.second size
    have holds : (Register.mk q none).realReadIt s sm' =
        (.erNoError, p.wordAt (p.seen s q dat sm 1) 1) := by
      rw [realReadIt_eq integer hasIs next.base next.vtype next.amode found.reads, next.wnum, IOProperty.seen]
      simp
    have found' : m'.firstFound p.regID 2 = some 0 := by
      rw [RegMap.firstFound, List.range_succ_eq_map, List.find?_cons_of_pos]
      rw [Nat.add_zero, found.first]
      rfl
    have same' : (Register.mk p' none).regID = p.regID := (m'.mem_of_find found.first).2
    have regID' : (Register.mk q none).regID = p.regID + 1 := (m'.mem_of_find next.find).2
    obtain ⟨code, words⟩ := s.muchRead_eq sm' (same ▸ found')
    rw [size, Slave.readOutputRegisters, if_neg (by decide), if_neg (by decide), words, same,
      Nat.add_zero, m'.fromID_of_find found.first, m'.fromID_of_find next.find, readWalk, if_pos same',
      holds', readWalk, if_pos regID', holds]
    refine ⟨code, ?_⟩
    intro k inside
    have cases : k = 0 ∨ k = 1 := by omega
    rcases cases with rfl | rfl <;> rfl

end Found

/-! ### A map with one sensor -/

/-- An item on the registers from 10 on. -/
def plainProp (vtype : VType) (nbyte : Nat) : IOProperty where
  toIOBase := plainBase 100
  mbreg := 10
  amode := .amRW
  vtype := vtype
  wnum := 0
  nbyte := nbyte
  regID := genRegID 10 0

/-- Its sensor on the side of a master. -/
def plainProperty (vtype : VType) (nbyte : Nat) : RSProperty where
  si := ⟨200, 0⟩
  stype := .AI
  nbit := none
  vType := vtype
  rnum := 1
  nbyte := nbyte
  mask := 0
  value := 0

def plainMap (vtype : VType) (nbyte : Nat) : RegMap :=
  Slave.initWords .empty (plainProp vtype nbyte) 0

theorem plainProp_integer {vtype : VType} {nbyte : Nat}
    (float : (plainProp vtype nbyte).isFloat = false) (byte : vtype = .vtByte → nbyte = 1 ∨ nbyte = 2) :
    (plainProp vtype nbyte).Integer := ⟨rfl, float, rfl, rfl, byte⟩

/-! ### Which writes are read back -/

section Iff

variable {s : Slave} {m : RegMap} {sm : SMValues} {w : Slave.Write} {p q : IOProperty}
  {dat : List ModbusData}

/-- A byte stored is read as the low byte of the word. -/
theorem byte_carried (dat : ModbusData) {nbyte : Nat} (number : nbyte = 1 ∨ nbyte = 2) :
    Byte.b (.ofInt 16 ((Byte.b dat nbyte).toNat : Int)) nbyte = Byte.b dat nbyte ↔
      nbyte = 1 ∨ Byte.b dat nbyte = 0 := by
  generalize Byte.b dat nbyte = byte
  rw [BitVec.ofInt_natCast]
  rcases number with rfl | rfl
  · refine ⟨fun _ => Or.inl rfl, fun _ => ?_⟩
    apply BitVec.eq_of_getLsbD_eq
    intro i inside
    simp [Byte.b, inside, Nat.lt_of_lt_of_le inside]
  · have high : Byte.b (BitVec.ofNat 16 byte.toNat) 2 = 0 := by
      apply BitVec.eq_of_getLsbD_eq
      intro i inside
      simp [Byte.b]
    rw [high]
    constructor
    · intro carried
      exact Or.inr carried.symm
    · intro carried
      rcases carried with carried | carried
      · cases carried
      · exact carried.symm

/-- The words of what is seen carry the words written: when they do. -/
theorem seen_carries (integer : p.Integer) (same : p.fromAI (p.ofWords dat) sm = p.ofWords dat)
    (met : p.checkDepend (p.stored s dat sm) = true) :
    (∀ k < p.vtype.wsize, p.Carries (p.wordAt (p.seen s q dat sm k) k) (dat.getD k 0)) ↔
      (p.vtype = .vtByte → p.nbyte = 1 ∨ Byte.b (dat.getD 0 0) p.nbyte = 0) ∧
      (p.vtype.wsize = 2 → s.force = true ∨ p.wordAt q.value 1 = dat.getD 1 0) := by
  have holds : ∀ k, p.seen s q dat sm k =
      if s.force = true ∨ k = 0 then p.ofWords dat else q.value := fun k => by
    rw [IOProperty.seen, if_pos met, same]
  simp only [holds]
  by_cases byte : p.vtype = .vtByte
  · have size : p.vtype.wsize = 1 := by rw [byte]; rfl
    have carries' : p.Carries (p.wordAt (p.ofWords dat) 0) (dat.getD 0 0) ↔
        p.nbyte = 1 ∨ Byte.b (dat.getD 0 0) p.nbyte = 0 := by
      rw [← byte_carried _ (integer.nbyte byte), IOProperty.Carries, if_pos byte, IOProperty.wordAt,
        IOProperty.word, IOProperty.ofWords]
      simp only [byte]
    constructor
    · intro carries
      refine ⟨fun _ => carries'.mp ?_, fun two => by omega⟩
      simpa using carries 0 (by omega)
    · rintro ⟨carries, -⟩ k inside
      have zero : k = 0 := by omega
      subst zero
      simpa using carries'.mpr (carries byte)
  · have words' := fun k => @IOProperty.Integer.word_ofWords p integer byte dat k
    simp only [IOProperty.Carries, if_neg byte]
    constructor
    · intro carries
      refine ⟨fun narrow => absurd narrow byte, fun two => ?_⟩
      have one := carries 1 (by omega)
      cases forced : s.force with
      | true => exact Or.inl rfl
      | false =>
        rw [forced] at one
        exact Or.inr (by simpa using one)
    · rintro ⟨-, carries⟩ k inside
      split
      · exact words' k inside
      · next apart =>
        rw [not_or] at apart
        have size := integer.wsize_cases
        have one : k = 1 := by omega
        subst one
        rcases carries (by omega) with forced | kept
        · exact absurd forced apart.1
        · exact kept

/-- **A write is read back exactly if it is one of `ReadsBackWhen`**, with `force` and without it, and the
master reads the value stored. -/
theorem reads_back_iff (integer : p.Integer) (hasIs : p.AsIs)
    (second : p.vtype.wsize = 2 → SecondWord m p q) (write : CompleteWrite s m w p dat)
    (onlyWriter : OnlyWriter s m w p) {start func : Nat} (reached : s.regID start func = p.regID)
    {r : RSProperty} (sameType : SameType p r) (offset : Nat) :
    ReadsBack s (s.exec m sm w).2.1 (s.exec m sm w).2.2 p dat start func r offset ↔
      ReadsBackWhen s sm p q dat := by
  obtain ⟨p', placed⟩ := @CompleteWrite.found s m sm w p q dat integer write onlyWriter second
  obtain ⟨code, gives⟩ := placed.read integer hasIs reached
  constructor
  · intro back
    obtain ⟨x, mem, reads⟩ := back.master
    rw [placed.first, Option.some.injEq, Register.mk.injEq] at mem
    obtain rfl := mem.1
    have equal : p.fromAI (p.ofWords dat) sm = p.ofWords dat := by
      rw [sameType.updateRSProperty_eq integer, Option.some.injEq, integer.ofWords_eq back.words, placed.value]
        at reads
      exact reads.symm
    have less : ∀ k < p.vtype.wsize,
        p.Carries (p.wordAt (p.seen s q dat sm k) k) (dat.getD k 0) := fun k inside =>
      gives k inside ▸ back.words k inside
    refine ⟨equal, ?_, fun met => ((seen_carries integer equal met).mp less).1,
      fun met => ((seen_carries integer equal met).mp less).2⟩
    intro unmet k inside
    have carried := less k inside
    rwa [IOProperty.seen, unmet, if_neg Bool.false_ne_true] at carried
  · intro back
    have less : ∀ k < p.vtype.wsize,
        p.Carries (p.wordAt (p.seen s q dat sm k) k) (dat.getD k 0) := by
      cases met : p.checkDepend (p.stored s dat sm) with
      | true => exact (seen_carries integer back.same met).mpr ⟨back.lowByte met, back.secondWord met⟩
      | false =>
        intro k inside
        rw [IOProperty.seen, met, if_neg Bool.false_ne_true]
        exact back.off met k inside
    have carry : ∀ k < p.vtype.wsize, p.Carries
        ((s.readOutputRegisters (s.exec m sm w).2.1 start p.vtype.wsize func
          (s.exec m sm w).2.2).2.1.getD k 0) (dat.getD k 0) := fun k inside => by
      rw [gives k inside]
      exact less k inside
    refine ⟨code, carry, p', placed.first, ?_⟩
    rw [sameType.updateRSProperty_eq integer, integer.ofWords_eq carry, placed.value, back.same]

/-- With `force` both words are read from SharedMemory. -/
theorem reads_back_forced :
    let s := { plainSlave with force := true }
    let m := plainMap .vtU2 0
    let done := s.exec m (fun _ => 0) (.writeOutputRegisters 10 [1, 1] 0x10)
    ReadsBack s done.2.1 done.2.2 (plainProp .vtU2 0) [1, 1] 10 0x03 (plainProperty .vtU2 0) 0 := by
  have find := (Slave.initWords_find (m := .empty) (p := plainProp .vtU2 0)
    (show (plainProp .vtU2 0).regID = genRegID 10 0 from rfl) (by decide)).2 1 (by decide) (by decide)
  have integer : (plainProp .vtU2 0).Integer := plainProp_integer rfl (by decide)
  refine (reads_back_iff (m := plainMap .vtU2 0) (q := Slave.wordProp (plainProp .vtU2 0) 0 1) integer
    (Or.inl ⟨rfl, rfl, rfl⟩) (fun _ => ⟨find, rfl, rfl, rfl, rfl⟩)
    ⟨⟨[], List.mem_singleton.mpr rfl⟩, rfl⟩ ?_ rfl ⟨rfl, rfl, rfl, by decide⟩ 0).mpr
    (readsBackWhen_plain integer rfl rfl rfl (by decide) fun _ => Or.inl rfl)
  intro other mem apart
  have same : other = (⟨plainProp .vtU2 0, none⟩, [1, 1]) := List.mem_singleton.mp mem
  rw [same] at apart
  exact absurd rfl apart

/-- Without `force` the second word is the one of the default value: 1, 1 is read back as 1, 0. -/
theorem second_word_stale :
    let p := plainProp .vtU2 0
    let m := plainMap .vtU2 0
    let w := Slave.Write.writeOutputRegisters 10 [1, 1] 0x10
    let done := plainSlave.exec m (fun _ => 0) w
    p.Integer ∧ p.AsIs ∧ CompleteWrite plainSlave m w p [1, 1] ∧ OnlyWriter plainSlave m w p ∧
      ¬ReadsBack plainSlave done.2.1 done.2.2 p [1, 1] 10 0x03 (plainProperty .vtU2 0) 0 := by
  refine ⟨plainProp_integer rfl (by decide), Or.inl ⟨rfl, rfl, rfl⟩,
    ⟨⟨[], List.mem_singleton.mpr rfl⟩, rfl⟩, ?_, ?_⟩
  · intro other mem apart
    have same : other = (⟨plainProp .vtU2 0, none⟩, [1, 1]) := List.mem_singleton.mp mem
    rw [same] at apart
    exact absurd rfl apart
  · intro same
    exact absurd (same.words 1 (by decide)) (by decide +kernel)

end Iff

end UniSet.ModbusSlave

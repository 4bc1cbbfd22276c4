/-
**The registers of a Modbus slave: how an item is written and read.**

* `IOProperty`, `Register` — an item of the map and its registers. The words of a value lie in
  registers of their own, each with its own copy of the value.
* `realWriteProp`, `realReadProp` — one item is written or read.
* `realWriteIt`, `realReadIt` — a register, which may consist of bits.
-/

import Mathlib.Data.List.Basic
import Mathlib.Data.Fintype.Basic
import UniSet.IOBase
import UniSet.VTypes

namespace UniSet.ModbusSlave

open ModbusMaster (ObjectId SensorInfo IOType VType genRegID)
open VTypes

inductive AccessMode
  | amRW | amRO | amWO
deriving DecidableEq, Repr

/-- `ModbusRTU::mbErrCode`. -/
inductive MbErrCode
  | erNoError | erBadDataAddress | erBadDataValue | erInvalidFormat
deriving DecidableEq, Repr

/-- **`MBSlave::IOProperty`.** -/
structure IOProperty extends IOBase where
  mbreg : Nat
  amode : AccessMode
  vtype : VType
  wnum : Nat
  nbyte : Nat
  regID : Nat

/-- Values of the types with a floating point: what `processingFasAI` makes of the words of a value, and
the words of what `processingFasAO` reads. -/
structure FloatTypes where
  fromAI : IOProperty → List ModbusData → SMValues → Int
  word : IOProperty → SMValues → Bool → ModbusData

/-- The settings of the slave. -/
structure Slave where
  force : Bool
  checkMBFunc : Bool
  defaultMbfunc : Nat
  noMBFuncOptimize : Bool
  floats : FloatTypes

/-- `BitRegProperty`: the items of the bits. A free bit has no sensor. -/
abbrev BitRegProperty := Fin 16 → Option IOProperty

/-- **A register of the map**, with its bits if it is one of bits. -/
structure Register where
  prop : IOProperty
  bitreg : Option BitRegProperty

/-- The word of these bits, `DataBits16::mdata`. -/
def mdata (d : Fin 16 → Bool) : ModbusData := (BitVec.iunfoldr (fun i (_ : Unit) => ((), d i)) ()).2

theorem getLsbD_mdata (d : Fin 16 → Bool) (i : Fin 16) : (mdata d).getLsbD i = d i :=
  BitVec.iunfoldr_getLsbD (fun _ => ()) i fun _ => rfl

/-! ### A write of an item -/

/-- What a write of an item leaves: its code, the item, SharedMemory, and how many words it took. A
write that does not move the index has taken none. -/
structure Written where
  err : MbErrCode
  prop : IOProperty
  sm : SMValues
  taken : Nat

variable {id : ObjectId}

namespace IOProperty

variable (s : Slave) (p : IOProperty)

/-- A value for `processingAsAI`. -/
def writeAI (val : Int) (taken : Nat) (sm : SMValues) : Written where
  err := .erNoError
  prop := { p with toIOBase := (p.toIOBase.processingAsAI val sm s.force).1 }
  sm := (p.toIOBase.processingAsAI val sm s.force).2
  taken := taken

/-- A state for `processingAsDI`. -/
def writeDI (set : Bool) (sm : SMValues) : Written where
  err := .erNoError
  prop := { p with toIOBase := (p.toIOBase.processingAsDI set sm s.force).1 }
  sm := (p.toIOBase.processingAsDI set sm s.force).2
  taken := 0

/-- A value of several words, if the request has all of them. -/
def writeWords (dat : List ModbusData) (sm : SMValues) (val : (Nat → ModbusData) → Int) : Written :=
  if dat.length < p.vtype.wsize then ⟨.erInvalidFormat, p, sm, p.vtype.wsize⟩
  else p.writeAI s (val fun k => dat.getD k 0) p.vtype.wsize sm

/-- A value with a floating point, if the request has all its words. -/
def writeFloat (dat : List ModbusData) (sm : SMValues) : Written :=
  if dat.length < p.vtype.wsize then ⟨.erInvalidFormat, p, sm, p.vtype.wsize⟩
  else
    let val := s.floats.fromAI p (dat.take p.vtype.wsize) sm
    { err := .erNoError
      prop := { p with toIOBase := (p.toIOBase.save val sm s.force).1 }
      sm := (p.toIOBase.save val sm s.force).2
      taken := p.vtype.wsize }

/-- **`MBSlave::real_write_prop`**; `dat` are the words of the request from its index on. -/
def realWriteProp (dat : List ModbusData) (sm : SMValues) : Written :=
  let mbval := dat.getD 0 0
  if p.amode = .amRO then ⟨.erBadDataAddress, p, sm, 0⟩
  else
    match p.vtype with
    | .vtUnknown =>
      if p.isDiscrete then p.writeDI s (decide (mbval ≠ 0)) sm
      else p.writeAI s mbval.toInt 0 sm
    | .vtUnsigned => p.writeAI s mbval.toNat 0 sm
    | .vtSigned => p.writeAI s mbval.toInt 0 sm
    | .vtI2 => p.writeWords s dat sm I2.toLong
    | .vtI2r => p.writeWords s dat sm I2r.toLong
    | .vtU2 => p.writeWords s dat sm U2.toLong
    | .vtU2r => p.writeWords s dat sm U2r.toLong
    | .vtF2 | .vtF2r | .vtF4 => p.writeFloat s dat sm
    | .vtByte => p.writeAI s (Byte.b mbval p.nbyte).toNat 0 sm

/-! ### A read of an item -/

/-- The word of a value that is read from an item, `val` of `processingAsAO`. -/
def word (val : Int) : ModbusData :=
  match p.vtype with
  | .vtI2 => I2.rawV val p.wnum
  | .vtI2r => I2r.rawBackorder val p.wnum
  | .vtU2 => U2.rawV val p.wnum
  | .vtU2r => U2r.rawBackorder val p.wnum
  | _ => .ofInt 16 val

/-- Whether the values of the type have a floating point. -/
def isFloat : Bool := p.vtype = .vtF2 || p.vtype = .vtF2r || p.vtype = .vtF4

/-- **`MBSlave::real_read_prop`.** -/
def realReadProp (sm : SMValues) : MbErrCode × ModbusData :=
  if p.amode = .amWO then (.erBadDataAddress, 0)
  else if p.isDiscrete then (.erNoError, if p.processingAsDO sm s.force then 1 else 0)
  else if p.isFloat then (.erNoError, s.floats.word p sm s.force)
  else (.erNoError, p.word (p.processingAsAO sm s.force))

/-- The item after a read. -/
def afterRead (sm : SMValues) : IOProperty :=
  if p.amode = .amWO || p.isDiscrete then p
  else { p with toIOBase := p.toIOBase.refresh sm s.force }

/-! ### What a write and a read leave as it is -/

/-- The item with another state of its value. -/
def withBase (it : IOBase) : IOProperty := { p with toIOBase := it }

/-- **Items that differ in the copy of the value and the state of the filters only.** -/
def SameItem (p' : IOProperty) : Prop :=
  p' = p.withBase p'.toIOBase ∧ p.toIOBase.SameItem p'.toIOBase

variable {p} in
theorem SameItem.si {p' : IOProperty} (sameItem : p.SameItem p') : p'.si = p.si := sameItem.2.si

variable {p} in
theorem SameItem.regID {p' : IOProperty} (sameItem : p.SameItem p') : p'.regID = p.regID := by
  rw [sameItem.1]
  rfl

theorem SameItem.refl : p.SameItem p := ⟨rfl, rfl⟩

theorem withBase_sameItem {it : IOBase} (sameItem : p.toIOBase.SameItem it) : p.SameItem (p.withBase it) :=
  ⟨rfl, sameItem⟩

theorem writeWords_sameItem (dat : List ModbusData) (sm : SMValues)
    (val : (Nat → ModbusData) → Int) : p.SameItem (p.writeWords s dat sm val).prop := by
  rw [writeWords]
  split
  · exact .refl p
  · exact withBase_sameItem p (IOBase.processingAsAI_sameItem _ _ _ _)

theorem writeFloat_sameItem (dat : List ModbusData) (sm : SMValues) :
    p.SameItem (p.writeFloat s dat sm).prop := by
  rw [writeFloat]
  split
  · exact .refl p
  · exact withBase_sameItem p (IOBase.save_sameItem _ _ _ _)

theorem realWriteProp_sameItem (dat : List ModbusData) (sm : SMValues) :
    p.SameItem (p.realWriteProp s dat sm).prop := by
  have analog : ∀ (val : Int) (taken : Nat), p.SameItem (p.writeAI s val taken sm).prop :=
    fun _ _ => withBase_sameItem p (IOBase.processingAsAI_sameItem _ _ _ _)
  have discrete : ∀ set : Bool, p.SameItem (p.writeDI s set sm).prop :=
    fun _ => withBase_sameItem p (IOBase.processingAsDI_sameItem _ _ _ _)
  rw [realWriteProp]
  split
  · exact .refl p
  · split
    · split
      · exact discrete _
      · exact analog _ _
    · exact analog _ _
    · exact analog _ _
    · exact writeWords_sameItem s p _ _ _
    · exact writeWords_sameItem s p _ _ _
    · exact writeWords_sameItem s p _ _ _
    · exact writeWords_sameItem s p _ _ _
    · exact writeFloat_sameItem s p _ _
    · exact writeFloat_sameItem s p _ _
    · exact writeFloat_sameItem s p _ _
    · exact analog _ _

theorem writeWords_frame (dat : List ModbusData) (sm : SMValues) (val : (Nat → ModbusData) → Int)
    (apart : id ≠ p.si.id) : (p.writeWords s dat sm val).sm id = sm id := by
  rw [writeWords]
  split
  · rfl
  · exact IOBase.processingAsAI_frame _ _ _ _ apart

theorem writeFloat_frame (dat : List ModbusData) (sm : SMValues) (apart : id ≠ p.si.id) :
    (p.writeFloat s dat sm).sm id = sm id := by
  rw [writeFloat]
  split
  · rfl
  · exact IOBase.save_frame _ _ _ _ apart

/-- A write of an item changes no other sensor. -/
theorem realWriteProp_frame (dat : List ModbusData) (sm : SMValues) (apart : id ≠ p.si.id) :
    (p.realWriteProp s dat sm).sm id = sm id := by
  have analog : ∀ (val : Int) (taken : Nat), (p.writeAI s val taken sm).sm id = sm id :=
    fun _ _ => IOBase.processingAsAI_frame _ _ _ _ apart
  have discrete : ∀ set : Bool, (p.writeDI s set sm).sm id = sm id :=
    fun _ => IOBase.processingAsDI_frame _ _ _ _ apart
  rw [realWriteProp]
  split
  · rfl
  · split
    · split
      · exact discrete _
      · exact analog _ _
    · exact analog _ _
    · exact analog _ _
    · exact writeWords_frame s p _ _ _ apart
    · exact writeWords_frame s p _ _ _ apart
    · exact writeWords_frame s p _ _ _ apart
    · exact writeWords_frame s p _ _ _ apart
    · exact writeFloat_frame s p _ _ apart
    · exact writeFloat_frame s p _ _ apart
    · exact writeFloat_frame s p _ _ apart
    · exact analog _ _

/-- The words a write of the item takes. -/
def taken : Nat := if p.amode = .amRO ∨ p.vtype.wsize ≤ 1 then 0 else p.vtype.wsize

theorem writeWords_taken (dat : List ModbusData) (sm : SMValues) (val : (Nat → ModbusData) → Int) :
    (p.writeWords s dat sm val).taken = p.vtype.wsize := by
  rw [writeWords]
  split
  · rfl
  · rfl

theorem writeFloat_taken (dat : List ModbusData) (sm : SMValues) :
    (p.writeFloat s dat sm).taken = p.vtype.wsize := by
  rw [writeFloat]
  split
  · rfl
  · rfl

theorem realWriteProp_taken (dat : List ModbusData) (sm : SMValues) :
    (p.realWriteProp s dat sm).taken = p.taken := by
  rw [realWriteProp, taken]
  by_cases same : p.amode = .amRO
  · rw [if_pos same, if_pos (Or.inl same)]
  · rw [if_neg same]
    cases kind : p.vtype <;>
      simp [same, VType.wsize, writeWords_taken, writeFloat_taken, kind, writeAI, writeDI, apply_ite]

theorem afterRead_sameItem (sm : SMValues) : p.SameItem (p.afterRead s sm) := by
  rw [afterRead]
  split
  · exact .refl p
  · exact withBase_sameItem p (IOBase.refresh_sameItem _ _ _)

end IOProperty

/-! ### Registers -/

namespace Register

variable (s : Slave) (r : Register)

def regID : Nat := r.prop.regID

/-- The items of the register a request writes. -/
def items : List IOProperty :=
  match r.bitreg with
  | some bvec => (List.finRange 16).filterMap bvec
  | none => [r.prop]

/-- One bit of `MBSlave::real_bitreg_write_it`. -/
def writeBit (val : ModbusData) (w : BitRegProperty × SMValues) (i : Fin 16) :
    BitRegProperty × SMValues :=
  match w.1 i with
  | none => w
  | some p =>
    let done := p.realWriteProp s [if val.getLsbD i then 1 else 0] w.2
    (Function.update w.1 i (some done.prop), done.sm)

/-- What a write of a register leaves: its code, the register, SharedMemory and the words taken. -/
structure Done where
  err : MbErrCode
  reg : Register
  sm : SMValues
  taken : Nat

/-- `MBSlave::real_write_it`: a bit register is written bit by bit. -/
def realWriteIt (dat : List ModbusData) (sm : SMValues) : Done :=
  match r.bitreg with
  | some bvec =>
    let done := (List.finRange 16).foldl (writeBit s (dat.getD 0 0)) (bvec, sm)
    ⟨.erNoError, { r with bitreg := some done.1 }, done.2, 0⟩
  | none =>
    let done := r.prop.realWriteProp s dat sm
    ⟨done.err, { r with prop := done.prop }, done.sm, done.taken⟩

/-- `MBSlave::real_bitreg_read_it`: a bit that cannot be read is zero. -/
def readBit (sm : SMValues) (i : Fin 16) (bvec : BitRegProperty) : Bool :=
  match bvec i with
  | none => false
  | some p =>
    let read := p.realReadProp s sm
    read.1 = .erNoError && read.2 ≠ 0

/-- `MBSlave::real_read_it`. -/
def realReadIt (sm : SMValues) : MbErrCode × ModbusData :=
  match r.bitreg with
  | some bvec => (.erNoError, mdata fun i => readBit s sm i bvec)
  | none => r.prop.realReadProp s sm

/-- The register after a read. -/
def afterRead (sm : SMValues) : Register :=
  match r.bitreg with
  | some bvec => { r with bitreg := some fun i => (bvec i).map fun p => p.afterRead s sm }
  | none => { r with prop := r.prop.afterRead s sm }

/-- The sensors a write of the register may change. -/
def ids : List ObjectId := r.items.map fun p => p.si.id

/-- The words a write of the register takes. -/
def taken : Nat := if r.bitreg.isSome then 0 else r.prop.taken

theorem realWriteIt_taken (dat : List ModbusData) (sm : SMValues) :
    (r.realWriteIt s dat sm).taken = r.taken := by
  rw [realWriteIt, taken]
  split
  · next bits => simp [bits]
  · next bits => simpa [bits] using r.prop.realWriteProp_taken s dat sm

theorem realWriteIt_regID (dat : List ModbusData) (sm : SMValues) :
    (r.realWriteIt s dat sm).reg.regID = r.regID := by
  rw [realWriteIt]
  split
  · rfl
  · exact (r.prop.realWriteProp_sameItem s dat sm).regID

theorem afterRead_regID (sm : SMValues) : (r.afterRead s sm).regID = r.regID := by
  rw [afterRead]
  split
  · rfl
  · exact (r.prop.afterRead_sameItem s sm).regID

/-- The bits still to be written keep the sensors they have. -/
theorem writeBits_frame (val : ModbusData) (bits : List (Fin 16)) :
    ∀ w : BitRegProperty × SMValues, (∀ i, ∀ p, w.1 i = some p → p.si.id ≠ id) →
      (bits.foldl (writeBit s val) w).2 id = w.2 id := by
  induction bits with
  | nil => intro w _; rfl
  | cons i bits ih =>
    intro w others
    rw [List.foldl_cons]
    cases found : w.1 i with
    | none =>
      have same : writeBit s val w i = w := by rw [writeBit, found]
      rw [same]
      exact ih w others
    | some p =>
      have write : writeBit s val w i =
          (Function.update w.1 i (some (p.realWriteProp s [if val.getLsbD i then 1 else 0] w.2).prop),
            (p.realWriteProp s [if val.getLsbD i then 1 else 0] w.2).sm) := by rw [writeBit, found]
      have same := p.realWriteProp_sameItem s [if val.getLsbD i then 1 else 0] w.2
      rw [write, ih]
      · exact p.realWriteProp_frame s _ _ (others i p found).symm
      · intro j q found'
        dsimp only at found'
        by_cases own : j = i
        · rw [own, Function.update_self, Option.some.injEq] at found'
          rw [← found', same.si]
          exact others i p found
        · rw [Function.update_of_ne own] at found'
          exact others j q found'

/-- A write of a register changes no sensor but those of its items. -/
theorem realWriteIt_frame (dat : List ModbusData) (sm : SMValues) (absent : id ∉ r.ids) :
    (r.realWriteIt s dat sm).sm id = sm id := by
  rw [ids, items] at absent
  rw [realWriteIt]
  split
  · next bvec bits =>
    rw [bits] at absent
    apply writeBits_frame
    intro i p found same
    apply absent
    refine List.mem_map.mpr ⟨p, List.mem_filterMap.mpr ⟨i, List.mem_finRange i, found⟩, same⟩
  · next bits =>
    rw [bits] at absent
    apply r.prop.realWriteProp_frame s dat sm
    intro same'
    apply absent
    rw [same']
    exact List.mem_map.mpr ⟨r.prop, List.mem_singleton.mpr rfl, rfl⟩

end Register

end UniSet.ModbusSlave

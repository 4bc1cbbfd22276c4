/-
**`updateRSProperty`: the words of a register and the values of its sensors.**

* `setBits`, `getBits` — the field of a sensor that shares a register.
* `Property` — a sensor of a register, with the fields its settings exclude.
* `written` — the words a sensor of a write function gives its registers.
* `read` — what a sensor of a read function is given of them.
* `updateRSProperty` — both, with the modes of the exchange and of the device before them.
-/

import UniSet.Lib.Bits
import UniSet.Lib.Fields
import UniSet.ModbusMaster.Config
import UniSet.IOBase
import UniSet.VTypes

namespace UniSet.ModbusMaster.Update

open VTypes
open UniSet.Lib (put putBit)

/-! ### Bits of a word -/

/-- **`MBExchange::firstBit`.** -/
def firstBit (mask : ModbusData) : Nat := mask.ctz.toNat

/-- **`MBExchange::setBits`.** -/
def setBits (value set mask : ModbusData) (offset : Nat) : ModbusData :=
  if mask = 0 then value else put mask (set <<< offset) value

/-- **`MBExchange::forceSetBits`.** -/
def forceSetBits (value set mask : ModbusData) (offset : Nat) : ModbusData :=
  if mask = 0 then set else setBits value set mask offset

/-- **`MBExchange::getBits`.** -/
def getBits (value mask : ModbusData) (offset : Nat) : ModbusData :=
  if mask = 0 then value else (value &&& mask) >>> offset

/-- The word with byte `nbyte` replaced, `raw.b[nbyte - 1] = b`. -/
def setByte (value : ModbusData) (nbyte : Nat) (b : BitVec 8) : ModbusData :=
  put ((0xFF : ModbusData) <<< (8 * (nbyte - 1))) (b.setWidth 16 <<< (8 * (nbyte - 1))) value

/-! ### Sensors -/

/-- **`RSProperty`** as `initRSProperty` accepts it. The count of registers and the offset are those of
the type and of the mask. -/
structure Property extends IOBase where
  safeval : Int
  safevalDefined : Bool
  nbit : Option (Fin 16)
  vType : VType
  nbyte : Nat
  mask : ModbusData
  bsize : nbyte ≤ 2
  exclusive : mask ≠ 0 → nbit = none ∧ nbyte = 0

namespace Property

variable (p : Property)

/-- `rnum`. -/
def rnum : Nat := p.vType.wsize

/-- `offset`. -/
def offset : Nat := if p.mask = 0 then 0 else firstBit p.mask

/-- The sensor with another state of its value. -/
def withBase (it : IOBase) : Property := { p with toIOBase := it }

end Property

/-- **A register word**, `mbval` and `mbval_changed`. -/
structure Cell where
  mbval : ModbusData
  mbvalChanged : Bool
deriving DecidableEq, Repr

/-- **`RegInfo::setMBVal`.** -/
def Cell.setMBVal (c : Cell) (nv : ModbusData) : Cell := ⟨nv, c.mbvalChanged || decide (c.mbval ≠ nv)⟩

/-- **A register**, with the words of the map from it on. -/
structure Reg where
  mbfunc : MbFunc
  mbInitOK : Bool
  smInitOK : Bool
  cell : Nat → Cell

/-- The words of the register and of those behind it. -/
def Reg.mbval (r : Reg) (k : Nat) : ModbusData := (r.cell k).mbval

/-- The words are given to the registers one after the other; the flag of the first one is the one of
them all. -/
def Reg.setMBVals (r : Reg) (words : List ModbusData) : Reg :=
  let cell := fun k => if h : k < words.length then (r.cell k).setMBVal words[k] else r.cell k
  let changed := (List.range words.length).any fun k => (cell k).mbvalChanged
  { r with cell := fun k => if k = 0 then { cell 0 with mbvalChanged := changed } else cell k }

/-- The values with a floating point: the words of a safe value and of what `processingFasAO` reads, and
what `processingFasAI` and `processingF64asAI` make of words. -/
structure FloatTypes where
  safe : VType → Int → Nat → ModbusData
  out : Property → SMValues → Bool → Nat → ModbusData
  fromAI : Property → List ModbusData → SMValues → Int

/-! ### The modes -/

/-- `MBConfig::ExchangeMode`, but for `emSkipExchange`. -/
def emWriteOnly : Int := 1

def emReadOnly : Int := 2

def emSkipSaveToSM : Int := 3

/-- What a device has of `RTUDevice` here. `respDelay` is the state of its timer `resp_Delay`. -/
structure Device where
  mode : Int
  safeMode : Int
  respDelay : Bool
deriving DecidableEq, Repr

/-- **`MBExchange::isSafeMode`.** -/
def Device.isSafeMode (d : Device) : Bool :=
  if d.safeMode = safeResetIfNotRespond then !d.respDelay else decide (d.safeMode ≠ safeNone)

/-- **`MBExchange::isUpdateSM`.** -/
def isUpdateSM (exchangeMode mdev : Int) (wrFunc : Bool) : Bool :=
  if exchangeMode = emSkipExchange ∨ mdev = emSkipExchange then wrFunc
  else if wrFunc = true ∧ (exchangeMode = emReadOnly ∨ mdev = emReadOnly) then false
  else if wrFunc = false ∧ (exchangeMode = emWriteOnly ∨ mdev = emWriteOnly) then false
  else if wrFunc = false ∧ (exchangeMode = emSkipSaveToSM ∨ mdev = emSkipSaveToSM) then false
  else true

/-- The settings of the process. -/
structure Process where
  exchangeMode : Int
  force : Bool
  forceOut : Bool
  floats : FloatTypes

/-! ### What a sensor writes -/

namespace Property

variable (proc : Process) (p : Property) (safe : Bool)

/-- The state a bit is written with. -/
def outBit (sm : SMValues) : Bool :=
  if safe then decide (p.safeval ≠ 0) else p.processingAsDO sm proc.forceOut

/-- The value of a word. -/
def outWord (sm : SMValues) : Int :=
  if safe then p.safeval
  else if p.isDiscrete then (if p.processingAsDO sm proc.forceOut then 1 else 0)
  else p.processingAsAO sm proc.forceOut

/-- The value of a byte or of several words. -/
def outValue (sm : SMValues) : Int := if safe then p.safeval else p.processingAsAO sm proc.forceOut

/-- The words of a value with a floating point. -/
def outFloat (sm : SMValues) : List ModbusData :=
  (List.range p.vType.wsize).map
    (if safe then proc.floats.safe p.vType p.safeval else proc.floats.out p sm proc.forceOut)

/-- **The words the registers of a sensor are given**, none if the item is ignored. -/
def written (mbval : ModbusData) (sm : SMValues) : Option (List ModbusData) :=
  match p.vType with
  | .vtUnknown =>
    match p.nbit with
    | some nbit => some [putBit mbval nbit (p.outBit proc safe sm)]
    | none =>
      if p.rnum ≤ 1 then some [forceSetBits mbval (.ofInt 16 (p.outWord proc safe sm)) p.mask p.offset]
      else none
  | .vtSigned => some [forceSetBits mbval (.ofInt 16 (p.outWord proc safe sm)) p.mask p.offset]
  | .vtUnsigned => some [forceSetBits mbval (.ofInt 16 (p.outWord proc safe sm)) p.mask p.offset]
  | .vtByte =>
    if p.nbyte = 0 ∨ 2 < p.nbyte then none
    else some [forceSetBits mbval (setByte mbval p.nbyte (.ofInt 8 (p.outValue proc safe sm))) p.mask p.offset]
  | .vtF2 | .vtF2r | .vtF4 => some (p.outFloat proc safe sm)
  | .vtI2 => some ((List.range 2).map (I2.rawV (p.outValue proc safe sm)))
  | .vtI2r => some ((List.range 2).map (I2r.rawBackorder (p.outValue proc safe sm)))
  | .vtU2 => some ((List.range 2).map (U2.rawV (p.outValue proc safe sm)))
  | .vtU2r => some ((List.range 2).map (U2r.rawBackorder (p.outValue proc safe sm)))

/-- The value of the sensor is read by `processingAsDO`, which leaves its copy as it is. -/
def asDO : Bool :=
  match p.vType with
  | .vtUnknown => p.nbit.isSome || p.isDiscrete
  | .vtSigned | .vtUnsigned => p.isDiscrete
  | _ => false

/-- The sensor after its value was read for the exchange. -/
def afterOut (sm : SMValues) : Property :=
  if safe || p.asDO then p else p.withBase (p.refresh sm proc.forceOut)

end Property

/-! ### What a sensor is given -/

/-- **What a sensor is given**: for `processingAsDI`, for `processingAsAI`, or words of a value with a
floating point. -/
inductive Input where
  | di (set : Bool)
  | ai (val : Int)
  | float (words : List ModbusData)
deriving DecidableEq, Repr

namespace Property

variable (p : Property) (safe : Bool)

/-- The word of a sensor that may share its register: the state or the value read as `toVal`. -/
def readWord (mbval : ModbusData) (toVal : ModbusData → Int) : Input :=
  let val := getBits (if safe then .ofInt 16 p.safeval else mbval) p.mask p.offset
  if p.isDiscrete then .di (decide (val ≠ 0)) else .ai (toVal val)

/-- A value of other types: the safe one is given as it is. -/
def readValue (val : Input) : Input := if safe then .ai p.safeval else val

/-- **What a sensor of a read function is given**, none if the item is ignored. -/
def read (mbval : Nat → ModbusData) : Option Input :=
  match p.vType with
  | .vtUnknown =>
    match p.nbit with
    | some nbit => some (.di (if safe then decide (p.safeval ≠ 0) else (mbval 0).getLsbD nbit))
    | none => if p.rnum ≤ 1 then some (p.readWord safe (mbval 0) BitVec.toInt) else none
  | .vtSigned => some (p.readWord safe (mbval 0) BitVec.toInt)
  | .vtUnsigned => some (p.readWord safe (mbval 0) fun val => val.toNat)
  | .vtByte =>
    if p.nbyte = 0 ∨ 2 < p.nbyte then none
    else some (p.readValue safe (.ai (getBits ((Byte.b (mbval 0) p.nbyte).setWidth 16) p.mask p.offset).toNat))
  | .vtF2 | .vtF2r | .vtF4 => some (p.readValue safe (.float ((List.range p.vType.wsize).map mbval)))
  | .vtI2 => some (p.readValue safe (.ai (I2.toLong mbval)))
  | .vtI2r => some (p.readValue safe (.ai (I2r.toLong mbval)))
  | .vtU2 => some (p.readValue safe (.ai (U2.toLong mbval)))
  | .vtU2r => some (p.readValue safe (.ai (U2r.toLong mbval)))

end Property

/-- The sensor and SharedMemory once it is given the input. -/
def Input.process (proc : Process) (p : Property) (sm : SMValues) : Input → Property × SMValues
  | .di set =>
    (p.withBase (p.processingAsDI set sm proc.force).1, (p.processingAsDI set sm proc.force).2)
  | .ai val =>
    (p.withBase (p.processingAsAI val sm proc.force).1, (p.processingAsAI val sm proc.force).2)
  | .float words =>
    (p.withBase (p.save (proc.floats.fromAI p words sm) sm proc.force).1,
      (p.save (proc.floats.fromAI p words sm) sm proc.force).2)

/-! ### The update -/

/-- The register, the sensor and SharedMemory after an update. -/
structure Updated where
  reg : Reg
  prop : Property
  sm : SMValues

/-- **A call of `updateRSProperty`**: the device, the argument `write_only`, SharedMemory, and whether it
cannot be reached. -/
structure Env where
  dev : Device
  writeOnly : Bool
  sm : SMValues
  fails : Bool

namespace Env

variable (proc : Process) (e : Env)

/-- The safe value is used. -/
def useSafeval (p : Property) : Bool := e.dev.isSafeMode && p.safevalDefined

/-- The update gets past the modes. -/
def passes (r : Reg) : Bool :=
  let save := r.mbfunc.isWriteFunction
  (save || !e.writeOnly) && isUpdateSM proc.exchangeMode e.dev.mode save && (r.mbInitOK || e.dev.isSafeMode)

end Env

/-- **`MBExchange::updateRSProperty`.** A value of SharedMemory that cannot be had takes the register's
`sm_initOK` down; a safe value is written without it. -/
def updateRSProperty (proc : Process) (e : Env) (p : Property) (r : Reg) : Updated :=
  if e.passes proc r then
    if r.mbfunc.isWriteFunction then
      match p.written proc (e.useSafeval p) (r.mbval 0) e.sm with
      | none => ⟨r, p, e.sm⟩
      | some words =>
        if !r.mbInitOK then ⟨r, p, e.sm⟩
        else if e.fails && !e.useSafeval p then ⟨{ r with smInitOK := false }, p, e.sm⟩
        else ⟨{ r.setMBVals words with smInitOK := true }, p.afterOut proc (e.useSafeval p) e.sm, e.sm⟩
    else
      match p.read (e.useSafeval p) r.mbval with
      | none => ⟨r, p, e.sm⟩
      | some input =>
        if e.fails then ⟨{ r with smInitOK := false }, p, e.sm⟩
        else ⟨r, (input.process proc p e.sm).1, (input.process proc p e.sm).2⟩
  else ⟨r, p, e.sm⟩

/-! ### What an update writes and what it is given -/

/-- An update of a register of a write function gets to writing its words. -/
def Env.writes (proc : Process) (e : Env) (p : Property) (r : Reg) : Bool :=
  isUpdateSM proc.exchangeMode e.dev.mode true && r.mbInitOK && (e.useSafeval p || !e.fails)

/-- **What a sensor of a read function is given** by an update, none if it gets nothing. -/
def Env.input (proc : Process) (e : Env) (p : Property) (r : Reg) : Option Input :=
  if e.passes proc r && !e.fails then p.read (e.useSafeval p) r.mbval else none

variable (proc : Process) (e : Env) (p : Property)

/-- **What a sensor of a read function is given is processed**; without it the sensor and SharedMemory stay. -/
theorem updateRSProperty_input {r : Reg} (save : r.mbfunc.isWriteFunction = false) :
    ((updateRSProperty proc e p r).prop, (updateRSProperty proc e p r).sm) =
      ((e.input proc p r).map (Input.process proc p e.sm)).getD (p, e.sm) := by
  rw [updateRSProperty, Env.input, save]
  cases e.passes proc r
  · rfl
  · cases p.read (e.useSafeval p) r.mbval <;> cases e.fails <;> rfl

/-- **A register of a read function keeps its words**; its sensor is given the input. -/
theorem updateRSProperty_cell_read {r : Reg} (save : r.mbfunc.isWriteFunction = false) :
    (updateRSProperty proc e p r).reg.cell = r.cell := by
  rw [updateRSProperty]
  split
  · rw [if_neg (by rw [save]; exact Bool.false_ne_true)]
    split
    · rfl
    · split <;> rfl
  · rfl

/-- **A register of a write function is given the words of the sensor**, or keeps its own. -/
theorem updateRSProperty_cell_write {r : Reg} (save : r.mbfunc.isWriteFunction = true) :
    (updateRSProperty proc e p r).reg.cell = if e.writes proc p r then
        ((p.written proc (e.useSafeval p) (r.mbval 0) e.sm).map fun words =>
          (r.setMBVals words).cell).getD r.cell
      else r.cell := by
  rw [updateRSProperty, Env.passes, Env.writes]
  simp only [save, Bool.true_or, Bool.true_and, if_true]
  cases isUpdateSM proc.exchangeMode e.dev.mode true
  · rfl
  · cases p.written proc (e.useSafeval p) (r.mbval 0) e.sm <;> cases r.mbInitOK <;>
      cases e.useSafeval p <;> cases e.fails <;> cases e.dev.isSafeMode <;> rfl

end UniSet.ModbusMaster.Update

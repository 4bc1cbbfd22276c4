/-
**The configuration of a Modbus master: functions, registers, sensors and devices.**

* `MbFunc` — the functions a register is polled with, and `genRegID`, which orders the registers of a
  map by function and number.
* `VType`, `RSProperty` — a sensor of a register and how its value lies in the words.
* `RegInfo` — a register of the map with the state of its exchange.
* `RTUDevice` — a device: its registers and the sensors that set its modes.
-/

import Mathlib.Data.List.Basic

namespace UniSet.ModbusMaster

abbrev ObjectId := Nat

/-- `ModbusRTU::SlaveFunctionCode`. -/
inductive MbFunc
  | fnReadCoilStatus | fnReadInputStatus | fnReadOutputRegisters | fnReadInputRegisters
  | fnForceSingleCoil | fnWriteOutputSingleRegister | fnForceMultipleCoils | fnWriteOutputRegisters
  /-- A code that is not polled. -/
  | other (code : Nat)
deriving DecidableEq, Repr

namespace MbFunc

/-- The number of a function. -/
def code : MbFunc → Nat
  | fnReadCoilStatus => 0x01
  | fnReadInputStatus => 0x02
  | fnReadOutputRegisters => 0x03
  | fnReadInputRegisters => 0x04
  | fnForceSingleCoil => 0x05
  | fnWriteOutputSingleRegister => 0x06
  | fnForceMultipleCoils => 0x0F
  | fnWriteOutputRegisters => 0x10
  | other code => code

/-- `ModbusRTU::isWriteFunction`. -/
def isWriteFunction : MbFunc → Bool
  | fnWriteOutputRegisters | fnWriteOutputSingleRegister | fnForceSingleCoil | fnForceMultipleCoils =>
    true
  | _ => false

/-- `ModbusRTU::isReadFunction`. -/
def isReadFunction : MbFunc → Bool
  | fnReadCoilStatus | fnReadInputStatus | fnReadOutputRegisters | fnReadInputRegisters => true
  | _ => false

end MbFunc

/-- `ModbusRTU::genRegID`. -/
def genRegID (mbreg fn : Nat) : Nat := 65535 + mbreg + 65535 * fn + 1

/-- `VTypes::VType`. -/
inductive VType
  | vtUnknown | vtF2 | vtF2r | vtF4 | vtByte | vtUnsigned | vtSigned | vtI2 | vtI2r | vtU2 | vtU2r
deriving DecidableEq, Repr

/-- `VTypes::wsize`: the length of a value in words. -/
def VType.wsize : VType → Nat
  | vtF2 | vtF2r | vtI2 | vtI2r | vtU2 | vtU2r => 2
  | vtF4 => 4
  | _ => 1

/-- `SensorInfo`. -/
structure SensorInfo where
  id : ObjectId
  node : ObjectId
deriving DecidableEq, Repr

/-- `IOType`. -/
inductive IOType
  | DI | DO | AI | AO
deriving DecidableEq, Repr

/-- **`RSProperty`**: a sensor of a register. -/
structure RSProperty where
  si : SensorInfo
  stype : IOType
  /-- The bit, if the sensor is one. -/
  nbit : Option Nat
  vType : VType
  rnum : Nat
  nbyte : Nat
  mask : Nat
  value : Int
deriving DecidableEq, Repr

/-- **`RegInfo`**: a register of the map. -/
structure RegInfo where
  mbreg : Nat
  mbfunc : MbFunc
  regID : Nat
  /-- `MTR::wsize` of its type, for a device of that kind. -/
  mtrSize : Nat
  mbval : Nat
  mbInitOK : Bool
  smInitOK : Bool
  qNum : Nat
  qCount : Nat
  slst : List RSProperty
deriving DecidableEq, Repr

/-- The sensors whose values are written to these registers. -/
def writtenBy (regs : List RegInfo) : List ObjectId :=
  regs.flatMap fun r => if r.mbfunc.isWriteFunction then r.slst.map fun p => p.si.id else []

/-- `ExchangeMode::emSkipExchange` and `SafeMode`. -/
def emSkipExchange : Int := 4

def safeNone : Int := 0

def safeResetIfNotRespond : Int := 1

def safeExternalControl : Int := 2

/-- **`RTUDevice`**. -/
structure RTUDevice where
  /-- The registers of all maps of `pollmap`, in their order. -/
  regs : List RegInfo
  modeId : Option ObjectId
  mode : Int
  safemodeId : Option ObjectId
  safemodeValue : Int
  safeMode : Int
deriving DecidableEq, Repr

namespace RTUDevice

/-- The sensors that set the modes of the device. -/
def sensors (d : RTUDevice) : List ObjectId := d.modeId.toList ++ d.safemodeId.toList

/-- The sensors whose values are written to the device. -/
def written (d : RTUDevice) : List ObjectId := writtenBy d.regs

end RTUDevice

end UniSet.ModbusMaster

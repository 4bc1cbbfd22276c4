/-
**How an item of the configuration becomes a register, a sensor of it and an initial read.**

* `Item` — the properties of a sensor of the configuration.
* `addReg`, `addProp` — a register is created or found, a sensor is appended or found. What is appended
  is moved, and a message that is moved is left empty.
* `initItem` — the checks, the register, the sensor, the further words of the value and the initial read.
* `readConfiguration` — all items. One that is refused ends it.
-/

import UniSet.ModbusMaster.Config

namespace UniSet.ModbusMaster

/-- `MBConfig::DeviceType`. -/
inductive DeviceType
  | dtRTU | dtMTR
deriving DecidableEq, Repr

/-- `MBConfig::changeOnlyWrite`. -/
def changeOnlyWrite : Nat := 65535

/-- **A sensor of the configuration**: what `initItem` and `initRSProperty` read of it. -/
structure Item where
  si : SensorInfo
  stype : IOType
  nbit : Option Nat
  vType : VType
  nbyte : Nat
  mask : Nat
  default : Int
  mbaddr : Nat
  dtype : DeviceType
  /-- `MTR::wsize` of `mtrtype`. -/
  mtrSize : Nat
  mbreg : Nat
  mbfunc : MbFunc
  pollfactor : Nat
  smInitOK : Bool
  preinit : Bool
  initMbreg : Option Nat
  initMbfunc : Option MbFunc
deriving DecidableEq, Repr

/-- A map of `RTUDevice::pollmap`, with the device it is of. -/
structure PollMap where
  mbaddr : Nat
  dtype : DeviceType
  pollfactor : Nat
  /-- The registers in the order of their `regID`. -/
  regs : List RegInfo
deriving DecidableEq, Repr

/-- **`InitRegInfo`**: an initial read. -/
structure InitRegInfo where
  /-- The sensor as it is configured. -/
  property : RSProperty
  /-- What is left of its `si`. -/
  si : SensorInfo
  mbaddr : Nat
  pollfactor : Nat
  /-- The register that is written, `ri`. -/
  regID : Nat
  reg : Nat
  func : MbFunc
  /-- The register that is read. -/
  mbreg : Nat
  mbfunc : MbFunc
  initOK : Bool
deriving DecidableEq, Repr

/-- `InitRegInfo::p`: of the property the move takes the sensor only, the other fields are copied. -/
def InitRegInfo.p (e : InitRegInfo) : RSProperty := { e.property with si := e.si }

/-- **`MBConfig`**, as far as `initItem` fills it. -/
structure MBConf where
  defaultMBinitOK : Bool
  pollmaps : List PollMap
  initRegList : List InitRegInfo
deriving DecidableEq, Repr

/-! ### Registers and sensors -/

/-- `std::map::insert` of a register that is not there. -/
def insertReg (r : RegInfo) : List RegInfo → List RegInfo
  | [] => [r]
  | other :: rest => if r.regID < other.regID then r :: other :: rest else other :: insertReg r rest

/-- A register that is new in its map. -/
def newReg (item : Item) (regID mbreg : Nat) : RegInfo where
  mbreg := mbreg
  mbfunc := item.mbfunc
  regID := regID
  mtrSize := item.mtrSize
  mbval := (item.default % 65536).toNat
  mbInitOK := false
  smInitOK := false
  qNum := 0
  qCount := 1
  slst := []

/-- **`MBConfig::addReg`.** -/
def addReg (item : Item) (regID mbreg : Nat) (regs : List RegInfo) : List RegInfo :=
  if regs.any fun r => r.regID = regID then regs else insertReg (newReg item regID mbreg) regs

/-- The register with this `regID` is changed. -/
def modifyReg (regID : Nat) (f : RegInfo → RegInfo) (regs : List RegInfo) : List RegInfo :=
  regs.map fun r => if r.regID = regID then f r else r

/-- A moved message has been swapped with an empty one. -/
def movedInfo : SensorInfo := ⟨0, 0⟩

/-- **`MBConfig::addProp`**: the list, the sensor in it and what is left of the argument's `si`. -/
def addProp (slst : List RSProperty) (p : RSProperty) : List RSProperty × RSProperty × SensorInfo :=
  match slst.find? fun other => other.si = p.si with
  | some other => (slst, other, p.si)
  | none => (slst ++ [p], p, movedInfo)

/-- **`MBConfig::checkDuplicationRegID`**, in all maps of the device but that of the poll factor. -/
def MBConf.checkDuplicationRegID (conf : MBConf) (regID mbaddr : Nat) (except : Option Nat) : Bool :=
  conf.pollmaps.any fun m =>
    m.mbaddr = mbaddr && some m.pollfactor ≠ except && m.regs.any fun r => r.regID = regID

/-! ### An item -/

/-- The sensor of an item; `mtrSize` is that of its register. -/
def Item.property (item : Item) (mtrSize : Nat) : RSProperty where
  si := item.si
  stype := item.stype
  nbit := item.nbit
  vType := item.vType
  rnum := if item.dtype = .dtMTR then mtrSize else item.vType.wsize
  nbyte := item.nbyte
  mask := item.mask
  value := item.default

/-- The registers an item writes are written by no other item with the other function. -/
def MBConf.crosses (conf : MBConf) (item : Item) : Bool :=
  let taken fn reg := conf.checkDuplicationRegID (genRegID (reg % 65536) (MbFunc.code fn)) item.mbaddr none
  match item.mbfunc with
  | .fnWriteOutputSingleRegister => taken .fnWriteOutputRegisters item.mbreg
  | .fnWriteOutputRegisters =>
    (List.range item.vType.wsize).any fun i =>
      taken .fnWriteOutputSingleRegister (item.mbreg + i) || taken .fnWriteOutputRegisters (item.mbreg + i)
  | _ => false

/-- What is checked before the register is added. -/
def MBConf.refuses (conf : MBConf) (item : Item) : Bool :=
  -- addDev: the device has another type
  (conf.pollmaps.any fun m => m.mbaddr = item.mbaddr && m.dtype ≠ item.dtype) ||
  (item.nbit.isSome && (item.mbfunc = .fnReadCoilStatus || item.mbfunc = .fnReadInputStatus)) ||
  ((!item.mbfunc.isWriteFunction || item.dtype ≠ .dtRTU) && item.pollfactor = changeOnlyWrite) ||
  conf.checkDuplicationRegID (genRegID item.mbreg item.mbfunc.code) item.mbaddr (some item.pollfactor) ||
  conf.crosses item

/-- Several sensors write one register only with their own bits or masks. -/
def RegInfo.refuses (ri : RegInfo) (p : RSProperty) : Bool :=
  ri.mbfunc.isWriteFunction &&
    ((p.nbit.isNone && p.mask = 0 && !ri.slst.isEmpty) ||
      (p.nbit.isSome && ri.slst.length = 1 && ri.slst.any fun other => other.nbit.isNone) ||
      (p.mask ≠ 0 && ri.slst.any fun other => other.mask = 0 || other.mask &&& p.mask ≠ 0))

/-- The flags of a register that an item is added to. -/
def RegInfo.initFlags (defaultMBinitOK : Bool) (item : Item) (ri : RegInfo) : RegInfo :=
  if ri.mbfunc.isWriteFunction then { ri with smInitOK := item.smInitOK, mbInitOK := true }
  else { ri with mbInitOK := defaultMBinitOK, smInitOK := false }

/-- The further words of a value. -/
def addTail (defaultMBinitOK : Bool) (item : Item) (func : MbFunc) (regs : List RegInfo) (i : Nat) :
    List RegInfo :=
  let mbreg := (item.mbreg + i) % 65536
  modifyReg (genRegID mbreg func.code)
    (fun r => { r with
      qNum := i + 1, qCount := 1, mbfunc := func, mbInitOK := defaultMBinitOK, smInitOK := false })
    (addReg item (genRegID mbreg func.code) mbreg regs)

/-- The function of the initial read where none is configured. -/
def defaultInitFunc : MbFunc → MbFunc
  | .fnForceSingleCoil | .fnForceMultipleCoils => .fnReadCoilStatus
  | _ => .fnReadOutputRegisters

/-- The map an item belongs to. -/
def MBConf.regmap (conf : MBConf) (item : Item) : List RegInfo :=
  match conf.pollmaps.find? fun m => m.mbaddr = item.mbaddr && m.pollfactor = item.pollfactor with
  | some m => m.regs
  | none => []

/-- The map an item belongs to gets these registers. -/
def MBConf.setRegmap (conf : MBConf) (item : Item) (regs : List RegInfo) : MBConf :=
  if conf.pollmaps.any fun m => m.mbaddr = item.mbaddr && m.pollfactor = item.pollfactor then
    { conf with
      pollmaps := conf.pollmaps.map fun m =>
        if m.mbaddr = item.mbaddr ∧ m.pollfactor = item.pollfactor then { m with regs := regs } else m }
  else
    { conf with pollmaps := conf.pollmaps ++ [⟨item.mbaddr, item.dtype, item.pollfactor, regs⟩] }

/-- The initial read of an item. -/
def Item.initRegInfo (item : Item) (ri : RegInfo) (p : RSProperty) (si : SensorInfo) : InitRegInfo where
  property := p
  si := si
  mbaddr := item.mbaddr
  pollfactor := item.pollfactor
  regID := ri.regID
  reg := ri.mbreg
  func := ri.mbfunc
  mbreg := item.initMbreg.getD ri.mbreg
  mbfunc := item.initMbfunc.getD (defaultInitFunc ri.mbfunc)
  initOK := false

/-- The sensor is added to its register, and the further words of its value to the map: the map, the
register, and what is left of the sensor's `si`. -/
def attach (defaultMBinitOK : Bool) (item : Item) (ri : RegInfo) (regs : List RegInfo) :
    Option (List RegInfo × RegInfo × SensorInfo) :=
  let p := item.property ri.mtrSize
  if p.rnum = 0 || ri.refuses p then none
  else
    let (slst, p1, left) := addProp ri.slst p
    let ri := { ri.initFlags defaultMBinitOK item with slst := slst }
    if 1 < p1.rnum && ri.mbfunc.isWriteFunction && ri.mbfunc ≠ .fnWriteOutputRegisters then none
    else
      let ri := if 1 < p1.rnum then { ri with qCount := p1.rnum, qNum := 1 } else ri
      some ((List.range p1.rnum).tail.foldl (addTail defaultMBinitOK item ri.mbfunc)
        (modifyReg ri.regID (fun _ => ri) regs), ri, left)

/-- The register waits for its initial read. -/
def awaitRead (regID : Nat) (regs : List RegInfo) : List RegInfo :=
  modifyReg regID (fun r => { r with mbInitOK := false, smInitOK := false }) regs

/-- **`MBConfig::initItem`**; `none` is an item that is refused. -/
def initItem (conf : MBConf) (item : Item) : Option MBConf :=
  if conf.refuses item then none
  else
    let rID := genRegID item.mbreg item.mbfunc.code
    let regs := addReg item rID item.mbreg (conf.regmap item)
    match regs.find? fun r => r.regID = rID with
    | none => none
    | some ri =>
      match attach conf.defaultMBinitOK item ri regs with
      | none => none
      | some (regs, ri, left) =>
        if item.preinit && ri.mbfunc.isWriteFunction then
          if item.initMbfunc = some (.other 0) then none
          else
            some { conf.setRegmap item (awaitRead rID regs) with
              initRegList :=
                conf.initRegList ++ [item.initRegInfo ri (item.property ri.mtrSize) left] }
        else some (conf.setRegmap item regs)

/-- **`MBConfig::readConfiguration`.** -/
def readConfiguration (defaultMBinitOK : Bool) (items : List Item) : Option MBConf :=
  items.foldlM initItem ⟨defaultMBinitOK, [], []⟩

end UniSet.ModbusMaster

/-
**A sensor bound to a variable of an OPC UA server.**

* `setBits`, `getBits` — the bits of a mask in a word.
* `OPCAttribute` — a sensor with its own copy of the whole variable (`val`), its request to write the
  variable (`wval`) and the last value read (`rval`).
* `fromSM` — a value of the sensor goes to its bits of the copy.
* `fromSM_val`: the copy has the value in its own bits, and zeros elsewhere.
-/

import UniSet.IOBase

namespace UniSet.OPCUAExchange

open ModbusMaster (ObjectId SensorInfo IOType)

abbrev Word := BitVec 32

/-! ### Bits of a mask -/

/-- `firstBit`: `__builtin_ctz`. It is not defined for zero. -/
def firstBit (mask : Word) : Nat := (List.range 32).findIdx fun k => mask.getLsbD k

def setBits (value set mask : Word) (offset : Nat) : Word :=
  if mask = 0 then value else (value &&& ~~~mask) ||| ((set <<< offset) &&& mask)

def forceSetBits (value set mask : Word) (offset : Nat) : Word :=
  if mask = 0 then set else setBits value set mask offset

def getBits (value mask : Word) (offset : Nat) : Word :=
  if mask = 0 then value else (value &&& mask) >>> offset

theorem getLsbD_of_lt_firstBit {mask : Word} {k : Nat} (less : k < firstBit mask) :
    mask.getLsbD k = false := by
  have len : k < (List.range 32).length := Nat.lt_of_lt_of_le less List.findIdx_le_length
  have on := List.not_of_lt_findIdx less
  simpa using on

/-- The shift loses nothing of the bits of a mask. -/
theorem shift_eq_iff {x y mask : Word} :
    (x &&& mask) >>> firstBit mask = (y &&& mask) >>> firstBit mask ↔ x &&& mask = y &&& mask := by
  refine ⟨fun same => ?_, fun same => by rw [same]⟩
  ext k inside
  by_cases low : k < firstBit mask
  · have zero := getLsbD_of_lt_firstBit low
    rw [BitVec.getElem_and, BitVec.getElem_and, ← BitVec.getLsbD_eq_getElem (x := mask), zero]
    simp
  · have on := congrArg (fun w => w.getLsbD (k - firstBit mask)) same
    simp only [BitVec.getLsbD_ushiftRight] at on
    rw [Nat.add_sub_cancel' (Nat.le_of_not_lt low)] at on
    rwa [← BitVec.getLsbD_eq_getElem, ← BitVec.getLsbD_eq_getElem]

/-! ### Variables and sensors -/

/-- The integer types of a variable. -/
inductive UaType
  | bool | byte | int16 | uint16 | int32 | uint32 | int64 | uint64
deriving DecidableEq, Repr

/-- `WrValue::set` and the reading back as `int32_t`. -/
def UaType.store : UaType → Word → Word
  | bool, val => if val ≠ 0 then 1 else 0
  | byte, val => (val.setWidth 8).setWidth 32
  | int16, val => (val.setWidth 16).signExtend 32
  | uint16, val => (val.setWidth 16).setWidth 32
  | int32, val | uint32, val | int64, val | uint64, val => val

/-- The types a value needs no conversion for. -/
def UaType.wide : UaType → Bool
  | bool | byte | int16 | uint16 => false
  | int32 | uint32 | int64 | uint64 => true

theorem UaType.store_wide {ty : UaType} (wide : ty.wide = true) (val : Word) : ty.store val = val := by
  cases ty with
  | int32 | uint32 | int64 | uint64 => rfl
  | bool | byte | int16 | uint16 => cases wide

/-- **`OPCAttribute`.** The offset is the first bit of the mask. -/
structure OPCAttribute (Node : Type*) extends IOBase where
  ignore : Bool
  tick : Nat
  mask : Word
  attrName : Node
  uaType : UaType
  val : Word
  wval : Word
  rval : Word

namespace OPCAttribute

variable {Node : Type*}

def offset (io : OPCAttribute Node) : Nat := firstBit io.mask

def id (io : OPCAttribute Node) : ObjectId := io.si.id

def isOutput (io : OPCAttribute Node) : Bool := !io.ignore && (io.stype = .AO || io.stype = .DO)

def isInput (io : OPCAttribute Node) : Bool := !io.ignore && (io.stype = .AI || io.stype = .DI)

/-- A value of the sensor goes to the bits of the copy. -/
def fromSM (io : OPCAttribute Node) (sm : SMValues) (force : Bool) : OPCAttribute Node :=
  match io.stype with
  | .AO =>
    { io with
      toIOBase := io.refresh sm force
      val := forceSetBits io.val (BitVec.ofInt 32 (io.processingAsAO sm force)) io.mask io.offset }
  | .DO =>
    { io with
      toIOBase := io.refresh sm force
      val := forceSetBits io.val (if io.processingAsDO sm force then 1 else 0) io.mask io.offset }
  | .AI | .DI => io

def withValue (io : OPCAttribute Node) (value : Int) : OPCAttribute Node := { io with value := value }

/-- The branches of `sensorInfo`. -/
def onMessage (io : OPCAttribute Node) (sm : SMValues) (force : Bool) (value : Int) :
    OPCAttribute Node :=
  match io.stype with
  | .AO | .DO => (io.withValue value).fromSM sm force
  | .AI | .DI => io

/-- The branches of `updateToChannel`: the copy goes to the request. -/
def toChannel (io : OPCAttribute Node) : OPCAttribute Node :=
  match io.stype with
  | .AO | .DO => { io with wval := io.uaType.store io.val }
  | .AI | .DI => io

/-- The branches of `updateFromChannel`: the value read goes to the copy. -/
def fromChannel (io : OPCAttribute Node) : OPCAttribute Node :=
  match io.stype with
  | .AI => { io with val := getBits io.rval io.mask io.offset }
  | .DI => { io with val := getBits (if io.rval ≠ 0 then 1 else 0) io.mask io.offset }
  | .AO | .DO => io

/-- The values of an attribute are converted in no way. -/
structure Plain (io : OPCAttribute Node) : Prop where
  depend : io.depend = none
  invert : io.invert = false
  cal : io.cal = none
  wide : io.uaType.wide = true

/-- The value of a sensor as it is sent: a discrete one is 0 or 1. -/
def sent (io : OPCAttribute Node) (value : Int) : Word :=
  if io.stype = .DO then if value ≠ 0 then 1 else 0 else BitVec.ofInt 32 value

/-- **The bits of a variable that a value of the sensor is for.** -/
def field (io : OPCAttribute Node) (value : Int) : Word := (io.sent value <<< io.offset) &&& io.mask

/-! ### What does not change -/

/-- The attribute without its values. -/
def config (io : OPCAttribute Node) : OPCAttribute Node :=
  { io with value := 0, val := 0, wval := 0, rval := 0 }

variable {io io' : OPCAttribute Node}

/-- What does not depend on the values is the same. -/
theorem eq_of_config {β : Type*} (f : OPCAttribute Node → β) (reads : ∀ io, f io.config = f io)
    (same : io'.config = io.config) : f io' = f io := by
  rw [← reads, same, reads]

theorem fromSM_config (io : OPCAttribute Node) (sm : SMValues) (force : Bool) :
    (io.fromSM sm force).config = io.config := by
  have holds : ({ io with toIOBase := io.refresh sm force } : OPCAttribute Node).config =
      io.config := by
    rw [IOBase.refresh]
    split
    · rfl
    · rfl
  rw [fromSM]
  split
  · exact holds
  · exact holds
  · rfl
  · rfl

theorem onMessage_config (io : OPCAttribute Node) (sm : SMValues) (force : Bool) (value : Int) :
    (io.onMessage sm force value).config = io.config := by
  rw [onMessage]
  split
  · exact fromSM_config _ _ _
  · exact fromSM_config _ _ _
  · rfl
  · rfl

theorem active_of_isOutput (out : io.isOutput = true) : io.ignore = false := by
  rw [isOutput, Bool.and_eq_true, Bool.not_eq_true'] at out
  exact out.1

theorem active_of_isInput (input : io.isInput = true) : io.ignore = false := by
  rw [isInput, Bool.and_eq_true, Bool.not_eq_true'] at input
  exact input.1

theorem toChannel_config (io : OPCAttribute Node) : io.toChannel.config = io.config := by
  rw [toChannel]
  split <;> rfl

theorem fromChannel_config (io : OPCAttribute Node) : io.fromChannel.config = io.config := by
  rw [fromChannel]
  split <;> rfl

theorem field_config (same : io'.config = io.config) (value : Int) :
    io'.field value = io.field value :=
  eq_of_config (fun io => io.field value) (fun _ => rfl) same

/-! ### The copy of an output -/

/-- The copy of an output has no bits outside its mask. -/
def Clean (io : OPCAttribute Node) : Prop := io.val &&& ~~~io.mask = 0

theorem setBits_clean {value set mask : Word} (apart : mask ≠ 0) (clean : value &&& ~~~mask = 0)
    (offset : Nat) : forceSetBits value set mask offset = (set <<< offset) &&& mask := by
  rw [forceSetBits, if_neg apart, setBits, if_neg apart, clean]
  exact BitVec.zero_or

theorem field_clean (io : OPCAttribute Node) (value : Int) : io.field value &&& ~~~io.mask = 0 := by
  rw [field, BitVec.and_assoc, BitVec.and_not_self]
  exact BitVec.and_zero

/-- **The copy of an output that is not converted has the value in its bits and zeros elsewhere.** -/
theorem fromSM_val (plain : Plain io) (out : io.isOutput = true) (apart : io.mask ≠ 0)
    (clean : Clean io) (sm : SMValues) (force : Bool) :
    (io.fromSM sm force).val = io.field (if force then sm io.id else io.value) := by
  have yes : ∀ sm, io.checkDepend sm = true := fun sm => by
    rw [IOBase.checkDepend, plain.depend]
  cases kind : io.stype with
  | AO =>
    simp only [fromSM, kind]
    rw [setBits_clean apart clean, field, sent, if_neg (by simp [kind]),
      IOBase.processingAsAO_asIs (Or.inl plain.cal), if_pos (yes sm)]
    rfl
  | DO =>
    simp only [fromSM, kind]
    rw [setBits_clean apart clean, field, sent, if_pos kind, IOBase.processingAsDO, yes sm,
      plain.invert, Bool.not_true, if_neg Bool.false_ne_true]
    simp only [Bool.xor_false, decide_eq_true_eq]
    rfl
  | AI => simp [isOutput, kind] at out
  | DI => simp [isOutput, kind] at out

theorem onMessage_val (plain : Plain io) (out : io.isOutput = true) (apart : io.mask ≠ 0)
    (clean : Clean io) (sm : SMValues) (force : Bool) (value : Int) :
    (io.onMessage sm force value).val = io.field (if force then sm io.id else value) := by
  have kept : ((io.withValue value).fromSM sm force).val =
      io.field (if force then sm io.id else value) :=
    @fromSM_val Node (io.withValue value) ⟨plain.1, plain.2, plain.3, plain.4⟩ out apart clean
      sm force
  rw [onMessage]
  split
  · exact kept
  · exact kept
  · next stype => simp [isOutput, stype] at out
  · next stype => simp [isOutput, stype] at out

/-- An output the laws are about. -/
structure Good (io : OPCAttribute Node) : Prop where
  output : io.isOutput = true
  mask : io.mask ≠ 0
  plain : Plain io

theorem Good.config (good : Good io) (same : io'.config = io.config) :
    Good io' where
  output := (eq_of_config isOutput (fun _ => rfl) same).trans good.output
  mask zero := good.mask ((eq_of_config OPCAttribute.mask (fun _ => rfl) same).symm.trans zero)
  plain := by
    have simple := eq_of_config (fun io => (io.depend, io.invert, io.cal, io.uaType)) (fun _ => rfl) same
    simp only [Prod.mk.injEq] at simple
    obtain ⟨depends, inverted, uncalibrated, type⟩ := simple
    exact ⟨depends.trans good.plain.depend, inverted.trans good.plain.invert, uncalibrated.trans good.plain.cal,
      (congrArg UaType.wide type).trans good.plain.wide⟩

/-! ### The value of a discrete input -/

theorem one_and (mask : Word) : 1 &&& mask = if mask.getLsbD 0 then 1 else 0 := by
  ext k inside
  cases k with
  | zero => cases bit : mask.getLsbD 0 <;> simp_all
  | succ k => cases mask.getLsbD 0 <;> simp

/-- A discrete input reduces the variable to one bit before it takes its own one. -/
theorem getBits_bit {mask w : Word} (apart : mask ≠ 0) :
    getBits (if w ≠ 0 then 1 else 0) mask (firstBit mask) = 1 ↔ w ≠ 0 ∧ mask.getLsbD 0 = true := by
  rw [getBits, if_neg apart]
  by_cases zero : w = 0
  · simp [zero]
  · rw [if_pos zero, one_and]
    cases on : mask.getLsbD 0 with
    | false => simp
    | true =>
      have first : firstBit mask = 0 := by
        refine Nat.eq_zero_of_not_pos fun pos => ?_
        rw [getLsbD_of_lt_firstBit pos] at on
        cases on
      simpa [first] using zero

end OPCAttribute

end UniSet.OPCUAExchange

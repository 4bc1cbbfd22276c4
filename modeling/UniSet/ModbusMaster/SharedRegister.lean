/-
**Sensors that share a register of a write function.**

* `field`, `getField`, `restrict` — the bits of a sensor in the register, what is read of them, and what
  they can hold of a value.
* `Call` — one update of one of the sensors, with everything it depends on.
* `Fielded` — the type of the sensor lets its bit or its mask be looked at: a type of several words, or any
  type of a bit, writes the whole register.
* `mbval_apply` — an update of such a sensor writes its field.
* **`updateRSProperty_shared`** — any sequence of updates of such sensors leaves every sensor what it has
  last written, and the bits of no sensor as they were.
-/

import UniSet.ModbusMaster.Update

namespace UniSet.ModbusMaster.Update

open UniSet.Lib (put putBit putAll putAll_field putAll_outside getLsbD_put getLsbD_putBit shift_and_shift)

/-! ### Fields -/

namespace Property

variable (p : Property)

/-- The bits of the sensor: its bit, or those of its mask. -/
def field : ModbusData :=
  match p.nbit with
  | some nbit => BitVec.twoPow 16 nbit
  | none => p.mask

/-- The first of them. -/
def fieldOffset : Nat :=
  match p.nbit with
  | some nbit => nbit
  | none => p.offset

/-- **What is read of a register for the sensor**: its bit, or `getBits` with its mask and offset. -/
def getField (value : ModbusData) : ModbusData :=
  match p.nbit with
  | some nbit => if value.getLsbD nbit then 1 else 0
  | none => getBits value p.mask p.offset

/-- What the field can hold of a value. -/
def restrict (val : ModbusData) : ModbusData := val &&& (p.field >>> p.fieldOffset)

/-- The value a sensor with a bit or a mask is written with. -/
def fieldValue (proc : Process) (safe : Bool) (sm : SMValues) : ModbusData :=
  match p.nbit with
  | some _ => if p.outBit proc safe sm then 1 else 0
  | none => .ofInt 16 (p.outWord proc safe sm)

/-- The sensor has bits of its own. -/
def Shares : Prop := p.nbit ≠ none ∨ p.mask ≠ 0

/-- **The type of the sensor leaves it to its bit or its mask what is written**: no type for a bit; for a
mask also one of one word. A byte without a number is not written at all. -/
def Fielded : Prop :=
  match p.vType with
  | .vtUnknown => True
  | .vtSigned | .vtUnsigned => p.nbit = none
  | .vtByte => p.nbyte = 0
  | _ => False

variable {p}

theorem getField_eq (shares : p.Shares) (value : ModbusData) :
    p.getField value = (value &&& p.field) >>> p.fieldOffset := by
  rw [getField, field, fieldOffset]
  cases bit : p.nbit with
  | none =>
    have masked : p.mask ≠ 0 := shares.resolve_left fun some => some bit
    exact if_neg masked
  | some nbit =>
    apply BitVec.eq_of_getLsbD_eq
    intro i _
    simp only [BitVec.getLsbD_ushiftRight, BitVec.getLsbD_and, BitVec.getLsbD_twoPow]
    have small := nbit.isLt
    rcases Nat.eq_zero_or_pos i with rfl | positive
    · cases value.getLsbD nbit <;> simp
    · have other : ¬ (nbit : Nat) = nbit + i := by omega
      have high : (1 : ModbusData).getLsbD i = false := by
        show (BitVec.ofNat 16 1).getLsbD i = false
        rw [BitVec.getLsbD_one]
        simp [Nat.ne_of_gt positive]
      rw [decide_eq_false other, Bool.and_false, Bool.and_false]
      split
      · exact high
      · exact BitVec.getLsbD_zero

/-- A field that was given a value reads as the part of it the field can hold. -/
theorem getField_of_eq (shares : p.Shares) {value val : ModbusData}
    (same : value &&& p.field = (val <<< p.fieldOffset) &&& p.field) :
    p.getField value = p.restrict val := by
  rw [getField_eq shares, same, shift_and_shift, restrict]

theorem putBit_eq (value : ModbusData) (nbit : Fin 16) (s : Bool) :
    putBit value nbit s =
      put (BitVec.twoPow 16 nbit) ((if s then 1 else 0 : ModbusData) <<< (nbit : Nat)) value := by
  apply BitVec.eq_of_getLsbD_eq
  intro i inside
  rw [getLsbD_putBit _ _ nbit.isLt, getLsbD_put, BitVec.getLsbD_twoPow]
  by_cases here : i = nbit
  · subst here
    rw [BitVec.getLsbD_shiftLeft, Nat.sub_self]
    cases s <;> simp [inside]
  · have other : ¬ (nbit : Nat) = i := fun same => here same.symm
    rw [if_neg here, decide_eq_false other, Bool.and_false, if_neg Bool.false_ne_true]

/-- **What a sensor with a field of its own writes.** -/
theorem written_eq (proc : Process) (safe : Bool) (mbval : ModbusData) (sm : SMValues)
    (shares : p.Shares) (fielded : p.Fielded) :
    p.written proc safe mbval sm = none ∨ p.written proc safe mbval sm =
      some [put p.field (p.fieldValue proc safe sm <<< p.fieldOffset) mbval] := by
  have masked : p.nbit = none → p.mask ≠ 0 := fun none => shares.resolve_left fun some => some none
  have word : p.nbit = none → some [forceSetBits mbval (.ofInt 16 (p.outWord proc safe sm)) p.mask p.offset] =
      some [put p.field (p.fieldValue proc safe sm <<< p.fieldOffset) mbval] := by
    intro none
    rw [forceSetBits, if_neg (masked none), setBits, if_neg (masked none), field, fieldOffset, fieldValue,
      none]
  rw [Fielded] at fielded
  rw [written]
  cases type : p.vType <;> simp only [type] at fielded ⊢
  case vtUnknown =>
    right
    cases bit : p.nbit with
    | none =>
      have one : p.rnum ≤ 1 := by rw [rnum, type]; decide
      rw [if_pos one]
      exact word bit
    | some nbit =>
      rw [field, fieldOffset, fieldValue, bit]
      exact congrArg (fun word => some [word]) (putBit_eq mbval nbit (p.outBit proc safe sm))
  case vtSigned => exact Or.inr (word fielded)
  case vtUnsigned => exact Or.inr (word fielded)
  case vtByte => exact Or.inl (if_pos (Or.inl fielded))

/-- Whether a sensor writes does not depend on the register. -/
theorem written_isSome (proc : Process) (safe : Bool) (mbval : ModbusData) (sm : SMValues) :
    (p.written proc safe mbval sm).isSome = (p.written proc safe 0 sm).isSome := by
  rw [written, written]
  cases p.vType <;> simp only [Option.isSome_some]
  case vtUnknown =>
    cases p.nbit with
    | none => simp only; split <;> rfl
    | some _ => rfl
  case vtByte => split <;> rfl

end Property

/-! ### Updates -/

variable {n : Nat} (ps : Fin n → Property) (proc : Process)

/-- **An update of one of the sensors**: the state of its value, the modes and SharedMemory, and whether
the register is initialised by then. -/
structure Call (n : Nat) where
  sensor : Fin n
  base : IOBase
  env : Env
  mbInitOK : Bool

namespace Call

variable (c : Call n)

/-- The sensor. -/
def prop : Property := (ps c.sensor).withBase c.base

/-- The register after the update. -/
def apply (r : Reg) : Reg :=
  (updateRSProperty proc c.env (c.prop ps) { r with mbInitOK := c.mbInitOK }).reg

/-- **The value the update writes**, if it gets to writing one. -/
def value (r : Reg) : Option ModbusData :=
  let p := c.prop ps
  let r := { r with mbInitOK := c.mbInitOK }
  if r.mbfunc.isWriteFunction && c.env.writes proc p r && (p.written proc (c.env.useSafeval p) 0 c.env.sm).isSome
  then some (p.fieldValue proc (c.env.useSafeval p) c.env.sm)
  else none

end Call

variable {ps proc}

theorem mbfunc_apply (c : Call n) (r : Reg) : (c.apply ps proc r).mbfunc = r.mbfunc := by
  rw [Call.apply, updateRSProperty]
  split
  · split
    · split
      · rfl
      · split
        · rfl
        · split <;> rfl
    · split
      · rfl
      · split <;> rfl
  · rfl

/-- **An update writes the field of its sensor**, with the value, or nothing. -/
theorem mbval_apply {c : Call n} (r : Reg) (shares : (ps c.sensor).Shares)
    (fielded : (ps c.sensor).Fielded) :
    (c.apply ps proc r).mbval 0 = ((c.value ps proc r).map fun v : ModbusData =>
      put (ps c.sensor).field (v <<< (ps c.sensor).fieldOffset) (r.mbval 0)).getD (r.mbval 0) := by
  rw [Call.value, Call.apply, Reg.mbval]
  set now : Reg := { r with mbInitOK := c.mbInitOK }
  cases save : now.mbfunc.isWriteFunction with
  | false =>
    rw [updateRSProperty_cell_read _ _ _ save]
    rfl
  | true =>
    have some_iff := Property.written_isSome (p := c.prop ps) proc (c.env.useSafeval (c.prop ps))
      (now.mbval 0) c.env.sm
    rw [updateRSProperty_cell_write _ _ _ save, ← some_iff]
    rcases Property.written_eq (p := c.prop ps) proc (c.env.useSafeval (c.prop ps)) (now.mbval 0)
      c.env.sm shares fielded with ignored | words
    · rw [ignored]
      cases c.env.writes proc (c.prop ps) now <;> rfl
    · rw [words]
      cases c.env.writes proc (c.prop ps) now <;> rfl

/-! ### Sequences of updates -/

variable (ps proc)

/-- The register after the updates, taken in order. -/
def afterAll (calls : List (Call n)) (r : Reg) : Reg := calls.foldl (fun r c => c.apply ps proc r) r

/-- **What the updates have written**, the sensor and the value of each. -/
def writes (calls : List (Call n)) (r : Reg) : List (Fin n × ModbusData) :=
  calls.filterMap fun c => (c.value ps proc r).map fun v => (c.sensor, v)

/-- A write, with its value moved to the field. -/
def placed (write : Fin n × ModbusData) : Fin n × ModbusData :=
  (write.1, write.2 <<< (ps write.1).fieldOffset)

/-- **The last value a sensor has written.** -/
def lastWritten (calls : List (Call n)) (r : Reg) (i : Fin n) : Option ModbusData :=
  ((writes ps proc calls r).filter fun write => write.1 = i).getLast?.map Prod.snd

variable {ps proc}

/-- What a call writes depends on the register only by its function. -/
theorem value_eq_of_mbfunc (c : Call n) {r s : Reg} (same : r.mbfunc = s.mbfunc) :
    c.value ps proc r = c.value ps proc s := by
  simp only [Call.value, Env.writes, same]
  rfl

theorem writes_cons (c : Call n) (calls : List (Call n)) (r : Reg) :
    writes ps proc (c :: calls) r =
      ((c.value ps proc r).map fun v => (c.sensor, v)).toList ++ writes ps proc calls r := by
  rw [writes, List.filterMap_cons]
  cases c.value ps proc r <;> rfl

/-- **The word after the updates**: the writes, one field after the other. -/
theorem mbval_afterAll (shares : ∀ i, (ps i).Shares) (calls : List (Call n))
    (fielded : ∀ c ∈ calls, (ps c.sensor).Fielded) (r : Reg) :
    (afterAll ps proc calls r).mbval 0 = putAll (fun i => (ps i).field) (r.mbval 0)
      ((writes ps proc calls r).map (placed ps)) := by
  induction calls generalizing r with
  | nil => rfl
  | cons c calls ih =>
    have later : writes ps proc calls (c.apply ps proc r) = writes ps proc calls r :=
      List.filterMap_congr fun other _ => by rw [value_eq_of_mbfunc other (mbfunc_apply c r)]
    have step := @mbval_apply n ps proc c r (shares c.sensor) (fielded c List.mem_cons_self)
    rw [afterAll, List.foldl_cons, ← afterAll, ih (fun other mem => fielded other (List.mem_cons_of_mem c mem)),
      later, step, writes_cons]
    cases c.value ps proc r <;> rfl

/-- The last value of a field, in place, is the last value of its sensor moved there. -/
theorem last_placed (calls : List (Call n)) (r : Reg) (i : Fin n) :
    (((writes ps proc calls r).map (placed ps)).filter fun write => write.1 = i).getLast?.map Prod.snd =
    (lastWritten ps proc calls r i).map fun v : ModbusData => v <<< (ps i).fieldOffset := by
  have own : ∀ write ∈ (writes ps proc calls r).filter (fun write => write.1 = i),
      placed ps write = (write.1, write.2 <<< (ps i).fieldOffset) := by
    intro write mem
    have here : write.1 = i := of_decide_eq_true (List.mem_filter.mp mem).2
    rw [placed, here]
  rw [List.filter_map, lastWritten]
  show ((List.map _ ((writes ps proc calls r).filter fun write => write.1 = i)).getLast?).map _ = _
  rw [List.map_congr_left own, List.getLast?_map, Option.map_map, Option.map_map]
  rfl

/-- **Sensors that share a register do not disturb each other.** After any sequence of updates the field of
a sensor holds what it has last written, as far as it fits, or what was there if it has written nothing;
bits of no field stay. -/
theorem updateRSProperty_shared (ps : Fin n → Property) (proc : Process) (calls : List (Call n)) (r : Reg)
    (shares : ∀ i, (ps i).Shares) (disjoint : ∀ i j, j ≠ i → (ps j).field &&& (ps i).field = 0)
    (fielded : ∀ c ∈ calls, (ps c.sensor).Fielded) :
    (∀ i, (ps i).getField ((afterAll ps proc calls r).mbval 0) =
      ((lastWritten ps proc calls r i).map (ps i).restrict).getD ((ps i).getField (r.mbval 0))) ∧
    ∀ bit, (∀ i, (ps i).field.getLsbD bit = false) →
      ((afterAll ps proc calls r).mbval 0).getLsbD bit = (r.mbval 0).getLsbD bit := by
  rw [mbval_afterAll shares calls fielded]
  constructor
  · intro i
    have last := @putAll_field 16 (Fin n) (fun i => (ps i).field) _ i (disjoint i) (r.mbval 0)
      ((writes ps proc calls r).map (placed ps))
    rw [last_placed] at last
    cases written : lastWritten ps proc calls r i with
    | none =>
      rw [written] at last
      show _ = (ps i).getField (r.mbval 0)
      rw [Property.getField_eq (shares i), last, Property.getField_eq (shares i)]
      rfl
    | some v =>
      rw [written] at last
      exact Property.getField_of_eq (shares i) last
  · intro bit free
    rcases Nat.lt_or_ge bit 16 with inside | beyond
    · have outside : ∀ i, (ps i).field &&& BitVec.twoPow 16 bit = 0 := by
        intro i
        rw [BitVec.and_twoPow, free i, if_neg Bool.false_ne_true]
        rfl
      have same := congrArg (BitVec.getLsbD · bit)
        (putAll_outside outside (r.mbval 0) ((writes ps proc calls r).map (placed ps)))
      simpa [BitVec.getLsbD_twoPow, inside] using same
    · rw [BitVec.getLsbD_of_ge _ bit beyond, BitVec.getLsbD_of_ge _ bit beyond]

/-- A sensor of a discrete output, with nothing but its place in the register. -/
def plainDO (si : ObjectId) (nbit : Option (Fin 16)) (mask : ModbusData) (vType : VType)
    (exclusive : mask ≠ 0 → nbit = none) : Property where
  si := ⟨si, 0⟩
  stype := .DO
  value := 0
  invert := false
  rawdata := false
  depend := none
  filter := none
  filtered := []
  cal := none
  debounced := id
  safeval := 0
  safevalDefined := false
  nbit := nbit
  vType := vType
  nbyte := 0
  mask := mask
  bsize := Nat.zero_le 2
  exclusive := fun masked => ⟨exclusive masked, rfl⟩

/-- A process without modes, and no value with a floating point. -/
def plainProcess : Process where
  exchangeMode := 0
  force := false
  forceOut := true
  floats := ⟨fun _ _ _ => 0, fun _ _ _ _ => 0, fun _ _ _ => 0⟩

/-- An update of a sensor that is on in SharedMemory, or off. -/
def plainCall (ps : Fin n → Property) (i : Fin n) (value : Int) : Call n where
  sensor := i
  base := (ps i).toIOBase
  env := ⟨⟨0, 0, true⟩, false, fun _ => value, false⟩
  mbInitOK := true

/-- A register of function 0x06 with this word. -/
def singleReg (value : ModbusData) : Reg where
  mbfunc := .fnWriteOutputSingleRegister
  mbInitOK := true
  smInitOK := true
  cell := fun _ => ⟨value, false⟩

/-- Two sensors with masks with gaps. -/
def gapMasks (i : Fin 2) : Property :=
  plainDO (i + 1) none (if i.val = 0 then 0x0A0A else 0x0505) .vtUnknown fun _ => rfl

/-- The one that was not written last holds its value as well. -/
theorem updateRSProperty_shared_masks :
    (∀ i, (gapMasks i).getField ((afterAll gapMasks plainProcess
          [plainCall gapMasks 0 1, plainCall gapMasks 1 1] (singleReg 0)).mbval 0) =
        ((lastWritten gapMasks plainProcess [plainCall gapMasks 0 1, plainCall gapMasks 1 1]
          (singleReg 0) i).map (gapMasks i).restrict).getD ((gapMasks i).getField 0)) ∧
      ∀ bit, (∀ i, (gapMasks i).field.getLsbD bit = false) →
        ((afterAll gapMasks plainProcess [plainCall gapMasks 0 1, plainCall gapMasks 1 1]
          (singleReg 0)).mbval 0).getLsbD bit = (0 : ModbusData).getLsbD bit :=
  updateRSProperty_shared gapMasks plainProcess [plainCall gapMasks 0 1, plainCall gapMasks 1 1]
    (singleReg 0) (fun i => Or.inr (by revert i; decide)) (by decide)
    (fun _ _ => trivial)

/-- Two sensors with a bit and a type. -/
def typedBits (i : Fin 2) : Property :=
  plainDO (i + 1) (some (i.castAdd 14)) 0 .vtUnsigned fun masked => absurd rfl masked

/-- **A type takes the bit of a sensor away**: the second update writes the whole register. -/
theorem updateRSProperty_disturbs :
    ¬ ∀ (n : Nat) (ps : Fin n → Property) (proc : Process) (calls : List (Call n)) (r : Reg),
      (∀ i, (ps i).nbit ≠ none) → (∀ i j, j ≠ i → (ps j).field &&& (ps i).field = 0) →
      (∀ i, (ps i).getField ((afterAll ps proc calls r).mbval 0) =
        ((lastWritten ps proc calls r i).map (ps i).restrict).getD ((ps i).getField (r.mbval 0))) ∧
      ∀ bit, (∀ i, (ps i).field.getLsbD bit = false) →
        ((afterAll ps proc calls r).mbval 0).getLsbD bit = (r.mbval 0).getLsbD bit := by
  intro undisturbed
  have first := (undisturbed 2 typedBits plainProcess [plainCall typedBits 0 1, plainCall typedBits 1 0]
    (singleReg 0) (by decide) (by decide)).1 0
  exact absurd first (by decide)

end UniSet.ModbusMaster.Update

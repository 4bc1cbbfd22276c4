/-
**The values a Modbus slave answers with: subscriptions and messages.**

* `askSensors`, `sensorInfo` — without `force` the slave asks for the sensors of its registers and keeps
  a copy of each value in every register, for every word and every bit.
* `reached` — the copies a message of a sensor gets to: the first register of the sensor and as many
  after it as its value has words. No copy of a bit is among them.
* `run_at` — what every copy is after any sequence of messages and reads.
* **`refreshed_iff`**: a register is asked for and read as last reported exactly if its copies are
  `Refreshed`: reached by messages, or read the same for every value.
-/

import UniSet.ModbusSlave.InitItem

namespace UniSet.ModbusSlave

open ModbusMaster (ObjectId IOType VType genRegID)

variable (s : Slave)

namespace Register

/-- The sensor of the register, of the first bit if it is one of bits. -/
def id (r : Register) : ObjectId := r.prop.si.id

def setValue (r : Register) (value : Int) : Register :=
  { r with prop := r.prop.withBase { r.prop.toIOBase with value := value } }

@[simp] theorem setValue_id (r : Register) (value : Int) : (r.setValue value).id = r.id := rfl

@[simp] theorem setValue_setValue (r : Register) (value value' : Int) :
    (r.setValue value).setValue value' = r.setValue value' := rfl

/-- What tells which registers a message gets to: the sensor and the words of its value. -/
def key (r : Register) : ObjectId × Nat := (r.id, r.prop.vtype.wsize)

end Register

/-! ### Messages -/

/-- **`MBSlave::askSensors`**: the sensors that are asked for. -/
def askSensors (iomap : IOMap) : List ObjectId :=
  if s.force then [] else iomap.flatMap fun entry => entry.2.regs.map Register.id

/-- The registers of the words of a value get it, as far as they are of the sensor. -/
def updateWords (id : ObjectId) (value : Int) : Nat → List Register → List Register
  | 0, regs => regs
  | _ + 1, [] => []
  | sz + 1, r :: regs =>
    (if r.id = id then r.setValue value else r) :: updateWords id value sz regs

/-- The value the first register of a sensor gets at first. -/
def firstValue (r : Register) (value : Int) : Int :=
  if r.prop.isDiscrete then if value ≠ 0 then 1 else 0 else value

/-- The search of `MBSlave::sensorInfo` in the map of an address. -/
def updateRegs (id : ObjectId) (value : Int) : List Register → List Register
  | [] => []
  | r :: regs =>
    if r.id = id then
      updateWords id value r.prop.vtype.wsize (r.setValue (firstValue r value) :: regs)
    else r :: updateRegs id value regs

theorem updateWords_map {β : Type} (f : Register → β) (keeps : ∀ r value, f (r.setValue value) = f r)
    (id : ObjectId) (value : Int) (sz : Nat) (regs : List Register) :
    (updateWords id value sz regs).map f = regs.map f := by
  induction sz generalizing regs with
  | zero => rfl
  | succ sz ih =>
    cases regs with
    | nil => rfl
    | cons r regs =>
      show f (if r.id = id then r.setValue value else r) :: (updateWords id value sz regs).map f = _
      rw [ih, apply_ite f, keeps, ite_self]
      rfl

/-- What does not depend on the values is as it was. -/
theorem updateRegs_map {β : Type} (f : Register → β) (keeps : ∀ r value, f (r.setValue value) = f r)
    (id : ObjectId) (value : Int) (regs : List Register) :
    (updateRegs id value regs).map f = regs.map f := by
  induction regs with
  | nil => rfl
  | cons r regs ih =>
    rw [updateRegs]
    split
    · rw [updateWords_map f keeps, List.map_cons, keeps, List.map_cons]
    · rw [List.map_cons, ih, List.map_cons]

/-- The map of an address after a message. -/
def RegMap.update (m : RegMap) (id : ObjectId) (value : Int) : RegMap where
  regs := updateRegs id value m.regs
  sorted := by
    rw [updateRegs_map Register.regID fun _ _ => rfl]
    exact m.sorted

/-- **`MBSlave::sensorInfo`**: the first address with the sensor is the only one updated. -/
def sensorInfo (id : ObjectId) (value : Int) : IOMap → IOMap
  | [] => []
  | (addr, m) :: iomap =>
    if m.regs.any fun r => r.id = id then (addr, m.update id value) :: iomap
    else (addr, m) :: sensorInfo id value iomap

/-! ### The copies a message gets to -/

/-- The registers of an address from the first one of the sensor on, for all words of its value. -/
def inWindow (id : ObjectId) (keys : List (ObjectId × Nat)) (j : Nat) : Bool :=
  let first := keys.findIdx fun key => key.1 = id
  decide (first ≤ j) && decide (j < first + (keys[first]?).elim 0 Prod.snd)

def keys (iomap : IOMap) : List (List (ObjectId × Nat)) :=
  iomap.map fun entry => entry.2.regs.map Register.key

/-- **The registers a message of a sensor gets to**, by the number of their address and their own. -/
def reached (id : ObjectId) (kss : List (List (ObjectId × Nat))) (k j : Nat) : Bool :=
  kss.findIdx (fun ks => ks.any fun key => key.1 = id) = k &&
    (kss[k]?).any fun ks => inWindow id ks j

/-- The register at a place. -/
def regAt (iomap : IOMap) (k j : Nat) : Option Register := (iomap[k]?).bind fun e => e.2.regs[j]?

theorem updateWords_get (id : ObjectId) (value : Int) (sz : Nat) (regs : List Register) (j : Nat) :
    (updateWords id value sz regs)[j]? =
      regs[j]?.map fun r => if r.id = id ∧ j < sz then r.setValue value else r := by
  induction sz generalizing regs j with
  | zero => simp [updateWords]
  | succ sz ih =>
    cases regs with
    | nil => simp [updateWords]
    | cons r regs =>
      cases j with
      | zero => simp [updateWords]
      | succ j => simp [updateWords, ih]

theorem wsize_pos (v : VType) : 0 < v.wsize := by cases v <;> decide

theorem updateRegs_get (id : ObjectId) (value : Int) (regs : List Register) (j : Nat) :
    (updateRegs id value regs)[j]? = regs[j]?.map fun r =>
      if r.id = id ∧ inWindow id (regs.map Register.key) j then r.setValue value else r := by
  induction regs generalizing j with
  | nil => rfl
  | cons r regs ih =>
    by_cases own : r.id = id
    · have window : ∀ j, inWindow id ((r :: regs).map Register.key) j =
          decide (j < r.prop.vtype.wsize) := fun j => by
        simp [inWindow, Register.key, own, List.findIdx_cons]
      rw [updateRegs, if_pos own, updateWords_get]
      simp only [window, decide_eq_true_eq]
      cases j with
      | zero =>
        have pos := wsize_pos r.prop.vtype
        simp only [List.getElem?_cons_zero, Option.map_some, pos, own, if_true, and_true]
        exact congrArg some (if_pos own)
      | succ j => rfl
    · have first : (r.key.1 = id) = False := eq_false own
      rw [updateRegs, if_neg own]
      cases j with
      | zero => simp [own]
      | succ j =>
        rw [List.getElem?_cons_succ, List.getElem?_cons_succ, ih]
        have window : inWindow id ((r :: regs).map Register.key) (j + 1) =
            inWindow id (regs.map Register.key) j := by
          simp only [inWindow, List.map_cons, List.findIdx_cons, first, decide_false, cond_false,
            List.getElem?_cons_succ, Nat.add_le_add_iff_right]
          congr 1
          exact decide_eq_decide.mpr (by omega)
        rw [window]

/-- A message changes neither the sensors of the registers nor the lengths of their values. -/
theorem keys_sensorInfo (id : ObjectId) (value : Int) (iomap : IOMap) :
    keys (sensorInfo id value iomap) = keys iomap := by
  induction iomap with
  | nil => rfl
  | cons entry iomap ih =>
    rw [sensorInfo]
    split
    · exact congrArg (· :: keys iomap) (updateRegs_map Register.key (fun _ _ => rfl) id value _)
    · exact congrArg (entry.2.regs.map Register.key :: ·) ih

/-- **A message gets to the registers of `reached`** that are of its sensor, and to no other. -/
theorem regAt_sensorInfo (id : ObjectId) (value : Int) (iomap : IOMap) (k j : Nat) :
    regAt (sensorInfo id value iomap) k j = (regAt iomap k j).map fun r =>
      if r.id = id ∧ reached id (keys iomap) k j then r.setValue value else r := by
  induction iomap generalizing k with
  | nil => rfl
  | cons entry iomap ih =>
    obtain ⟨addr, m⟩ := entry
    have same : ((m.regs.map Register.key).any fun key => key.1 = id) = m.regs.any fun r => r.id = id := by
      rw [List.any_map]
      rfl
    rw [sensorInfo]
    by_cases reports : (m.regs.any fun r => r.id = id) = true
    · have holds : ∀ k j, reached id (keys ((addr, m) :: iomap)) k j =
          (decide (k = 0) && inWindow id (m.regs.map Register.key) j) := fun k j => by
        rw [reached, keys, List.map_cons, List.findIdx_cons, same, reports, cond_true]
        cases k with
        | zero => simp
        | succ k => simp
      rw [if_pos reports]
      simp only [holds]
      cases k with
      | zero => simpa [regAt, RegMap.update] using updateRegs_get id value m.regs j
      | succ k => simp [regAt]
    · rw [Bool.not_eq_true] at reports
      rw [reports, if_neg Bool.false_ne_true]
      cases k with
      | zero =>
        have holds : reached id (keys ((addr, m) :: iomap)) 0 j = false := by
          rw [reached, keys, List.map_cons, List.findIdx_cons, same, reports, cond_false]
          simp
        simp [holds, regAt]
      | succ k =>
        have holds : reached id (keys ((addr, m) :: iomap)) (k + 1) j =
            reached id (keys iomap) k j := by
          rw [reached, keys, List.map_cons, List.findIdx_cons, same, reports, cond_false]
          simp [reached, keys]
        rw [holds]
        exact ih k

/-! ### Reads between the messages -/

/-- Without `force` a read changes no register. -/
theorem afterRead_eq (unforced : s.force = false) (r : Register) (sm : SMValues) :
    r.afterRead s sm = r := by
  have prop : ∀ p : IOProperty, p.afterRead s sm = p := by
    intro p
    rw [IOProperty.afterRead]
    split
    · rfl
    · rw [IOBase.refresh, unforced, Bool.and_false, if_neg Bool.false_ne_true]
  rw [Register.afterRead]
  split
  · next bvec found =>
    have bits : (fun i => (bvec i).map fun p => p.afterRead s sm) = bvec := by
      funext i
      cases bvec i with
      | none => rfl
      | some p => exact congrArg some (prop p)
    rw [bits, ← found]
  · rw [prop]

theorem readWalk_eq (unforced : s.force = false) (sm : SMValues) (count regID : Nat)
    (regs : List Register) : (readWalk s sm count regID regs).2 = regs := by
  induction count, regID, regs using readWalk.induct s sm with
  | case1 => rw [readWalk]
  | case2 => rw [readWalk]
  | case3 count r regs ih =>
    rw [readWalk, if_pos rfl]
    simp only [afterRead_eq s unforced, ih]
  | case4 count regID r regs apart ih =>
    rw [readWalk, if_neg apart]
    exact ih

theorem RegMap.ext_regs {m m' : RegMap} (same : m.regs = m'.regs) : m = m' := by
  cases m
  cases m'
  cases same
  rfl

theorem readOutputRegisters_map (unforced : s.force = false) (m : RegMap) (start count func : Nat)
    (sm : SMValues) : (s.readOutputRegisters m start count func sm).2.2 = m := by
  rw [Slave.readOutputRegisters]
  split
  · rfl
  · split
    · show (s.realRead m start func sm).2.2 = m
      rw [Slave.realRead]
      split
      · rfl
      · apply RegMap.ext_regs
        show m.regs.map _ = m.regs
        simp only [afterRead_eq s unforced, ite_self, List.map_id']
    · rw [Slave.muchRead]
      split
      · rfl
      · apply RegMap.ext_regs
        show m.before _ ++ (readWalk s sm _ _ _).2 = m.regs
        rw [readWalk_eq s unforced, RegMap.before_append_fromID]

/-- **A step of the slave**: a message or a read request. -/
inductive Event
  | sensorInfo (id : ObjectId) (value : Int)
  | read (addr start count func : Nat) (sm : SMValues)

/-- The maps after a step. -/
def step (iomap : IOMap) : Event → IOMap
  | .sensorInfo id value => sensorInfo id value iomap
  | .read addr start count func sm => iomap.map fun entry =>
    if entry.1 = addr then (entry.1, (s.readOutputRegisters entry.2 start count func sm).2.2) else entry

def run (iomap : IOMap) (events : List Event) : IOMap := events.foldl (step s) iomap

/-- The last value reported of a sensor. -/
def lastReport (id : ObjectId) : List Event → Option Int
  | [] => none
  | .sensorInfo id' value :: events =>
    (lastReport id events).or (if id' = id then some value else none)
  | .read .. :: events => lastReport id events

/-- **What the copies are after any run**: those messages get to are the last values reported, the others
are as they were. -/
theorem run_at (unforced : s.force = false) (events : List Event) (iomap : IOMap) (k j : Nat) :
    regAt (run s iomap events) k j = (regAt iomap k j).map fun r =>
      if reached r.id (keys iomap) k j then (lastReport r.id events).elim r r.setValue else r := by
  induction events generalizing iomap with
  | nil =>
    rw [run, List.foldl_nil]
    simp [lastReport]
  | cons event events ih =>
    rw [run, List.foldl_cons]
    cases event with
    | read addr start count func sm =>
      have same : step s iomap (.read addr start count func sm) = iomap := by
        show iomap.map _ = iomap
        simp only [readOutputRegisters_map s unforced, ite_self, List.map_id']
      rw [same]
      exact ih iomap
    | sensorInfo id value =>
      refine (ih (sensorInfo id value iomap)).trans ?_
      rw [regAt_sensorInfo, keys_sensorInfo, Option.map_map]
      congr 1
      funext r
      by_cases own : r.id = id
      · subst own
        cases reach : reached r.id (keys iomap) k j with
        | false => simp [reach]
        | true =>
          cases last : lastReport r.id events with
          | none => simp [lastReport, reach, last]
          | some v => simp [lastReport, reach, last]
      · simp [lastReport, own, Ne.symm own]

/-! ### Current answers -/

/-- What is read of the item when this is its value. -/
def IOProperty.encoded (p : IOProperty) (sm : SMValues) (value : Int) : MbErrCode × ModbusData :=
  (p.withBase { p.toIOBase with value := value }).realReadProp s sm

/-- The same for an item of a bit. -/
def IOProperty.encodedBit (p : IOProperty) (sm : SMValues) (value : Int) : Bool :=
  (p.encoded s sm value).1 = .erNoError && (p.encoded s sm value).2 ≠ 0

/-- **A read of the register gives the last values reported**: of its sensor, or bit by bit of the
sensors of its bits. -/
def Register.Current (r : Register) (sm : SMValues) (last : ObjectId → Option Int) : Prop :=
  match r.bitreg with
  | none => ∀ v, last r.id = some v → r.realReadIt s sm = r.prop.encoded s sm v
  | some bvec => ∀ i p v, bvec i = some p → last p.si.id = some v →
      (r.realReadIt s sm).2.getLsbD i = p.encodedBit s sm v

/-- Every sensor of a register or a bit is asked for. -/
def Subscribed (iomap : IOMap) : Prop :=
  ∀ k j r, regAt iomap k j = some r → ∀ id ∈ r.ids, id ∈ askSensors s iomap

/-- **The slave answers with current values**: after any messages and reads. -/
def AnswersCurrent (iomap : IOMap) : Prop :=
  ∀ events k j r, regAt (run s iomap events) k j = some r →
    ∀ sm, r.Current s sm fun id => lastReport id events

/-- A copy of a register that is read: a message gets to it, or all its values are read the same. -/
def Register.Refreshed (iomap : IOMap) (k j : Nat) (r : Register) : Prop :=
  match r.bitreg with
  | none => reached r.id (keys iomap) k j = true ∨
      ∀ sm v, r.prop.encoded s sm v = r.prop.encoded s sm r.prop.value
  | some bvec => ∀ i p, bvec i = some p →
      (∃ k' j' r', regAt iomap k' j' = some r' ∧ r'.id = p.si.id) ∧
      ∀ sm v, p.encodedBit s sm v = p.encodedBit s sm p.value

theorem mem_askSensors (unforced : s.force = false) (iomap : IOMap) (id : ObjectId) :
    id ∈ askSensors s iomap ↔ ∃ k j r, regAt iomap k j = some r ∧ r.id = id := by
  rw [askSensors, unforced, if_neg Bool.false_ne_true, List.mem_flatMap]
  constructor
  · rintro ⟨entry, place, named⟩
    obtain ⟨r, found, own⟩ := List.mem_map.mp named
    obtain ⟨k, there⟩ := List.mem_iff_getElem?.mp place
    obtain ⟨j, reg⟩ := List.mem_iff_getElem?.mp found
    exact ⟨k, j, r, by rw [regAt, there]; exact reg, own⟩
  · rintro ⟨k, j, r, found, own⟩
    obtain ⟨entry, place, reg⟩ := Option.bind_eq_some_iff.mp found
    exact ⟨entry, List.mem_of_getElem? place, List.mem_map.mpr ⟨r, List.mem_of_getElem? reg, own⟩⟩

variable {r : Register} {bvec : BitRegProperty}

theorem realReadIt_none (whole : r.bitreg = none) (sm : SMValues) :
    r.realReadIt s sm = r.prop.encoded s sm r.prop.value := by
  rw [Register.realReadIt, whole]
  rfl

theorem realReadIt_bit (bits : r.bitreg = some bvec) {i : Fin 16} {p : IOProperty}
    (bit : bvec i = some p) (sm : SMValues) :
    (r.realReadIt s sm).2.getLsbD i = p.encodedBit s sm p.value := by
  rw [Register.realReadIt, bits]
  show (mdata _).getLsbD i = _
  rw [getLsbD_mdata, Register.readBit, bit]
  rfl

theorem current_none (whole : r.bitreg = none) (sm : SMValues) (last : ObjectId → Option Int) :
    r.Current s sm last ↔ ∀ v, last r.id = some v →
      r.prop.encoded s sm r.prop.value = r.prop.encoded s sm v := by
  rw [Register.Current, whole, ← realReadIt_none s whole]

theorem current_some (bits : r.bitreg = some bvec) (sm : SMValues) (last : ObjectId → Option Int) :
    r.Current s sm last ↔ ∀ i p v,
      bvec i = some p → last p.si.id = some v →
      p.encodedBit s sm p.value = p.encodedBit s sm v := by
  rw [Register.Current, bits]
  dsimp only
  refine forall_congr' fun i => forall_congr' fun p => forall_congr' fun v => ?_
  refine imp_congr_right fun bit => ?_
  rw [realReadIt_bit s bits bit]

/-- The registers of a map keep their bits in every run. -/
theorem run_bitreg (unforced : s.force = false) {iomap : IOMap} {k j : Nat} {r' : Register}
    (found : regAt iomap k j = some r) {events : List Event}
    (after : regAt (run s iomap events) k j = some r') : r'.bitreg = r.bitreg := by
  rw [run_at s unforced, found, Option.map_some, Option.some.injEq] at after
  subst after
  split
  · cases lastReport r.id events with
    | none => rfl
    | some v => rfl
  · rfl

theorem lastReport_one (id : ObjectId) (v : Int) : lastReport id [.sensorInfo id v] = some v := by
  simp [lastReport]

/-- **A register of a value** is current in every run exactly if messages get to it or all its values
are read the same. -/
theorem register_current_iff (unforced : s.force = false) (iomap : IOMap) {k j : Nat}
    (found : regAt iomap k j = some r) (whole : r.bitreg = none) :
    (∀ events r', regAt (run s iomap events) k j = some r' →
      ∀ sm, r'.Current s sm fun id => lastReport id events) ↔ r.Refreshed s iomap k j := by
  have runs := fun events => run_at s unforced events iomap k j
  simp only [found, Option.map_some] at runs
  rw [Register.Refreshed, whole]
  dsimp only
  cases reach : reached r.id (keys iomap) k j with
  | true =>
    refine ⟨fun _ => Or.inl rfl, fun _ events r' after sm => ?_⟩
    rw [current_none s ((run_bitreg s unforced found after).trans whole)]
    rw [runs, reach, if_pos rfl, Option.some.injEq] at after
    intro v report
    cases last : lastReport r.id events with
    | none =>
      rw [last, Option.elim_none] at after
      rw [← after, last] at report
      cases report
    | some w =>
      rw [last, Option.elim_some] at after
      rw [← after, Register.setValue_id, last, Option.some.injEq] at report
      rw [← report, ← after]
      rfl
  | false =>
    simp only [reach, Bool.false_eq_true, if_false] at runs
    constructor
    · intro refreshes
      right
      intro sm v
      have cur := refreshes [.sensorInfo r.id v] r (runs _) sm
      exact ((current_none s whole sm _).mp cur v (lastReport_one _ _)).symm
    · intro refreshes events r' after sm
      rw [runs, Option.some.injEq] at after
      rw [← after, current_none s whole]
      intro v _
      exact ((refreshes.resolve_left Bool.false_ne_true) sm v).symm

/-- **A register of bits** is subscribed and current in every run exactly if the sensors of its bits are
those of registers too and all their values are read the same. -/
theorem bits_current_iff (unforced : s.force = false) (iomap : IOMap) {k j : Nat}
    (found : regAt iomap k j = some r) (bits : r.bitreg = some bvec) :
    ((∀ id ∈ r.ids, id ∈ askSensors s iomap) ∧ ∀ events r',
      regAt (run s iomap events) k j = some r' →
      ∀ sm, r'.Current s sm fun id => lastReport id events) ↔ r.Refreshed s iomap k j := by
  have both : ∀ id, id ∈ r.ids ↔ ∃ i p, bvec i = some p ∧ p.si.id = id := by
    intro id
    rw [Register.ids, Register.items, bits, List.mem_map]
    dsimp only
    simp only [List.mem_filterMap, List.mem_finRange, true_and]
    constructor
    · rintro ⟨p, ⟨i, bit⟩, own⟩
      exact ⟨i, p, bit, own⟩
    · rintro ⟨i, p, bit, own⟩
      exact ⟨p, ⟨i, bit⟩, own⟩
  simp only [mem_askSensors s unforced, both]
  rw [Register.Refreshed, bits]
  dsimp only
  constructor
  · rintro ⟨ask, refreshes⟩ i p bit'
    refine ⟨ask _ ⟨i, p, bit', rfl⟩, fun sm v => ?_⟩
    obtain ⟨r', after⟩ : ∃ r', regAt (run s iomap [.sensorInfo p.si.id v]) k j = some r' := by
      rw [run_at s unforced, found]
      exact ⟨_, rfl⟩
    have cur := refreshes _ r' after sm
    rw [current_some s ((run_bitreg s unforced found after).trans bits)] at cur
    exact (cur i p v bit' (lastReport_one _ _)).symm
  · intro refreshes
    refine ⟨?_, ?_⟩
    · rintro id ⟨i, p, bit', rfl⟩
      exact (refreshes i p bit').1
    · intro events r' after sm
      rw [current_some s ((run_bitreg s unforced found after).trans bits)]
      intro i p v bit' _
      exact ((refreshes i p bit').2 sm v).symm

/-- A register is subscribed and current in every run exactly if its copies are refreshed. -/
theorem refreshed_iff (unforced : s.force = false) (iomap : IOMap) {k j : Nat}
    (found : regAt iomap k j = some r) :
    ((∀ id ∈ r.ids, id ∈ askSensors s iomap) ∧ ∀ events r',
      regAt (run s iomap events) k j = some r' →
      ∀ sm, r'.Current s sm fun id => lastReport id events) ↔ r.Refreshed s iomap k j := by
  cases bits : r.bitreg with
  | none =>
    have ask : ∀ id ∈ r.ids, id ∈ askSensors s iomap := by
      rw [Register.ids, Register.items, bits]
      intro id own
      exact (mem_askSensors s unforced iomap id).mpr ⟨k, j, r, found, (List.mem_singleton.mp own).symm⟩
    rw [← register_current_iff s unforced iomap found bits]
    exact ⟨fun both => both.2, fun both => ⟨ask, both⟩⟩
  | some bvec => exact bits_current_iff s unforced iomap found bits

end UniSet.ModbusSlave

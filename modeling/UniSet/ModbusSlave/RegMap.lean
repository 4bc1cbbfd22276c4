/-
**The register map of a Modbus slave and the requests that go along it.**

* `RegMap` — the registers of an address, sorted by `regID`.
* `muchWrite`, `muchRead` — a request goes along the map. Registers it does not know are skipped.
* `stops` — the registers a write stops at, with the words they get.
* **`exec_stop`**, **`exec_passed`**: a register a request stops at is written with its words, one it
  does not stop at is as it was. The sensors of no stop keep their values (`writeWalk_frame`).
-/

import UniSet.ModbusSlave.Register

namespace UniSet.ModbusSlave

open ModbusMaster (ObjectId genRegID)

/-- **`MBSlave::RegMap`**: a `std::map` by `regID`. -/
structure RegMap where
  regs : List Register
  sorted : (regs.map Register.regID).Pairwise (· < ·)

namespace RegMap

/-- `rmap.find(regID)`. -/
def find (m : RegMap) (regID : Nat) : Option Register := m.regs.find? fun r => r.regID = regID

end RegMap

/-! ### The walk of a write -/

variable (s : Slave)

/-- The number of registers the iterator goes on by: `sub`, one if the write took no word. -/
def sub (taken : Nat) : Nat := max taken 1

/-- The loop of `MBSlave::much_write` from an iterator on: the words left, the identifier of the
first of them, and over how many registers the last write still goes. -/
def writeWalk : List ModbusData → Nat → Nat → List Register → SMValues → List Register × SMValues
  | [], _, _, regs, sm => (regs, sm)
  | _ :: _, _, _, [], sm => ([], sm)
  | _ :: dat, regID, skip + 1, r :: regs, sm =>
    let rest := writeWalk dat (regID + 1) skip regs sm
    (r :: rest.1, rest.2)
  | w :: dat, regID, 0, r :: regs, sm =>
    if r.regID = regID then
      let done := r.realWriteIt s (w :: dat) sm
      let rest := writeWalk dat (regID + 1) (sub done.taken - 1) regs done.sm
      (done.reg :: rest.1, rest.2)
    else writeWalk dat (regID + 1) 0 (r :: regs) sm

/-- The loop of `MBSlave::much_read` from an iterator on: the words and the registers after it. -/
def readWalk (sm : SMValues) : Nat → Nat → List Register → List ModbusData × List Register
  | 0, _, regs => ([], regs)
  | count + 1, _, [] => (List.replicate (count + 1) 0, [])
  | count + 1, regID, r :: regs =>
    if r.regID = regID then
      let rest := readWalk sm count (regID + 1) regs
      ((r.realReadIt s sm).2 :: rest.1, r.afterRead s sm :: rest.2)
    else
      let rest := readWalk sm count (regID + 1) (r :: regs)
      (0 :: rest.1, rest.2)

/-! ### The registers a write stops at -/

/-- The registers the walk of a write stops at, and the words from there on. -/
def stops : List ModbusData → Nat → Nat → List Register → List (Register × List ModbusData)
  | [], _, _, _ => []
  | _ :: _, _, _, [] => []
  | _ :: dat, regID, skip + 1, _ :: regs => stops dat (regID + 1) skip regs
  | w :: dat, regID, 0, r :: regs =>
    if r.regID = regID then (r, w :: dat) :: stops dat (regID + 1) (sub r.taken - 1) regs
    else stops dat (regID + 1) 0 (r :: regs)

variable {stop : Register × List ModbusData} {dat : List ModbusData} {regs : List Register}
  {reg : Register}

theorem stops_mem {regID skip : Nat} (mem : stop ∈ stops dat regID skip regs) : stop.1 ∈ regs := by
  induction dat, regID, skip, regs using stops.induct with
  | case1 => simp [stops] at mem
  | case2 => simp [stops] at mem
  | case3 _ dat regID skip r regs ih => exact List.mem_cons_of_mem _ (ih (by simpa [stops] using mem))
  | case4 w dat r regs ih =>
    rw [stops, if_pos rfl] at mem
    rcases List.mem_cons.mp mem with rfl | mem
    · exact List.mem_cons_self
    · exact List.mem_cons_of_mem _ (ih mem)
  | case5 regID w dat r regs apart ih =>
    rw [stops, if_neg apart] at mem
    exact ih mem

/-- The registers already gone by are not stopped at. -/
theorem stops_ge {regID skip : Nat} (mem : stop ∈ stops dat regID skip regs) :
    regID + skip ≤ stop.1.regID := by
  induction dat, regID, skip, regs using stops.induct with
  | case1 => simp [stops] at mem
  | case2 => simp [stops] at mem
  | case3 _ dat regID skip r regs ih =>
    have below := ih (by simpa [stops] using mem)
    omega
  | case4 w dat r regs ih =>
    rw [stops, if_pos rfl] at mem
    rcases List.mem_cons.mp mem with rfl | mem
    · exact Nat.le_refl _
    · have below := ih mem
      omega
  | case5 regID w dat r regs apart ih =>
    rw [stops, if_neg apart] at mem
    have below := ih mem
    omega

/-- After a stop the walk goes on behind the words it took. -/
theorem stops_apart {regID skip : Nat} {other : Register × List ModbusData}
    (mem : stop ∈ stops dat regID skip regs) (mem' : other ∈ stops dat regID skip regs)
    (apart' : other ≠ stop) :
    other.1.regID < stop.1.regID ∨ stop.1.regID + sub stop.1.taken ≤ other.1.regID := by
  induction dat, regID, skip, regs using stops.induct with
  | case1 => simp [stops] at mem
  | case2 => simp [stops] at mem
  | case3 _ dat regID skip r regs ih =>
    rw [stops] at mem mem'
    exact ih mem mem'
  | case4 w dat r regs ih =>
    have less : 1 ≤ sub r.taken := Nat.le_max_right _ _
    rw [stops, if_pos rfl] at mem mem'
    rcases List.mem_cons.mp mem with rfl | mem
    · rcases List.mem_cons.mp mem' with rfl | mem'
      · exact absurd rfl apart'
      · have behind := stops_ge mem'
        right
        show r.regID + sub r.taken ≤ other.1.regID
        omega
    · rcases List.mem_cons.mp mem' with rfl | mem'
      · have behind := stops_ge mem
        left
        show r.regID < stop.1.regID
        omega
      · exact ih mem mem'
  | case5 regID w dat r regs apart ih =>
    rw [stops, if_neg apart] at mem mem'
    exact ih mem mem'

theorem writeWalk_regIDs (dat : List ModbusData) (regID skip : Nat) (regs : List Register)
    (sm : SMValues) :
    (writeWalk s dat regID skip regs sm).1.map Register.regID = regs.map Register.regID := by
  induction dat, regID, skip, regs using stops.induct generalizing sm with
  | case1 => rw [writeWalk]
  | case2 => rw [writeWalk]
  | case3 _ dat regID skip r regs ih =>
    rw [writeWalk]
    exact congrArg (r.regID :: ·) (ih sm)
  | case4 w dat r regs ih =>
    rw [writeWalk, if_pos rfl]
    simp only [List.map_cons, Register.realWriteIt_taken, Register.realWriteIt_regID, ih]
  | case5 regID w dat r regs apart ih =>
    rw [writeWalk, if_neg apart]
    exact ih sm

/-- The sensors of no register the write stops at keep their values. -/
theorem writeWalk_frame (dat : List ModbusData) (regID skip : Nat) (regs : List Register)
    (sm : SMValues) {id : ObjectId}
    (absent : ∀ stop ∈ stops dat regID skip regs, id ∉ stop.1.ids) :
    (writeWalk s dat regID skip regs sm).2 id = sm id := by
  induction dat, regID, skip, regs using stops.induct generalizing sm with
  | case1 => rw [writeWalk]
  | case2 => rw [writeWalk]
  | case3 _ dat regID skip r regs ih =>
    rw [writeWalk]
    exact ih sm (by simpa [stops] using absent)
  | case4 w dat r regs ih =>
    rw [stops, if_pos rfl] at absent
    rw [writeWalk, if_pos rfl]
    simp only [Register.realWriteIt_taken]
    rw [ih _ fun stop mem => absent stop (List.mem_cons_of_mem _ mem)]
    exact r.realWriteIt_frame s _ _ (absent _ List.mem_cons_self)
  | case5 regID w dat r regs apart ih =>
    rw [stops, if_neg apart] at absent
    rw [writeWalk, if_neg apart]
    exact ih sm absent

/-- A register the write does not stop at is as it was. -/
theorem writeWalk_passed (dat : List ModbusData) (regID skip : Nat) (regs : List Register)
    (sm : SMValues) (mem' : reg ∈ regs)
    (pass : ∀ stop ∈ stops dat regID skip regs, stop.1.regID ≠ reg.regID) :
    reg ∈ (writeWalk s dat regID skip regs sm).1 := by
  induction dat, regID, skip, regs using stops.induct generalizing sm with
  | case1 => rwa [writeWalk]
  | case2 => exact absurd mem' List.not_mem_nil
  | case3 _ dat regID skip r regs ih =>
    rw [writeWalk]
    rcases List.mem_cons.mp mem' with rfl | mem'
    · exact List.mem_cons_self
    · exact List.mem_cons_of_mem _ (ih sm mem' (by simpa [stops] using pass))
  | case4 w dat r regs ih =>
    rw [stops, if_pos rfl] at pass
    rw [writeWalk, if_pos rfl]
    simp only [Register.realWriteIt_taken]
    rcases List.mem_cons.mp mem' with rfl | mem'
    · exact absurd rfl (pass _ List.mem_cons_self)
    · exact List.mem_cons_of_mem _
        (ih _ mem' fun stop mem => pass stop (List.mem_cons_of_mem _ mem))
  | case5 regID w dat r regs apart ih =>
    rw [stops, if_neg apart] at pass
    rw [writeWalk, if_neg apart]
    exact ih sm mem' pass

/-- **A register the write stops at is written with its words.** The other stops leave the sensors
`known` as they are. -/
theorem writeWalk_stop (dat : List ModbusData) (regID skip : Nat) (regs : List Register)
    (sm : SMValues) (known : ObjectId → Prop) (sorted : (regs.map Register.regID).Pairwise (· < ·))
    (mem : stop ∈ stops dat regID skip regs)
    (holds : ∀ other ∈ stops dat regID skip regs, other.1.regID ≠ stop.1.regID →
      ∀ id ∈ other.1.ids, ¬known id) :
    ∃ sm₁ : SMValues, (∀ id, known id → sm₁ id = sm id) ∧
      (stop.1.realWriteIt s stop.2 sm₁).reg ∈ (writeWalk s dat regID skip regs sm).1 ∧
      ∀ id, known id →
        (writeWalk s dat regID skip regs sm).2 id = (stop.1.realWriteIt s stop.2 sm₁).sm id := by
  induction dat, regID, skip, regs using stops.induct generalizing sm with
  | case1 => simp [stops] at mem
  | case2 => simp [stops] at mem
  | case3 _ dat regID skip r regs ih =>
    rw [stops] at mem holds
    obtain ⟨sm₁, kept, member, after⟩ := ih sm sorted.of_cons mem holds
    exact ⟨sm₁, kept, List.mem_cons_of_mem _ member, after⟩
  | case4 w dat r regs ih =>
    rw [stops, if_pos rfl] at mem holds
    rw [writeWalk, if_pos rfl]
    simp only [Register.realWriteIt_taken]
    rcases List.mem_cons.mp mem with rfl | mem
    · refine ⟨sm, fun _ _ => rfl, List.mem_cons_self, ?_⟩
      intro id apart
      apply writeWalk_frame
      intro other listed member
      -- the registers after this one have greater identifiers
      have less := (List.pairwise_cons.mp sorted).1 _ (List.mem_map.mpr ⟨_, stops_mem listed, rfl⟩)
      exact holds other (List.mem_cons_of_mem _ listed) less.ne' id member apart
    · have less := (List.pairwise_cons.mp sorted).1 _ (List.mem_map.mpr ⟨_, stops_mem mem, rfl⟩)
      obtain ⟨sm₁, kept, member, after⟩ := ih (r.realWriteIt s (w :: dat) sm).sm sorted.of_cons mem
        fun other listed => holds other (List.mem_cons_of_mem _ listed)
      refine ⟨sm₁, ?_, List.mem_cons_of_mem _ member, after⟩
      intro id apart
      rw [kept id apart]
      apply r.realWriteIt_frame s
      intro member
      exact holds _ List.mem_cons_self less.ne id member apart
  | case5 regID w dat r regs other' ih =>
    rw [stops, if_neg other'] at mem holds
    rw [writeWalk, if_neg other']
    exact ih sm sorted mem holds

theorem readWalk_regIDs (sm : SMValues) (count regID : Nat) (regs : List Register) :
    (readWalk s sm count regID regs).2.map Register.regID = regs.map Register.regID := by
  induction count, regID, regs using readWalk.induct s sm with
  | case1 => rw [readWalk]
  | case2 => rw [readWalk]
  | case3 count r regs ih =>
    rw [readWalk, if_pos rfl]
    simp only [List.map_cons, Register.afterRead_regID, ih]
  | case4 count regID r regs apart ih =>
    rw [readWalk, if_neg apart]
    exact ih

/-! ### Requests -/

namespace RegMap

variable (m : RegMap)

/-- The registers from an identifier on: the iterator of a register that is found. -/
def fromID (regID : Nat) : List Register := m.regs.dropWhile fun r => r.regID < regID

/-- The registers before it. -/
def before (regID : Nat) : List Register := m.regs.takeWhile fun r => r.regID < regID

theorem before_append_fromID (regID : Nat) : m.before regID ++ m.fromID regID = m.regs :=
  List.takeWhile_append_dropWhile

/-- The map with the registers from an identifier on in a new state. -/
def replaceFrom (regID : Nat) (regs : List Register)
    (same : regs.map Register.regID = (m.fromID regID).map Register.regID) : RegMap where
  regs := m.before regID ++ regs
  sorted := by
    rw [List.map_append, same, ← List.map_append, before_append_fromID]
    exact m.sorted

/-- The first register of a request that the map has: how many the request misses before it. -/
def firstFound (regID count : Nat) : Option Nat :=
  (List.range count).find? fun i => (m.find (regID + i)).isSome

theorem fromID_sorted (regID : Nat) :
    ((m.fromID regID).map Register.regID).Pairwise (· < ·) :=
  m.sorted.sublist ((List.dropWhile_sublist _).map _)

theorem find_of_mem (mem : reg ∈ m.regs) : m.find reg.regID = some reg := by
  obtain ⟨found, known⟩ : ∃ found, m.find reg.regID = some found := by
    apply Option.isSome_iff_exists.mp
    rw [find, List.find?_isSome]
    exact ⟨reg, mem, by simp⟩
  have same : found.regID = reg.regID := by simpa using List.find?_some known
  have nodup : (m.regs.map Register.regID).Nodup := m.sorted.imp fun less => Nat.ne_of_lt less
  rw [known, List.inj_on_of_nodup_map nodup (List.mem_of_find?_eq_some known) mem same]

theorem mem_of_find {regID : Nat} (found : m.find regID = some reg) :
    reg ∈ m.regs ∧ reg.regID = regID :=
  ⟨List.mem_of_find?_eq_some found, by simpa using List.find?_some found⟩

/-- A register that is found is where the iterator stands, the next ones come after it. -/
theorem fromID_of_find {regID : Nat} (found : m.find regID = some reg) :
    m.fromID regID = reg :: m.fromID (regID + 1) := by
  obtain ⟨mem, apart⟩ := m.mem_of_find found
  subst apart
  obtain ⟨regs, sorted⟩ := m
  induction regs with
  | nil => exact absurd mem List.not_mem_nil
  | cons r regs ih =>
    have less : ∀ later ∈ regs, r.regID < later.regID := fun later listed =>
      (List.pairwise_cons.mp sorted).1 _ (List.mem_map.mpr ⟨later, listed, rfl⟩)
    rcases List.mem_cons.mp mem with rfl | listed
    · have less' : regs.dropWhile (fun later => later.regID < reg.regID + 1) = regs := by
        cases regs with
        | nil => rfl
        | cons next regs =>
          have less := less next List.mem_cons_self
          apply List.dropWhile_cons_of_neg
          simpa using Nat.succ_le_of_lt less
      rw [fromID, fromID, List.dropWhile_cons_of_neg (by simp),
        List.dropWhile_cons_of_pos (by simp), less']
    · have less := less reg listed
      have less' := ih sorted.of_cons listed (find_of_mem ⟨regs, sorted.of_cons⟩ listed)
      rw [fromID] at less' ⊢
      rw [List.dropWhile_cons_of_pos (by simpa using less), less', fromID, fromID,
        List.dropWhile_cons_of_pos (by simpa using less.trans (Nat.lt_succ_self _))]

/-- The map with one register in a new state. -/
def modify (regID : Nat) (f : Register → Register) (same : ∀ r, (f r).regID = r.regID) : RegMap where
  regs := m.regs.map fun r => if r.regID = regID then f r else r
  sorted := by
    have ids : (m.regs.map fun r => if r.regID = regID then f r else r).map Register.regID =
        m.regs.map Register.regID := by
      rw [List.map_map]
      apply List.map_congr_left
      intro r _
      show Register.regID (if r.regID = regID then f r else r) = r.regID
      rw [apply_ite Register.regID, same, ite_self]
    rw [ids]
    exact m.sorted

end RegMap

namespace Slave

/-- The identifier of the first register of a request. -/
def regID (reg fn : Nat) : Nat := genRegID reg (if s.checkMBFunc then fn else s.defaultMbfunc)

/-- **`MBSlave::real_write`** of one word. -/
def realWrite (m : RegMap) (reg : Nat) (val : ModbusData) (fn : Nat) (sm : SMValues) :
    MbErrCode × RegMap × SMValues :=
  match m.find (s.regID reg fn) with
  | none => (.erBadDataAddress, m, sm)
  | some r =>
    let done := r.realWriteIt s [val] sm
    (done.err,
      m.modify r.regID (fun r => (r.realWriteIt s [val] sm).reg) fun r => r.realWriteIt_regID s _ _,
      done.sm)

/-- **`MBSlave::much_write`**: the first register the map has is looked for, the rest is the walk. -/
def muchWrite (m : RegMap) (reg : Nat) (dat : List ModbusData) (fn : Nat) (sm : SMValues) :
    MbErrCode × RegMap × SMValues :=
  match m.firstFound (s.regID reg fn) dat.length with
  | none => (.erBadDataAddress, m, sm)
  | some i =>
    let regID := s.regID reg fn + i
    (.erNoError, m.replaceFrom regID _ (writeWalk_regIDs s (dat.drop i) regID 0 _ sm),
      (writeWalk s (dat.drop i) regID 0 (m.fromID regID) sm).2)

/-- **`MBSlave::real_read`.** -/
def realRead (m : RegMap) (reg fn : Nat) (sm : SMValues) : MbErrCode × ModbusData × RegMap :=
  match m.find (s.regID reg fn) with
  | none => (.erBadDataAddress, 0, m)
  | some r =>
    let read := r.realReadIt s sm
    (read.1, read.2, m.modify r.regID (fun r => r.afterRead s sm) fun r => r.afterRead_regID s sm)

/-- **`MBSlave::much_read`**: as `much_write`, with zeros for the registers it misses. -/
def muchRead (m : RegMap) (reg count fn : Nat) (sm : SMValues) :
    MbErrCode × List ModbusData × RegMap :=
  match m.firstFound (s.regID reg fn) count with
  | none => (.erBadDataAddress, List.replicate count 0, m)
  | some i =>
    let regID := s.regID reg fn + i
    let walk := readWalk s sm (count - i) regID (m.fromID regID)
    (.erNoError, List.replicate i 0 ++ walk.1,
      m.replaceFrom regID walk.2 (readWalk_regIDs s sm (count - i) regID _))

theorem muchRead_eq {m : RegMap} {reg count fn i : Nat} (sm : SMValues)
    (found : m.firstFound (s.regID reg fn) count = some i) :
    (s.muchRead m reg count fn sm).1 = .erNoError ∧ (s.muchRead m reg count fn sm).2.1 =
      List.replicate i 0 ++
        (readWalk s sm (count - i) (s.regID reg fn + i) (m.fromID (s.regID reg fn + i))).1 := by
  rw [muchRead, found]
  exact ⟨rfl, rfl⟩

/-- **`MBSlave::readOutputRegisters`**: one register is read alone. A register that cannot be read is
answered with its code and zero. -/
def readOutputRegisters (m : RegMap) (start count func : Nat) (sm : SMValues) :
    MbErrCode × List ModbusData × RegMap :=
  if count = 0 then (.erBadDataValue, [], m)
  else if count = 1 then
    let read := s.realRead m start func sm
    (read.1, [if read.1 = .erNoError then read.2.1 else 0], read.2.2)
  else s.muchRead m start count func sm

/-- **A write request**: a single register or a block of them. -/
inductive Write
  | writeOutputSingleRegister (start : Nat) (data : ModbusData) (func : Nat)
  | writeOutputRegisters (start : Nat) (data : List ModbusData) (func : Nat)
deriving DecidableEq, Repr

/-- `MBSlave::getOptimizeWriteFunction`. -/
def getOptimizeWriteFunction (fn : Nat) : Nat :=
  if s.noMBFuncOptimize then fn
  else if fn = 0x06 then 0x10
  else if fn = 0x05 then 0x0F
  else fn

/-- The handler of the request. -/
def exec (m : RegMap) (sm : SMValues) : Write → MbErrCode × RegMap × SMValues
  | .writeOutputSingleRegister start data func =>
    s.realWrite m start data (s.getOptimizeWriteFunction func) sm
  | .writeOutputRegisters start data func =>
    s.muchWrite m start data (s.getOptimizeWriteFunction func) sm

/-- The registers a write request stops at, with the words from there on. -/
def writeStops (m : RegMap) : Write → List (Register × List ModbusData)
  | .writeOutputSingleRegister start data func =>
    ((m.find (s.regID start (s.getOptimizeWriteFunction func))).map fun r => (r, [data])).toList
  | .writeOutputRegisters start data func =>
    let regID := s.regID start (s.getOptimizeWriteFunction func)
    match m.firstFound regID data.length with
    | none => []
    | some i => stops (data.drop i) (regID + i) 0 (m.fromID (regID + i))

variable {s}

/-- A request that stops at a register has no other stop on the registers of its words. -/
theorem writeStops_apart {m : RegMap} {w : Write} {other : Register × List ModbusData}
    (mem : stop ∈ s.writeStops m w) (mem' : other ∈ s.writeStops m w) (apart : other ≠ stop) :
    other.1.regID < stop.1.regID ∨ stop.1.regID + sub stop.1.taken ≤ other.1.regID := by
  cases w with
  | writeOutputSingleRegister start data func =>
    rw [writeStops, Option.mem_toList] at mem mem'
    rw [mem, Option.some.injEq] at mem'
    exact absurd mem'.symm apart
  | writeOutputRegisters start data func =>
    rw [writeStops] at mem mem'
    split at mem
    · exact absurd mem List.not_mem_nil
    · next i found =>
      rw [found] at mem'
      exact stops_apart mem mem' apart

/-- **A register a request stops at is written with its words.** -/
theorem exec_stop {m : RegMap} {w : Write} (sm : SMValues) (known : ObjectId → Prop)
    (mem : stop ∈ s.writeStops m w)
    (holds : ∀ other ∈ s.writeStops m w, other.1.regID ≠ stop.1.regID →
      ∀ id ∈ other.1.ids, ¬known id) :
    ∃ sm₁ : SMValues, (∀ id, known id → sm₁ id = sm id) ∧
      (s.exec m sm w).2.1.find stop.1.regID = some (stop.1.realWriteIt s stop.2 sm₁).reg ∧
      ∀ id, known id → (s.exec m sm w).2.2 id = (stop.1.realWriteIt s stop.2 sm₁).sm id := by
  have ident (sm₁ : SMValues) := stop.1.realWriteIt_regID s stop.2 sm₁
  cases w with
  | writeOutputSingleRegister start data func =>
    rw [writeStops, Option.mem_toList, Option.map_eq_some_iff] at mem
    obtain ⟨r, single, rfl⟩ := mem
    refine ⟨sm, fun _ _ => rfl, ?_, ?_⟩
    · rw [exec, realWrite, single]
      rw [← ident sm]
      apply RegMap.find_of_mem
      refine List.mem_map.mpr ⟨r, (m.mem_of_find single).1, ?_⟩
      exact if_pos rfl
    · intro id _
      rw [exec, realWrite, single]
  | writeOutputRegisters start data func =>
    rw [writeStops] at mem holds
    split at mem
    · exact absurd mem List.not_mem_nil
    · next i found =>
      rw [found] at holds
      obtain ⟨sm₁, kept, member, after⟩ := writeWalk_stop s _ _ _ _ sm known
        (m.fromID_sorted _) mem holds
      refine ⟨sm₁, kept, ?_, ?_⟩
      · rw [exec, muchWrite, found, ← ident sm₁]
        apply RegMap.find_of_mem
        exact List.mem_append_right _ member
      · rw [exec, muchWrite, found]
        exact after

/-- A register a request does not stop at is as it was. -/
theorem exec_passed {m : RegMap} {w : Write} (sm : SMValues) (found : m.find reg.regID = some reg)
    (pass : ∀ stop ∈ s.writeStops m w, stop.1.regID ≠ reg.regID) :
    (s.exec m sm w).2.1.find reg.regID = some reg := by
  have mem := (m.mem_of_find found).1
  cases w with
  | writeOutputSingleRegister start data func =>
    rw [exec, realWrite]
    rw [writeStops] at pass
    split
    · exact found
    · next r single =>
      rw [single] at pass
      apply RegMap.find_of_mem
      refine List.mem_map.mpr ⟨reg, mem, if_neg ?_⟩
      exact (pass (r, [data]) (by simp)).symm
  | writeOutputRegisters start data func =>
    rw [exec, muchWrite]
    rw [writeStops] at pass
    split
    · exact found
    · next i found =>
      rw [found] at pass
      apply RegMap.find_of_mem
      rw [← m.before_append_fromID (s.regID start (s.getOptimizeWriteFunction func) + i)] at mem
      rcases List.mem_append.mp mem with mem | mem
      · exact List.mem_append_left _ mem
      · exact List.mem_append_right _ (writeWalk_passed s _ _ _ _ sm mem pass)

end Slave

end UniSet.ModbusSlave

/-
**The initial reads of written registers (`preinit`).**

A register with `preinit` is read before it is written, and the value goes to the sensor that is
written from then on. A pass over the list of initial reads comes before every cycle, until
`allInitOK` says that they are done.

* `decode`, `initSMValue` — the value in the words of an answer, and the sensor it is stored in.
* `preInitRead`, `firstInit` — one initial read, and the pass. Every entry overwrites `allInitOK`.
* `updateRSProperty`, `initValues`, `pollRTU` — who else touches the flags, and who looks at them.
* `Exchange.Initialised` — the reads are repeated until they succeed, nothing is written before, and
  what was read is where it belongs.
* `Sound` — the steps that keep this.
* **`initialised_iff`** — a run is initialised throughout exactly if its steps are sound.
* `initial_reads_lost` — one item is enough to lose its value, two to lose a read.
-/

import Mathlib.Algebra.Group.Nat.Defs
import UniSet.Lib.Machine
import UniSet.ModbusMaster.Grouping

namespace UniSet.ModbusMaster

namespace PreInit

/-! ### The value of an answer -/

/-- A value, as it is handed on to a sensor. -/
inductive Value
  | digital (set : Bool)
  | analog (val : Int)
  /-- The bits of a `float`. -/
  | float (bits : Nat)
  /-- The bits of a `double`. -/
  | double (bits : Nat)
deriving DecidableEq, Repr

/-- A word of an answer. -/
def word (data : List Nat) (i : Nat) : Nat := data.getD i 0

/-- Two words, the lower one first. -/
def dword (low high : Nat) : Nat := low + 65536 * high

/-- A word of its own: a sensor of a digital type gets its truth. -/
def single (p : RSProperty) (data : List Nat) (val : Int) : Value :=
  if p.stype = .DI ∨ p.stype = .DO then .digital (word data 0 ≠ 0) else .analog val

/-- **The value of a sensor in the words of an answer**; `none` is a sensor that is ignored. -/
def decode (p : RSProperty) (data : List Nat) : Option Value :=
  match p.vType with
  | .vtUnknown =>
    match p.nbit with
    | some nbit => some (.digital ((word data 0).testBit nbit))
    | none => if p.rnum ≤ 1 then some (single p data (BitVec.ofNat 16 (word data 0)).toInt) else none
  | .vtSigned => some (single p data (BitVec.ofNat 16 (word data 0)).toInt)
  | .vtUnsigned => some (single p data (word data 0))
  | .vtByte =>
    if p.nbyte = 0 ∨ 2 < p.nbyte then none
    else some (.analog (word data 0 / 256 ^ (p.nbyte - 1) % 256 : Nat))
  | .vtF2 => some (.float (dword (word data 0) (word data 1)))
  | .vtF2r => some (.float (dword (word data 1) (word data 0)))
  | .vtF4 => some (.double
      (dword (word data 0) (word data 1) + 2 ^ 32 * dword (word data 2) (word data 3)))
  | .vtI2 => some (.analog (BitVec.ofNat 32 (dword (word data 0) (word data 1))).toInt)
  | .vtI2r => some (.analog (BitVec.ofNat 32 (dword (word data 1) (word data 0))).toInt)
  | .vtU2 => some (.analog (dword (word data 0) (word data 1)))
  | .vtU2r => some (.analog (dword (word data 1) (word data 0)))

/-- **`MBExchange::initSMValue`**: what is stored, and where. Without it the read has failed. -/
def initSMValue (writable : ObjectId → Bool) (data : List Nat) (p : RSProperty) :
    Option (ObjectId × Value) :=
  if writable p.si.id then (decode p data).map fun val => (p.si.id, val) else none

/-- The words `initSMValue` is given: the bits of a status are words of their own. -/
def answered (mbfunc : MbFunc) (data : List Nat) : List Nat :=
  match mbfunc with
  | .fnReadCoilStatus | .fnReadInputStatus => data.map fun bit => if bit = 0 then 0 else 1
  | _ => data

/-! ### The flags of the registers -/

/-- The shared memory and the modes, as a step finds them. -/
structure Memory where
  /-- `isUpdateSM` for a device and for writing or reading. -/
  isUpdateSM : Nat → Bool → Bool
  readable : ObjectId → Bool
  writable : ObjectId → Bool

/-- A sensor that `updateRSProperty` does not ignore. -/
def updated (p : RSProperty) : Bool :=
  match p.vType with
  | .vtUnknown => p.nbit.isSome || decide (p.rnum ≤ 1)
  | .vtByte => decide (p.nbyte ≠ 0 ∧ p.nbyte ≤ 2)
  | _ => true

/-- **`MBExchange::updateRSProperty`**, as far as the flags are concerned. -/
def updateRSProperty (memory : Memory) (mbaddr : Nat) (r : RegInfo) (p : RSProperty) : RegInfo :=
  if memory.isUpdateSM mbaddr r.mbfunc.isWriteFunction && r.mbInitOK && updated p then
    if memory.readable p.si.id then
      { r with smInitOK := r.smInitOK || r.mbfunc.isWriteFunction }
    else { r with smInitOK := false }
  else r

/-- **`MBExchange::updateRTU`.** -/
def updateRTU (memory : Memory) (mbaddr : Nat) (r : RegInfo) : RegInfo :=
  r.slst.foldl (updateRSProperty memory mbaddr) r

/-- **`MBExchange::updateSM`.** A device of the other type has no flags to update. -/
def updateSM (memory : Memory) (m : PollMap) : PollMap :=
  if m.dtype = .dtRTU then { m with regs := m.regs.map (updateRTU memory m.mbaddr) } else m

/-- The registers `initValues` comes to in a map, and whether it comes to its end. -/
def initRegs (memory : Memory) : List RegInfo → List RegInfo × Bool
  | [] => ([], true)
  | r :: rest =>
    if r.slst.all fun p => memory.readable p.si.id then
      let done := initRegs memory rest
      ({ r with smInitOK := true } :: done.1, done.2)
    else (r :: rest, false)

/-- **`MBExchange::initValues`**: every register, also one that waits for its initial read. -/
def initValues (memory : Memory) : List PollMap → List PollMap
  | [] => []
  | m :: rest =>
    let done := initRegs memory m.regs
    { m with regs := done.1 } :: if done.2 then initValues memory rest else rest

/-! ### The system -/

/-- A register of a device, or a coil of it. -/
structure Cell where
  mbaddr : Nat
  coil : Bool
  reg : Nat
deriving DecidableEq, Repr

/-- What a function writes from a register on. -/
def cells (mbaddr : Nat) (func : MbFunc) (reg count : Nat) : List Cell :=
  (List.range count).map fun i =>
    ⟨mbaddr, func = .fnForceSingleCoil || func = .fnForceMultipleCoils, (reg + i) % 65536⟩

/-- The registers that wait for an initial read. -/
def cellsOf (e : InitRegInfo) : List Cell := cells e.mbaddr e.func e.reg e.property.rnum

/-- An initial read that was answered. -/
structure Read where
  property : RSProperty
  data : List Nat
  /-- The sensor of the item can be written. -/
  writable : Bool
  stored : Option (ObjectId × Value)
deriving DecidableEq, Repr

/-- What should be stored: the value of the item in the sensor of the item. -/
def Read.due (r : Read) : Option (ObjectId × Value) :=
  if r.writable then (decode r.property r.data).map fun val => (r.property.si.id, val) else none

/-- **The exchange**, with all answers to initial reads and all registers that were written. -/
structure Exchange where
  pollmaps : List PollMap
  initRegList : List InitRegInfo
  allInitOK : Bool
  reads : List Read
  written : List Cell
deriving DecidableEq, Repr

/-- The register of an initial read that has succeeded: `mb_initOK`, and at once `updateRTU`. -/
def initialise (memory : Memory) (e : InitRegInfo) (m : PollMap) : PollMap :=
  if m.mbaddr = e.mbaddr ∧ m.pollfactor = e.pollfactor then
    { m with
      regs := modifyReg e.regID (fun r => updateRTU memory e.mbaddr { r with mbInitOK := true }) m.regs }
  else m

/-- **`MBExchange::preInitRead`**; `none` is an `mbException`. -/
def preInitRead (memory : Memory) (answer : Option (List Nat)) (e : InitRegInfo) (s : Exchange) :
    Option (Bool × Exchange) :=
  if e.initOK then some (true, s)
  else if !e.mbfunc.isReadFunction then some (false, s)
  else
    answer.map fun words =>
      let data := answered e.mbfunc words
      let stored := initSMValue memory.writable data e.p
      let s := { s with
        reads := s.reads ++ [⟨e.property, data, memory.writable e.property.si.id, stored⟩] }
      if stored.isSome then (true, { s with pollmaps := s.pollmaps.map (initialise memory e) })
      else (false, s)

/-- The pass over the initial reads. An answer that is missing is an exception. -/
def firstInit (askEveryReg : Nat → Bool) (memory : Memory) :
    List InitRegInfo → List (Option (List Nat)) → Exchange → List InitRegInfo × Exchange
  | [], _, s => ([], s)
  | e :: rest, answers, s =>
    match preInitRead memory answers.head?.join e s with
    | some (initOK, s) =>
      -- the flag is that of the entry, whatever the entries before it said
      let done := firstInit askEveryReg memory rest answers.tail { s with allInitOK := initOK }
      ({ e with initOK := initOK } :: done.1, done.2)
    | none =>
      if askEveryReg e.mbaddr then
        let done := firstInit askEveryReg memory rest answers.tail { s with allInitOK := false }
        (e :: done.1, done.2)
      else (e :: rest, { s with allInitOK := false })

/-- **`MBExchange::firstInitRegisters`.** -/
def firstInitRegisters (askEveryReg : Nat → Bool) (memory : Memory)
    (answers : List (Option (List Nat))) (s : Exchange) : Exchange :=
  let done := firstInit askEveryReg memory s.initRegList answers { s with allInitOK := true }
  { done.2 with initRegList := done.1 }

/-- The register is written when `pollRTU` comes to it. -/
def sends (r : RegInfo) : Bool :=
  r.mbfunc.isWriteFunction && r.qCount ≠ 0 && r.smInitOK &&
    (r.qCount = 1 || (r.mbfunc ≠ .fnWriteOutputSingleRegister && r.mbfunc ≠ .fnForceSingleCoil))

/-- The registers of a read request have been exchanged. -/
def exchanged (k : Nat) (regs : List RegInfo) : List RegInfo :=
  regs.mapIdx fun i r =>
    if k ≤ i ∧ i < k + (regs[k]?.map RegInfo.qCount).getD 0 then { r with mbInitOK := true } else r

/-- **`MBExchange::pollRTU`** for a register of a map. -/
def pollRTU (map reg : Nat) (s : Exchange) : Exchange :=
  match s.pollmaps[map]? with
  | none => s
  | some m =>
    match m.regs[reg]? with
    | none => s
    | some r =>
      if r.mbfunc.isReadFunction then
        { s with pollmaps := s.pollmaps.modify map fun m => { m with regs := exchanged reg m.regs } }
      else if sends r then { s with written := s.written ++ cells m.mbaddr r.mbfunc r.mbreg r.qCount }
      else s

inductive Event
  /-- A cycle begins with initial reads. -/
  | firstInitRegisters (memory : Memory) (answers : List (Option (List Nat)))
  /-- The cycle has come to a register, and exchange with it is enabled. -/
  | pollRTU (map reg : Nat)
  | updateSM (memory : Memory)
  /-- At start-up and when the shared memory is back. -/
  | initValues (memory : Memory)
  /-- The channel is opened again. -/
  | initMB

/-- **The steps of `poll` and of `sysCommand`.** -/
def step (askEveryReg : Nat → Bool) (s : Exchange) : Event → Option Exchange
  | .firstInitRegisters memory answers =>
    if s.allInitOK then none else some (firstInitRegisters askEveryReg memory answers s)
  | .pollRTU map reg => some (pollRTU map reg s)
  | .updateSM memory => some { s with pollmaps := s.pollmaps.map (updateSM memory) }
  | .initValues memory => some { s with pollmaps := initValues memory s.pollmaps }
  | .initMB => some { s with allInitOK := false }

/-- The exchange before its first cycle. -/
def configured (conf : MBConf) : Exchange := ⟨conf.pollmaps, conf.initRegList, false, [], []⟩

/-- **The exchange of a configuration that was accepted.** -/
def preInit (params : Params) (askEveryReg : Nat → Bool) : Lib.Machine Exchange Event where
  start s := ∃ items conf, loadConfig params items = some conf ∧ s = configured conf
  step := step askEveryReg

/-- **The initial reads do what they are for.** -/
structure Exchange.Initialised (s : Exchange) : Prop where
  retried : s.allInitOK = true → ∀ e ∈ s.initRegList, e.initOK = true
  unwritten : ∀ e ∈ s.initRegList, e.initOK = false → ∀ c ∈ cellsOf e, c ∉ s.written
  stored : ∀ r ∈ s.reads, r.stored = r.due

/-! ### What a pass does -/

/-- An entry of the list, with the answer to its read. -/
abbrev Attempt := InitRegInfo × Option (List Nat)

/-- The entry has its value, from an earlier pass or from this answer. -/
def accepts (memory : Memory) (x : Attempt) : Bool :=
  x.1.initOK || (x.1.mbfunc.isReadFunction && x.2.any fun words =>
    (initSMValue memory.writable (answered x.1.mbfunc words) x.1.p).isSome)

/-- The read ends with an exception. -/
def fails (x : Attempt) : Bool := !x.1.initOK && x.1.mbfunc.isReadFunction && x.2.isNone

/-- The entries the pass comes to. It is left at an exception, unless every register is asked. -/
def reached (askEveryReg : Nat → Bool) :
    List InitRegInfo → List (Option (List Nat)) → List Attempt
  | [], _ => []
  | e :: rest, answers =>
    (e, answers.head?.join) ::
      if fails (e, answers.head?.join) && !askEveryReg e.mbaddr then []
      else reached askEveryReg rest answers.tail

/-- What is recorded of an entry. -/
def readOf (memory : Memory) (x : Attempt) : Option Read :=
  if x.1.initOK || !x.1.mbfunc.isReadFunction then none
  else
    x.2.map fun words =>
      ⟨x.1.property, answered x.1.mbfunc words, memory.writable x.1.property.si.id,
        initSMValue memory.writable (answered x.1.mbfunc words) x.1.p⟩

variable {answers : List (Option (List Nat))}

section Pass

variable {askEveryReg : Nat → Bool} {memory : Memory}

theorem not_accepts_of_fails {x : Attempt} (fails : fails x = true) : accepts memory x = false := by
  simp only [PreInit.fails, Bool.and_eq_true, Bool.not_eq_true', Option.isNone_iff_eq_none] at fails
  rw [accepts, fails.1.1, fails.2, Option.any_none, Bool.and_false, Bool.or_false]

theorem initOK_of_fails {x : Attempt} (fails : fails x = true) : x.1.initOK = false := by
  simp only [PreInit.fails, Bool.and_eq_true, Bool.not_eq_true'] at fails
  exact fails.1.1

variable {e : InitRegInfo} {list : List InitRegInfo}

theorem preInitRead_fails {answer : Option (List Nat)} (s : Exchange)
    (fails : fails (e, answer) = true) : preInitRead memory answer e s = none := by
  simp only [PreInit.fails, Bool.and_eq_true, Bool.not_eq_true', Option.isNone_iff_eq_none] at fails
  obtain ⟨⟨open', read⟩, none⟩ := fails
  rw [preInitRead, open', read, none]
  rfl

/-- A read that ends without one: the entry is accepted or not, and the answer is recorded. -/
theorem preInitRead_eq (memory : Memory) {answer : Option (List Nat)} (s : Exchange)
    (done : fails (e, answer) = false) :
    ∃ pollmaps, preInitRead memory answer e s =
      some (accepts memory (e, answer), { s with
        pollmaps := pollmaps, reads := s.reads ++ (readOf memory (e, answer)).toList }) := by
  cases initOK : e.initOK with
  | true => exact ⟨s.pollmaps, by simp [preInitRead, accepts, readOf, initOK]⟩
  | false =>
    cases read : e.mbfunc.isReadFunction with
    | false => exact ⟨s.pollmaps, by simp [preInitRead, accepts, readOf, initOK, read]⟩
    | true =>
      cases answer with
      | none =>
        rw [fails, initOK, read] at done
        cases done
      | some words =>
        cases stored : (initSMValue memory.writable (answered e.mbfunc words) e.p).isSome with
        | false => exact ⟨s.pollmaps, by simp [preInitRead, accepts, readOf, initOK, read, stored]⟩
        | true =>
          exact ⟨s.pollmaps.map (initialise memory e),
            by simp [preInitRead, accepts, readOf, initOK, read, stored]⟩

theorem firstInit_done (askEveryReg : Nat → Bool) (memory : Memory) (rest : List InitRegInfo)
    (s : Exchange) (done : fails (e, answers.head?.join) = false) :
    ∃ pollmaps, firstInit askEveryReg memory (e :: rest) answers s =
      let later := firstInit askEveryReg memory rest answers.tail { s with
        pollmaps := pollmaps
        allInitOK := accepts memory (e, answers.head?.join)
        reads := s.reads ++ (readOf memory (e, answers.head?.join)).toList }
      ({ e with initOK := accepts memory (e, answers.head?.join) } :: later.1, later.2) := by
  obtain ⟨pollmaps, read⟩ := preInitRead_eq memory s done
  exact ⟨pollmaps, by rw [firstInit, read]⟩

theorem firstInit_fails (rest : List InitRegInfo) (s : Exchange)
    (failed : fails (e, answers.head?.join) = true) :
    firstInit askEveryReg memory (e :: rest) answers s =
      if askEveryReg e.mbaddr then
        let later := firstInit askEveryReg memory rest answers.tail { s with allInitOK := false }
        (e :: later.1, later.2)
      else (e :: rest, { s with allInitOK := false }) := by
  rw [firstInit, preInitRead_fails s failed]

theorem readOf_fails {x : Attempt} (failed : fails x = true) : readOf memory x = none := by
  simp only [PreInit.fails, Bool.and_eq_true, Bool.not_eq_true', Option.isNone_iff_eq_none] at failed
  rw [readOf, failed.2, Option.map_none, ite_self]

/-- The flag of the last entry of a list, the first of which is known. -/
theorem last_cons (f : Attempt → Bool) (x : Attempt) (list : List Attempt) (flag : Bool) :
    ((x :: list).getLast?.map f).getD flag = (list.getLast?.map f).getD (f x) := by
  rw [List.getLast?_cons, Option.map_some, Option.getD_some]
  cases list.getLast? with
  | none => rfl
  | some _ => rfl

theorem filterMap_cons_toList (x : Attempt) (list : List Attempt) :
    (x :: list).filterMap (readOf memory) =
      (readOf memory x).toList ++ list.filterMap (readOf memory) := by
  rw [List.filterMap_cons]
  cases readOf memory x with
  | none => rfl
  | some _ => rfl

/-- **What a pass leaves**: the flag of the last entry it came to, and a record of every answer. -/
theorem firstInit_state (list : List InitRegInfo) (answers : List (Option (List Nat)))
    (s : Exchange) :
    ∃ pollmaps, (firstInit askEveryReg memory list answers s).2 = { s with
      pollmaps := pollmaps
      allInitOK := ((reached askEveryReg list answers).getLast?.map (accepts memory)).getD s.allInitOK
      reads := s.reads ++ (reached askEveryReg list answers).filterMap (readOf memory) } := by
  induction list generalizing answers s with
  | nil => exact ⟨s.pollmaps, by rw [firstInit, reached, List.filterMap_nil, List.append_nil]; rfl⟩
  | cons e rest ih =>
    rw [reached, last_cons, filterMap_cons_toList, ← List.append_assoc]
    cases failed : fails (e, answers.head?.join) with
    | false =>
      obtain ⟨pollmaps, eq⟩ := firstInit_done askEveryReg memory rest s failed
      obtain ⟨later, left⟩ := ih answers.tail { s with
        pollmaps := pollmaps
        allInitOK := accepts memory (e, answers.head?.join)
        reads := s.reads ++ (readOf memory (e, answers.head?.join)).toList }
      rw [eq]
      exact ⟨later, left⟩
    | true =>
      rw [firstInit_fails rest s failed, readOf_fails failed, not_accepts_of_fails failed]
      simp only [Option.toList_none, List.append_nil]
      cases ask : askEveryReg e.mbaddr with
      | true =>
        obtain ⟨later, left⟩ := ih answers.tail { s with allInitOK := false }
        exact ⟨later, left⟩
      | false => exact ⟨s.pollmaps, by simp⟩

/-- Every entry the pass comes to is accepted or not. -/
theorem mem_firstInit (s : Exchange) {x : Attempt} (member : x ∈ reached askEveryReg list answers) :
    { x.1 with initOK := accepts memory x } ∈ (firstInit askEveryReg memory list answers s).1 := by
  induction list generalizing answers s with
  | nil => exact absurd member List.not_mem_nil
  | cons e rest ih =>
    rw [reached] at member
    cases failed : fails (e, answers.head?.join) with
    | false =>
      obtain ⟨pollmaps, eq⟩ := firstInit_done askEveryReg memory rest s failed
      rw [eq]
      rcases List.mem_cons.mp member with rfl | later
      · exact List.mem_cons_self
      · rw [failed, Bool.false_and, if_neg Bool.false_ne_true] at later
        exact List.mem_cons_of_mem _ (ih _ later)
    | true =>
      have unchanged : { e with initOK := accepts memory (e, answers.head?.join) } = e := by
        rw [not_accepts_of_fails failed, ← initOK_of_fails failed]
      rw [firstInit_fails rest s failed]
      cases ask : askEveryReg e.mbaddr with
      | true =>
        rw [failed, ask] at member
        rcases List.mem_cons.mp member with rfl | later
        · rw [unchanged]
          exact List.mem_cons_self
        · exact List.mem_cons_of_mem _ (ih _ later)
      | false =>
        rw [failed, ask] at member
        cases List.mem_singleton.mp member
        rw [unchanged]
        exact List.mem_cons_self

/-- Where every entry the pass comes to is accepted, it comes to all of them. -/
theorem initOK_firstInit (s : Exchange)
    (accepted : ∀ x ∈ reached askEveryReg list answers, accepts memory x = true) :
    ∀ e ∈ (firstInit askEveryReg memory list answers s).1, e.initOK = true := by
  induction list generalizing answers s with
  | nil =>
    intro e member
    exact absurd member List.not_mem_nil
  | cons e rest ih =>
    rw [reached] at accepted
    have first : accepts memory (e, answers.head?.join) = true := accepted _ List.mem_cons_self
    have done : fails (e, answers.head?.join) = false := by
      refine Bool.eq_false_iff.mpr fun failed => ?_
      rw [not_accepts_of_fails failed] at first
      cases first
    rw [done, Bool.false_and, if_neg Bool.false_ne_true] at accepted
    obtain ⟨pollmaps, eq⟩ := firstInit_done askEveryReg memory rest s done
    rw [eq]
    intro e' member
    rcases List.mem_cons.mp member with rfl | later
    · exact first
    · exact ih _ (fun x reached => accepted x (List.mem_cons_of_mem _ reached)) e' later

theorem firstInit_keeps (s : Exchange) :
    ∀ e' ∈ (firstInit askEveryReg memory list answers s).1,
      ∃ e ∈ list, cellsOf e' = cellsOf e ∧ (e.initOK = true → e'.initOK = true) := by
  induction list generalizing answers s with
  | nil =>
    intro e' member
    exact absurd member List.not_mem_nil
  | cons e rest ih =>
    have rest_keeps : ∀ (answers : List (Option (List Nat))) (s : Exchange),
        ∀ e' ∈ (firstInit askEveryReg memory rest answers s).1,
          ∃ e₀ ∈ e :: rest, cellsOf e' = cellsOf e₀ ∧ (e₀.initOK = true → e'.initOK = true) := by
      intro answers s e' member
      obtain ⟨e₀, listed, kept⟩ := ih s e' member
      exact ⟨e₀, List.mem_cons_of_mem _ listed, kept⟩
    intro e' member
    cases failed : fails (e, answers.head?.join) with
    | false =>
      obtain ⟨pollmaps, eq⟩ := firstInit_done askEveryReg memory rest s failed
      rw [eq] at member
      rcases List.mem_cons.mp member with rfl | later
      · refine ⟨e, List.mem_cons_self, rfl, fun initOK => ?_⟩
        simp only [accepts, initOK, Bool.true_or]
      · exact rest_keeps _ _ e' later
    | true =>
      rw [firstInit_fails rest s failed] at member
      split at member
      · rcases List.mem_cons.mp member with rfl | later
        · exact ⟨e', List.mem_cons_self, rfl, id⟩
        · exact rest_keeps _ _ e' later
      · exact ⟨e', member, rfl, id⟩

end Pass

/-! ### The exact condition -/

/-- **The entry still knows its sensor**, if the answer has a value for it that can be stored. -/
def KeepsSensor (memory : Memory) (x : Attempt) : Prop :=
  x.1.initOK = false → x.1.mbfunc.isReadFunction = true → ∀ words ∈ x.2,
    (decode x.1.property (answered x.1.mbfunc words)).isSome = true →
    (memory.writable x.1.si.id = true ∨ memory.writable x.1.property.si.id = true) →
    x.1.si.id = x.1.property.si.id

instance (memory : Memory) (x : Attempt) : Decidable (KeepsSensor memory x) :=
  inferInstanceAs (Decidable (_ → _ → ∀ words ∈ x.2, _))

/-- **A step that keeps the initial reads right.** If a pass ends with an entry that is accepted, all
are; an entry that is answered still knows its sensor; a request does not touch a register that waits
for its initial read. -/
def Sound (askEveryReg : Nat → Bool) (s : Exchange) : Event → Prop
  | .firstInitRegisters memory answers =>
    s.allInitOK = false →
      ((∃ x ∈ (reached askEveryReg s.initRegList answers).getLast?, accepts memory x = true) →
        ∀ x ∈ reached askEveryReg s.initRegList answers, accepts memory x = true) ∧
      ∀ x ∈ reached askEveryReg s.initRegList answers, KeepsSensor memory x
  | .pollRTU map reg =>
    ∀ m ∈ s.pollmaps[map]?, ∀ r ∈ m.regs[reg]?, sends r = true →
      ∀ e ∈ s.initRegList, e.initOK = false →
        ∀ c ∈ cellsOf e, c ∉ cells m.mbaddr r.mbfunc r.mbreg r.qCount
  | _ => True

instance (askEveryReg : Nat → Bool) (s : Exchange) :
    ∀ event, Decidable (Sound askEveryReg s event)
  | .firstInitRegisters memory answers =>
    inferInstanceAs (Decidable (s.allInitOK = false →
      ((∃ x ∈ (reached askEveryReg s.initRegList answers).getLast?, accepts memory x = true) →
        ∀ x ∈ reached askEveryReg s.initRegList answers, accepts memory x = true) ∧
      ∀ x ∈ reached askEveryReg s.initRegList answers, KeepsSensor memory x))
  | .pollRTU map reg =>
    inferInstanceAs (Decidable (∀ m ∈ s.pollmaps[map]?, ∀ r ∈ m.regs[reg]?, sends r = true →
      ∀ e ∈ s.initRegList, e.initOK = false →
        ∀ c ∈ cellsOf e, c ∉ cells m.mbaddr r.mbfunc r.mbreg r.qCount))
  | .updateSM _ | .initValues _ | .initMB => inferInstanceAs (Decidable True)

/-- Of a property that was moved, only the sensor matters. -/
theorem decode_p (e : InitRegInfo) (data : List Nat) : decode e.p data = decode e.property data := rfl

/-- A value goes to the same place exactly if that is the same sensor. -/
theorem store_eq_iff (writable : ObjectId → Bool) (id id' : ObjectId) (val : Value) :
    ((if writable id then some (id, val) else none) = if writable id' then some (id', val) else none) ↔
      (writable id = true ∨ writable id' = true → id = id') := by
  constructor
  · intro same either
    cases here : writable id with
    | true =>
      rw [here, if_pos rfl] at same
      cases there : writable id' with
      | true =>
        rw [there, if_pos rfl] at same
        exact congrArg Prod.fst (Option.some.inj same)
      | false =>
        rw [there, if_neg Bool.false_ne_true] at same
        cases same
    | false =>
      rcases either with yes | yes
      · rw [here] at yes
        cases yes
      · rw [here, yes, if_neg Bool.false_ne_true, if_pos rfl] at same
        cases same
  · intro same
    by_cases either : writable id = true ∨ writable id' = true
    · rw [same either]
    · rw [not_or] at either
      rw [if_neg either.1, if_neg either.2]

/-- **What is recorded of an entry is right exactly if the entry still knows its sensor.** -/
theorem readOf_due_iff (memory : Memory) (x : Attempt) :
    (∀ r ∈ readOf memory x, r.stored = r.due) ↔ KeepsSensor memory x := by
  obtain ⟨e, answer⟩ := x
  cases initOK : e.initOK with
  | true => simp [readOf, KeepsSensor, initOK]
  | false =>
    cases read : e.mbfunc.isReadFunction with
    | false => simp [readOf, KeepsSensor, initOK, read]
    | true =>
      cases answer with
      | none => simp [readOf, KeepsSensor, initOK, read]
      | some words =>
        have record : readOf memory (e, some words) = some
            ⟨e.property, answered e.mbfunc words, memory.writable e.property.si.id,
              initSMValue memory.writable (answered e.mbfunc words) e.p⟩ := by
          simp [readOf, initOK, read]
        have sensor : e.p.si.id = e.si.id := rfl
        rw [record]
        simp only [Option.mem_some_iff, forall_eq', Read.due, initSMValue, decode_p, sensor,
          KeepsSensor, initOK, read, forall_const]
        cases decode e.property (answered e.mbfunc words) with
        | none => simp
        | some val => simpa using store_eq_iff memory.writable e.si.id e.property.si.id val

section Steps

variable {askEveryReg : Nat → Bool} {s : Exchange}

/-- **`firstInitRegisters` in one equation.** -/
theorem firstInitRegisters_eq (askEveryReg : Nat → Bool) (memory : Memory)
    (answers : List (Option (List Nat))) (s : Exchange) :
    ∃ pollmaps, firstInitRegisters askEveryReg memory answers s =
      { pollmaps := pollmaps
        initRegList :=
          (firstInit askEveryReg memory s.initRegList answers { s with allInitOK := true }).1
        allInitOK :=
          ((reached askEveryReg s.initRegList answers).getLast?.map (accepts memory)).getD true
        reads :=
          s.reads ++ (reached askEveryReg s.initRegList answers).filterMap (readOf memory)
        written := s.written } := by
  obtain ⟨pollmaps, left⟩ := firstInit_state s.initRegList answers { s with allInitOK := true }
  exact ⟨pollmaps, by rw [firstInitRegisters, left]⟩

theorem initialised_firstInitRegisters (initialised : s.Initialised) {memory : Memory}
    (last : (∃ x ∈ (reached askEveryReg s.initRegList answers).getLast?, accepts memory x = true) →
      ∀ x ∈ reached askEveryReg s.initRegList answers, accepts memory x = true)
    (keeps : ∀ x ∈ reached askEveryReg s.initRegList answers, KeepsSensor memory x) :
    (firstInitRegisters askEveryReg memory answers s).Initialised := by
  obtain ⟨pollmaps, eq⟩ := firstInitRegisters_eq askEveryReg memory answers s
  rw [eq]
  refine ⟨?_, ?_, ?_⟩
  · intro allInitOK
    refine initOK_firstInit _ ?_
    cases ended : (reached askEveryReg s.initRegList answers).getLast? with
    | none =>
      rw [List.getLast?_eq_none_iff.mp ended]
      exact fun x member => absurd member List.not_mem_nil
    | some x =>
      rw [ended] at allInitOK
      exact last ⟨x, ended, allInitOK⟩
  · intro e' member un c cell
    obtain ⟨e, listed, same, kept⟩ := firstInit_keeps _ e' member
    refine initialised.unwritten e listed ?_ c (same ▸ cell)
    refine Bool.eq_false_iff.mpr fun initOK => ?_
    rw [kept initOK] at un
    cases un
  · intro r member
    rcases List.mem_append.mp member with earlier | now
    · exact initialised.stored r earlier
    · obtain ⟨x, attempt, record⟩ := List.mem_filterMap.mp now
      exact (readOf_due_iff memory x).mpr (keeps x attempt) r record

theorem not_initialised_firstInitRegisters {memory : Memory}
    (broken : ¬ (((∃ x ∈ (reached askEveryReg s.initRegList answers).getLast?,
        accepts memory x = true) →
          ∀ x ∈ reached askEveryReg s.initRegList answers, accepts memory x = true) ∧
      ∀ x ∈ reached askEveryReg s.initRegList answers, KeepsSensor memory x)) :
    ¬ (firstInitRegisters askEveryReg memory answers s).Initialised := by
  intro initialised
  obtain ⟨pollmaps, eq⟩ := firstInitRegisters_eq askEveryReg memory answers s
  rw [eq] at initialised
  refine broken ⟨?_, ?_⟩
  · rintro ⟨x, ended, accepted⟩ y member
    have allInitOK :
        ((reached askEveryReg s.initRegList answers).getLast?.map (accepts memory)).getD true =
          true := by
      rw [Option.mem_def.mp ended]
      exact accepted
    exact initialised.retried allInitOK _ (mem_firstInit _ member)
  · intro x member
    refine (readOf_due_iff memory x).mp fun r record => ?_
    exact initialised.stored r
      (List.mem_append_right _ (List.mem_filterMap.mpr ⟨x, member, record⟩))

theorem not_read_of_sends {r : RegInfo} (sent : sends r = true) : r.mbfunc.isReadFunction = false := by
  simp only [sends, Bool.and_eq_true] at sent
  have write := sent.1.1.1
  cases func : r.mbfunc <;> rw [func] at write <;> first | rfl | cases write

/-- A request that is sent adds its registers. -/
theorem pollRTU_sends {map reg : Nat} {m : PollMap} {r : RegInfo} (here : s.pollmaps[map]? = some m)
    (there : m.regs[reg]? = some r) (sent : sends r = true) :
    pollRTU map reg s =
      { s with written := s.written ++ cells m.mbaddr r.mbfunc r.mbreg r.qCount } := by
  simp only [pollRTU, here, there, not_read_of_sends sent, sent, Bool.false_eq_true, if_false, if_true]

/-- What `pollRTU` leaves alone, and what it adds to the registers that were written. -/
theorem pollRTU_cases (map reg : Nat) (s : Exchange) :
    (∃ m r, s.pollmaps[map]? = some m ∧ m.regs[reg]? = some r ∧ sends r = true) ∨
      ∃ pollmaps, pollRTU map reg s = { s with pollmaps := pollmaps } := by
  cases here : s.pollmaps[map]? with
  | none => exact .inr ⟨s.pollmaps, by simp only [pollRTU, here]⟩
  | some m =>
    cases there : m.regs[reg]? with
    | none => exact .inr ⟨s.pollmaps, by simp only [pollRTU, here, there]⟩
    | some r =>
      cases sent : sends r with
      | true => exact .inl ⟨m, r, rfl, there, sent⟩
      | false =>
        cases read : r.mbfunc.isReadFunction with
        | true => exact .inr ⟨_, by simp only [pollRTU, here, there, read, if_true]; rfl⟩
        | false =>
          refine .inr ⟨s.pollmaps, ?_⟩
          simp only [pollRTU, here, there, read, sent, Bool.false_eq_true, if_false]

/-- The flags of the registers are not part of the property. -/
theorem Exchange.Initialised.setPollmaps (initialised : s.Initialised) (pollmaps : List PollMap) :
    Exchange.Initialised { s with pollmaps := pollmaps } :=
  ⟨initialised.retried, initialised.unwritten, initialised.stored⟩

theorem initialised_pollRTU (initialised : s.Initialised) {map reg : Nat}
    (sound : Sound askEveryReg s (.pollRTU map reg)) : (pollRTU map reg s).Initialised := by
  rcases pollRTU_cases map reg s with ⟨m, r, here, there, sent⟩ | ⟨pollmaps, eq⟩
  · rw [pollRTU_sends here there sent]
    refine ⟨initialised.retried, ?_, initialised.stored⟩
    intro e member un c cell written
    rcases List.mem_append.mp written with earlier | now
    · exact initialised.unwritten e member un c cell earlier
    · exact sound m here r there sent e member un c cell now
  · rw [eq]
    exact initialised.setPollmaps pollmaps

theorem not_initialised_pollRTU {map reg : Nat} (broken : ¬ Sound askEveryReg s (.pollRTU map reg)) :
    ¬ (pollRTU map reg s).Initialised := by
  intro initialised
  refine broken fun m here r there sent e member un c cell now => ?_
  rw [pollRTU_sends here there sent] at initialised
  exact initialised.unwritten e member un c cell (List.mem_append_right _ now)

end Steps

/-! ### Whole runs -/

/-- **In every run of an accepted configuration, the initial reads are repeated until they succeed,
nothing is written before and what was read is in the sensor of its item, exactly if every step of the
run is sound.** -/
theorem initialised_iff (params : Params) (askEveryReg : Nat → Bool) (s : Exchange)
    (started : (preInit params askEveryReg).start s) (events : List Event) :
    (preInit params askEveryReg).Always Exchange.Initialised s events ↔
      (preInit params askEveryReg).Meets (Sound askEveryReg) s events := by
  obtain ⟨items, conf, -, rfl⟩ := started
  refine Lib.Machine.always_iff_meets (P := Exchange.Initialised) (fun _ initialised => initialised)
    ?_ ?_ ?_
  · intro s event t initialised sound stepped
    cases event with
    | firstInitRegisters memory answers =>
      cases allInitOK : s.allInitOK with
      | true =>
        simp only [preInit, step, allInitOK, if_true] at stepped
        cases stepped
      | false =>
        simp only [preInit, step, allInitOK, Bool.false_eq_true, if_false, Option.some.injEq] at stepped
        subst stepped
        obtain ⟨last, keeps⟩ := sound allInitOK
        exact initialised_firstInitRegisters initialised last keeps
    | pollRTU map reg =>
      cases stepped
      exact initialised_pollRTU initialised sound
    | updateSM memory =>
      cases stepped
      exact initialised.setPollmaps _
    | initValues memory =>
      cases stepped
      exact initialised.setPollmaps _
    | initMB =>
      cases stepped
      exact ⟨fun done => absurd done Bool.false_ne_true, initialised.unwritten, initialised.stored⟩
  · intro s event initialised broken
    cases event with
    | firstInitRegisters memory answers =>
      cases allInitOK : s.allInitOK with
      | true =>
        refine absurd (fun open' => ?_) broken
        rw [allInitOK] at open'
        cases open'
      | false =>
        refine ⟨firstInitRegisters askEveryReg memory answers s, ?_, ?_⟩
        · simp only [preInit, step, allInitOK, Bool.false_eq_true, if_false]
        · exact not_initialised_firstInitRegisters fun holds => broken fun _ => holds
    | pollRTU map reg => exact ⟨_, rfl, not_initialised_pollRTU broken⟩
    | updateSM memory => exact absurd trivial broken
    | initValues memory => exact absurd trivial broken
    | initMB => exact absurd trivial broken
  · refine ⟨fun done => absurd done Bool.false_ne_true, ?_, ?_⟩
    · intro e _ _ c _ written
      exact absurd written List.not_mem_nil
    · intro r member
      exact absurd member List.not_mem_nil

/-- An item that writes a bit of register 10 of device 1 with function 0x06. -/
def bitItem (id nbit : Nat) (preinit : Bool) : Item :=
  ⟨⟨id, 1⟩, .DO, some nbit, .vtUnknown, 0, 0, 0, 1, .dtRTU, 0, 10, .fnWriteOutputSingleRegister, 0, false,
    preinit, none, none⟩

/-- A memory that knows sensor 100. -/
def knows100 : Memory := ⟨fun _ _ => true, fun id => id = 100, fun id => id = 100⟩

/-- The exchange of these items. -/
def exchangeOf (items : List Item) : Exchange :=
  match loadConfig ⟨false, false, 125⟩ items with
  | some conf => configured conf
  | none => ⟨[], [], false, [], []⟩

/-- The second bit of a sensor is not moved: its read fails once, then succeeds, and only then is the
register written. -/
theorem initialised_second_bit :
    (preInit ⟨false, false, 125⟩ fun _ => false).Always Exchange.Initialised
      (exchangeOf [bitItem 100 0 false, bitItem 100 1 true])
      [.firstInitRegisters knows100 [none], .updateSM knows100, .pollRTU 0 0,
        .firstInitRegisters knows100 [some [2]], .pollRTU 0 0] := by
  refine (initialised_iff _ _ _ ⟨[bitItem 100 0 false, bitItem 100 1 true], ?_⟩ _).mpr ?_
  · exact ⟨_, rfl, rfl⟩
  · decide +kernel

/-- **A single item with `preinit`**: its value is read, the sensor is not found, and the register is
written all the same. **Two items, the first of which cannot be read**: the second one hides it. -/
theorem initial_reads_lost :
    (∃ t ∈ (preInit ⟨false, false, 125⟩ fun _ => false).run (exchangeOf [bitItem 100 0 true])
        [.initValues knows100, .firstInitRegisters knows100 [some [1]], .pollRTU 0 0],
      (¬ ∀ r ∈ t.reads, r.stored = r.due) ∧
        ¬ ∀ e ∈ t.initRegList, e.initOK = false → ∀ c ∈ cellsOf e, c ∉ t.written) ∧
    ∃ t ∈ (preInit ⟨false, false, 125⟩ fun _ => true).run
        (exchangeOf [bitItem 100 0 false, bitItem 100 1 true, bitItem 100 2 true])
        [.firstInitRegisters knows100 [none, some [4]]],
      ¬ (t.allInitOK = true → ∀ e ∈ t.initRegList, e.initOK = true) := by
  refine ⟨⟨_, rfl, ?_, ?_⟩, _, rfl, ?_⟩
  · decide +kernel
  · decide +kernel
  · decide +kernel

end PreInit

end UniSet.ModbusMaster

/-
**A cycle of requests over a map, joined into groups.**

* `Memory`, `answers` — the device: its four tables, and the requests it answers.
* `pollRTU`, `pollFrom`, `cycle` — the requests of `poll` over a map. A request moves the iterator over
  the registers it has asked for; whether a group is written is decided by its first register.
* `plain` — every configured value with a request of its own.
* `Exact` — the cycle over the joined map reads everything, leaves the device as plain polling does, and
  sends exactly the values that are initialised.
* `GroupSound` — what a group must be like.
* `exact_iff` — a cycle over the joined map is exact if and only if all groups are sound.
* **`configured_exact_iff`** — and so it is for every map of a configuration, whatever its registers hold.
  A map that is written by change only (pollfactor 65535) is not among them: it is not joined, and `poll`
  asks only its changed entries (`ChangeOnly`).
* `second_register_not_sent` — two registers, one of which is not initialised.
-/

import Mathlib.Data.List.Nodup
import UniSet.Lib.Writes
import UniSet.ModbusMaster.Grouping
import UniSet.ModbusMaster.RegMap

namespace UniSet.ModbusMaster

namespace Polling

/-! ### The device -/

inductive Table
  | coils | inputs | holding | inputRegs
deriving DecidableEq, Repr

/-- The table a function works on. -/
def table : MbFunc → Table
  | .fnReadCoilStatus | .fnForceSingleCoil | .fnForceMultipleCoils => .coils
  | .fnReadInputStatus => .inputs
  | .fnReadInputRegisters => .inputRegs
  | _ => .holding

/-- What the device holds. A bit is set if it is not zero. -/
abbrev Memory := Table × Nat → Nat

/-- A word as a table holds it. -/
def image (t : Table) (word : Nat) : Nat :=
  match t with
  | .coils | .inputs => if word = 0 then 0 else 1
  | _ => word

/-- The value of a register. -/
def value (dev : Memory) (func : MbFunc) (reg : Nat) : Nat := image (table func) (dev (table func, reg))

/-- The device answers the request; `limit` is the greatest number of registers it allows. A byte holds
the number of bytes of the coils. -/
def answers (limit : MbFunc → Nat) (func : MbFunc) (reg count : Nat) : Bool :=
  reg + count ≤ 65536 && count ≤ limit func && (func ≠ .fnForceMultipleCoils || count ≤ 2040)

/-- A word that is sent. -/
structure Sent where
  /-- The register of the map it comes from. -/
  regID : Nat
  func : MbFunc
  reg : Nat
  word : Nat
  answered : Bool
deriving DecidableEq, Repr

/-- The device takes a word. -/
def put (dev : Memory) (x : Sent) : Memory :=
  if x.answered then Function.update dev (table x.func, x.reg) (image (table x.func) x.word) else dev

/-! ### A cycle -/

/-- `ModbusRTU::MAXDATALEN`, and how much of a request is kept by `addData`. -/
def room (func : MbFunc) (words : List (Nat × Nat)) : List (Nat × Nat) :=
  if func = .fnWriteOutputRegisters then words.take 125 else words

/-- A write request with these words, each with the `regID` of its register. -/
def request (limit : MbFunc → Nat) (func : MbFunc) (reg : Nat) (words : List (Nat × Nat)) : List Sent :=
  (room func words).zipIdx.map fun x =>
    ⟨x.1.1, func, reg + x.2, x.1.2, answers limit func reg (room func words).length⟩

/-- The `regID`s and the values of registers. -/
def words (regs : List RegInfo) : List (Nat × Nat) := regs.map fun r => (r.regID, r.mbval)

/-- **`MBExchange::pollRTU`** at a register, of which `rest` are the next ones: what is stored in the
registers the iterator is moved over, and what is sent. -/
def pollRTU (limit : MbFunc → Nat) (dev : Memory) (r : RegInfo) (rest : List RegInfo) :
    List (Option Nat) × List Sent :=
  if r.qCount = 0 then ([none], [])
  else
    match r.mbfunc with
    | .fnReadCoilStatus | .fnReadInputStatus | .fnReadOutputRegisters | .fnReadInputRegisters =>
      (if answers limit r.mbfunc r.mbreg r.qCount then
        (List.range r.qCount).map fun i => some (value dev r.mbfunc (r.mbreg + i))
      else [none], [])
    | .fnWriteOutputSingleRegister | .fnForceSingleCoil =>
      if r.qCount = 1 ∧ r.smInitOK = true then ([none], request limit r.mbfunc r.mbreg (words [r]))
      else ([none], [])
    | .fnWriteOutputRegisters | .fnForceMultipleCoils =>
      if r.smInitOK then
        (List.replicate r.qCount none,
          request limit r.mbfunc r.mbreg (words ((r :: rest).take r.qCount)))
      else ([none], [])
    | .other _ => ([none], [])

/-- A register the iterator is moved over. -/
def store (r : RegInfo) : Option Nat → RegInfo
  | some val => { r with mbval := val, mbInitOK := true }
  | none => r

/-- The loop of `MBExchange::poll` over a map: the registers, the device and what was sent. The first
argument is what is left of the last request. -/
def pollFrom (limit : MbFunc → Nat) :
    List (Option Nat) → List RegInfo → Memory → List RegInfo × Memory × List Sent
  | _, [], dev => ([], dev, [])
  | val :: walk, r :: rest, dev =>
    let done := pollFrom limit walk rest dev
    (store r val :: done.1, done.2)
  | [], r :: rest, dev =>
    let polled := pollRTU limit dev r rest
    let done := pollFrom limit polled.1.tail rest (polled.2.foldl put dev)
    (store r polled.1.head?.join :: done.1, done.2.1, polled.2 ++ done.2.2)

/-- A cycle over a map that is polled whole, which is every one but those of pollfactor 65535. -/
def cycle (limit : MbFunc → Nat) (regs : List RegInfo) (dev : Memory) :
    List RegInfo × Memory × List Sent :=
  pollFrom limit [] regs dev

/-! ### Plain polling -/

/-- The registers of a value: those of its function, as many as it has words. -/
def wordsOf (regs : List RegInfo) (r : RegInfo) (p : RSProperty) : List RegInfo :=
  regs.filter fun m => m.mbfunc = r.mbfunc && r.mbreg ≤ m.mbreg && m.mbreg < r.mbreg + p.rnum

/-- A register is written as it is. -/
def write (dev : Memory) (m : RegInfo) : Memory :=
  Function.update dev (table m.mbfunc, m.mbreg) (image (table m.mbfunc) m.mbval)

/-- **Every value with a request of its own**: a write request is sent if the value is initialised. -/
def plain (limit : MbFunc → Nat) (regs : List RegInfo) (dev : Memory) : Memory :=
  regs.foldl (fun dev r => r.slst.foldl (fun dev p =>
    if r.mbfunc.isWriteFunction && r.smInitOK && answers limit r.mbfunc r.mbreg p.rnum then
      (wordsOf regs r p).foldl write dev
    else dev) dev) dev

/-! ### The property and the condition -/

/-- **The cycle over the joined map does what it should.** -/
structure Exact (limit : MbFunc → Nat) (maxQueryCount : Nat) (regs : List RegInfo) : Prop where
  /-- Every read register has the value of the device. -/
  reads : ∀ dev : Memory,
    ∀ m ∈ (cycle limit (rtuQueryOptimizationForRegMap maxQueryCount regs) dev).1,
      m.mbfunc.isReadFunction = true → m.mbval = value dev m.mbfunc m.mbreg
  /-- The device is left as plain polling leaves it. -/
  device : ∀ dev : Memory,
    (cycle limit (rtuQueryOptimizationForRegMap maxQueryCount regs) dev).2.1 = plain limit regs dev
  /-- A value that is initialised is sent to its registers. -/
  sent : ∀ dev : Memory, ∀ r ∈ regs, r.mbfunc.isWriteFunction = true → r.smInitOK = true →
    ∀ m ∈ regs, Owns r m →
      ∃ x ∈ (cycle limit (rtuQueryOptimizationForRegMap maxQueryCount regs) dev).2.2,
        x.regID = m.regID ∧ table x.func = table m.mbfunc ∧ x.reg = m.mbreg ∧ x.word = m.mbval ∧
          x.answered = true
  /-- A value that is not initialised is never sent. -/
  unsent : ∀ dev : Memory, ∀ r ∈ regs, r.mbfunc.isWriteFunction = true → r.smInitOK = false →
    ∀ m ∈ regs, Owns r m →
      ∀ x ∈ (cycle limit (rtuQueryOptimizationForRegMap maxQueryCount regs) dev).2.2,
        x.regID ≠ m.regID

/-- **A map of registers**, as `initItem` fills it where no `regID` is taken twice and no value goes
past the last register. -/
structure Built (limit : MbFunc → Nat) (regs : List RegInfo) : Prop where
  sorted : regs.Pairwise fun a b => a.regID < b.regID
  own : ∀ m ∈ regs, m.regID = genRegID m.mbreg m.mbfunc.code ∧ m.mbreg < 65536
  polled : ∀ m ∈ regs, m.mbfunc.Polled
  owned : ∀ m ∈ regs, ∃ r ∈ regs, Owns r m
  /-- The device answers a request for a single value. -/
  answered : ∀ r ∈ regs, ∀ p ∈ r.slst, answers limit r.mbfunc r.mbreg p.rnum = true
  single : regs.length ≤ 1 → ∀ r ∈ regs, r.qCount = 1 ∧ r.qNum = 0

/-- The registers whose words go out with a group. -/
def carried (g : Group) : List RegInfo :=
  if g.beg.mbfunc.isWriteFunction && g.beg.smInitOK then
    if g.func = .fnWriteOutputRegisters then g.regs.take 125 else g.regs
  else []

/-- **A group that may be polled as one.** -/
structure GroupSound (limit : MbFunc → Nat) (regs : List RegInfo) (g : Group) : Prop where
  /-- A read request is answered, and the registers it reads have its function. -/
  read : g.beg.mbfunc.isReadFunction = true →
    answers limit g.beg.mbfunc g.beg.mbreg g.regs.length = true ∧
      ∀ m ∈ g.members, m.mbfunc.isReadFunction = true → m.mbfunc = g.beg.mbfunc
  /-- The values that are initialised are those that go out. -/
  due : ∀ m ∈ g.regs, m.mbfunc.isWriteFunction = true → ∀ r ∈ regs, Owns r m →
    (r.smInitOK = true ↔ m ∈ carried g)
  /-- What goes out has one function. -/
  place : ∀ m ∈ carried g, m.mbfunc = g.beg.mbfunc
  /-- The write request is answered. -/
  fits : carried g ≠ [] → answers limit g.func g.beg.mbreg (carried g).length = true

instance (limit : MbFunc → Nat) (regs : List RegInfo) (g : Group) : Decidable (GroupSound limit regs g) :=
  decidable_of_iff
    ((g.beg.mbfunc.isReadFunction = true →
      answers limit g.beg.mbfunc g.beg.mbreg g.regs.length = true ∧
        ∀ m ∈ g.members, m.mbfunc.isReadFunction = true → m.mbfunc = g.beg.mbfunc) ∧
      (∀ m ∈ g.regs, m.mbfunc.isWriteFunction = true → ∀ r ∈ regs, Owns r m →
        (r.smInitOK = true ↔ m ∈ carried g)) ∧
      (∀ m ∈ carried g, m.mbfunc = g.beg.mbfunc) ∧
      (carried g ≠ [] → answers limit g.func g.beg.mbreg (carried g).length = true))
    ⟨fun h => ⟨h.1, h.2.1, h.2.2.1, h.2.2.2⟩, fun h => ⟨h.read, h.due, h.place, h.fits⟩⟩

/-! ### A cycle, group by group -/

section Walk

variable {limit : MbFunc → Nat} {dev : Memory}

theorem pollFrom_walk (walk : List (Option Nat)) (ms rest : List RegInfo)
    (length : walk.length = ms.length) :
    pollFrom limit walk (ms ++ rest) dev =
      (List.zipWith store ms walk ++ (pollFrom limit [] rest dev).1, (pollFrom limit [] rest dev).2) := by
  induction ms generalizing walk with
  | nil =>
    rw [List.length_eq_zero_iff.mp length]
    rfl
  | cons r ms ih =>
    cases walk with
    | nil => cases length
    | cons val walk =>
      rw [List.cons_append, pollFrom, ih walk (Nat.succ.inj length)]
      rfl

theorem pollFrom_skip (ms rest : List RegInfo) (ignored : ∀ r ∈ ms, r.qCount = 0) :
    pollFrom limit [] (ms ++ rest) dev =
      (ms ++ (pollFrom limit [] rest dev).1, (pollFrom limit [] rest dev).2) := by
  induction ms with
  | nil => rfl
  | cons r ms ih =>
    have polled : pollRTU limit dev r (ms ++ rest) = ([none], []) := by
      rw [pollRTU, if_pos (ignored r List.mem_cons_self)]
    rw [List.cons_append, pollFrom, polled]
    simp only [List.tail_cons, List.foldl_nil]
    rw [ih fun r member => ignored r (List.mem_cons_of_mem _ member)]
    rfl

end Walk

/-- The joined registers of a group, without the first. -/
def followers (g : Group) : List RegInfo :=
  g.members.mapIdx fun i r => { r with qNum := i + 1, qCount := 0 }

theorem followers_length (g : Group) : (followers g).length = g.members.length :=
  List.length_mapIdx

theorem followers_ignored (g : Group) : ∀ r ∈ followers g, r.qCount = 0 := by
  intro r member
  obtain ⟨i, inside, rfl⟩ := List.mem_mapIdx.mp member
  rfl

/-- Joining changes neither the `regID`s nor the values. -/
theorem words_joined (g : Group) : words g.joined = words g.regs := by
  have same : words (followers g) = words g.members := by
    refine List.ext_getElem? fun i => ?_
    simp only [words, followers, List.getElem?_map, List.getElem?_mapIdx, Option.map_map]
    rfl
  rw [show g.joined = g.head :: followers g from rfl, words, List.map_cons]
  exact congrArg _ same

/-- What a group leaves in its registers. -/
def groupRegs (limit : MbFunc → Nat) (dev : Memory) (g : Group) : List RegInfo :=
  if g.beg.mbfunc.isReadFunction && answers limit g.beg.mbfunc g.beg.mbreg g.regs.length then
    List.zipWith store g.joined
      ((List.range g.regs.length).map fun i => some (value dev g.beg.mbfunc (g.beg.mbreg + i)))
  else g.joined

/-- What a group sends. -/
def groupSent (limit : MbFunc → Nat) (g : Group) : List Sent :=
  if g.beg.mbfunc.isWriteFunction && g.beg.smInitOK then
    request limit g.func g.beg.mbreg (words g.regs)
  else []

/-- A request that moves the iterator over a group without storing anything. -/
theorem zipWith_store_none (ms : List RegInfo) :
    List.zipWith store ms (List.replicate ms.length none) = ms := by
  induction ms with
  | nil => rfl
  | cons r ms ih =>
    rw [List.length_cons, List.replicate_succ, List.zipWith_cons_cons, ih]
    rfl

theorem table_func (g : Group) : table g.func = table g.beg.mbfunc := by
  rw [Group.func]
  split_ifs
  · rfl
  · cases g.beg.mbfunc <;> rfl

/-- What `pollRTU` does at the first register of a group. -/
theorem pollRTU_head (limit : MbFunc → Nat) (dev : Memory) (g : Group) (rest : List RegInfo) :
    pollRTU limit dev g.head (followers g ++ rest) =
      (if g.beg.mbfunc.isReadFunction && answers limit g.beg.mbfunc g.beg.mbreg g.regs.length then
        (List.range g.regs.length).map fun i => some (value dev g.beg.mbfunc (g.beg.mbreg + i))
      else if g.beg.mbfunc.isWriteFunction && g.beg.smInitOK then
        List.replicate g.regs.length none
      else [none],
      groupSent limit g) := by
  have taken : (g.head :: (followers g ++ rest)).take (g.members.length + 1) = g.joined := by
    rw [List.take_succ_cons, List.take_left' (followers_length g)]
    rfl
  have asked : g.head.qCount = g.members.length + 1 := rfl
  have length : g.regs.length = g.members.length + 1 := rfl
  rw [pollRTU, asked, if_neg (Nat.succ_ne_zero _), length, groupSent, taken, words_joined]
  have reg : g.head.mbreg = g.beg.mbreg := rfl
  have initialised : g.head.smInitOK = g.beg.smInitOK := rfl
  have func : g.head.mbfunc = g.func := rfl
  rw [reg, initialised, func]
  -- a request of one register keeps its function, a longer one has no single write function
  cases members : g.members with
  | nil =>
    have regs : g.regs = [g.beg] := by rw [Group.regs, members]
    have single : words [g.head] = words g.regs := by rw [regs]; rfl
    have same : g.func = g.beg.mbfunc := by rw [Group.func, members]; rfl
    rw [same]
    cases g.beg.mbfunc <;> cases g.beg.smInitOK <;>
      simp [MbFunc.isReadFunction, MbFunc.isWriteFunction, single]
  | cons m rest' =>
    have several : g.members.isEmpty = false := by rw [members]; rfl
    rw [Group.func, several]
    cases g.beg.mbfunc <;> cases g.beg.smInitOK <;>
      simp [MbFunc.isReadFunction, MbFunc.isWriteFunction]

variable {r m : RegInfo} {dev : Memory} {regs : List RegInfo} {g : Group} {func : MbFunc}
  {maxQueryCount : Nat}

section Groups

variable {limit : MbFunc → Nat}

/-- A request that is moved over the registers behind the first. -/
theorem pollFrom_request {ms rest : List RegInfo} {walk : List (Option Nat)} {sent : List Sent}
    (polled : pollRTU limit dev r (ms ++ rest) = (walk, sent))
    (length : walk.length = ms.length + 1) :
    pollFrom limit [] (r :: (ms ++ rest)) dev =
      let later := pollFrom limit [] rest (sent.foldl put dev)
      (List.zipWith store (r :: ms) walk ++ later.1, later.2.1, sent ++ later.2.2) := by
  cases walk with
  | nil => cases length
  | cons val walk =>
    rw [pollFrom, polled]
    simp only [List.tail_cons, List.head?_cons, Option.join_some]
    rw [pollFrom_walk walk ms rest (Nat.succ.inj length)]
    rfl

theorem pollFrom_ignored {ms rest : List RegInfo} {sent : List Sent}
    (polled : pollRTU limit dev r (ms ++ rest) = ([none], sent))
    (ignored : ∀ r ∈ ms, r.qCount = 0) :
    pollFrom limit [] (r :: (ms ++ rest)) dev =
      let later := pollFrom limit [] rest (sent.foldl put dev)
      (r :: ms ++ later.1, later.2.1, sent ++ later.2.2) := by
  rw [pollFrom, polled]
  simp only [List.tail_cons, List.head?_cons, Option.join_some]
  rw [pollFrom_skip ms rest ignored]
  rfl

/-- **A group of the map.** -/
theorem pollFrom_group (dev : Memory) (g : Group) (rest : List RegInfo) :
    pollFrom limit [] (g.joined ++ rest) dev =
      let later := pollFrom limit [] rest ((groupSent limit g).foldl put dev)
      (groupRegs limit dev g ++ later.1, later.2.1, groupSent limit g ++ later.2.2) := by
  have joined : g.joined ++ rest = g.head :: (followers g ++ rest) := rfl
  have length : g.regs.length = (followers g).length + 1 := by
    rw [followers_length]
    rfl
  have polled := pollRTU_head limit dev g rest
  rw [joined, groupRegs]
  split_ifs at polled ⊢ with read write
  · refine pollFrom_request polled ?_
    rw [List.length_map, List.length_range, length]
  · rw [pollFrom_request polled (by rw [List.length_replicate, length]), length]
    rw [show (followers g).length + 1 = (g.head :: followers g).length from rfl, zipWith_store_none]
    rfl
  · exact pollFrom_ignored polled (followers_ignored g)

/-- The registers after a cycle over groups. -/
def groupsRegs (limit : MbFunc → Nat) : Memory → List Group → List RegInfo
  | _, [] => []
  | dev, g :: gs => groupRegs limit dev g ++ groupsRegs limit ((groupSent limit g).foldl put dev) gs

/-- **A cycle over groups.** -/
theorem pollFrom_groups (dev : Memory) (gs : List Group) :
    pollFrom limit [] (gs.flatMap Group.joined) dev =
      (groupsRegs limit dev gs, (gs.flatMap (groupSent limit)).foldl put dev,
        gs.flatMap (groupSent limit)) := by
  induction gs generalizing dev with
  | nil => rfl
  | cons g gs ih =>
    rw [List.flatMap_cons, pollFrom_group, ih, List.flatMap_cons, List.foldl_append]
    rfl

/-- A map of one register is not joined, and need not be. -/
theorem optimized_eq (built : Built limit regs) (maxQueryCount : Nat) :
    rtuQueryOptimizationForRegMap maxQueryCount regs =
      (groups maxQueryCount regs).flatMap Group.joined := by
  rw [rtuQueryOptimizationForRegMap]
  split_ifs with short
  · match regs, short, built with
    | [], _, _ => rfl
    | [r], _, built =>
      obtain ⟨count, num⟩ := built.single (Nat.le_refl 1) r List.mem_cons_self
      have same : Group.joined ⟨r, []⟩ = [{ r with qCount := 1, qNum := 0 }] := rfl
      rw [groups, groupsFrom, List.flatMap_cons, List.flatMap_nil, same, ← count, ← num]
      rfl
  · rfl

/-- **The cycle over a joined map.** -/
theorem cycle_eq (built : Built limit regs) (maxQueryCount : Nat) (dev : Memory) :
    cycle limit (rtuQueryOptimizationForRegMap maxQueryCount regs) dev =
      (groupsRegs limit dev (groups maxQueryCount regs),
        ((groups maxQueryCount regs).flatMap (groupSent limit)).foldl put dev,
        (groups maxQueryCount regs).flatMap (groupSent limit)) := by
  rw [optimized_eq built, cycle, pollFrom_groups]

end Groups

/-! ### The registers of a group -/

/-- A register of a group, as joining leaves it. -/
def numbered (g : Group) (x : RegInfo × Nat) : RegInfo :=
  { x.1 with
    qNum := x.2
    qCount := if x.2 = 0 then g.regs.length else 0
    mbfunc := if x.2 = 0 then g.func else x.1.mbfunc }

theorem joined_eq (g : Group) : g.joined = g.regs.zipIdx.map (numbered g) := by
  refine List.ext_getElem? fun i => ?_
  rw [List.getElem?_map, List.getElem?_zipIdx, show g.joined = g.head :: followers g from rfl, Group.regs]
  cases i with
  | zero => rfl
  | succ i =>
    rw [List.getElem?_cons_succ, List.getElem?_cons_succ, followers, List.getElem?_mapIdx]
    cases g.members[i]? with
    | none => rfl
    | some m => simp [numbered]

/-- A register of a group after its request. -/
def left (limit : MbFunc → Nat) (dev : Memory) (g : Group) (x : RegInfo × Nat) : RegInfo :=
  if g.beg.mbfunc.isReadFunction && answers limit g.beg.mbfunc g.beg.mbreg g.regs.length then
    store (numbered g x) (some (value dev g.beg.mbfunc (g.beg.mbreg + x.2)))
  else numbered g x

section Registers

variable {limit : MbFunc → Nat} {dev : Memory} {g : Group}

/-- **The registers of a group after its request.** -/
theorem groupRegs_eq : groupRegs limit dev g = g.regs.zipIdx.map (left limit dev g) := by
  cases read : g.beg.mbfunc.isReadFunction && answers limit g.beg.mbfunc g.beg.mbreg g.regs.length with
  | false =>
    have none' : left limit dev g = numbered g := by
      funext x
      rw [left, if_neg (by rw [read]; exact Bool.false_ne_true)]
    rw [groupRegs, if_neg (by rw [read]; exact Bool.false_ne_true), joined_eq, none']
  | true =>
    rw [groupRegs, if_pos read, joined_eq]
    refine List.ext_getElem? fun i => ?_
    rw [List.getElem?_zipWith, List.getElem?_map, List.getElem?_map, List.getElem?_map,
      List.getElem?_zipIdx]
    by_cases inside : i < g.regs.length
    · rw [List.getElem?_range inside, List.getElem?_eq_getElem inside]
      simp only [Option.map_some, left, read, if_true, Nat.zero_add]
    · rw [List.getElem?_eq_none_iff.mpr (Nat.le_of_not_lt inside)]
      rfl

theorem left_mbreg (x : RegInfo × Nat) : (left limit dev g x).mbreg = x.1.mbreg := by
  rw [left]
  split_ifs
  · rfl
  · rfl

/-- The function of a register is changed only if it writes. -/
theorem left_mbfunc {x : RegInfo × Nat} (member : x ∈ g.regs.zipIdx)
    (read : x.1.mbfunc.isReadFunction = true ∨ (left limit dev g x).mbfunc.isReadFunction = true) :
    (left limit dev g x).mbfunc = x.1.mbfunc := by
  have same : (left limit dev g x).mbfunc = (numbered g x).mbfunc := by
    rw [left]
    split_ifs
    · rfl
    · rfl
  rw [same, numbered] at read
  rw [same, numbered]
  dsimp only at read ⊢
  split_ifs at read ⊢ with first
  · have head : x.1 = g.beg := by
      obtain ⟨r, i⟩ := x
      cases first
      have here := List.mem_zipIdx member
      exact here.2.2
    rw [head] at read ⊢
    rw [Group.func] at read ⊢
    split_ifs at read ⊢
    · rfl
    · cases func : g.beg.mbfunc <;> rw [func] at read <;> simp_all [MbFunc.isReadFunction]
  · rfl

end Registers

/-! ### What is read -/

theorem groupSent_of_not_write {limit : MbFunc → Nat} (not : g.beg.mbfunc.isWriteFunction = false) :
    groupSent limit g = [] := by
  rw [groupSent, not, Bool.false_and, if_neg Bool.false_ne_true]

theorem not_read_of_write (write : func.isWriteFunction = true) : func.isReadFunction = false := by
  cases func <;> first | rfl | cases write

/-- Behind a group that writes, nothing is read. -/
def ReadsFirst (gs : List Group) : Prop :=
  gs.Pairwise fun g g' => g.beg.mbfunc.isWriteFunction = true →
    ∀ m ∈ g'.regs, m.mbfunc.isReadFunction = false

section Reads

variable {limit : MbFunc → Nat}

/-- Every register after a cycle is one of a group. -/
theorem exists_of_mem_groupsRegs {gs : List Group} (member : m ∈ groupsRegs limit dev gs) :
    ∃ g ∈ gs, ∃ x ∈ g.regs.zipIdx, ∃ dev', m = left limit dev' g x := by
  induction gs generalizing dev with
  | nil => exact absurd member List.not_mem_nil
  | cons g gs ih =>
    rcases List.mem_append.mp member with here | later
    · rw [groupRegs_eq] at here
      obtain ⟨x, index, rfl⟩ := List.mem_map.mp here
      exact ⟨g, List.mem_cons_self, x, index, dev, rfl⟩
    · obtain ⟨g', listed, found⟩ := ih later
      exact ⟨g', List.mem_cons_of_mem _ listed, found⟩

/-- **A register that is read has what the device held at the beginning.** -/
theorem mem_groupsRegs {gs : List Group} (readsFirst : ReadsFirst gs)
    (member : m ∈ groupsRegs limit dev gs) (read : m.mbfunc.isReadFunction = true) :
    ∃ g ∈ gs, ∃ x ∈ g.regs.zipIdx, m = left limit dev g x := by
  induction gs with
  | nil => exact absurd member List.not_mem_nil
  | cons g gs ih =>
    obtain ⟨first, readsFirst⟩ := List.pairwise_cons.mp readsFirst
    rcases List.mem_append.mp member with here | later
    · rw [groupRegs_eq] at here
      obtain ⟨x, index, rfl⟩ := List.mem_map.mp here
      exact ⟨g, List.mem_cons_self, x, index, rfl⟩
    · cases write : g.beg.mbfunc.isWriteFunction with
      | true =>
        obtain ⟨g', listed, x, index, dev', rfl⟩ := exists_of_mem_groupsRegs later
        have same := left_mbfunc index (.inr read)
        have none' := first g' listed write x.1 (List.fst_mem_of_mem_zipIdx index)
        rw [same, none'] at read
        cases read
      | false =>
        rw [groupSent_of_not_write write] at later
        obtain ⟨g', listed, found⟩ := ih readsFirst later
        exact ⟨g', List.mem_cons_of_mem _ listed, found⟩

/-- A group that reads is polled before anything is written. -/
theorem left_mem_groupsRegs {gs : List Group} (readsFirst : ReadsFirst gs) (listed : g ∈ gs)
    (read : g.beg.mbfunc.isReadFunction = true) {x : RegInfo × Nat} (index : x ∈ g.regs.zipIdx) :
    left limit dev g x ∈ groupsRegs limit dev gs := by
  induction gs with
  | nil => exact absurd listed List.not_mem_nil
  | cons first gs ih =>
    obtain ⟨before, readsFirst⟩ := List.pairwise_cons.mp readsFirst
    rcases List.mem_cons.mp listed with rfl | later
    · refine List.mem_append_left _ ?_
      rw [groupRegs_eq]
      exact List.mem_map_of_mem index
    · have not : first.beg.mbfunc.isWriteFunction = false := by
        refine Bool.eq_false_iff.mpr fun write => ?_
        rw [before g later write g.beg List.mem_cons_self] at read
        cases read
      refine List.mem_append_right _ ?_
      rw [groupSent_of_not_write not]
      exact ih readsFirst later

end Reads

/-! ### The map -/

section Map

variable {limit : MbFunc → Nat} {regs : List RegInfo}

theorem code_read (read : func.isReadFunction = true) : func.code ≤ 4 := by
  cases func <;> first | decide | cases read

theorem code_write (write : func.isWriteFunction = true) : 5 ≤ func.code := by
  cases func <;> first | decide | cases write

namespace Built

variable (built : Built limit regs)
include built

theorem eq_of_regID {a b : RegInfo} (ha : a ∈ regs) (hb : b ∈ regs) (same : a.regID = b.regID) :
    a = b := by
  have nodup : (regs.map RegInfo.regID).Nodup :=
    List.pairwise_map.mpr (built.sorted.imp fun lt => Nat.ne_of_lt lt)
  exact List.inj_on_of_nodup_map nodup ha hb same

/-- The functions follow the order of the map. -/
theorem code_le {a b : RegInfo} (ha : a ∈ regs) (hb : b ∈ regs) (le : a.regID ≤ b.regID) :
    a.mbfunc.code ≤ b.mbfunc.code := by
  rcases Nat.eq_or_lt_of_le le with eq | lt
  · exact Nat.le_of_eq (congrArg (fun r => r.mbfunc.code) (built.eq_of_regID ha hb eq))
  · obtain ⟨idA, regA⟩ := built.own a ha
    obtain ⟨idB, regB⟩ := built.own b hb
    rw [idA, idB, genRegID, genRegID] at lt
    by_contra not
    have step : b.mbfunc.code + 1 ≤ a.mbfunc.code := by omega
    have scaled : 65535 * (b.mbfunc.code + 1) ≤ 65535 * a.mbfunc.code := Nat.mul_le_mul_left _ step
    omega

theorem groups_ordered (maxQueryCount : Nat) :
    (groups maxQueryCount regs).Pairwise fun g g' =>
      ∀ m ∈ g.regs, ∀ m' ∈ g'.regs, m.regID < m'.regID := by
  have sorted := built.sorted
  rw [← groups_flatMap maxQueryCount regs] at sorted
  exact (List.pairwise_flatMap.mp sorted).2

theorem group_unique {g' : Group} (listed : g ∈ groups maxQueryCount regs)
    (listed' : g' ∈ groups maxQueryCount regs) (member : m ∈ g.regs) (member' : m ∈ g'.regs) :
    g = g' := by
  obtain ⟨i, inside, rfl⟩ := List.mem_iff_getElem.mp listed
  obtain ⟨j, inside', rfl⟩ := List.mem_iff_getElem.mp listed'
  have ordered := List.pairwise_iff_getElem.mp (built.groups_ordered maxQueryCount)
  rcases Nat.lt_trichotomy i j with lt | eq | gt
  · exact absurd (ordered i j inside inside' lt m member m member') (Nat.lt_irrefl _)
  · subst eq
    rfl
  · exact absurd (ordered j i inside' inside gt m member' m member) (Nat.lt_irrefl _)

theorem beg_read (listed : g ∈ groups maxQueryCount regs) (member : m ∈ g.regs)
    (read : m.mbfunc.isReadFunction = true) :
    g.beg.mbfunc.isReadFunction = true := by
  have begins : g.beg ∈ regs := mem_of_group listed List.mem_cons_self
  obtain ⟨i, inside, rfl⟩ := List.mem_iff_getElem.mp member
  have id := groups_run maxQueryCount built.sorted g listed (g.regs[i], i)
    (List.mem_zipIdx_iff_getElem?.mpr (List.getElem?_eq_getElem inside))
  have le := built.code_le begins (mem_of_group listed member) (by dsimp only at id; omega)
  refine (built.polled g.beg begins).resolve_right fun write => ?_
  have low := code_read read
  have high := code_write write
  omega

/-- What a group that writes joins is written. -/
theorem write_of_beg (listed : g ∈ groups maxQueryCount regs)
    (write : g.beg.mbfunc.isWriteFunction = true) (member : m ∈ g.regs) :
    m.mbfunc.isWriteFunction = true := by
  refine (built.polled m (mem_of_group listed member)).resolve_left fun read => ?_
  have no := built.beg_read listed member read
  rw [not_read_of_write write] at no
  cases no

theorem readsFirst (maxQueryCount : Nat) : ReadsFirst (groups maxQueryCount regs) := by
  refine List.Pairwise.imp_of_mem ?_ (built.groups_ordered maxQueryCount)
  intro g g' listed listed' ordered write m member
  refine Bool.eq_false_iff.mpr fun read => ?_
  have le := built.code_le (mem_of_group listed List.mem_cons_self) (mem_of_group listed' member)
    (Nat.le_of_lt (ordered g.beg List.mem_cons_self m member))
  have low := code_read read
  have high := code_write write
  omega

/-- **In a group, a register has the function of the first one exactly if its number follows.** -/
theorem func_iff_mbreg (listed : g ∈ groups maxQueryCount regs) {i : Nat}
    (index : (m, i) ∈ g.regs.zipIdx) :
    m.mbfunc = g.beg.mbfunc ↔ m.mbreg = g.beg.mbreg + i := by
  have member : m ∈ regs := mem_of_group listed (List.fst_mem_of_mem_zipIdx index)
  have begins : g.beg ∈ regs := mem_of_group listed List.mem_cons_self
  have id := groups_run maxQueryCount built.sorted g listed (m, i) index
  dsimp only at id
  rw [(built.own m member).1, (built.own g.beg begins).1, genRegID, genRegID] at id
  constructor
  · intro same
    rw [same] at id
    omega
  · intro next
    exact (built.polled m member).eq_of_code (built.polled g.beg begins) (by omega)

end Built

end Map

/-! ### What is sent -/

section Sending

variable {limit : MbFunc → Nat} {g : Group}

theorem index_of_carried {i : Nat} (index : (m, i) ∈ (carried g).zipIdx) :
    (m, i) ∈ g.regs.zipIdx := by
  rw [List.mem_zipIdx_iff_getElem?] at index ⊢
  rw [carried] at index
  split_ifs at index
  · exact List.getElem?_eq_some_iff.mpr (by
      obtain ⟨inside, here⟩ := List.getElem?_eq_some_iff.mp index
      exact ⟨by simp at inside; omega, by simpa using here⟩)
  · exact index
  · cases index

theorem mem_of_carried (member : m ∈ carried g) : m ∈ g.regs := by
  obtain ⟨i, inside, rfl⟩ := List.mem_iff_getElem.mp member
  exact List.fst_mem_of_mem_zipIdx (index_of_carried
    (List.mem_zipIdx_iff_getElem?.mpr (List.getElem?_eq_getElem inside)))

theorem beg_write_of_carried (member : m ∈ carried g) : g.beg.mbfunc.isWriteFunction = true := by
  rw [carried] at member
  split_ifs at member with sends
  · exact (Bool.and_eq_true_iff.mp sends).1
  · exact (Bool.and_eq_true_iff.mp sends).1
  · exact absurd member List.not_mem_nil

/-- A group sends the words of the registers it carries. -/
theorem groupSent_eq :
    groupSent limit g = (carried g).zipIdx.map fun x =>
      ⟨x.1.regID, g.func, g.beg.mbreg + x.2, x.1.mbval,
        answers limit g.func g.beg.mbreg (carried g).length⟩ := by
  rw [groupSent, carried]
  split_ifs with sends ten
  · have cut : room g.func (words g.regs) = words (g.regs.take 125) := by
      rw [room, if_pos ten, words, words, List.map_take]
    rw [request, cut, words, List.length_map, List.zipIdx_map, List.map_map]
    rfl
  · have cut : room g.func (words g.regs) = words g.regs := by
      rw [room, if_neg ten]
    rw [request, cut, words, List.length_map, List.zipIdx_map, List.map_map]
    rfl
  · rfl

/-- What is sent of a register comes from its group. -/
theorem Built.sent_of_group (built : Built limit regs) (listed : g ∈ groups maxQueryCount regs)
    (member : m ∈ g.regs) {x : Sent}
    (sent : x ∈ (groups maxQueryCount regs).flatMap (groupSent limit)) (same : x.regID = m.regID) :
    ∃ i, (m, i) ∈ (carried g).zipIdx ∧ x = ⟨m.regID, g.func, g.beg.mbreg + i, m.mbval,
      answers limit g.func g.beg.mbreg (carried g).length⟩ := by
  obtain ⟨g', listed', sent⟩ := List.mem_flatMap.mp sent
  rw [groupSent_eq] at sent
  obtain ⟨⟨m', i⟩, index, rfl⟩ := List.mem_map.mp sent
  have member' : m' ∈ g'.regs := List.fst_mem_of_mem_zipIdx (index_of_carried index)
  have eq : m' = m := built.eq_of_regID (mem_of_group listed' member') (mem_of_group listed member) same
  subst eq
  have group := built.group_unique listed listed' member member'
  subst group
  exact ⟨i, index, rfl⟩

theorem mem_sent_of_carried (listed : g ∈ groups maxQueryCount regs) {i : Nat}
    (index : (m, i) ∈ (carried g).zipIdx) :
    (⟨m.regID, g.func, g.beg.mbreg + i, m.mbval,
      answers limit g.func g.beg.mbreg (carried g).length⟩ : Sent) ∈
        (groups maxQueryCount regs).flatMap (groupSent limit) := by
  refine List.mem_flatMap.mpr ⟨g, listed, ?_⟩
  rw [groupSent_eq]
  exact List.mem_map_of_mem index

theorem exists_index {list : List RegInfo} (member : m ∈ list) : ∃ i, (m, i) ∈ list.zipIdx := by
  obtain ⟨i, inside, rfl⟩ := List.mem_iff_getElem.mp member
  exact ⟨i, List.mem_zipIdx_iff_getElem?.mpr (List.getElem?_eq_getElem inside)⟩

end Sending

/-! ### Sound groups are enough -/

section Enough

variable {limit : MbFunc → Nat} {maxQueryCount : Nat} {regs : List RegInfo}
  (built : Built limit regs) (sound : ∀ g ∈ groups maxQueryCount regs, GroupSound limit regs g)
include built sound

theorem reads_of_sound (dev : Memory)
    (member : m ∈ groupsRegs limit dev (groups maxQueryCount regs))
    (read : m.mbfunc.isReadFunction = true) : m.mbval = value dev m.mbfunc m.mbreg := by
  obtain ⟨g, listed, ⟨r, i⟩, index, rfl⟩ := mem_groupsRegs (built.readsFirst maxQueryCount) member read
  have func := left_mbfunc index (.inr read)
  have inside : r ∈ g.regs := List.fst_mem_of_mem_zipIdx index
  rw [func] at read
  have begins := built.beg_read listed inside read
  obtain ⟨answered, others⟩ := (sound g listed).read begins
  have same : r.mbfunc = g.beg.mbfunc := by
    rcases List.mem_cons.mp inside with rfl | joined
    · rfl
    · exact others r joined read
  rw [func, left_mbreg, left, if_pos (by rw [begins, answered]; rfl), same,
    (built.func_iff_mbreg listed index).mp same]
  rfl

theorem sent_of_sound (inside : r ∈ regs) (write : r.mbfunc.isWriteFunction = true)
    (initialised : r.smInitOK = true) (member : m ∈ regs) (owns : Owns r m) :
    ∃ x ∈ (groups maxQueryCount regs).flatMap (groupSent limit),
      x.regID = m.regID ∧ table x.func = table m.mbfunc ∧ x.reg = m.mbreg ∧ x.word = m.mbval ∧
        x.answered = true := by
  obtain ⟨g, listed, joined⟩ := exists_group maxQueryCount member
  have write' : m.mbfunc.isWriteFunction = true := by rwa [owns.1]
  have carries := ((sound g listed).due m joined write' r inside owns).mp initialised
  have place := (sound g listed).place m carries
  obtain ⟨i, index⟩ := exists_index carries
  refine ⟨_, mem_sent_of_carried listed index, rfl, ?_, ?_, rfl, ?_⟩
  · rw [table_func, place]
  · exact ((built.func_iff_mbreg listed (index_of_carried index)).mp place).symm
  · exact (sound g listed).fits (List.ne_nil_of_mem carries)

theorem unsent_of_sound (inside : r ∈ regs) (write : r.mbfunc.isWriteFunction = true)
    (uninitialised : r.smInitOK = false) (member : m ∈ regs) (owns : Owns r m) :
    ∀ x ∈ (groups maxQueryCount regs).flatMap (groupSent limit), x.regID ≠ m.regID := by
  intro x sent same
  obtain ⟨g, listed, joined⟩ := exists_group maxQueryCount member
  obtain ⟨i, index, -⟩ := built.sent_of_group listed joined sent same
  have write' : m.mbfunc.isWriteFunction = true := by rwa [owns.1]
  have initialised := ((sound g listed).due m joined write' r inside owns).mpr
    (List.fst_mem_of_mem_zipIdx index)
  rw [uninitialised] at initialised
  cases initialised

omit sound in
/-- The registers that plain polling writes, in its order. -/
theorem plain_eq (dev : Memory) :
    plain limit regs dev =
      (regs.flatMap fun r => r.slst.flatMap fun p =>
        if r.mbfunc.isWriteFunction && r.smInitOK then wordsOf regs r p else []).foldl write dev := by
  rw [List.foldl_flatMap, plain]
  refine List.foldl_ext _ _ _ fun dev r member => ?_
  rw [List.foldl_flatMap]
  refine List.foldl_ext _ _ _ fun dev p listed => ?_
  rw [built.answered r member p listed, Bool.and_true]
  split_ifs
  · rfl
  · rfl

/-- A sound group writes the registers it carries, each to its place. -/
theorem foldl_groupSent (listed : g ∈ groups maxQueryCount regs) (dev : Memory) :
    (groupSent limit g).foldl put dev = (carried g).foldl write dev := by
  have firsts : (carried g).zipIdx.map Prod.fst = carried g := List.zipIdx_map_fst _ _
  rw [groupSent_eq, List.foldl_map]
  conv_rhs => rw [← firsts, List.foldl_map]
  refine List.foldl_ext _ _ _ fun dev x index => ?_
  have carries : x.1 ∈ carried g := List.fst_mem_of_mem_zipIdx index
  have place := (sound g listed).place x.1 carries
  have reg := (built.func_iff_mbreg listed (index_of_carried index)).mp place
  have fits := (sound g listed).fits (List.ne_nil_of_mem carries)
  rw [put, if_pos fits, write, table_func, place, reg]

omit sound in
theorem carried_sorted (maxQueryCount : Nat) :
    ((groups maxQueryCount regs).flatMap carried).Pairwise fun a b =>
      a.mbfunc.code ≤ b.mbfunc.code := by
  have sorted : ((groups maxQueryCount regs).flatMap carried).Pairwise fun a b => a.regID < b.regID := by
    refine List.pairwise_flatMap.mpr ⟨fun g listed => ?_, ?_⟩
    · have run : g.regs.Pairwise fun a b => a.regID < b.regID := by
        have all := built.sorted
        rw [← groups_flatMap maxQueryCount regs] at all
        exact (List.pairwise_flatMap.mp all).1 g listed
      refine run.sublist ?_
      rw [carried]
      split_ifs
      · exact List.take_sublist _ _
      · exact List.Sublist.refl _
      · exact List.nil_sublist _
    · refine (built.groups_ordered maxQueryCount).imp fun ordered a carries b carries' => ?_
      exact ordered a (mem_of_carried carries) b (mem_of_carried carries')
  refine sorted.imp_of_mem fun memberA memberB lt => ?_
  obtain ⟨g, listed, carries⟩ := List.mem_flatMap.mp memberA
  obtain ⟨g', listed', carries'⟩ := List.mem_flatMap.mp memberB
  exact built.code_le (mem_of_group listed (mem_of_carried carries))
    (mem_of_group listed' (mem_of_carried carries')) (Nat.le_of_lt lt)

omit built sound in
/-- The registers of a value that plain polling writes. -/
theorem mem_plain :
    (m ∈ r.slst.flatMap fun p =>
        if r.mbfunc.isWriteFunction && r.smInitOK then wordsOf regs r p else []) ↔
      (r.mbfunc.isWriteFunction = true ∧ r.smInitOK = true) ∧ m ∈ regs ∧ Owns r m := by
  rw [List.mem_flatMap]
  constructor
  · rintro ⟨p, listed, word⟩
    split_ifs at word with sends
    · simp only [wordsOf, List.mem_filter, Bool.and_eq_true, decide_eq_true_eq] at word
      exact ⟨Bool.and_eq_true_iff.mp sends, word.1, word.2.1.1, p, listed, word.2.1.2, word.2.2⟩
    · exact absurd word List.not_mem_nil
  · rintro ⟨⟨write, initialised⟩, member, func, p, listed, low, high⟩
    refine ⟨p, listed, ?_⟩
    rw [write, initialised, Bool.and_true, if_pos rfl]
    simp only [wordsOf, List.mem_filter, Bool.and_eq_true, decide_eq_true_eq]
    exact ⟨member, ⟨func, low⟩, high⟩

omit sound in
theorem plain_sorted :
    (regs.flatMap fun r => r.slst.flatMap fun p =>
      if r.mbfunc.isWriteFunction && r.smInitOK then wordsOf regs r p else []).Pairwise fun a b =>
        a.mbfunc.code ≤ b.mbfunc.code := by
  refine List.pairwise_flatMap.mpr ⟨fun r _ => ?_, ?_⟩
  · refine List.pairwise_of_forall_mem_list fun a memberA b memberB => ?_
    have same := (mem_plain.mp memberA).2.2.1.trans (mem_plain.mp memberB).2.2.1.symm
    exact Nat.le_of_eq (congrArg MbFunc.code same)
  · refine built.sorted.imp_of_mem fun {r r'} member member' lt a memberA b memberB => ?_
    rw [(mem_plain.mp memberA).2.2.1, (mem_plain.mp memberB).2.2.1]
    exact built.code_le member member' (Nat.le_of_lt lt)

/-- The registers that go out with the groups are those that plain polling writes. -/
theorem mem_carried_iff :
    m ∈ (groups maxQueryCount regs).flatMap carried ↔
      m ∈ regs.flatMap fun r => r.slst.flatMap fun p =>
        if r.mbfunc.isWriteFunction && r.smInitOK then wordsOf regs r p else [] := by
  rw [List.mem_flatMap, List.mem_flatMap]
  constructor
  · rintro ⟨g, listed, carries⟩
    have joined := mem_of_carried carries
    have member := mem_of_group listed joined
    have write := built.write_of_beg listed (beg_write_of_carried carries) joined
    obtain ⟨r, inside, owns⟩ := built.owned m member
    refine ⟨r, inside, mem_plain.mpr ⟨⟨by rwa [← owns.1], ?_⟩, member, owns⟩⟩
    exact ((sound g listed).due m joined write r inside owns).mpr carries
  · rintro ⟨r, inside, word⟩
    obtain ⟨⟨write, initialised⟩, member, owns⟩ := mem_plain.mp word
    obtain ⟨g, listed, joined⟩ := exists_group maxQueryCount member
    exact ⟨g, listed, ((sound g listed).due m joined (by rwa [owns.1]) r inside owns).mp initialised⟩

/-- **The device after the cycle is that after plain polling.** -/
theorem device_of_sound (dev : Memory) :
    ((groups maxQueryCount regs).flatMap (groupSent limit)).foldl put dev = plain limit regs dev := by
  have grouped : ((groups maxQueryCount regs).flatMap (groupSent limit)).foldl put dev =
      ((groups maxQueryCount regs).flatMap carried).foldl write dev := by
    rw [List.foldl_flatMap, List.foldl_flatMap]
    exact List.foldl_ext _ _ _ fun dev g listed => foldl_groupSent built sound listed dev
  rw [grouped, plain_eq built]
  -- both lists follow the functions, and have the same registers
  refine Lib.writeAll_congr (fun m : RegInfo => m.mbfunc.code) (carried_sorted built maxQueryCount)
    (plain_sorted built) (fun m => mem_carried_iff built sound) ?_ dev
  intro a memberA b memberB key rank
  obtain ⟨g, listed, carries⟩ := List.mem_flatMap.mp memberA
  obtain ⟨g', listed', carries'⟩ := List.mem_flatMap.mp memberB
  have insideA := mem_of_group listed (mem_of_carried carries)
  have insideB := mem_of_group listed' (mem_of_carried carries')
  have regs' : a.mbreg = b.mbreg := congrArg Prod.snd key
  have same : a = b := by
    refine built.eq_of_regID insideA insideB ?_
    rw [(built.own a insideA).1, (built.own b insideB).1, regs', rank]
  rw [same]

end Enough

/-! ### And they are needed -/

/-- The function that reads a table. -/
def reader : Table → MbFunc
  | .coils => .fnReadCoilStatus
  | .inputs => .fnReadInputStatus
  | .holding => .fnReadOutputRegisters
  | .inputRegs => .fnReadInputRegisters

theorem reader_table (read : func.isReadFunction = true) : reader (table func) = func := by
  cases func <;> first | rfl | cases read

theorem image_zero (t : Table) : image t 0 = 0 := by
  cases t <;> rfl

theorem image_one (t : Table) : image t 1 = 1 := by
  cases t <;> rfl

section Needed

variable {limit : MbFunc → Nat} {maxQueryCount : Nat} {regs : List RegInfo}
  (built : Built limit regs) (exact' : Exact limit maxQueryCount regs)
include built exact'

/-- A register of a group that reads, after any cycle. -/
theorem left_value (listed : g ∈ groups maxQueryCount regs)
    (begins : g.beg.mbfunc.isReadFunction = true) {i : Nat} (index : (m, i) ∈ g.regs.zipIdx)
    (read : m.mbfunc.isReadFunction = true) (dev : Memory) :
    (left limit dev g (m, i)).mbval = value dev m.mbfunc m.mbreg := by
  have func : (left limit dev g (m, i)).mbfunc = m.mbfunc := left_mbfunc index (.inl read)
  have reads := exact'.reads dev
  rw [cycle_eq built] at reads
  have after := reads (left limit dev g (m, i))
    (left_mem_groupsRegs (built.readsFirst maxQueryCount) listed begins index) (by rwa [func])
  rw [func, left_mbreg] at after
  exact after

theorem answered_of_exact (listed : g ∈ groups maxQueryCount regs)
    (begins : g.beg.mbfunc.isReadFunction = true) :
    answers limit g.beg.mbfunc g.beg.mbreg g.regs.length = true := by
  refine Classical.byContradiction fun unanswered => ?_
  -- a device that holds something else
  have after := left_value built exact' listed begins
    (List.mem_zipIdx_iff_getElem?.mpr (show g.regs[0]? = some g.beg from rfl)) begins
    fun _ => if g.beg.mbval = 0 then 1 else 0
  rw [left, if_neg (by rw [Bool.and_eq_true]; exact fun both => unanswered both.2)] at after
  have kept : g.beg.mbval = value (fun _ => if g.beg.mbval = 0 then 1 else 0) g.beg.mbfunc g.beg.mbreg :=
    after
  by_cases zero : g.beg.mbval = 0
  · rw [value, if_pos zero, image_one] at kept
    omega
  · rw [value, if_neg zero, image_zero] at kept
    exact zero kept

/-- What is read in one request has one function. -/
theorem func_of_exact (listed : g ∈ groups maxQueryCount regs)
    (begins : g.beg.mbfunc.isReadFunction = true) (joined : m ∈ g.members)
    (read : m.mbfunc.isReadFunction = true) : m.mbfunc = g.beg.mbfunc := by
  refine Classical.byContradiction fun other => ?_
  have tables : table g.beg.mbfunc ≠ table m.mbfunc := by
    intro same
    rw [← reader_table read, ← reader_table begins, same] at other
    exact other rfl
  obtain ⟨i, index⟩ := exists_index (List.mem_cons_of_mem g.beg joined)
  -- a device whose tables differ
  have after := left_value built exact' listed begins index read
    fun cell => if cell.1 = table m.mbfunc then 1 else 0
  rw [left, if_pos (by rw [begins, answered_of_exact built exact' listed begins]; rfl)] at after
  have kept : value (fun cell => if cell.1 = table m.mbfunc then 1 else 0) g.beg.mbfunc
      (g.beg.mbreg + i) = value (fun cell => if cell.1 = table m.mbfunc then 1 else 0) m.mbfunc m.mbreg :=
    after
  rw [value, value, if_neg tables, if_pos rfl, image_zero, image_one] at kept
  cases kept

/-- What is initialised goes out with its group, and nothing else does. -/
theorem due_of_exact (listed : g ∈ groups maxQueryCount regs) (joined : m ∈ g.regs)
    (write : m.mbfunc.isWriteFunction = true) (inside : r ∈ regs) (owns : Owns r m) :
    r.smInitOK = true ↔ m ∈ carried g := by
  have member := mem_of_group listed joined
  have writes : r.mbfunc.isWriteFunction = true := by rwa [← owns.1]
  constructor
  · intro initialised
    obtain ⟨x, sent, same, -⟩ := exact'.sent (fun _ => 0) r inside writes initialised m member owns
    rw [cycle_eq built] at sent
    obtain ⟨i, index, -⟩ := built.sent_of_group listed joined sent same
    exact List.fst_mem_of_mem_zipIdx index
  · intro carries
    refine Bool.not_eq_false _ ▸ fun uninitialised => ?_
    obtain ⟨i, index⟩ := exists_index carries
    have unsent := exact'.unsent (fun _ => 0) r inside writes uninitialised m member owns
    rw [cycle_eq built] at unsent
    exact unsent _ (mem_sent_of_carried listed index) rfl

/-- What goes out has one function, and is answered. -/
theorem place_of_exact (listed : g ∈ groups maxQueryCount regs) (carries : m ∈ carried g) :
    m.mbfunc = g.beg.mbfunc ∧ answers limit g.func g.beg.mbreg (carried g).length = true := by
  have joined := mem_of_carried carries
  have member := mem_of_group listed joined
  have write := built.write_of_beg listed (beg_write_of_carried carries) joined
  obtain ⟨r, inside, owns⟩ := built.owned m member
  have initialised := (due_of_exact built exact' listed joined write inside owns).mpr carries
  obtain ⟨x, sent, same, -, place, -, answered⟩ :=
    exact'.sent (fun _ => 0) r inside (by rwa [← owns.1]) initialised m member owns
  rw [cycle_eq built] at sent
  obtain ⟨i, index, rfl⟩ := built.sent_of_group listed joined sent same
  exact ⟨(built.func_iff_mbreg listed (index_of_carried index)).mpr place.symm, answered⟩

end Needed

/-- **A cycle over the joined map reads every register, leaves the device as plain polling does, and
sends exactly the values that are initialised, if and only if every group is sound.** -/
theorem exact_iff (limit : MbFunc → Nat) (maxQueryCount : Nat) (regs : List RegInfo)
    (built : Built limit regs) :
    Exact limit maxQueryCount regs ↔ ∀ g ∈ groups maxQueryCount regs, GroupSound limit regs g := by
  constructor
  · intro exact' g listed
    refine ⟨fun begins => ⟨answered_of_exact built exact' listed begins,
      fun m joined read => func_of_exact built exact' listed begins joined read⟩, ?_, ?_, ?_⟩
    · intro m joined write r inside owns
      exact due_of_exact built exact' listed joined write inside owns
    · intro m carries
      exact (place_of_exact built exact' listed carries).1
    · intro some'
      obtain ⟨m, carries⟩ := List.exists_mem_of_ne_nil _ some'
      exact (place_of_exact built exact' listed carries).2
  · intro sound
    refine ⟨fun dev => ?_, fun dev => ?_, fun dev => ?_, fun dev => ?_⟩
    · rw [cycle_eq built]
      exact fun m member read => reads_of_sound built sound dev member read
    · rw [cycle_eq built]
      exact device_of_sound built sound dev
    · rw [cycle_eq built]
      exact fun r inside write initialised m member owns =>
        sent_of_sound built sound inside write initialised member owns
    · rw [cycle_eq built]
      exact fun r inside write uninitialised m member owns =>
        unsent_of_sound built sound inside write uninitialised member owns

/-! ### The maps of a configuration -/

/-- What of a register changes once it is configured. -/
structure Live where
  mbInitOK : Bool
  smInitOK : Bool
  mbval : Nat

/-- A register in the course of the exchange. -/
def live (state : Nat → Live) (r : RegInfo) : RegInfo :=
  { r with
    mbInitOK := (state r.regID).mbInitOK
    smInitOK := (state r.regID).smInitOK
    mbval := (state r.regID).mbval }

/-- A group in the course of the exchange. -/
def liveGroup (state : Nat → Live) (g : Group) : Group := ⟨live state g.beg, g.members.map (live state)⟩

section Configured

variable {limit : MbFunc → Nat} (state : Nat → Live)

theorem joined_live (g : Group) : (liveGroup state g).joined = g.joined.map (live state) := by
  have func : (liveGroup state g).func = g.func := by
    rw [Group.func, Group.func, liveGroup, List.isEmpty_map]
    rfl
  rw [Group.joined, Group.joined, Group.head, Group.head, func, List.map_cons, liveGroup]
  refine congrArg₂ _ ?_ (List.ext_getElem? fun i => ?_)
  · rw [List.length_map]
    rfl
  · simp only [List.getElem?_map, List.getElem?_mapIdx, Option.map_map]
    rfl

theorem groupsFrom_live (maxQueryCount : Nat) (g : Group) (last : Nat) (rest : List RegInfo) :
    groupsFrom maxQueryCount (liveGroup state g) last (rest.map (live state)) =
      (groupsFrom maxQueryCount g last rest).map (liveGroup state) := by
  induction rest generalizing g last with
  | nil => rfl
  | cons r rest ih =>
    have next := ih ⟨g.beg, g.members ++ [r]⟩ r.regID
    rw [liveGroup, List.map_append] at next
    have id : (live state r).regID = r.regID := rfl
    rw [List.map_cons, groupsFrom, groupsFrom, id]
    simp only [liveGroup, List.length_map, ne_eq, List.map_eq_nil_iff]
    split_ifs
    · rw [List.map_cons]
      exact congrArg _ (ih ⟨r, []⟩ r.regID)
    · exact next

/-- **The requests are joined without a look at the flags and the values**, so it does not matter that
this is done before the exchange. -/
theorem rtuQueryOptimization_live (maxQueryCount : Nat) (regs : List RegInfo) :
    rtuQueryOptimizationForRegMap maxQueryCount (regs.map (live state)) =
      (rtuQueryOptimizationForRegMap maxQueryCount regs).map (live state) := by
  rw [rtuQueryOptimizationForRegMap, rtuQueryOptimizationForRegMap, List.length_map]
  split_ifs
  · rfl
  · cases regs with
    | nil => rfl
    | cons beg rest =>
      have same : groups maxQueryCount ((beg :: rest).map (live state)) =
          (groups maxQueryCount (beg :: rest)).map (liveGroup state) :=
        groupsFrom_live state maxQueryCount ⟨beg, []⟩ beg.regID rest
      rw [same, List.flatMap_map, List.map_flatMap]
      exact List.flatMap_congr fun g _ => joined_live state g

theorem built_of_regMap {items : List Item} (apart : ToldApart items) (map : RegMap items regs)
    (answered : ∀ r ∈ regs, ∀ p ∈ r.slst, answers limit r.mbfunc r.mbreg p.rnum = true) :
    Built limit regs where
  sorted := map.sorted
  own r member := ⟨(map.own r member).1, apart.low _ _ (map.own r member).2⟩
  polled r member := by
    obtain ⟨item, listed, func, -⟩ := (map.own r member).2
    rw [func]
    exact apart.polled item listed
  owned := map.owned
  answered := answered
  single short r member := (map.single r member).resolve_right (Nat.not_lt_of_le short)

end Configured

/-- **Whatever the registers of a configured map hold, a cycle over the joined map is as exact as plain
polling if and only if every group is sound.** `rtuQueryOptimization` joins the map before the exchange,
if it is not one that is written by change only. -/
theorem configured_exact_iff (limit : MbFunc → Nat) (maxQueryCount : Nat) (defaultMBinitOK : Bool)
    (items : List Item) (conf : MBConf) (loaded : readConfiguration defaultMBinitOK items = some conf)
    (apart : ∀ mbaddr pollfactor, ToldApart (itemsOf items mbaddr pollfactor))
    (m : PollMap) (member : m ∈ conf.pollmaps) (cyclic : m.pollfactor ≠ changeOnlyWrite)
    (answered : ∀ r ∈ m.regs, ∀ p ∈ r.slst, answers limit r.mbfunc r.mbreg p.rnum = true)
    (state : Nat → Live) :
    (rtuQueryOptimization maxQueryCount [m]).map (fun m => m.regs.map (live state)) =
        [rtuQueryOptimizationForRegMap maxQueryCount (m.regs.map (live state))] ∧
      (Exact limit maxQueryCount (m.regs.map (live state)) ↔
        ∀ g ∈ groups maxQueryCount (m.regs.map (live state)),
          GroupSound limit (m.regs.map (live state)) g) := by
  have map : RegMap (itemsOf items m.mbaddr m.pollfactor) (m.regs.map (live state)) :=
    (readConfiguration_regMap apart loaded m member).map fun r =>
      ⟨(state r.regID).mbInitOK, (state r.regID).smInitOK, (state r.regID).mbval, rfl⟩
  refine ⟨?_, exact_iff limit maxQueryCount _ (built_of_regMap (apart _ _) map
    fun r' member' p listed => ?_)⟩
  · rw [rtuQueryOptimization, List.map_singleton, if_neg cyclic, List.map_singleton,
      rtuQueryOptimization_live]
  · obtain ⟨r, inside, rfl⟩ := List.mem_map.mp member'
    exact answered r inside p listed

/-! ### Two registers -/

/-- A register that is written with `0x06`. -/
def registerItem (mbreg : Nat) : Item where
  si := ⟨mbreg, 1⟩
  stype := .AO
  nbit := none
  vType := .vtUnknown
  nbyte := 0
  mask := 0
  default := 0
  mbaddr := 1
  dtype := .dtRTU
  mtrSize := 0
  mbreg := mbreg
  mbfunc := .fnWriteOutputSingleRegister
  pollfactor := 0
  smInitOK := false
  preinit := false
  initMbreg := none
  initMbfunc := none

def twoRegisters : List Item := [registerItem 10, registerItem 11]

/-- The registers of `twoRegisters`. -/
def twoRegisterMap : List RegInfo :=
  [⟨10, .fnWriteOutputSingleRegister, genRegID 10 6, 0, 0, true, false, 0, 1,
      [(registerItem 10).property 0]⟩,
    ⟨11, .fnWriteOutputSingleRegister, genRegID 11 6, 0, 0, true, false, 0, 1,
      [(registerItem 11).property 0]⟩]

/-- The registers with the value 7, and those of them that are initialised. -/
def holding (initialised : Nat → Bool) (regID : Nat) : Live := ⟨true, initialised (regID - genRegID 0 6), 7⟩

theorem twoRegisters_loaded :
    readConfiguration false twoRegisters = some ⟨false, [⟨1, .dtRTU, 0, twoRegisterMap⟩], []⟩ := by
  decide +kernel

theorem twoRegisters_apart (mbaddr pollfactor : Nat) : ToldApart (itemsOf twoRegisters mbaddr pollfactor) :=
  itemsOf_apart (by decide) mbaddr pollfactor

/-- Both registers are initialised, and both are sent. -/
theorem two_registers_exact :
    Exact (fun _ => 125) 125 (twoRegisterMap.map (live (holding fun _ => true))) :=
  (configured_exact_iff (fun _ => 125) 125 false twoRegisters _ twoRegisters_loaded twoRegisters_apart _
    List.mem_cons_self (by decide) (by decide +kernel) (holding fun _ => true)).2.mpr (by decide +kernel)

/-- **One of two registers is not initialised.** If it is the first, the second one is not sent; if it is
the second, it is sent. -/
theorem second_register_not_sent :
    (∃ conf, readConfiguration false twoRegisters = some conf ∧
      ⟨1, .dtRTU, 0, twoRegisterMap⟩ ∈ conf.pollmaps) ∧
    (∀ mbaddr pollfactor, ToldApart (itemsOf twoRegisters mbaddr pollfactor)) ∧
    (∀ r ∈ twoRegisterMap, ∀ p ∈ r.slst, answers (fun _ => 125) r.mbfunc r.mbreg p.rnum = true) ∧
    ¬ Exact (fun _ => 125) 125 (twoRegisterMap.map (live (holding fun reg => reg = 11))) ∧
    ¬ Exact (fun _ => 125) 125 (twoRegisterMap.map (live (holding fun reg => reg = 10))) := by
  refine ⟨⟨_, twoRegisters_loaded, List.mem_cons_self⟩, twoRegisters_apart, by decide +kernel, ?_, ?_⟩
  · intro exact'
    have sent : (cycle (fun _ => 125) (rtuQueryOptimizationForRegMap 125
        (twoRegisterMap.map (live (holding fun reg => reg = 11)))) fun _ => 0).2.2 = [] := by
      decide +kernel
    obtain ⟨x, member, -⟩ := exact'.sent (fun _ => 0)
      (live (holding fun reg => reg = 11) (twoRegisterMap.getLast (by decide))) (by decide +kernel)
      (by decide +kernel) (by decide +kernel)
      (live (holding fun reg => reg = 11) (twoRegisterMap.getLast (by decide))) (by decide +kernel)
      (by decide +kernel)
    rw [sent] at member
    exact absurd member List.not_mem_nil
  · intro exact'
    have sent : (cycle (fun _ => 125) (rtuQueryOptimizationForRegMap 125
        (twoRegisterMap.map (live (holding fun reg => reg = 10)))) fun _ => 0).2.2 =
        [⟨genRegID 10 6, .fnWriteOutputRegisters, 10, 7, true⟩,
          ⟨genRegID 11 6, .fnWriteOutputRegisters, 11, 7, true⟩] := by
      decide +kernel
    have unsent := exact'.unsent (fun _ => 0)
      (live (holding fun reg => reg = 10) (twoRegisterMap.getLast (by decide))) (by decide +kernel)
      (by decide +kernel) (by decide +kernel)
      (live (holding fun reg => reg = 10) (twoRegisterMap.getLast (by decide))) (by decide +kernel)
      (by decide +kernel)
    rw [sent] at unsent
    exact unsent _ (List.mem_cons_of_mem _ List.mem_cons_self) (by decide +kernel)

end Polling

end UniSet.ModbusMaster

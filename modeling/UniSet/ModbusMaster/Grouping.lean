/-
**Joining the registers of a map into requests.**

* `groupsFrom`, `groups` — the runs of registers whose `regID`s follow each other, no longer than a
  request may be.
* `rtuQueryOptimizationForRegMap` — the first register of a run asks for all of them, the others for
  none.
* `loadConfig` — the configuration, joined unless this is switched off.
* **`groups_flatMap`**, **`groups_run`** — the groups are the map, cut into runs of `regID`s.
-/

import UniSet.ModbusMaster.InitItem

namespace UniSet.ModbusMaster

/-- Registers that go into one request: the first one and those that are joined to it. -/
structure Group where
  beg : RegInfo
  members : List RegInfo
deriving DecidableEq, Repr

namespace Group

/-- The registers of a group. -/
def regs (g : Group) : List RegInfo := g.beg :: g.members

/-- The correction of the function where a request has several registers. -/
def func (g : Group) : MbFunc :=
  if g.members.isEmpty then g.beg.mbfunc
  else
    match g.beg.mbfunc with
    | .fnWriteOutputSingleRegister => .fnWriteOutputRegisters
    | .fnForceSingleCoil => .fnForceMultipleCoils
    | func => func

/-- The first register of a group, as the request needs it. -/
def head (g : Group) : RegInfo :=
  { g.beg with qCount := g.members.length + 1, qNum := 0, mbfunc := g.func }

/-- The registers of a group, numbered. -/
def joined (g : Group) : List RegInfo :=
  g.head :: g.members.mapIdx fun i r => { r with qNum := i + 1, qCount := 0 }

end Group

/-- The groups from a register on; `last` is the `regID` joined last. A register is joined before the
length is looked at, so a group of one is never full. -/
def groupsFrom (maxQueryCount : Nat) (g : Group) (last : Nat) : List RegInfo → List Group
  | [] => [g]
  | r :: rest =>
    if 1 < r.regID - last ∨ (g.members ≠ [] ∧ maxQueryCount ≤ g.members.length + 1) then
      g :: groupsFrom maxQueryCount ⟨r, []⟩ r.regID rest
    else groupsFrom maxQueryCount ⟨g.beg, g.members ++ [r]⟩ r.regID rest

/-- The groups of a map. -/
def groups (maxQueryCount : Nat) : List RegInfo → List Group
  | [] => []
  | beg :: rest => groupsFrom maxQueryCount ⟨beg, []⟩ beg.regID rest

/-- **`MBConfig::rtuQueryOptimizationForRegMap`.** -/
def rtuQueryOptimizationForRegMap (maxQueryCount : Nat) (regs : List RegInfo) : List RegInfo :=
  if regs.length ≤ 1 then regs else (groups maxQueryCount regs).flatMap Group.joined

/-- **`MBConfig::rtuQueryOptimization`**: all maps but those that are written by change. -/
def rtuQueryOptimization (maxQueryCount : Nat) (pollmaps : List PollMap) : List PollMap :=
  pollmaps.map fun m =>
    if m.pollfactor = changeOnlyWrite then m
    else { m with regs := rtuQueryOptimizationForRegMap maxQueryCount m.regs }

/-- The parameters of the configuration. -/
structure Params where
  defaultMBinitOK : Bool
  noQueryOptimization : Bool
  maxQueryCount : Nat
deriving DecidableEq, Repr

/-- **`MBConfig::loadConfig`.** -/
def loadConfig (params : Params) (items : List Item) : Option MBConf :=
  (readConfiguration params.defaultMBinitOK items).map fun conf =>
    if params.noQueryOptimization then conf
    else { conf with pollmaps := rtuQueryOptimization params.maxQueryCount conf.pollmaps }

/-! ### What the groups are -/

theorem groupsFrom_flatMap (maxQueryCount : Nat) (g : Group) (last : Nat) (rest : List RegInfo) :
    (groupsFrom maxQueryCount g last rest).flatMap Group.regs = g.regs ++ rest := by
  induction rest generalizing g last with
  | nil => rw [groupsFrom, List.flatMap_cons, List.flatMap_nil]
  | cons r rest ih =>
    rw [groupsFrom]
    split_ifs
    · rw [List.flatMap_cons, ih]
      rfl
    · rw [ih]
      simp only [Group.regs, List.cons_append, List.append_assoc, List.nil_append]

/-- **The groups are the registers of the map, in their order.** -/
theorem groups_flatMap (maxQueryCount : Nat) (regs : List RegInfo) :
    (groups maxQueryCount regs).flatMap Group.regs = regs := by
  cases regs with
  | nil => rfl
  | cons beg rest => exact groupsFrom_flatMap maxQueryCount ⟨beg, []⟩ beg.regID rest

theorem mem_of_group {maxQueryCount : Nat} {regs : List RegInfo} {g : Group}
    (listed : g ∈ groups maxQueryCount regs) {m : RegInfo} (member : m ∈ g.regs) : m ∈ regs := by
  rw [← groups_flatMap maxQueryCount regs]
  exact List.mem_flatMap.mpr ⟨g, listed, member⟩

theorem exists_group (maxQueryCount : Nat) {regs : List RegInfo} {m : RegInfo} (member : m ∈ regs) :
    ∃ g ∈ groups maxQueryCount regs, m ∈ g.regs := by
  rw [← groups_flatMap maxQueryCount regs] at member
  exact List.mem_flatMap.mp member

/-- The `regID`s of a group follow each other. -/
def Group.Run (g : Group) : Prop := ∀ x ∈ g.regs.zipIdx, x.1.regID = g.beg.regID + x.2

theorem Group.run_single (beg : RegInfo) : Group.Run ⟨beg, []⟩ := by
  intro x member
  rw [Group.regs, List.zipIdx_singleton, List.mem_singleton] at member
  rw [member]
  rfl

/-- A register that follows the last one is joined. -/
theorem Group.Run.append {g : Group} (run : g.Run) {r : RegInfo}
    (next : r.regID = g.beg.regID + g.members.length + 1) :
    Group.Run ⟨g.beg, g.members ++ [r]⟩ := by
  intro x member
  have split : (Group.regs ⟨g.beg, g.members ++ [r]⟩).zipIdx =
      g.regs.zipIdx ++ [(r, g.members.length + 1)] := by
    rw [show Group.regs ⟨g.beg, g.members ++ [r]⟩ = g.regs ++ [r] from rfl, List.zipIdx_append]
    simp only [Group.regs, List.zipIdx_singleton, List.length_cons, Nat.zero_add]
  rw [split] at member
  rcases List.mem_append.mp member with earlier | last
  · exact run x earlier
  · rw [List.mem_singleton.mp last]
    exact next

theorem groupsFrom_run {maxQueryCount : Nat} {g : Group} {last : Nat} {rest : List RegInfo}
    (run : g.Run) (ends : last = g.beg.regID + g.members.length) (above : ∀ r ∈ rest, last < r.regID)
    (sorted : rest.Pairwise fun a b => a.regID < b.regID) :
    ∀ g' ∈ groupsFrom maxQueryCount g last rest, g'.Run := by
  induction rest generalizing g last with
  | nil =>
    intro g' member
    rw [groupsFrom, List.mem_singleton] at member
    rwa [member]
  | cons r rest ih =>
    obtain ⟨below, sorted⟩ := List.pairwise_cons.mp sorted
    rw [groupsFrom]
    split_ifs with new
    · intro g' member
      rcases List.mem_cons.mp member with rfl | later
      · exact run
      · exact ih (Group.run_single r) rfl below sorted g' later
    · have next : r.regID = g.beg.regID + g.members.length + 1 := by
        have greater := above r List.mem_cons_self
        rw [not_or] at new
        omega
      refine ih (run.append next) ?_ below sorted
      simp only [List.length_append, List.length_singleton]
      exact next

/-- **Each group of a map is a run.** -/
theorem groups_run (maxQueryCount : Nat) {regs : List RegInfo}
    (sorted : regs.Pairwise fun a b => a.regID < b.regID) : ∀ g ∈ groups maxQueryCount regs, g.Run := by
  cases regs with
  | nil =>
    intro g member
    exact absurd member List.not_mem_nil
  | cons beg rest =>
    obtain ⟨below, sorted⟩ := List.pairwise_cons.mp sorted
    exact groupsFrom_run (Group.run_single beg) rfl below sorted

end UniSet.ModbusMaster

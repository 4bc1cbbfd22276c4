/-
**The groups of a map as a partition.**

* `Follows` — a register of the same function with the next number.
* `Partitioned` — a cut of the map into groups: each no longer than a request may be, each of one
  function with consecutive registers, and none that could take one more register of the next one.
* `eq_of_sizes`, `sizes_of_joined` — the joined map says how it was cut.
* `rtuQueryOptimizationForRegMap_twice` — a joined map is joined in the same way again.
* `Separated` — the maps on which the joining is such a partition: with `maxQueryCount` 1 no two
  registers have consecutive identifiers, and where two registers of different functions have, a full
  group ends between them.
* **`rtuQueryOptimizationForRegMap_iff`** — the joining is a partition exactly on these.
-/

import Mathlib.Data.List.Chain
import UniSet.ModbusMaster.RegID

namespace UniSet.ModbusMaster

/-! ### The partition -/

/-- A map whose keys are the `regID`s of its registers. -/
structure Keyed (regs : List RegInfo) : Prop where
  sorted : regs.Pairwise fun a b => a.regID < b.regID
  own : ∀ r ∈ regs, r.regID = genRegID r.mbreg r.mbfunc.code
  word : ∀ r ∈ regs, r.mbreg < 65536

/-- The next register of the same function. -/
def Follows (a b : RegInfo) : Prop := b.mbfunc.code = a.mbfunc.code ∧ b.mbreg = a.mbreg + 1

instance (a b : RegInfo) : Decidable (Follows a b) := inferInstanceAs (Decidable (_ ∧ _))

namespace Group

/-- The number of registers of a group. -/
def size (g : Group) : Nat := g.members.length + 1

/-- The last register of a group. -/
def last (g : Group) : RegInfo := g.regs.getLast (List.cons_ne_nil _ _)

theorem last_append (beg : RegInfo) (members : List RegInfo) (r : RegInfo) :
    last ⟨beg, members ++ [r]⟩ = r := by
  simp [last, regs]

end Group

/-- **The cut of a map into groups.** -/
structure Partitioned (maxQueryCount : Nat) (regs : List RegInfo) (gs : List Group) : Prop where
  cut : gs.flatMap Group.regs = regs
  size : ∀ g ∈ gs, g.size ≤ maxQueryCount
  oneFunction : ∀ g ∈ gs, g.regs.IsChain Follows
  maximal : gs.IsChain fun g g' => g.size < maxQueryCount → ¬ Follows g.last g'.beg

/-! ### The joined map says how it was cut -/

/-- A map is cut in one way into groups of given sizes. -/
theorem eq_of_sizes {gs gs' : List Group} (cut : gs.flatMap Group.regs = gs'.flatMap Group.regs)
    (sizes : gs.map Group.size = gs'.map Group.size) : gs = gs' := by
  induction gs generalizing gs' with
  | nil =>
    rw [List.map_nil, eq_comm, List.map_eq_nil_iff] at sizes
    exact sizes.symm
  | cons g gs ih =>
    obtain ⟨g', gs', rfl⟩ : ∃ g' gs'', gs' = g' :: gs'' := by
      cases gs' with
      | nil => exact absurd sizes (by simp)
      | cons g' gs' => exact ⟨g', gs', rfl⟩
    rw [List.map_cons, List.map_cons, List.cons.injEq] at sizes
    obtain ⟨first, rest⟩ := List.append_inj cut sizes.1
    obtain ⟨beg, members⟩ := g
    obtain ⟨beg', members'⟩ := g'
    obtain ⟨rfl, rfl⟩ := List.cons.inj first
    rw [ih rest sizes.2]

theorem length_joined (g : Group) : g.joined.length = g.size := by
  rw [Group.joined, List.length_cons, List.length_mapIdx]
  rfl

theorem sizes_of_joined {gs gs' : List Group}
    (joined : gs.flatMap Group.joined = gs'.flatMap Group.joined) :
    gs.map Group.size = gs'.map Group.size := by
  induction gs generalizing gs' with
  | nil =>
    cases gs' with
    | nil => rfl
    | cons g' gs' => exact absurd joined (by simp [Group.joined])
  | cons g gs ih =>
    obtain ⟨g', gs', rfl⟩ : ∃ g' gs'', gs' = g' :: gs'' := by
      cases gs' with
      | nil => exact absurd joined (by simp [Group.joined])
      | cons g' gs' => exact ⟨g', gs', rfl⟩
    have head : g.head = g'.head := (List.cons.inj joined).1
    have size : g.size = g'.size := congrArg RegInfo.qCount head
    have rest := (List.append_inj joined (by rw [length_joined, length_joined, size])).2
    rw [List.map_cons, List.map_cons, size, ih rest]

/-! ### Joining twice -/

variable {g : Group}

/-- The sizes of the groups are a matter of the `regID`s. -/
theorem groupsFrom_sizes (maxQueryCount : Nat) {g' : Group} (last : Nat) {rest rest' : List RegInfo}
    (size : g.members.length = g'.members.length)
    (same : rest.map RegInfo.regID = rest'.map RegInfo.regID) :
    (groupsFrom maxQueryCount g last rest).map Group.size =
      (groupsFrom maxQueryCount g' last rest').map Group.size := by
  induction rest generalizing g g' last rest' with
  | nil =>
    rw [List.map_nil, eq_comm, List.map_eq_nil_iff] at same
    rw [same, groupsFrom, groupsFrom]
    exact congrArg (fun n => [n + 1]) size
  | cons r rest ih =>
    obtain ⟨r', rest', rfl⟩ : ∃ r' rest'', rest' = r' :: rest'' := by
      cases rest' with
      | nil => exact absurd same (by simp)
      | cons r' rest' => exact ⟨r', rest', rfl⟩
    rw [List.map_cons, List.map_cons, List.cons.injEq] at same
    have empty : g.members ≠ [] ↔ g'.members ≠ [] := by
      rw [← List.length_pos_iff, ← List.length_pos_iff, size]
    rw [groupsFrom, groupsFrom, same.1, size]
    by_cases ends : 1 < r'.regID - last ∨ (g'.members ≠ [] ∧ maxQueryCount ≤ g'.members.length + 1)
    · have first : g.size = g'.size := congrArg (· + 1) size
      have rest : (groupsFrom maxQueryCount ⟨r, []⟩ r'.regID rest).map Group.size =
          (groupsFrom maxQueryCount ⟨r', []⟩ r'.regID rest').map Group.size := ih _ rfl same.2
      rw [if_pos ends, if_pos (ends.imp_right (And.imp_left empty.mpr)), List.map_cons, List.map_cons,
        rest, first]
    · rw [if_neg ends, if_neg fun h => ends (h.imp_right (And.imp_left empty.mp))]
      exact ih _ (by rw [List.length_append, List.length_append, size]; rfl) same.2

theorem groups_sizes (maxQueryCount : Nat) {regs regs' : List RegInfo}
    (same : regs.map RegInfo.regID = regs'.map RegInfo.regID) :
    (groups maxQueryCount regs).map Group.size = (groups maxQueryCount regs').map Group.size := by
  cases regs with
  | nil =>
    rw [List.map_nil, eq_comm, List.map_eq_nil_iff] at same
    rw [same]
  | cons r rest =>
    obtain ⟨r', rest', rfl⟩ : ∃ r' rest', regs' = r' :: rest' := by
      cases regs' with
      | nil => exact absurd same (by simp)
      | cons r' rest' => exact ⟨r', rest', rfl⟩
    rw [List.map_cons, List.map_cons, List.cons.injEq] at same
    rw [groups, groups, same.1]
    exact groupsFrom_sizes maxQueryCount _ rfl same.2

/-- The group of the joined registers. -/
def Group.rejoined (g : Group) : Group :=
  ⟨g.head, g.members.mapIdx fun i r => { r with qNum := i + 1, qCount := 0 }⟩

theorem size_rejoined (g : Group) : g.rejoined.size = g.size := by
  rw [Group.size, Group.rejoined, List.length_mapIdx]
  rfl

/-- The correction of the function is made once. -/
theorem func_rejoined (g : Group) : g.rejoined.func = g.func := by
  have empty : g.rejoined.members.isEmpty = g.members.isEmpty := by
    obtain ⟨beg, members⟩ := g
    cases members <;> simp [Group.rejoined]
  rw [Group.func, empty]
  show (if g.members.isEmpty then g.func else _) = _
  split
  · rfl
  · next several =>
    have corrected : g.rejoined.beg.mbfunc = g.func := rfl
    rw [corrected]
    unfold Group.func
    rw [if_neg several]
    cases g.beg.mbfunc <;> rfl

theorem joined_rejoined (g : Group) : g.rejoined.joined = g.joined := by
  have head : g.rejoined.head = g.head := by
    rw [Group.head, func_rejoined]
    show { g.head with qCount := g.rejoined.size, qNum := 0, mbfunc := g.func } = g.head
    rw [size_rejoined]
    rfl
  rw [Group.joined, head, Group.joined]
  congr 1
  apply List.ext_getElem
  · simp [Group.rejoined]
  · intro i lt lt'
    simp [Group.rejoined]

theorem regIDs_joined (g : Group) : g.joined.map RegInfo.regID = g.regs.map RegInfo.regID := by
  show _ :: _ = _ :: _
  congr 1
  apply List.ext_getElem
  · simp
  · intro i lt lt'
    simp

/-- **A joined map is joined in the same way again.** -/
theorem rtuQueryOptimizationForRegMap_twice (maxQueryCount : Nat) (regs : List RegInfo) :
    rtuQueryOptimizationForRegMap maxQueryCount (rtuQueryOptimizationForRegMap maxQueryCount regs) =
      rtuQueryOptimizationForRegMap maxQueryCount regs := by
  by_cases few : regs.length ≤ 1
  · have kept : rtuQueryOptimizationForRegMap maxQueryCount regs = regs := if_pos few
    rw [kept, kept]
  · have first : rtuQueryOptimizationForRegMap maxQueryCount regs =
        (groups maxQueryCount regs).flatMap Group.joined := if_neg few
    have ids : ((groups maxQueryCount regs).flatMap Group.joined).map RegInfo.regID =
        regs.map RegInfo.regID := by
      conv_rhs => rw [← groups_flatMap maxQueryCount regs]
      rw [List.map_flatMap, List.map_flatMap]
      exact List.flatMap_congr fun g _ => regIDs_joined g
    have many : ¬ ((groups maxQueryCount regs).flatMap Group.joined).length ≤ 1 := by
      have length := congrArg List.length ids
      rw [List.length_map, List.length_map] at length
      rwa [length]
    have again : groups maxQueryCount ((groups maxQueryCount regs).flatMap Group.joined) =
        (groups maxQueryCount regs).map Group.rejoined := by
      apply eq_of_sizes
      · rw [groups_flatMap, List.flatMap_map]
        rfl
      · rw [groups_sizes maxQueryCount ids, List.map_map]
        exact List.map_congr_left fun g _ => (size_rejoined g).symm
    rw [first, rtuQueryOptimizationForRegMap, if_neg many, again, List.flatMap_map]
    exact List.flatMap_congr fun g _ => joined_rejoined g

/-! ### The maps that are partitioned -/

/-- What follows the register `prev`, the one with the index `i` in its chain of consecutive `regID`s:
where the chain goes on, `maxQueryCount` is not 1 and the function stays or a full group ends. -/
def Separated (maxQueryCount : Nat) (i : Nat) (prev : RegInfo) : List RegInfo → Prop
  | [] => True
  | r :: rest =>
    if r.regID = prev.regID + 1 then
      2 ≤ maxQueryCount ∧ (r.mbfunc.code = prev.mbfunc.code ∨ (i + 1) % maxQueryCount = 0) ∧
        Separated maxQueryCount (i + 1) r rest
    else Separated maxQueryCount 0 r rest

/-- `Separated`, of a map. -/
def SeparatedMap (maxQueryCount : Nat) : List RegInfo → Prop
  | [] => True
  | beg :: rest => Separated maxQueryCount 0 beg rest

/-- The conditions on one group. -/
def Group.Proper (maxQueryCount : Nat) (g : Group) : Prop :=
  g.size ≤ maxQueryCount ∧ g.regs.IsChain Follows

/-- The first group goes on with the registers it has. -/
theorem groupsFrom_head (maxQueryCount : Nat) (g : Group) (last : Nat) (rest : List RegInfo) :
    ∃ more tail, groupsFrom maxQueryCount g last rest = ⟨g.beg, g.members ++ more⟩ :: tail := by
  induction rest generalizing g last with
  | nil => exact ⟨[], [], by rw [groupsFrom, List.append_nil]⟩
  | cons r rest ih =>
    rw [groupsFrom]
    split_ifs
    · exact ⟨[], _, by rw [List.append_nil]⟩
    · obtain ⟨more, tail, first⟩ := ih ⟨g.beg, g.members ++ [r]⟩ r.regID
      exact ⟨r :: more, tail, by rw [first, List.append_assoc]; rfl⟩

/-- A group that is not proper does not become so. -/
theorem not_proper_groupsFrom {maxQueryCount : Nat} (bad : ¬ g.Proper maxQueryCount) (last : Nat)
    (rest : List RegInfo) :
    ¬ ∀ g' ∈ groupsFrom maxQueryCount g last rest, g'.Proper maxQueryCount := by
  intro proper
  obtain ⟨more, tail, first⟩ := groupsFrom_head maxQueryCount g last rest
  obtain ⟨size, chain⟩ := proper ⟨g.beg, g.members ++ more⟩ (first ▸ List.mem_cons_self)
  apply bad
  constructor
  · have grows : g.size ≤ Group.size ⟨g.beg, g.members ++ more⟩ := by
      simp only [Group.size, List.length_append]
      omega
    exact grows.trans size
  · have joined : (g.regs ++ more).IsChain Follows := chain
    exact joined.left_of_append

theorem Group.chain_append (chain : g.regs.IsChain Follows) {r : RegInfo}
    (next : Follows g.last r) : (Group.regs ⟨g.beg, g.members ++ [r]⟩).IsChain Follows := by
  have split : Group.regs ⟨g.beg, g.members ++ [r]⟩ = g.regs ++ [r] := rfl
  rw [split, List.isChain_append]
  refine ⟨chain, List.isChain_singleton r, ?_⟩
  intro a last b first
  rw [List.head?_cons, Option.mem_some_iff] at first
  have found : g.regs.getLast? = some g.last :=
    List.getLast?_eq_getLast_of_ne_nil (List.cons_ne_nil _ _)
  have lastReg : g.last = a := Option.some_inj.mp (found.symm.trans last)
  rw [← first, ← lastReg]
  exact next

/-- A joined register of a proper group follows the last one. -/
theorem Group.follows_of_chain {r : RegInfo}
    (chain : (Group.regs ⟨g.beg, g.members ++ [r]⟩).IsChain Follows) : Follows g.last r := by
  have split : Group.regs ⟨g.beg, g.members ++ [r]⟩ = g.regs ++ [r] := rfl
  rw [split, List.isChain_append] at chain
  exact chain.2.2 g.last (List.getLast?_eq_getLast_of_ne_nil (List.cons_ne_nil _ _)) r rfl

section Keyed

variable {maxQueryCount : Nat} {a b : RegInfo}

/-- Registers of one function follow each other as their `regID`s do. -/
theorem follows_iff (ownA : a.regID = genRegID a.mbreg a.mbfunc.code)
    (ownB : b.regID = genRegID b.mbreg b.mbfunc.code) (same : b.mbfunc.code = a.mbfunc.code) :
    Follows a b ↔ b.regID = a.regID + 1 := by
  rw [Follows, ownA, ownB, genRegID, genRegID, same]
  constructor
  · rintro ⟨-, next⟩
    omega
  · intro next
    exact ⟨rfl, by omega⟩

variable {i : Nat}

theorem succ_mod_of_room {n : Nat} (room : i % n + 1 < n) : (i + 1) % n = i % n + 1 := by
  rw [Nat.add_mod, Nat.mod_eq_of_lt (show 1 < n by omega), Nat.mod_eq_of_lt room]

theorem succ_mod_of_full {n : Nat} (two : 2 ≤ n) (full : n = i % n + 1) : (i + 1) % n = 0 := by
  rw [Nat.add_mod, Nat.mod_eq_of_lt (show 1 < n by omega), ← full, Nat.mod_self]

/-- The index in the chain says when a group is full. -/
theorem full_iff {n : Nat} (two : 2 ≤ n) : (i + 1) % n = 0 ↔ n ≤ i % n + 1 := by
  have small := Nat.mod_lt i (show 0 < n by omega)
  rcases Nat.lt_or_ge (i % n + 1) n with room | long
  · rw [succ_mod_of_room room]
    omega
  · exact iff_of_true (succ_mod_of_full two (by omega)) long

/-- A group is left behind at the next `regID` exactly where its index in the chain ends it. -/
theorem leaves_iff (two : 2 ≤ maxQueryCount) {r : RegInfo}
    (place : g.members.length = i % maxQueryCount) (next : r.regID = g.last.regID + 1) :
    (1 < r.regID - g.last.regID ∨ (g.members ≠ [] ∧ maxQueryCount ≤ g.members.length + 1)) ↔
      (i + 1) % maxQueryCount = 0 := by
  rw [full_iff two, ← place]
  constructor
  · rintro (far | full)
    · omega
    · exact full.2
  · intro full
    refine Or.inr ⟨fun alone => ?_, full⟩
    rw [alone, List.length_nil] at full
    omega

/-- A group that does not end takes the register that follows. -/
theorem Group.Proper.join (proper : g.Proper maxQueryCount) (two : 2 ≤ maxQueryCount)
    (place : g.members.length = i % maxQueryCount) (open' : (i + 1) % maxQueryCount ≠ 0)
    {r : RegInfo} (follows : Follows g.last r) :
    Group.Proper maxQueryCount ⟨g.beg, g.members ++ [r]⟩ ∧
      (g.members ++ [r]).length = (i + 1) % maxQueryCount := by
  have room : i % maxQueryCount + 1 < maxQueryCount := Nat.not_le.mp (mt (full_iff two).mpr open')
  have index : (g.members ++ [r]).length = (i + 1) % maxQueryCount := by
    rw [succ_mod_of_room room, List.length_append, place]
    rfl
  refine ⟨⟨?_, Group.chain_append proper.2 follows⟩, index⟩
  rw [Group.size, index, succ_mod_of_room room]
  exact room

/-- **The groups are proper exactly on the maps that are separated.** `g` is the group that is being
joined; its last register has the index `i` in its chain. -/
theorem groupsFrom_proper_iff (some : 1 ≤ maxQueryCount) {rest : List RegInfo}
    (proper : g.Proper maxQueryCount) (place : g.members.length = i % maxQueryCount)
    (ownLast : g.last.regID = genRegID g.last.mbreg g.last.mbfunc.code)
    (own : ∀ r ∈ rest, r.regID = genRegID r.mbreg r.mbfunc.code)
    (above : ∀ r ∈ rest, g.last.regID < r.regID)
    (sorted : rest.Pairwise fun a b => a.regID < b.regID) :
    (∀ g' ∈ groupsFrom maxQueryCount g g.last.regID rest, g'.Proper maxQueryCount) ↔
      Separated maxQueryCount i g.last rest := by
  induction rest generalizing g i with
  | nil =>
    rw [groupsFrom, Separated, iff_true]
    intro g' member
    rwa [List.mem_singleton.mp member]
  | cons r rest ih =>
    obtain ⟨below, sorted⟩ := List.pairwise_cons.mp sorted
    have greater := above r List.mem_cons_self
    have ownR := own r List.mem_cons_self
    have ownRest : ∀ r ∈ rest, r.regID = genRegID r.mbreg r.mbfunc.code :=
      fun r member => own r (List.mem_cons_of_mem _ member)
    have single : Group.Proper maxQueryCount ⟨r, []⟩ := ⟨some, List.isChain_singleton r⟩
    -- a new group begins with `r`
    have fresh : ∀ j, 0 = j % maxQueryCount →
        ((∀ g' ∈ g :: groupsFrom maxQueryCount ⟨r, []⟩ r.regID rest, g'.Proper maxQueryCount) ↔
          Separated maxQueryCount j r rest) := by
      intro j here
      rw [List.forall_mem_cons, and_iff_right proper]
      exact ih (g := ⟨r, []⟩) single here ownR ownRest below sorted
    rw [groupsFrom, Separated]
    by_cases next : r.regID = g.last.regID + 1
    · rw [if_pos next]
      by_cases one : maxQueryCount = 1
      · -- a group of one is not full before it has two
        subst one
        have alone : g.members = [] := List.length_eq_zero_iff.mp (place.trans (Nat.mod_one i))
        have joins : ¬ (1 < r.regID - g.last.regID ∨ (g.members ≠ [] ∧ 1 ≤ g.members.length + 1)) := by
          rintro (far | full)
          · omega
          · exact full.1 alone
        rw [if_neg joins]
        refine iff_of_false (not_proper_groupsFrom ?_ _ _) fun apart => absurd apart.1 (by decide)
        rintro ⟨size, -⟩
        simp [Group.size] at size
      · have two : 2 ≤ maxQueryCount := by omega
        by_cases ends : (i + 1) % maxQueryCount = 0
        · rw [if_pos ((leaves_iff two place next).mpr ends), fresh (i + 1) ends.symm]
          exact ⟨fun rest => ⟨two, Or.inr ends, rest⟩, fun apart => apart.2.2⟩
        · rw [if_neg (mt (leaves_iff two place next).mp ends)]
          by_cases same : r.mbfunc.code = g.last.mbfunc.code
          · have follows : Follows g.last r := (follows_iff ownLast ownR same).mpr next
            have lastReg : Group.last ⟨g.beg, g.members ++ [r]⟩ = r := Group.last_append _ _ _
            obtain ⟨grown, index⟩ := proper.join two place ends follows
            have step := ih (g := ⟨g.beg, g.members ++ [r]⟩) (i := i + 1) grown index
              (by rw [lastReg]; exact ownR) ownRest (by rw [lastReg]; exact below) sorted
            rw [lastReg] at step
            rw [step]
            exact ⟨fun rest => ⟨two, Or.inl same, rest⟩, fun apart => apart.2.2⟩
          · refine iff_of_false (not_proper_groupsFrom ?_ _ _) fun apart => ?_
            · rintro ⟨-, chain⟩
              exact same (Group.follows_of_chain chain).1
            · exact apart.2.1.elim same ends
    · rw [if_neg next, if_pos (Or.inl (by omega))]
      exact fresh 0 (Nat.zero_mod _).symm

/-- **A group ends where it is full or where the chain of `regID`s ends.** -/
theorem groupsFrom_maximal {rest : List RegInfo}
    (ownLast : g.last.regID = genRegID g.last.mbreg g.last.mbfunc.code)
    (own : ∀ r ∈ rest, r.regID = genRegID r.mbreg r.mbfunc.code) :
    (groupsFrom maxQueryCount g g.last.regID rest).IsChain
      fun g g' => g.size < maxQueryCount → ¬ Follows g.last g'.beg := by
  induction rest generalizing g with
  | nil => exact List.isChain_singleton g
  | cons r rest ih =>
    have ownR := own r List.mem_cons_self
    have ownRest : ∀ r ∈ rest, r.regID = genRegID r.mbreg r.mbfunc.code :=
      fun r member => own r (List.mem_cons_of_mem _ member)
    rw [groupsFrom]
    split_ifs with ends
    · have later := ih (g := ⟨r, []⟩) ownR ownRest
      obtain ⟨more, tail, first⟩ := groupsFrom_head maxQueryCount ⟨r, []⟩ r.regID rest
      have begun : (groupsFrom maxQueryCount ⟨r, []⟩ r.regID rest).IsChain
          fun g g' => g.size < maxQueryCount → ¬ Follows g.last g'.beg := later
      rw [first] at begun ⊢
      refine List.isChain_cons_cons.mpr ⟨fun room follows => ?_, begun⟩
      rcases ends with far | full
      · have next := (follows_iff ownLast ownR follows.1).mp follows
        omega
      · exact absurd full.2 (Nat.not_le.mpr room)
    · have lastReg : Group.last ⟨g.beg, g.members ++ [r]⟩ = r := Group.last_append _ _ _
      have later := ih (g := ⟨g.beg, g.members ++ [r]⟩) (by rw [lastReg]; exact ownR) ownRest
      rwa [lastReg] at later

end Keyed

/-! ### The joining -/

/-- **What the joining of a map should be**: a partition into groups, numbered in the registers, that
stays as it is when the map is joined again. -/
def Partitions (maxQueryCount : Nat) (regs : List RegInfo) : Prop :=
  (∃ gs, Partitioned maxQueryCount regs gs ∧
      rtuQueryOptimizationForRegMap maxQueryCount regs = gs.flatMap Group.joined) ∧
    rtuQueryOptimizationForRegMap maxQueryCount (rtuQueryOptimizationForRegMap maxQueryCount regs) =
      rtuQueryOptimizationForRegMap maxQueryCount regs

/-- The joining is a partition if its own groups are proper, and only then. -/
theorem partitions_iff_proper {maxQueryCount : Nat} {regs : List RegInfo} (keyed : Keyed regs)
    (several : 2 ≤ regs.length) :
    Partitions maxQueryCount regs ↔ ∀ g ∈ groups maxQueryCount regs, g.Proper maxQueryCount := by
  have joined : rtuQueryOptimizationForRegMap maxQueryCount regs =
      (groups maxQueryCount regs).flatMap Group.joined := if_neg (by omega)
  constructor
  · rintro ⟨⟨gs, parts, same⟩, -⟩ g member
    have own : gs = groups maxQueryCount regs := by
      apply eq_of_sizes
      · rw [parts.cut, groups_flatMap]
      · exact sizes_of_joined (same.symm.trans joined)
    subst own
    exact ⟨parts.size g member, parts.oneFunction g member⟩
  · intro proper
    refine ⟨⟨groups maxQueryCount regs, ⟨groups_flatMap maxQueryCount regs, fun g member =>
      (proper g member).1, fun g member => (proper g member).2, ?_⟩, joined⟩,
      rtuQueryOptimizationForRegMap_twice maxQueryCount regs⟩
    cases regs with
    | nil => exact List.isChain_nil
    | cons beg rest =>
      exact groupsFrom_maximal (g := ⟨beg, []⟩) (keyed.own beg List.mem_cons_self)
        fun r member => keyed.own r (List.mem_cons_of_mem _ member)

/-- **The joining of a map is a partition into groups exactly if the map is separated**: with
`maxQueryCount` 1 it has no two registers with consecutive identifiers, and otherwise a full group
ends wherever such registers have different functions. -/
theorem rtuQueryOptimizationForRegMap_iff {maxQueryCount : Nat} (some : 1 ≤ maxQueryCount)
    {regs : List RegInfo} (keyed : Keyed regs) (several : 2 ≤ regs.length) :
    Partitions maxQueryCount regs ↔ SeparatedMap maxQueryCount regs := by
  rw [partitions_iff_proper keyed several]
  cases regs with
  | nil => exact absurd several (by decide)
  | cons beg rest =>
    obtain ⟨below, sorted⟩ := List.pairwise_cons.mp keyed.sorted
    exact groupsFrom_proper_iff (g := ⟨beg, []⟩) some ⟨some, List.isChain_singleton beg⟩
      (Nat.zero_mod _).symm (keyed.own beg List.mem_cons_self)
      (fun r member => keyed.own r (List.mem_cons_of_mem _ member)) below sorted

/-- A register of a function without sensors. -/
def bareReg (mbreg : Nat) (mbfunc : MbFunc) : RegInfo where
  mbreg := mbreg
  mbfunc := mbfunc
  regID := genRegID mbreg mbfunc.code
  mtrSize := 1
  mbval := 0
  mbInitOK := false
  smInitOK := false
  qNum := 0
  qCount := 1
  slst := []

theorem rtuQueryOptimizationForRegMap_separated :
    Partitions 2 [bareReg 65533 .fnReadOutputRegisters, bareReg 65534 .fnReadOutputRegisters,
      bareReg 0 .fnReadInputRegisters] :=
  (rtuQueryOptimizationForRegMap_iff (by decide) ⟨by decide, by decide, by decide⟩ (by decide)).mpr
    ⟨by decide, Or.inl rfl, by decide, Or.inr rfl, trivial⟩

/-- **Two neighbours in requests of one register, and the last but one register of a function before
the first of the next.** -/
theorem rtuQueryOptimizationForRegMap_fails :
    (∃ regs, Keyed regs ∧ 2 ≤ regs.length ∧ ¬ Partitions 1 regs) ∧
      ∃ regs, Keyed regs ∧ 2 ≤ regs.length ∧ ¬ Partitions 125 regs := by
  have neighbours : Keyed [bareReg 0 .fnReadOutputRegisters, bareReg 1 .fnReadOutputRegisters] :=
    ⟨by decide, by decide, by decide⟩
  have border : Keyed [bareReg 65534 .fnReadOutputRegisters, bareReg 0 .fnReadInputRegisters] :=
    ⟨by decide, by decide, by decide⟩
  refine ⟨⟨_, neighbours, by decide, ?_⟩, ⟨_, border, by decide, ?_⟩⟩
  · rw [partitions_iff_proper neighbours (by decide)]
    intro proper
    have size := (proper ⟨bareReg 0 .fnReadOutputRegisters, [bareReg 1 .fnReadOutputRegisters]⟩
      (by decide)).1
    exact absurd size (by decide)
  · rw [partitions_iff_proper border (by decide)]
    intro proper
    have chain := (proper ⟨bareReg 65534 .fnReadOutputRegisters, [bareReg 0 .fnReadInputRegisters]⟩
      (by decide)).2
    exact absurd (Group.follows_of_chain (g := ⟨bareReg 65534 .fnReadOutputRegisters, []⟩) chain)
      (by decide)

end UniSet.ModbusMaster

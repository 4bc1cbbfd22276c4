/-
**What an item of the configuration does to the registers of its device.**

* `Listed` — a register of a map, known by its function and its number, with its sensors.
* `OwnID` — the identifier of a register finds no other one in the map.
* `addReg_spec`, `addTail_spec`, `attach_spec` — the registers after each operation.
* `Of` — the maps of one device, one for every poll factor.
* **`initItem_spec`** — after an item its register has its sensor, the further words of its value are
  registers without sensors, and all other registers are as before.
-/

import UniSet.ModbusMaster.Partition
import UniSet.ModbusMaster.RegMap

namespace UniSet.ModbusMaster.Registers

/-! ### The registers of a map -/

/-- **A register of the map with these sensors.** -/
def Listed (regs : List RegInfo) (func : MbFunc) (reg : Nat) (slst : List RSProperty) : Prop :=
  ∃ r ∈ regs, r.mbfunc = func ∧ r.mbreg = reg ∧ r.slst = slst

/-- **The identifier of the register is that of no other one in the map.** -/
def OwnID (regs : List RegInfo) (func : MbFunc) (reg : Nat) : Prop :=
  ∀ r ∈ regs, r.regID = genRegID reg func.code → r.mbfunc = func ∧ r.mbreg = reg

instance (regs : List RegInfo) (func : MbFunc) (reg : Nat) : Decidable (OwnID regs func reg) :=
  inferInstanceAs (Decidable (∀ r ∈ regs, _ → _ ∧ _))

section Map

variable {regs : List RegInfo} {func f : MbFunc} {reg g : Nat} {s s' : List RSProperty}

theorem eq_of_regID (keyed : Keyed regs) {a b : RegInfo} (ha : a ∈ regs) (hb : b ∈ regs)
    (same : a.regID = b.regID) : a = b := by
  by_contra other
  rcases List.pairwise_iff_getElem.mp keyed.sorted with sorted
  obtain ⟨i, hi, rfl⟩ := List.getElem_of_mem ha
  obtain ⟨j, hj, rfl⟩ := List.getElem_of_mem hb
  rcases Nat.lt_trichotomy i j with lt | rfl | lt
  · exact absurd same (Nat.ne_of_lt (sorted i j hi hj lt))
  · exact other rfl
  · exact absurd same.symm (Nat.ne_of_lt (sorted j i hj hi lt))

theorem Listed.unique (keyed : Keyed regs) (first : Listed regs f g s) (second : Listed regs f g s') :
    s = s' := by
  obtain ⟨a, ha, rfl, rfl, rfl⟩ := first
  obtain ⟨b, hb, func, reg, rfl⟩ := second
  have same : a.regID = b.regID := by rw [keyed.own a ha, keyed.own b hb, func, reg]
  rw [eq_of_regID keyed ha hb same]

variable {h : RegInfo → RegInfo}

/-- Changes of the flags and counts of registers. -/
theorem listed_map
    (same : ∀ r ∈ regs, (h r).mbfunc = r.mbfunc ∧ (h r).mbreg = r.mbreg ∧ (h r).slst = r.slst) :
    Listed (regs.map h) f g s ↔ Listed regs f g s := by
  constructor
  · rintro ⟨r', member', rfl, rfl, rfl⟩
    obtain ⟨r, member, rfl⟩ := List.mem_map.mp member'
    obtain ⟨func, reg, slst⟩ := same r member
    exact ⟨r, member, func.symm, reg.symm, slst.symm⟩
  · rintro ⟨r, member, rfl, rfl, rfl⟩
    exact ⟨h r, List.mem_map_of_mem member, same r member⟩

theorem keyed_map (keyed : Keyed regs)
    (same : ∀ r ∈ regs, (h r).regID = r.regID ∧ (h r).mbfunc = r.mbfunc ∧ (h r).mbreg = r.mbreg) :
    Keyed (regs.map h) := by
  refine ⟨?_, ?_, ?_⟩
  · refine List.pairwise_map.mpr (keyed.sorted.imp_of_mem fun {a b} ha hb lt => ?_)
    rw [(same a ha).1, (same b hb).1]
    exact lt
  all_goals
    intro r' member'
    obtain ⟨r, member, rfl⟩ := List.mem_map.mp member'
    obtain ⟨regID, func, reg⟩ := same r member
  · rw [regID, func, reg]
    exact keyed.own r member
  · rw [reg]
    exact keyed.word r member

theorem OwnID.map (own : OwnID regs func reg)
    (same : ∀ r ∈ regs, (h r).regID = r.regID ∧ (h r).mbfunc = r.mbfunc ∧ (h r).mbreg = r.mbreg) :
    OwnID (regs.map h) func reg := by
  intro r' member' found
  obtain ⟨r, member, rfl⟩ := List.mem_map.mp member'
  obtain ⟨regID, func, reg⟩ := same r member
  rw [regID] at found
  rw [func, reg]
  exact own r member found

end Map

variable {s : List RSProperty} {f : MbFunc} {g : Nat} {tails : List RegInfo}

/-! ### A register is added -/

section Add

variable {item : Item} {regs : List RegInfo} {reg : Nat}

/-- **A register is added, or it is there.** -/
theorem addReg_spec (keyed : Keyed regs) (own : OwnID regs item.mbfunc reg) :
    Listed (addReg item (genRegID reg item.mbfunc.code) reg regs) f g s ↔
      Listed regs f g s ∨ f = item.mbfunc ∧ g = reg ∧ s = [] ∧ ∀ s', ¬ Listed regs item.mbfunc reg s' := by
  rw [addReg]
  split_ifs with there
  · obtain ⟨r, member, found⟩ := List.any_eq_true.mp there
    obtain ⟨func, number⟩ := own r member (of_decide_eq_true found)
    exact (or_iff_left fun new => new.2.2.2 r.slst ⟨r, member, func, number, rfl⟩).symm
  · have none : ∀ s', ¬ Listed regs item.mbfunc reg s' := by
      rintro s' ⟨r, member, func, number, -⟩
      refine there (List.any_eq_true.mpr ⟨r, member, decide_eq_true ?_⟩)
      rw [keyed.own r member, func, number]
    constructor
    · rintro ⟨r, member, rfl, rfl, rfl⟩
      rcases mem_insertReg.mp member with rfl | old
      · exact Or.inr ⟨rfl, rfl, rfl, none⟩
      · exact Or.inl ⟨r, old, rfl, rfl, rfl⟩
    · rintro (⟨r, member, here⟩ | ⟨rfl, rfl, rfl, -⟩)
      · exact ⟨r, mem_insertReg.mpr (Or.inr member), here⟩
      · exact ⟨_, mem_insertReg.mpr (Or.inl rfl), rfl, rfl, rfl⟩

theorem keyed_addReg (keyed : Keyed regs) (word : reg < 65536) :
    Keyed (addReg item (genRegID reg item.mbfunc.code) reg regs) := by
  refine ⟨addReg_sorted keyed.sorted, ?_, ?_⟩
  all_goals
    intro r member
    rcases mem_addReg member with old | rfl
  · exact keyed.own r old
  · rfl
  · exact keyed.word r old
  · exact word

/-- Registers of one function have different identifiers. -/
theorem OwnID.addReg {func : MbFunc} {other : Nat} (own : OwnID regs func other)
    (same : item.mbfunc = func) :
    OwnID (addReg item (genRegID reg item.mbfunc.code) reg regs) func other := by
  intro r member found
  rcases mem_addReg member with old | rfl
  · exact own r old found
  · refine ⟨same, ?_⟩
    have numbers : genRegID reg item.mbfunc.code = genRegID other func.code := found
    rw [same, genRegID, genRegID] at numbers
    show reg = other
    omega

end Add

/-! ### The further words of a value -/

/-- A word of the value of an item. -/
def wordOf (item : Item) (i : Nat) : Nat := (item.mbreg + i) % 65536

section Tails

variable {item : Item} {defaultMBinitOK : Bool} {regs : List RegInfo}

/-- The flags of a further word do not change what its register is known by. -/
theorem addTail_same {i : Nat} (own : OwnID regs item.mbfunc (wordOf item i)) :
    ∃ h : RegInfo → RegInfo,
      addTail defaultMBinitOK item item.mbfunc regs i =
        (addReg item (genRegID (wordOf item i) item.mbfunc.code) (wordOf item i) regs).map h ∧
      ∀ r ∈ addReg item (genRegID (wordOf item i) item.mbfunc.code) (wordOf item i) regs,
        (h r).regID = r.regID ∧ (h r).mbfunc = r.mbfunc ∧ (h r).mbreg = r.mbreg ∧ (h r).slst = r.slst := by
  refine ⟨_, rfl, fun r member => ?_⟩
  split_ifs with found
  · exact ⟨rfl, ((own.addReg rfl) r member found).1.symm, rfl, rfl⟩
  · exact ⟨rfl, rfl, rfl, rfl⟩

/-- **A further word is a register without sensors, or it is there.** -/
theorem addTail_spec (keyed : Keyed regs) {i : Nat} (own : OwnID regs item.mbfunc (wordOf item i))
    {f : MbFunc} {g : Nat} {s : List RSProperty} :
    Listed (addTail defaultMBinitOK item item.mbfunc regs i) f g s ↔
      Listed regs f g s ∨
        f = item.mbfunc ∧ g = wordOf item i ∧ s = [] ∧ ∀ s', ¬ Listed regs item.mbfunc (wordOf item i) s' := by
  obtain ⟨h, eq, same⟩ := @addTail_same item defaultMBinitOK regs i own
  rw [eq, listed_map fun r member => (same r member).2, addReg_spec keyed own]

theorem keyed_addTail (keyed : Keyed regs) {i : Nat} (own : OwnID regs item.mbfunc (wordOf item i)) :
    Keyed (addTail defaultMBinitOK item item.mbfunc regs i) := by
  obtain ⟨h, eq, same⟩ := @addTail_same item defaultMBinitOK regs i own
  rw [eq]
  exact keyed_map (keyed_addReg keyed (Nat.mod_lt _ (by decide))) fun r member =>
    ⟨(same r member).1, (same r member).2.1, (same r member).2.2.1⟩

theorem OwnID.addTail {i j : Nat} (own : OwnID regs item.mbfunc (wordOf item i))
    (other : OwnID regs item.mbfunc (wordOf item j)) :
    OwnID (addTail defaultMBinitOK item item.mbfunc regs i) item.mbfunc (wordOf item j) := by
  obtain ⟨h, eq, same⟩ := @addTail_same item defaultMBinitOK regs i own
  rw [eq]
  exact (other.addReg rfl).map fun r member =>
    ⟨(same r member).1, (same r member).2.1, (same r member).2.2.1⟩

/-- **All further words.** -/
theorem foldl_addTail_spec {is : List Nat} (keyed : Keyed regs)
    (own : ∀ i ∈ is, OwnID regs item.mbfunc (wordOf item i)) :
    Keyed (is.foldl (addTail defaultMBinitOK item item.mbfunc) regs) ∧
      ∀ f g s, Listed (is.foldl (addTail defaultMBinitOK item item.mbfunc) regs) f g s ↔
        Listed regs f g s ∨
          f = item.mbfunc ∧ (∃ i ∈ is, g = wordOf item i) ∧ s = [] ∧ ∀ s', ¬ Listed regs f g s' := by
  induction is generalizing regs with
  | nil =>
    refine ⟨keyed, fun f g s => (or_iff_left ?_).symm⟩
    rintro ⟨-, ⟨i, none, -⟩, -⟩
    exact List.not_mem_nil none
  | cons i is ih =>
    have first := own i List.mem_cons_self
    have spec := fun f g s => @addTail_spec item defaultMBinitOK regs keyed i first f g s
    obtain ⟨keyed', later⟩ := @ih (addTail defaultMBinitOK item item.mbfunc regs i)
      (keyed_addTail keyed first) (fun j member => first.addTail (own j (List.mem_cons_of_mem _ member)))
    refine ⟨keyed', fun f g s => ?_⟩
    rw [List.foldl_cons, later, spec]
    constructor
    · rintro ((old | ⟨rfl, rfl, rfl, none⟩) | ⟨rfl, ⟨j, member, rfl⟩, rfl, none⟩)
      · exact Or.inl old
      · exact Or.inr ⟨rfl, ⟨i, List.mem_cons_self, rfl⟩, rfl, none⟩
      · refine Or.inr ⟨rfl, ⟨j, List.mem_cons_of_mem _ member, rfl⟩, rfl, fun s' there => none s' ?_⟩
        exact (spec _ _ _).mpr (Or.inl there)
    · rintro (old | ⟨rfl, ⟨j, member, rfl⟩, rfl, none⟩)
      · exact Or.inl (Or.inl old)
      · by_cases same : wordOf item j = wordOf item i
        · rw [same] at none ⊢
          exact Or.inl (Or.inr ⟨rfl, rfl, rfl, none⟩)
        · rcases List.mem_cons.mp member with rfl | member
          · exact absurd rfl same
          · refine Or.inr ⟨rfl, ⟨j, member, rfl⟩, rfl, fun s' there => ?_⟩
            rcases (spec _ _ _).mp there with old | ⟨-, here, -⟩
            · exact none s' old
            · exact same here

end Tails

/-! ### A sensor is attached -/

section Attach

variable {item : Item} {regs : List RegInfo} {ri : RegInfo}

theorem modifyReg_spec (keyed : Keyed regs) (member : ri ∈ regs) {new : RegInfo}
    (func : new.mbfunc = ri.mbfunc) (reg : new.mbreg = ri.mbreg) :
    Listed (modifyReg ri.regID (fun _ => new) regs) f g s ↔
      f = ri.mbfunc ∧ g = ri.mbreg ∧ s = new.slst ∨ ¬ (f = ri.mbfunc ∧ g = ri.mbreg) ∧ Listed regs f g s := by
  constructor
  · rintro ⟨r', member', rfl, rfl, rfl⟩
    obtain ⟨r, there, rfl⟩ := mem_modifyReg.mp member'
    split_ifs with here
    · exact Or.inl ⟨func, reg, rfl⟩
    · refine Or.inr ⟨fun known => here ?_, r, there, rfl, rfl, rfl⟩
      rw [keyed.own r there, keyed.own ri member, known.1, known.2]
  · rintro (⟨rfl, rfl, rfl⟩ | ⟨other, r, there, rfl, rfl, rfl⟩)
    · exact ⟨new, mem_modifyReg.mpr ⟨ri, member, if_pos rfl⟩, func, reg, rfl⟩
    · refine ⟨r, mem_modifyReg.mpr ⟨r, there, if_neg fun same => other ?_⟩, rfl, rfl, rfl⟩
      rw [eq_of_regID keyed there member same]
      exact ⟨rfl, rfl⟩

theorem modifyReg_same (keyed : Keyed regs) (member : ri ∈ regs) {new : RegInfo}
    (regID : new.regID = ri.regID) (func : new.mbfunc = ri.mbfunc) (reg : new.mbreg = ri.mbreg) :
    ∀ r ∈ regs, (if r.regID = ri.regID then new else r).regID = r.regID ∧
      (if r.regID = ri.regID then new else r).mbfunc = r.mbfunc ∧
      (if r.regID = ri.regID then new else r).mbreg = r.mbreg := by
  intro r there
  split_ifs with same
  · rw [eq_of_regID keyed there member same]
    exact ⟨regID, func, reg⟩
  · exact ⟨rfl, rfl, rfl⟩

/-- The sensor of an item as it is in its register afterwards, and all sensors of the register. -/
def attachedSensor (item : Item) (ri : RegInfo) : RSProperty := (addProp ri.slst (item.property ri.mtrSize)).2.1

def sensorsOf (item : Item) (ri : RegInfo) : List RSProperty := (addProp ri.slst (item.property ri.mtrSize)).1

/-- **The registers after a sensor was attached.** -/
structure Attached (item : Item) (ri : RegInfo) (regs tails : List RegInfo) : Prop where
  keyed : Keyed tails
  accepted : ri.refuses (item.property ri.mtrSize) = false
  single : 1 < (attachedSensor item ri).rnum → item.mbfunc.isWriteFunction = true →
    item.mbfunc = .fnWriteOutputRegisters
  listed : ∀ f g s, Listed tails f g s ↔
    f = item.mbfunc ∧ g = item.mbreg ∧ s = sensorsOf item ri ∨
      ¬ (f = item.mbfunc ∧ g = item.mbreg) ∧ Listed regs f g s ∨
      f = item.mbfunc ∧ (∃ i, 0 < i ∧ i < (attachedSensor item ri).rnum ∧ g = wordOf item i) ∧ s = [] ∧
        ∀ s', ¬ Listed regs f g s'

theorem mem_tail_range {n i : Nat} : i ∈ (List.range n).tail ↔ 0 < i ∧ i < n := by
  rw [List.range_eq_range', List.tail_range', List.mem_range'_1]
  omega

/-- The register of the item with its sensors, and the further words behind it. -/
theorem attached_foldl {defaultMBinitOK : Bool} {new : RegInfo} (keyed : Keyed regs) (member : ri ∈ regs)
    (func : ri.mbfunc = item.mbfunc) (reg : ri.mbreg = item.mbreg)
    (own : ∀ i < (attachedSensor item ri).rnum, OwnID regs item.mbfunc (wordOf item i))
    (regID' : new.regID = ri.regID) (func' : new.mbfunc = ri.mbfunc) (reg' : new.mbreg = ri.mbreg)
    (slst : new.slst = sensorsOf item ri) :
    Keyed ((List.range (attachedSensor item ri).rnum).tail.foldl (addTail defaultMBinitOK item item.mbfunc)
        (modifyReg ri.regID (fun _ => new) regs)) ∧
      ∀ f g s, Listed ((List.range (attachedSensor item ri).rnum).tail.foldl
          (addTail defaultMBinitOK item item.mbfunc) (modifyReg ri.regID (fun _ => new) regs)) f g s ↔
        f = item.mbfunc ∧ g = item.mbreg ∧ s = sensorsOf item ri ∨
          ¬ (f = item.mbfunc ∧ g = item.mbreg) ∧ Listed regs f g s ∨
          f = item.mbfunc ∧ (∃ i, 0 < i ∧ i < (attachedSensor item ri).rnum ∧ g = wordOf item i) ∧ s = [] ∧
            ∀ s', ¬ Listed regs f g s' := by
  have same := modifyReg_same keyed member regID' func' reg'
  have replaced : ∀ f g s, Listed (modifyReg ri.regID (fun _ => new) regs) f g s ↔
      f = item.mbfunc ∧ g = item.mbreg ∧ s = sensorsOf item ri ∨
        ¬ (f = item.mbfunc ∧ g = item.mbreg) ∧ Listed regs f g s := by
    intro f g s
    rw [modifyReg_spec keyed member func' reg', func, reg, slst]
  obtain ⟨keyed', spec⟩ := @foldl_addTail_spec item defaultMBinitOK (modifyReg ri.regID (fun _ => new) regs)
    (List.range (attachedSensor item ri).rnum).tail (keyed_map keyed same)
    (fun i inside => (own i (mem_tail_range.mp inside).2).map same)
  have here : Listed regs item.mbfunc item.mbreg ri.slst := ⟨ri, member, func, reg, rfl⟩
  refine ⟨keyed', fun f g s => ?_⟩
  rw [spec, replaced, or_assoc]
  refine or_congr Iff.rfl (or_congr Iff.rfl ?_)
  constructor
  · rintro ⟨rfl, ⟨i, inside, rfl⟩, rfl, none⟩
    obtain ⟨positive, small⟩ := mem_tail_range.mp inside
    have other : wordOf item i ≠ item.mbreg := by
      intro back
      exact none _ ((replaced _ _ _).mpr (Or.inl ⟨rfl, back, rfl⟩))
    exact ⟨rfl, ⟨i, positive, small, rfl⟩, rfl, fun s' there =>
      none s' ((replaced _ _ _).mpr (Or.inr ⟨fun known => other known.2, there⟩))⟩
  · rintro ⟨rfl, ⟨i, positive, small, rfl⟩, rfl, none⟩
    refine ⟨rfl, ⟨i, mem_tail_range.mpr ⟨positive, small⟩, rfl⟩, rfl, fun s' there => ?_⟩
    rcases (replaced _ _ _).mp there with ⟨-, back, -⟩ | ⟨-, there⟩
    · rw [back] at none
      exact none _ here
    · exact none s' there

/-- **What `attach` does.** -/
theorem attach_spec {defaultMBinitOK : Bool} {ri' : RegInfo} {left : SensorInfo}
    (keyed : Keyed regs) (member : ri ∈ regs) (func : ri.mbfunc = item.mbfunc)
    (reg : ri.mbreg = item.mbreg)
    (own : ∀ i < (attachedSensor item ri).rnum, OwnID regs item.mbfunc (wordOf item i))
    (attached : attach defaultMBinitOK item ri regs = some (tails, ri', left)) :
    Attached item ri regs tails := by
  obtain ⟨mbInitOK, smInitOK, flags⟩ := initFlags_keeps defaultMBinitOK item ri
  rw [attach] at attached
  simp only [flags] at attached
  split_ifs at attached with refused bad several
  all_goals
    have accepted : ri.refuses (item.property ri.mtrSize) = false := by
      rw [Bool.or_eq_true, not_or] at refused
      exact Bool.eq_false_iff.mpr refused.2
    have single : 1 < (attachedSensor item ri).rnum → item.mbfunc.isWriteFunction = true →
        item.mbfunc = .fnWriteOutputRegisters := by
      intro more write
      rw [← func] at write ⊢
      by_contra other
      refine bad ?_
      rw [write, decide_eq_true other, Bool.and_true, Bool.and_true]
      exact decide_eq_true more
    simp only [Option.some.injEq, Prod.mk.injEq, func] at attached
    obtain ⟨rfl, -, -⟩ := attached
    refine ⟨And.left (attached_foldl keyed member func reg own ?_ ?_ ?_ ?_), accepted, single,
      And.right (attached_foldl keyed member func reg own ?_ ?_ ?_ ?_)⟩
    exacts [rfl, func.symm, rfl, rfl, rfl, func.symm, rfl, rfl]

theorem Attached.keeps (attached : Attached item ri regs tails) (there : Listed regs f g s) :
    ∃ s', Listed tails f g s' := by
  by_cases here : f = item.mbfunc ∧ g = item.mbreg
  · exact ⟨_, (attached.listed f g _).mpr (Or.inl ⟨here.1, here.2, rfl⟩)⟩
  · exact ⟨s, (attached.listed f g s).mpr (Or.inr (Or.inl ⟨here, there⟩))⟩

/-- **The registers after an item**, by those before its register was added. -/
theorem Attached.listed_before (keyed : Keyed regs) (own : OwnID regs item.mbfunc item.mbreg)
    (member : ri ∈ addReg item (genRegID item.mbreg item.mbfunc.code) item.mbreg regs)
    (func : ri.mbfunc = item.mbfunc) (reg : ri.mbreg = item.mbreg)
    (attached : Attached item ri (addReg item (genRegID item.mbreg item.mbfunc.code) item.mbreg regs) tails) :
    Listed tails f g s ↔ f = item.mbfunc ∧ g = item.mbreg ∧ s = sensorsOf item ri ∨
      ¬ (f = item.mbfunc ∧ g = item.mbreg) ∧ Listed regs f g s ∨
      f = item.mbfunc ∧ g ≠ item.mbreg ∧
        (∃ i, 0 < i ∧ i < (attachedSensor item ri).rnum ∧ g = wordOf item i) ∧ s = [] ∧
        ∀ s', ¬ Listed regs f g s' := by
  rw [attached.listed]
  refine or_congr Iff.rfl (or_congr ?_ ?_)
  · rw [addReg_spec keyed own]
    exact and_congr_right fun other => or_iff_left fun new => other ⟨new.1, new.2.1⟩
  · constructor
    · rintro ⟨rfl, word, empty, none⟩
      have other : g ≠ item.mbreg := by
        rintro rfl
        exact none _ ⟨ri, member, func, reg, rfl⟩
      exact ⟨rfl, other, word, empty, fun s' there => none s' ((addReg_spec keyed own).mpr (Or.inl there))⟩
    · rintro ⟨rfl, other, word, empty, none⟩
      refine ⟨rfl, word, empty, fun s' there => ?_⟩
      rcases (addReg_spec keyed own).mp there with old | new
      · exact none s' old
      · exact other new.2.1

/-- A sensor that is attached is appended, unless it is there. -/
theorem addProp_cases (slst : List RSProperty) (p : RSProperty) :
    (∃ q ∈ slst, q.si = p.si ∧ (addProp slst p).1 = slst ∧ (addProp slst p).2.1 = q) ∨
      (∀ q ∈ slst, q.si ≠ p.si) ∧ (addProp slst p).1 = slst ++ [p] ∧ (addProp slst p).2.1 = p := by
  rw [addProp]
  split
  · rename_i q found
    have same := List.find?_some found
    exact Or.inl ⟨q, List.mem_of_find?_eq_some found, of_decide_eq_true same, rfl, rfl⟩
  · rename_i none
    refine Or.inr ⟨fun q member same => ?_, rfl, rfl⟩
    exact List.find?_eq_none.mp none q member (decide_eq_true same)

/-- **Every word of a sensor is a register.** -/
def Worded (regs : List RegInfo) : Prop :=
  ∀ f g s, Listed regs f g s → ∀ p ∈ s, ∀ k < p.rnum, ∃ s', Listed regs f ((g + k) % 65536) s'

theorem Attached.worded (attached : Attached item ri regs tails) (keyed : Keyed regs)
    (worded : Worded regs) (member : ri ∈ regs) (func : ri.mbfunc = item.mbfunc)
    (reg : ri.mbreg = item.mbreg) : Worded tails := by
  have here : Listed regs item.mbfunc item.mbreg ri.slst := ⟨ri, member, func, reg, rfl⟩
  have small : item.mbreg < 65536 := reg ▸ keyed.word ri member
  have old : ∀ f g s, Listed regs f g s → ∀ p ∈ s, ∀ k < p.rnum, ∃ s', Listed tails f ((g + k) % 65536) s' := by
    intro f g s there p inside k lt
    obtain ⟨s', word⟩ := worded f g s there p inside k lt
    exact attached.keeps word
  intro f g s there p inside k lt
  rcases (attached.listed f g s).mp there with ⟨rfl, rfl, rfl⟩ | ⟨-, there⟩ | ⟨-, -, rfl, -⟩
  · rcases addProp_cases ri.slst (item.property ri.mtrSize) with ⟨-, -, -, list, -⟩ | ⟨-, list, sensor⟩
    · rw [sensorsOf, list] at inside
      exact old _ _ _ here p inside k lt
    · rw [sensorsOf, list] at inside
      rcases List.mem_append.mp inside with before | last
      · exact old _ _ _ here p before k lt
      · rw [List.mem_singleton.mp last, ← sensor] at lt
        by_cases first : k = 0
        · rw [first, Nat.add_zero, Nat.mod_eq_of_lt small]
          exact ⟨_, there⟩
        · by_cases word : ∃ s', Listed regs item.mbfunc (wordOf item k) s'
          · obtain ⟨s', word⟩ := word
            exact attached.keeps word
          · exact ⟨[], (attached.listed _ _ _).mpr (Or.inr (Or.inr ⟨rfl,
              ⟨k, Nat.pos_of_ne_zero first, lt, rfl⟩, rfl, fun s' there => word ⟨s', there⟩⟩))⟩
  · exact old f g s there p inside k lt
  · exact absurd inside List.not_mem_nil

end Attach

/-! ### The maps of a device -/

/-- **A register of the device with these sensors**, in the map of this poll factor. -/
def Known (conf : MBConf) (pollfactor : Nat) (func : MbFunc) (reg : Nat) (slst : List RSProperty) : Prop :=
  ∃ m ∈ conf.pollmaps, m.pollfactor = pollfactor ∧ Listed m.regs func reg slst

/-- **The maps of one device**, one for every poll factor. -/
structure Of (mbaddr : Nat) (conf : MBConf) : Prop where
  mine : ∀ m ∈ conf.pollmaps, m.mbaddr = mbaddr
  apart : conf.pollmaps.Pairwise fun a b => a.pollfactor ≠ b.pollfactor
  keyed : ∀ m ∈ conf.pollmaps, Keyed m.regs
  worded : ∀ m ∈ conf.pollmaps, Worded m.regs

section Device

variable {mbaddr : Nat} {conf : MBConf} {item : Item}

theorem Of.eq_of_pollfactor (device : Of mbaddr conf) {a b : PollMap} (ha : a ∈ conf.pollmaps)
    (hb : b ∈ conf.pollmaps) (same : a.pollfactor = b.pollfactor) : a = b := by
  obtain ⟨i, hi, rfl⟩ := List.getElem_of_mem ha
  obtain ⟨j, hj, rfl⟩ := List.getElem_of_mem hb
  have apart := List.pairwise_iff_getElem.mp device.apart
  rcases Nat.lt_trichotomy i j with lt | rfl | lt
  · exact absurd same (apart i j hi hj lt)
  · rfl
  · exact absurd same.symm (apart j i hj hi lt)

theorem regmap_cases (device : Of mbaddr conf) (addr : item.mbaddr = mbaddr) :
    (∃ m ∈ conf.pollmaps, m.pollfactor = item.pollfactor ∧ conf.regmap item = m.regs) ∨
      conf.regmap item = [] ∧ ∀ m ∈ conf.pollmaps, m.pollfactor ≠ item.pollfactor := by
  rw [MBConf.regmap]
  split
  · rename_i m found
    have key := List.find?_some found
    simp only [Bool.and_eq_true, decide_eq_true_eq] at key
    exact Or.inl ⟨m, List.mem_of_find?_eq_some found, key.2, rfl⟩
  · rename_i none
    refine Or.inr ⟨rfl, fun m member same => List.find?_eq_none.mp none m member ?_⟩
    rw [device.mine m member, addr, same, decide_eq_true rfl, decide_eq_true rfl]
    rfl

/-- A register of the device has one list of sensors. -/
theorem Known.unique (device : Of mbaddr conf) {pf : Nat} {s' : List RSProperty}
    (first : Known conf pf f g s) (second : Known conf pf f g s') : s = s' := by
  obtain ⟨a, ha, rfl, there⟩ := first
  obtain ⟨b, hb, factor, there'⟩ := second
  rw [device.eq_of_pollfactor hb ha factor] at there'
  exact Listed.unique (device.keyed a ha) there there'

theorem listed_nil : ¬ Listed [] f g s := by
  rintro ⟨r, none, -⟩
  exact List.not_mem_nil none

theorem known_iff_regmap (device : Of mbaddr conf) (addr : item.mbaddr = mbaddr) :
    Known conf item.pollfactor f g s ↔ Listed (conf.regmap item) f g s := by
  rcases regmap_cases device addr with ⟨m, member, factor, regmap⟩ | ⟨regmap, none⟩
  · rw [regmap]
    constructor
    · rintro ⟨m', member', factor', there⟩
      rwa [device.eq_of_pollfactor member' member (factor'.trans factor.symm)] at there
    · exact fun there => ⟨m, member, factor, there⟩
  · rw [regmap]
    refine iff_of_false ?_ listed_nil
    rintro ⟨m', member', factor', -⟩
    exact none m' member' factor'

theorem regmap_kept (device : Of mbaddr conf) (addr : item.mbaddr = mbaddr) :
    Keyed (conf.regmap item) ∧ Worded (conf.regmap item) := by
  rcases regmap_cases device addr with ⟨m, member, -, regmap⟩ | ⟨regmap, -⟩
  · rw [regmap]
    exact ⟨device.keyed m member, device.worded m member⟩
  · rw [regmap]
    refine ⟨⟨List.Pairwise.nil, ?_, ?_⟩, fun f g s there => absurd there listed_nil⟩ <;>
      exact fun r none => absurd none List.not_mem_nil

variable {regs : List RegInfo} {conf' : MBConf}

/-- The map of an item is replaced, or it is a new one. -/
theorem mem_setRegmap (device : Of mbaddr conf) (addr : item.mbaddr = mbaddr) {m' : PollMap}
    (member' : m' ∈ (conf.setRegmap item regs).pollmaps) :
    m'.mbaddr = mbaddr ∧ (m'.pollfactor = item.pollfactor ∧ m'.regs = regs ∨
      m'.pollfactor ≠ item.pollfactor ∧ m' ∈ conf.pollmaps) := by
  rw [MBConf.setRegmap] at member'
  split_ifs at member' with there
  · obtain ⟨m, member, rfl⟩ := List.mem_map.mp member'
    split_ifs with key
    · exact ⟨device.mine m member, Or.inl ⟨key.2, rfl⟩⟩
    · refine ⟨device.mine m member, Or.inr ⟨fun same => key ⟨?_, same⟩, member⟩⟩
      rw [device.mine m member, addr]
  · rcases List.mem_append.mp member' with old | new
    · refine ⟨device.mine m' old, Or.inr ⟨fun same => there ?_, old⟩⟩
      refine List.any_eq_true.mpr ⟨m', old, ?_⟩
      rw [device.mine m' old, addr, same, decide_eq_true rfl, decide_eq_true rfl]
      rfl
    · rw [List.mem_singleton.mp new]
      exact ⟨addr, Or.inl ⟨rfl, rfl⟩⟩

theorem exists_setRegmap (regs : List RegInfo) :
    (∃ m' ∈ (conf.setRegmap item regs).pollmaps, m'.pollfactor = item.pollfactor ∧ m'.regs = regs) ∧
      ∀ m ∈ conf.pollmaps, m.pollfactor ≠ item.pollfactor → m ∈ (conf.setRegmap item regs).pollmaps := by
  rw [MBConf.setRegmap]
  split_ifs with there
  · obtain ⟨m, member, key⟩ := List.any_eq_true.mp there
    rw [Bool.and_eq_true, decide_eq_true_eq, decide_eq_true_eq] at key
    refine ⟨⟨_, List.mem_map_of_mem member, ?_⟩, fun m member other => ?_⟩
    · rw [if_pos key]
      exact ⟨key.2, rfl⟩
    · exact List.mem_map.mpr ⟨m, member, if_neg fun key => other key.2⟩
  · exact ⟨⟨_, List.mem_append_right _ (List.mem_singleton_self _), rfl, rfl⟩,
      fun m member _ => List.mem_append_left _ member⟩

/-- **The maps once the map of an item is replaced.** -/
theorem setRegmap_spec (device : Of mbaddr conf) (addr : item.mbaddr = mbaddr) (keyed : Keyed regs)
    (worded : Worded regs) (result : conf'.pollmaps = (conf.setRegmap item regs).pollmaps) :
    Of mbaddr conf' ∧ ∀ pf f g s, Known conf' pf f g s ↔
      pf = item.pollfactor ∧ Listed regs f g s ∨ pf ≠ item.pollfactor ∧ Known conf pf f g s := by
  have cases := fun m' (member' : m' ∈ conf'.pollmaps) => mem_setRegmap device addr (result ▸ member')
  obtain ⟨⟨m₀, member₀, factor₀, regs₀⟩, others⟩ := @exists_setRegmap conf item regs
  rw [← result] at member₀ others
  refine ⟨⟨fun m' member' => (cases m' member').1, ?_, fun m' member' => ?_, fun m' member' => ?_⟩, ?_⟩
  · rw [result, MBConf.setRegmap]
    split_ifs with there
    · refine List.pairwise_map.mpr (device.apart.imp fun {a b} apart => ?_)
      split_ifs <;> exact apart
    · refine List.pairwise_append.mpr ⟨device.apart, List.pairwise_singleton _ _, fun m member new last => ?_⟩
      rw [List.mem_singleton.mp last]
      refine fun same => there (List.any_eq_true.mpr ⟨m, member, ?_⟩)
      rw [device.mine m member, addr, same, decide_eq_true rfl, decide_eq_true rfl]
      rfl
  · rcases (cases m' member').2 with ⟨-, regs'⟩ | ⟨-, old⟩
    · rwa [regs']
    · exact device.keyed m' old
  · rcases (cases m' member').2 with ⟨-, regs'⟩ | ⟨-, old⟩
    · rwa [regs']
    · exact device.worded m' old
  · intro pf f g s
    constructor
    · rintro ⟨m', member', rfl, there⟩
      rcases (cases m' member').2 with ⟨factor, regs'⟩ | ⟨other, old⟩
      · exact Or.inl ⟨factor, regs' ▸ there⟩
      · exact Or.inr ⟨other, m', old, rfl, there⟩
    · rintro (⟨rfl, there⟩ | ⟨other, m, member, rfl, there⟩)
      · exact ⟨m₀, member₀, factor₀, regs₀ ▸ there⟩
      · exact ⟨m, others m member other, rfl, there⟩

/-! ### An item -/

/-- **The identifiers of the registers of an item are their own.** -/
def Own (conf : MBConf) (item : Item) : Prop :=
  ∀ i < item.vType.wsize, OwnID (conf.regmap item) item.mbfunc (wordOf item i)

instance (conf : MBConf) (item : Item) : Decidable (Own conf item) :=
  inferInstanceAs (Decidable (∀ i < item.vType.wsize, _))

/-- **The registers of the device after an item**; `slst` are the sensors its register had. -/
structure Added (item : Item) (conf conf' : MBConf) (slst : List RSProperty) : Prop where
  old : Known conf item.pollfactor item.mbfunc item.mbreg slst ∨
    slst = [] ∧ ∀ s, ¬ Known conf item.pollfactor item.mbfunc item.mbreg s
  free : conf.refuses item = false
  accepted : ∀ ri : RegInfo, ri.mbfunc = item.mbfunc → ri.slst = slst →
    ri.refuses (item.property 0) = false
  single : 1 < (addProp slst (item.property 0)).2.1.rnum → item.mbfunc.isWriteFunction = true →
    item.mbfunc = .fnWriteOutputRegisters
  known : ∀ pf f g s, Known conf' pf f g s ↔
    pf = item.pollfactor ∧ f = item.mbfunc ∧ g = item.mbreg ∧ s = (addProp slst (item.property 0)).1 ∨
      ¬ (pf = item.pollfactor ∧ f = item.mbfunc ∧ g = item.mbreg) ∧ Known conf pf f g s ∨
      pf = item.pollfactor ∧ f = item.mbfunc ∧ g ≠ item.mbreg ∧
        (∃ i, 0 < i ∧ i < (addProp slst (item.property 0)).2.1.rnum ∧ g = wordOf item i) ∧ s = [] ∧
        ∀ s', ¬ Known conf pf f g s'

/-- The sensor of an item of a device of type RTU. -/
theorem property_rtu (rtu : item.dtype = .dtRTU) (mtrSize : Nat) :
    item.property mtrSize = item.property 0 ∧ (item.property 0).rnum = item.vType.wsize := by
  rw [Item.property, Item.property, rtu]
  exact ⟨rfl, rfl⟩

theorem initItem_free (done : initItem conf item = some conf') : conf.refuses item = false := by
  cases refused : conf.refuses item with
  | false => rfl
  | true =>
    rw [initItem, if_pos refused] at done
    cases done

/-- The words of the sensor that is attached have their own identifiers: it is the one of the item, or one
whose words are there. -/
theorem own_attached (rtu : item.dtype = .dtRTU) {ri : RegInfo} (keyed : Keyed regs)
    (worded : Worded regs) (own : ∀ i < item.vType.wsize, OwnID regs item.mbfunc (wordOf item i))
    (member : ri ∈ regs) (func : ri.mbfunc = item.mbfunc) (reg : ri.mbreg = item.mbreg) :
    ∀ i < (attachedSensor item ri).rnum, OwnID regs item.mbfunc (wordOf item i) := by
  intro i lt
  rw [attachedSensor] at lt
  rcases addProp_cases ri.slst (item.property ri.mtrSize) with ⟨q, inside, -, -, sensor⟩ | ⟨-, -, sensor⟩
  · rw [sensor] at lt
    obtain ⟨s', r, there, func', reg', -⟩ := worded _ _ _ ⟨ri, member, func, reg, rfl⟩ q inside i lt
    intro other member' found
    have same : other.regID = r.regID := by
      rw [found, keyed.own r there, func', reg']
      rfl
    rw [eq_of_regID keyed member' there same]
    exact ⟨func', reg'⟩
  · rw [sensor, (property_rtu rtu ri.mtrSize).1, (property_rtu rtu 0).2] at lt
    exact own i lt

theorem worded_addReg (keyed : Keyed regs) (worded : Worded regs)
    (own : OwnID regs item.mbfunc item.mbreg) :
    Worded (addReg item (genRegID item.mbreg item.mbfunc.code) item.mbreg regs) := by
  intro f g s there p inside k lt
  rcases (addReg_spec keyed own).mp there with old | ⟨-, -, rfl, -⟩
  · obtain ⟨s', word⟩ := worded f g s old p inside k lt
    exact ⟨s', (addReg_spec keyed own).mpr (Or.inl word)⟩
  · exact absurd inside List.not_mem_nil

/-- The registers an item is left with, whether one of them waits for its initial read or not. -/
theorem final_registers {regID : Nat} (keyed : Keyed tails)
    (result : conf'.pollmaps = (conf.setRegmap item tails).pollmaps ∨
      conf'.pollmaps = (conf.setRegmap item (awaitRead regID tails)).pollmaps) :
    ∃ regs, Keyed regs ∧ (∀ f g s, Listed regs f g s ↔ Listed tails f g s) ∧
      conf'.pollmaps = (conf.setRegmap item regs).pollmaps := by
  rcases result with result | result
  · exact ⟨tails, keyed, fun f g s => Iff.rfl, result⟩
  · refine ⟨awaitRead regID tails, keyed_map keyed fun r _ => ?_, fun f g s => listed_map fun r _ => ?_, result⟩
    all_goals
      split_ifs
      all_goals exact ⟨rfl, rfl, rfl⟩

/-- **What `initItem` does to the registers of its device.** -/
theorem initItem_spec (device : Of mbaddr conf) (addr : item.mbaddr = mbaddr)
    (rtu : item.dtype = .dtRTU) (small : item.mbreg < 65536) (own : Own conf item)
    (done : initItem conf item = some conf') :
    Of mbaddr conf' ∧ ∃ slst, Added item conf conf' slst := by
  obtain ⟨ri, tails, ri', left, member, found, attached, result⟩ := initItem_pollmaps done
  obtain ⟨keyed, worded⟩ := regmap_kept device addr
  have size : 0 < item.vType.wsize := by cases item.vType <;> decide
  have ownFirst : OwnID (conf.regmap item) item.mbfunc item.mbreg := by
    have own₀ := own 0 size
    rwa [wordOf, Nat.add_zero, Nat.mod_eq_of_lt small] at own₀
  -- the register of the item is there
  have keyed₁ := @keyed_addReg item (conf.regmap item) item.mbreg keyed small
  have worded₁ := worded_addReg keyed worded ownFirst
  have own₁ := fun i (lt : i < item.vType.wsize) =>
    @OwnID.addReg item (conf.regmap item) item.mbreg _ _ (own i lt) rfl
  have ownHere := @OwnID.addReg item (conf.regmap item) item.mbreg _ _ ownFirst rfl
  obtain ⟨func, reg⟩ := ownHere ri member found
  -- its sensor and the further words
  have spec := attach_spec keyed₁ member func reg (own_attached rtu keyed₁ worded₁ own₁ member func reg)
    attached
  have worded₂ := spec.worded keyed₁ worded₁ member func reg
  obtain ⟨regs, keyed₃, same, result⟩ := final_registers spec.keyed result
  have worded₃ : Worded regs := by
    intro f g s there p inside k lt
    obtain ⟨s', word⟩ := worded₂ f g s ((same f g s).mp there) p inside k lt
    exact ⟨s', (same _ _ _).mpr word⟩
  obtain ⟨device', known⟩ := setRegmap_spec device addr keyed₃ worded₃ result
  have sensor : item.property ri.mtrSize = item.property 0 := (property_rtu rtu ri.mtrSize).1
  refine ⟨device', ri.slst, ?_, initItem_free done, ?_, ?_, ?_⟩
  · have here := (addReg_spec keyed ownFirst).mp ⟨ri, member, func, reg, rfl⟩
    rcases here with old | ⟨-, -, empty, none⟩
    · exact Or.inl ((known_iff_regmap device addr).mpr old)
    · exact Or.inr ⟨empty, fun s there => none s ((known_iff_regmap device addr).mp there)⟩
  · intro other func' slst'
    have accepted := spec.accepted
    rw [sensor, RegInfo.refuses, func] at accepted
    rw [RegInfo.refuses, func', slst']
    exact accepted
  · have single := spec.single
    rwa [attachedSensor, sensor] at single
  · intro pf f g s
    rw [known, same, spec.listed_before keyed ownFirst member func reg, attachedSensor, sensorsOf, sensor]
    by_cases factor : pf = item.pollfactor
    · subst factor
      simp only [ne_eq, not_true, true_and, false_and, or_false, known_iff_regmap device addr]
    · have away : ∀ P : Prop, ¬ (pf = item.pollfactor ∧ P) := fun P both => factor both.1
      constructor
      · rintro (⟨here, -⟩ | ⟨-, there⟩)
        · exact absurd here factor
        · exact Or.inr (Or.inl ⟨away _, there⟩)
      · rintro (here | ⟨-, there⟩ | here)
        · exact absurd here (away _)
        · exact Or.inr ⟨factor, there⟩
        · exact absurd here (away _)

end Device

end UniSet.ModbusMaster.Registers

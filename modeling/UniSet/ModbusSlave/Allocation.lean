/-
**Which registers and bits the sensors of a Modbus slave own.**

* `Attributes` — what `initItem` reads of a sensor, with the numbers as the configuration has them:
  `mbfunc` and `nbit` are any integers.
* `initAttributes` — `initItem` on the map of the address: accepted, refused, `abort`, or an access
  outside the bits of a register.
* `MapOwned` — every accepted sensor has the words of its value, or its bit, and the map has nothing
  else.
* `Fits` — the sensor does not reach for what the map already has behind its first register, nor for a
  bit that is taken or that a register does not have.
* **`allocation_iff`** — the sensors of a run own what is theirs throughout exactly if every one fits.
-/

import UniSet.Lib.Machine
import UniSet.ModbusSlave.InitItem

namespace UniSet.ModbusSlave

open Function
open ModbusMaster (ObjectId SensorInfo VType genRegID)
open UniSet.Lib (Machine)

/-! ### Maps by their registers -/

namespace RegMap

variable {m : RegMap} {r x : Register}

theorem eq_of_regID (h : r ∈ m.regs) (h' : x ∈ m.regs) (same : r.regID = x.regID) : r = x := by
  have found := m.find_of_mem h
  rw [same, m.find_of_mem h'] at found
  exact (Option.some.inj found).symm

theorem find_eq_none {regID : Nat} : m.find regID = none ↔ ∀ r ∈ m.regs, r.regID ≠ regID := by
  simp [find, List.find?_eq_none]

theorem find_eq_some {regID : Nat} : m.find regID = some r ↔ r ∈ m.regs ∧ r.regID = regID :=
  ⟨m.mem_of_find, fun h => h.2 ▸ m.find_of_mem h.1⟩

/-- Registers inserted one after another. -/
def insertAll (m : RegMap) (rs : List Register) : RegMap := rs.foldl insert m

theorem mem_insertAll {rs : List Register} (distinct : (rs.map Register.regID).Nodup) :
    x ∈ (m.insertAll rs).regs ↔ x ∈ rs ∨ (x ∈ m.regs ∧ ∀ r ∈ rs, x.regID ≠ r.regID) := by
  induction rs generalizing m with
  | nil => simp [insertAll]
  | cons r rs ih =>
    obtain ⟨other, distinct⟩ := List.nodup_cons.mp distinct
    have apart : ∀ y ∈ rs, r.regID ≠ y.regID := fun y hy same =>
      other (List.mem_map.mpr ⟨y, hy, same.symm⟩)
    show x ∈ ((m.insert r).insertAll rs).regs ↔ _
    rw [ih distinct, mem_insert, List.mem_cons, List.forall_mem_cons]
    constructor
    · rintro (later | ⟨rfl | ⟨old, ne⟩, rest⟩)
      · exact Or.inl (Or.inr later)
      · exact Or.inl (Or.inl rfl)
      · exact Or.inr ⟨old, ne, rest⟩
    · rintro ((rfl | later) | ⟨old, ne, rest⟩)
      · exact Or.inr ⟨Or.inl rfl, apart⟩
      · exact Or.inl later
      · exact Or.inr ⟨Or.inr ⟨old, ne⟩, rest⟩

end RegMap

/-! ### A sensor of the configuration -/

/-- **The attributes of a sensor**, the numbers as they are read. -/
structure Attributes where
  base : IOBase
  /-- The sensor is a threshold, `t_ai`. -/
  threshold : Bool
  mbaddr : Nat
  mbreg : UInt16
  mbfunc : Int
  amode : AccessMode
  /-- `-1` is none. -/
  nbit : Int
  /-- None for an empty `vtype`. An unknown one is `vtUnknown`. -/
  vtype : Option VType
  nbyte : Nat

namespace Attributes

variable (s : Slave) (a : Attributes)

/-- The function a sensor is asked with, the `uint8_t` that `genRegID` gets. -/
def func : Nat :=
  let fn : Int := if s.checkMBFunc then a.mbfunc else s.defaultMbfunc
  let fn := if s.noMBFuncOptimize then fn else if fn = 0x06 then 0x10 else if fn = 0x05 then 0x0F else fn
  (fn % 256).toNat

/-- The item before its type is known. -/
def prop : IOProperty where
  toIOBase := a.base
  mbreg := a.mbreg.toNat
  amode := a.amode
  vtype := .vtUnknown
  wnum := 0
  nbyte := 0
  regID := genRegID a.mbreg.toNat (a.func s)

/-- The item of a sensor with a type. -/
def typed (v : VType) : IOProperty :=
  { a.prop s with vtype := v, nbyte := if v = .vtByte then a.nbyte else 0 }

/-- The bit, if a register has it. -/
def bit : Option (Fin 16) :=
  if h : 0 ≤ a.nbit ∧ a.nbit < 16 then some ⟨a.nbit.toNat, by omega⟩ else none

/-- The identifier of the register. -/
def regID : Nat := genRegID a.mbreg.toNat (a.func s)

end Attributes

/-- What becomes of a sensor: it is accepted or refused, the process is aborted, or the bits of a
register are accessed outside of it. -/
inductive Outcome where
  | done (accepted : Bool) (m : RegMap)
  | aborted
  | outside

namespace Slave

variable (s : Slave)

/-- **`MBSlave::initItem`** on the map of the address, for a sensor that is no threshold. `crit` says
whether critical messages are written: the one of a refused bit names the sensor of this bit. -/
def initAttributes (crit : Bool) (m : RegMap) (a : Attributes) : Outcome :=
  let p := a.prop s
  if a.nbit ≠ -1 then
    if 16 ≤ a.nbit then .done false m
    else
      match a.bit with
      | some nbit => .done (initBit m p nbit).1 (initBit m p nbit).2
      | none =>
        -- `bvec[nbit]` of a number below 0
        match m.find p.regID with
        | some r =>
          match r.bitreg with
          | none => .done false m
          | some bvec => if check bvec p.si && !crit then .done false m else .outside
        | none => .outside
  else if (m.find p.regID).isSome then .aborted
  else
    match a.vtype with
    | none => .done true (m.insert ⟨p, none⟩)
    | some .vtUnknown => .done false m
    | some v =>
      if v = .vtByte ∧ (a.nbyte = 0 ∨ 2 < a.nbyte) then .done false m
      else .done true (initWords m (a.typed s v) (a.func s))

end Slave

variable {r : Register} {i : Fin 16} {bvec : BitRegProperty}

/-! ### What a sensor takes -/

namespace Attributes

variable (s : Slave) (a : Attributes)

/-- The type of the value. -/
def valueType : VType := a.vtype.getD .vtUnknown

/-- The words of the value. -/
def wsize : Nat := a.valueType.wsize

/-- The item of a word of the value: the sensor's own one and copies of it. -/
def word (k : Nat) : IOProperty :=
  if k = 0 then a.typed s a.valueType else Slave.wordProp (a.typed s a.valueType) (a.func s) k

/-- The identifier of the register of a word. -/
def wordID (k : Nat) : Nat := genRegID ((a.mbreg.toNat + k) % 65536) (a.func s)

theorem word_regID (k : Nat) : (a.word s k).regID = a.wordID s k := by
  rw [word]
  split
  · next zero =>
    rw [zero, wordID, Nat.add_zero, Nat.mod_eq_of_lt a.mbreg.toNat_lt]
    rfl
  · rfl

theorem word_wnum (k : Nat) : (a.word s k).wnum = k := by
  rw [word]
  split
  · next zero => exact zero.symm
  · rfl

theorem word_mbreg (k : Nat) : (a.word s k).mbreg = (a.mbreg.toNat + k) % 65536 := by
  rw [word]
  split
  · next zero =>
    rw [zero, Nat.add_zero, Nat.mod_eq_of_lt a.mbreg.toNat_lt]
    rfl
  · rfl

theorem wordID_zero : a.wordID s 0 = a.regID s := by
  rw [wordID, Nat.add_zero, Nat.mod_eq_of_lt a.mbreg.toNat_lt, regID]

theorem wsize_le : a.wsize ≤ 4 := by
  rw [wsize]
  cases a.valueType <;> decide

theorem wsize_pos : 0 < a.wsize := by
  rw [wsize]
  cases a.valueType <;> decide

/-- The registers of the words. -/
def registers : List Register := (List.range a.wsize).map fun k => ⟨a.word s k, none⟩

theorem mem_registers : r ∈ a.registers s ↔ ∃ k < a.wsize, r = ⟨a.word s k, none⟩ := by
  simp [registers, eq_comm]

theorem registers_distinct : ((a.registers s).map Register.regID).Nodup := by
  rw [registers, List.map_map]
  refine List.Nodup.map_on ?_ List.nodup_range
  intro k hk k' hk' same
  rw [List.mem_range] at hk hk'
  have small := a.wsize_le
  have small' := a.mbreg.toNat_lt
  have ids : a.wordID s k = a.wordID s k' := by
    rw [← word_regID, ← word_regID]
    exact same
  rw [wordID, wordID, genRegID, genRegID] at ids
  omega

theorem initWords_eq (m : RegMap) :
    Slave.initWords m (a.typed s a.valueType) (a.func s) = m.insertAll (a.registers s) := by
  have count : a.wsize = (a.typed s a.valueType).vtype.wsize - 1 + 1 :=
    (Nat.succ_pred_eq_of_pos a.wsize_pos).symm
  have rest : ∀ n, (List.range' 1 n).map (fun k => (⟨a.word s k, none⟩ : Register)) =
      (List.range' 1 n).map fun k => ⟨Slave.wordProp (a.typed s a.valueType) (a.func s) k, none⟩ := by
    intro n
    refine List.map_congr_left fun k hk => ?_
    have positive : k ≠ 0 := by
      have first := (List.mem_range'_1.mp hk).1
      omega
    rw [word, if_neg positive]
  rw [registers, count, List.range_eq_range', List.range'_succ, List.map_cons, Nat.zero_add, rest,
    RegMap.insertAll, List.foldl_cons, List.foldl_map]
  rfl

end Attributes

/-- **What an accepted sensor makes of the map.** -/
inductive Takes (s : Slave) (m : RegMap) (a : Attributes) : RegMap → Prop
  /-- The registers of its words; the first one was free. -/
  | words : a.nbit = -1 → (∀ r ∈ m.regs, r.regID ≠ a.regID s) →
      Takes s m a (m.insertAll (a.registers s))
  /-- A bit of a register of bits that does not have the sensor yet. -/
  | bit (i : Fin 16) (r : Register) (bvec : BitRegProperty) : a.bit = some i → r ∈ m.regs →
      r.regID = a.regID s → r.bitreg = some bvec → Slave.check bvec a.base.si = false →
      Takes s m a (m.insert { r with bitreg := some (update bvec i (some (a.prop s))) })
  /-- A bit of a new register. -/
  | newBit (i : Fin 16) : a.bit = some i → (∀ r ∈ m.regs, r.regID ≠ a.regID s) →
      Takes s m a (m.insert ⟨{ a.prop s with toIOBase := (a.prop s).makeIobaseCopy, mbreg := 0 },
        some (update (fun _ => none) i (some (a.prop s)))⟩)

theorem initBit_cases {s : Slave} {m m' : RegMap} {a : Attributes} {accepted : Bool}
    (bit : a.bit = some i) (h : Slave.initBit m (a.prop s) i = (accepted, m')) :
    (accepted = false ∧ m' = m) ∨ (accepted = true ∧ Takes s m a m') := by
  unfold Slave.initBit at h
  split at h
  · next r found =>
    obtain ⟨mem, id⟩ := m.mem_of_find found
    split at h
    · exact Or.inl ⟨(congrArg Prod.fst h).symm, (congrArg Prod.snd h).symm⟩
    · next bvec bits =>
      split at h
      · exact Or.inl ⟨(congrArg Prod.fst h).symm, (congrArg Prod.snd h).symm⟩
      · next new =>
        rw [Bool.not_eq_true] at new
        obtain ⟨rfl, rfl⟩ := Prod.mk.inj h
        exact Or.inr ⟨rfl, .bit i r bvec bit mem id bits new⟩
  · next free =>
    obtain ⟨rfl, rfl⟩ := Prod.mk.inj h
    exact Or.inr ⟨rfl, .newBit i bit (RegMap.find_eq_none.mp free)⟩

/-- **A sensor that is refused leaves the map as it is, one that is accepted takes what is its own.** -/
theorem initAttributes_cases {s : Slave} {crit : Bool} {m m' : RegMap} {a : Attributes}
    {accepted : Bool} (h : s.initAttributes crit m a = .done accepted m') :
    (accepted = false ∧ m' = m) ∨ (accepted = true ∧ Takes s m a m') := by
  have refused : ∀ {x : RegMap} {y : Bool}, Outcome.done false x = .done y m' → x = m →
      (y = false ∧ m' = m) ∨ (y = true ∧ Takes s m a m') := by
    intro x y same here
    obtain ⟨rfl, rfl⟩ := Outcome.done.inj same
    exact Or.inl ⟨rfl, here⟩
  unfold Slave.initAttributes at h
  by_cases none : a.nbit = -1
  · rw [if_neg (not_not.mpr none)] at h
    split at h
    · cases h
    · next free =>
      have free : ∀ r ∈ m.regs, r.regID ≠ a.regID s :=
        RegMap.find_eq_none.mp (Option.not_isSome_iff_eq_none.mp free)
      have takes := Takes.words (s := s) none free
      rw [← Attributes.initWords_eq] at takes
      split at h
      · next single =>
        obtain ⟨rfl, rfl⟩ := Outcome.done.inj h
        have unknown : a.valueType = .vtUnknown := by rw [Attributes.valueType, single]; rfl
        rw [unknown] at takes
        exact Or.inr ⟨rfl, takes⟩
      · exact refused h rfl
      · next v _ typed =>
        have own : a.valueType = v := by rw [Attributes.valueType, typed]; rfl
        split at h
        · exact refused h rfl
        · obtain ⟨rfl, rfl⟩ := Outcome.done.inj h
          rw [own] at takes
          exact Or.inr ⟨rfl, takes⟩
  · rw [if_pos none] at h
    split at h
    · exact refused h rfl
    · split at h
      · next i bit =>
        obtain ⟨first, second⟩ := Outcome.done.inj h
        exact initBit_cases bit (Prod.ext first second)
      · split at h
        · split at h
          · exact refused h rfl
          · split at h
            · exact refused h rfl
            · cases h
        · cases h

/-! ### Who owns what -/

/-- The bit `i` of the register `regID` is the item's. -/
def HasBit (m : RegMap) (regID : Nat) (i : Fin 16) (p : IOProperty) : Prop :=
  ∃ r ∈ m.regs, r.regID = regID ∧ ∃ bvec, r.bitreg = some bvec ∧ bvec i = some p

/-- **A sensor owns what it was configured with**: a register for every word of its value, or its bit. -/
structure Owns (s : Slave) (m : RegMap) (a : Attributes) : Prop where
  words : a.nbit = -1 → ∀ k < a.wsize, (⟨a.word s k, none⟩ : Register) ∈ m.regs
  bit : a.nbit ≠ -1 → ∃ i, a.bit = some i ∧ HasBit m (a.regID s) i (a.prop s)

/-- **A register is one of the sensors'**: a word of one of them, or a register of their bits. -/
structure Belongs (s : Slave) (as : List Attributes) (r : Register) : Prop where
  word : r.bitreg = none → ∃ a ∈ as, a.nbit = -1 ∧ r ∈ a.registers s
  someBit : ∀ bvec, r.bitreg = some bvec → ∃ i p, bvec i = some p
  bit : ∀ bvec, r.bitreg = some bvec → ∀ i p, bvec i = some p →
    ∃ a ∈ as, a.bit = some i ∧ r.regID = a.regID s ∧ p = a.prop s

/-- **The map belongs to the sensors**, each of which owns what it was configured with. -/
structure MapOwned (s : Slave) (as : List Attributes) (m : RegMap) : Prop where
  owns : ∀ a ∈ as, Owns s m a
  belongs : ∀ r ∈ m.regs, Belongs s as r

/-- What a sensor takes is free: the registers behind the first one and the bit. -/
structure Free (s : Slave) (m : RegMap) (a : Attributes) : Prop where
  words : a.nbit = -1 → ∀ k, 0 < k → k < a.wsize → ∀ r ∈ m.regs, r.regID ≠ a.wordID s k
  bit : ∀ i, a.bit = some i → ∀ r ∈ m.regs, r.regID = a.regID s → ∀ bvec, r.bitreg = some bvec →
    bvec i = none

section Take

variable {s : Slave} {as : List Attributes} {m m' : RegMap} {a : Attributes}

theorem bit_ne (bit : a.bit = some i) : a.nbit ≠ -1 := by
  intro none
  rw [Attributes.bit, dif_neg (by omega)] at bit
  cases bit

theorem Belongs.mono (belongs : Belongs s as r) (more : List Attributes) :
    Belongs s (as ++ more) r where
  word bits :=
    let ⟨a, mem, rest⟩ := belongs.word bits
    ⟨a, List.mem_append_left _ mem, rest⟩
  someBit := belongs.someBit
  bit bvec bits i p has :=
    let ⟨a, mem, rest⟩ := belongs.bit bvec bits i p has
    ⟨a, List.mem_append_left _ mem, rest⟩

/-- A register that stays with its bits keeps the owners of the words and of the bits. -/
theorem Owns.kept (owns : Owns s m a)
    (words : ∀ r ∈ m.regs, r.bitreg = none → r ∈ m'.regs)
    (bits : ∀ r ∈ m.regs, ∀ bvec, r.bitreg = some bvec → ∀ i p, bvec i = some p →
      HasBit m' r.regID i p) : Owns s m' a where
  words none k inside := words _ (owns.words none k inside) rfl
  bit some := by
    obtain ⟨i, bit, r, mem, id, bvec, bitreg, has⟩ := owns.bit some
    have kept := bits r mem bvec bitreg i _ has
    rw [id] at kept
    exact ⟨i, bit, kept⟩

/-- The registers of a value that are all free. -/
theorem MapOwned.words (owned : MapOwned s as m) (none : a.nbit = -1)
    (free : ∀ r ∈ m.regs, ∀ x ∈ a.registers s, r.regID ≠ x.regID) :
    MapOwned s (as ++ [a]) (m.insertAll (a.registers s)) := by
  have mem : ∀ x, x ∈ (m.insertAll (a.registers s)).regs ↔ x ∈ a.registers s ∨ x ∈ m.regs := by
    intro x
    rw [RegMap.mem_insertAll (a.registers_distinct s)]
    exact or_congr_right ⟨And.left, fun old => ⟨old, free x old⟩⟩
  constructor
  · intro b listed
    rcases List.mem_append.mp listed with earlier | new
    · refine (owned.owns b earlier).kept (fun r old _ => (mem r).mpr (Or.inr old)) ?_
      intro r old bvec bitreg i p has
      exact ⟨r, (mem r).mpr (Or.inr old), rfl, bvec, bitreg, has⟩
    · rw [List.mem_singleton.mp new]
      refine ⟨fun _ k inside => (mem _).mpr (Or.inl ?_), fun some => absurd none some⟩
      exact (a.mem_registers s).mpr ⟨k, inside, rfl⟩
  · intro r here
    rcases (mem r).mp here with own | old
    · obtain ⟨k, inside, rfl⟩ := (a.mem_registers s).mp own
      exact ⟨fun _ => ⟨a, List.mem_append_right _ List.mem_cons_self, none, own⟩,
        fun _ bits => (by cases bits), fun _ bits => (by cases bits)⟩
    · exact (owned.belongs r old).mono [a]

/-- A register that is given a bit belongs to the sensors it had and to the new one. -/
theorem Belongs.update (bit : a.bit = some i) (id : r.regID = a.regID s)
    (bits : r.bitreg = some (Function.update bvec i (some (a.prop s))))
    (old : ∀ j p, bvec j = some p → ∃ b ∈ as, b.bit = some j ∧ r.regID = b.regID s ∧ p = b.prop s) :
    Belongs s (as ++ [a]) r := by
  have same : ∀ bvec', r.bitreg = some bvec' → bvec' = Function.update bvec i (some (a.prop s)) := by
    intro bvec' bits'
    rw [bits, Option.some.injEq] at bits'
    exact bits'.symm
  refine ⟨fun word => ?_, fun bvec' bits' => ?_, fun bvec' bits' j p has => ?_⟩
  · rw [bits] at word
    cases word
  · rw [same bvec' bits']
    exact ⟨i, a.prop s, update_self _ _ _⟩
  · rw [same bvec' bits'] at has
    by_cases at_i : j = i
    · subst at_i
      rw [update_self, Option.some.injEq] at has
      exact ⟨a, List.mem_append_right _ List.mem_cons_self, bit, id, has.symm⟩
    · rw [update_of_ne at_i] at has
      obtain ⟨b, listed, rest⟩ := old j p has
      exact ⟨b, List.mem_append_left _ listed, rest⟩

theorem MapOwned.bit (owned : MapOwned s as m) (bit : a.bit = some i) (mem : r ∈ m.regs)
    (id : r.regID = a.regID s) (bits : r.bitreg = some bvec) (free : bvec i = none) :
    MapOwned s (as ++ [a])
      (m.insert { r with bitreg := some (update bvec i (some (a.prop s))) }) := by
  have new : ({ r with bitreg := some (update bvec i (some (a.prop s))) } : Register) ∈
      (m.insert { r with bitreg := some (update bvec i (some (a.prop s))) }).regs :=
    RegMap.mem_insert.mpr (Or.inl rfl)
  have kept : ∀ x ∈ m.regs, x ≠ r →
      x ∈ (m.insert { r with bitreg := some (update bvec i (some (a.prop s))) }).regs :=
    fun x old ne => RegMap.mem_insert.mpr
      (Or.inr ⟨old, fun same => ne (RegMap.eq_of_regID old mem same)⟩)
  constructor
  · intro b listed
    rcases List.mem_append.mp listed with earlier | last
    · refine (owned.owns b earlier).kept ?_ ?_
      · intro x old word
        refine kept x old fun same => ?_
        rw [same, bits] at word
        cases word
      · intro x old bvec' bits' j p has
        by_cases same : x = r
        · subst same
          rw [bits, Option.some.injEq] at bits'
          subst bits'
          have other : j ≠ i := fun here => by
            rw [here, free] at has
            cases has
          exact ⟨_, new, rfl, _, rfl, by rw [update_of_ne other]; exact has⟩
        · exact ⟨x, kept x old same, rfl, bvec', bits', has⟩
    · rw [List.mem_singleton.mp last]
      refine ⟨fun none => absurd none (bit_ne bit), fun _ => ⟨i, bit, _, new, id, _, rfl, ?_⟩⟩
      exact update_self _ _ _
  · intro x here
    rcases RegMap.mem_insert.mp here with rfl | ⟨old, -⟩
    · exact Belongs.update bit id rfl ((owned.belongs r mem).bit bvec bits)
    · exact (owned.belongs x old).mono [a]

theorem MapOwned.newBit (owned : MapOwned s as m) (bit : a.bit = some i)
    (free : ∀ r ∈ m.regs, r.regID ≠ a.regID s) {dummy : IOProperty} (id : dummy.regID = a.regID s) :
    MapOwned s (as ++ [a])
      (m.insert ⟨dummy, some (update (fun _ => none) i (some (a.prop s)))⟩) := by
  have kept : ∀ x ∈ m.regs,
      x ∈ (m.insert ⟨dummy, some (update (fun _ => none) i (some (a.prop s)))⟩).regs :=
    fun x old => RegMap.mem_insert.mpr (Or.inr ⟨old, fun same => free x old (same.trans id)⟩)
  constructor
  · intro b listed
    rcases List.mem_append.mp listed with earlier | last
    · exact (owned.owns b earlier).kept (fun x old _ => kept x old)
        fun x old bvec bits j p has => ⟨x, kept x old, rfl, bvec, bits, has⟩
    · rw [List.mem_singleton.mp last]
      refine ⟨fun none => absurd none (bit_ne bit), fun _ => ⟨i, bit, _,
        RegMap.mem_insert.mpr (Or.inl rfl), id, _, rfl, update_self _ _ _⟩⟩
  · intro x here
    rcases RegMap.mem_insert.mp here with rfl | ⟨old, -⟩
    · exact Belongs.update bit id rfl fun j p none => by cases none
    · exact (owned.belongs x old).mono [a]

/-- **A sensor that takes what is free leaves every sensor what it has.** -/
theorem MapOwned.takes (owned : MapOwned s as m) (free : Free s m a) (takes : Takes s m a m') :
    MapOwned s (as ++ [a]) m' := by
  cases takes with
  | words none first =>
    refine owned.words none fun r old x own => ?_
    obtain ⟨k, inside, rfl⟩ := (a.mem_registers s).mp own
    show r.regID ≠ (a.word s k).regID
    rw [a.word_regID]
    rcases Nat.eq_zero_or_pos k with rfl | positive
    · rw [a.wordID_zero]
      exact first r old
    · exact free.words none k positive inside r old
  | bit i r bvec bit mem id bits _ => exact owned.bit bit mem id bits (free.bit i bit r mem id bvec bits)
  | newBit i bit first => exact owned.newBit bit first rfl

theorem check_false {si : SensorInfo} (fresh : Slave.check bvec si = false) {p : IOProperty}
    (has : bvec i = some p) : p.si ≠ si := by
  intro same
  have found : Slave.check bvec si = true := by
    rw [Slave.check, List.any_eq_true]
    exact ⟨i, List.mem_finRange i, by simp [has, same]⟩
  rw [fresh] at found
  cases found

/-- Two sensors with a word of the same kind in the same register begin in the same register. -/
theorem regID_eq_of_word {b : Attributes} {k l : Nat} (same : b.word s k = a.word s l) :
    b.regID s = a.regID s := by
  have index : k = l := by rw [← b.word_wnum s k, ← a.word_wnum s l, same]
  subst index
  have regs : (b.mbreg.toNat + k) % 65536 = (a.mbreg.toNat + k) % 65536 := by
    rw [← b.word_mbreg s k, ← a.word_mbreg s k, same]
  have ids : b.wordID s k = a.wordID s k := by rw [← b.word_regID, ← a.word_regID, same]
  have small := a.mbreg.toNat_lt
  have small' := b.mbreg.toNat_lt
  rw [Attributes.wordID, Attributes.wordID, regs, genRegID, genRegID] at ids
  rw [Attributes.regID, Attributes.regID, genRegID, genRegID]
  omega

/-- **A sensor that takes what is not free takes it from its owner.** -/
theorem MapOwned.lost (owned : MapOwned s as m) (taken : ¬ Free s m a) (takes : Takes s m a m') :
    ¬ MapOwned s (as ++ [a]) m' := by
  intro after
  apply taken
  cases takes with
  | words none first =>
    refine ⟨fun _ k positive inside r mem id => ?_, fun i bit => absurd none (bit_ne bit)⟩
    have own : (⟨a.word s k, Option.none⟩ : Register) ∈ a.registers s :=
      (a.mem_registers s).mpr ⟨k, inside, rfl⟩
    have new : (⟨a.word s k, Option.none⟩ : Register) ∈ (m.insertAll (a.registers s)).regs :=
      (RegMap.mem_insertAll (a.registers_distinct s)).mpr (Or.inl own)
    cases bits : r.bitreg with
    | none =>
      obtain ⟨b, listed, value, word⟩ := (owned.belongs r mem).word bits
      obtain ⟨l, within, rfl⟩ := (b.mem_registers s).mp word
      have kept := (after.owns b (List.mem_append_left _ listed)).words value l within
      rcases (RegMap.mem_insertAll (a.registers_distinct s)).mp kept with his | ⟨-, apart⟩
      · obtain ⟨n, -, same⟩ := (a.mem_registers s).mp his
        have begins := regID_eq_of_word (congrArg Register.prop same)
        refine first _ ((owned.owns b listed).words value 0 b.wsize_pos) ?_
        show (b.word s 0).regID = _
        rw [b.word_regID, b.wordID_zero, begins]
      · refine apart _ own ?_
        show _ = (a.word s k).regID
        rw [id, a.word_regID]
    | some bvec =>
      obtain ⟨i, p, has⟩ := (owned.belongs r mem).someBit bvec bits
      obtain ⟨b, listed, bit, ids, -⟩ := (owned.belongs r mem).bit bvec bits i p has
      obtain ⟨j, -, r', mem', id', bvec', bits', -⟩ :=
        (after.owns b (List.mem_append_left _ listed)).bit (bit_ne bit)
      have same : r' = ⟨a.word s k, Option.none⟩ := by
        refine RegMap.eq_of_regID mem' new ?_
        show r'.regID = (a.word s k).regID
        rw [id', ← ids, id, a.word_regID]
      rw [same] at bits'
      cases bits'
  | bit i r bvec bit mem id bits fresh =>
    refine ⟨fun none => absurd none (bit_ne bit), fun j bit' r' mem' id' bvec' bits' => ?_⟩
    obtain rfl : r' = r := RegMap.eq_of_regID mem' mem (id'.trans id.symm)
    rw [bit, Option.some.injEq] at bit'
    subst bit'
    rw [bits, Option.some.injEq] at bits'
    subst bits'
    cases has : bvec i with
    | none => rfl
    | some p =>
      obtain ⟨b, listed, bitB, ids, same⟩ := (owned.belongs r' mem).bit bvec bits i p has
      obtain ⟨j, bitJ, x, memX, idX, bvecX, bitsX, hasX⟩ :=
        (after.owns b (List.mem_append_left _ listed)).bit (bit_ne bitB)
      rw [bitB, Option.some.injEq] at bitJ
      subst bitJ
      have new : x = { r' with bitreg := some (update bvec i (some (a.prop s))) } :=
        RegMap.eq_of_regID memX (RegMap.mem_insert.mpr (Or.inl rfl)) (idX.trans ids.symm)
      rw [new, Option.some.injEq] at bitsX
      rw [← bitsX, update_self, Option.some.injEq] at hasX
      have sensor : p.si = a.base.si := by rw [same, ← hasX]; rfl
      exact absurd sensor (check_false fresh has)
  | newBit i bit first =>
    exact ⟨fun none => absurd none (bit_ne bit), fun j _ r mem id => absurd id (first r mem)⟩

end Take

/-! ### Runs -/

/-- The sensors accepted, the maps of all addresses, and whether bits were accessed outside of a
register. -/
structure Alloc where
  accepted : List Attributes
  iomap : Nat → RegMap
  outside : Bool

namespace Alloc

/-- Before the first sensor. -/
def empty : Alloc := ⟨[], fun _ => .empty, false⟩

/-- The accepted sensors of an address, without the thresholds, which have no register. -/
def ofAddr (st : Alloc) (addr : Nat) : List Attributes :=
  st.accepted.filter fun a => !a.threshold && decide (a.mbaddr = addr)

end Alloc

/-- **One sensor of the configuration.** `abort` ends the run, and nothing is said of a run after an
access outside of a register. -/
def Alloc.step (s : Slave) (crit : Bool) (st : Alloc) (a : Attributes) : Option Alloc :=
  if st.outside then none
  else if a.threshold then some { st with accepted := st.accepted ++ [a] }
  else
    match s.initAttributes crit (st.iomap a.mbaddr) a with
    | .done accepted m => some
        { accepted := if accepted then st.accepted ++ [a] else st.accepted
          iomap := update st.iomap a.mbaddr m
          outside := false }
    | .aborted => none
    | .outside => some { st with outside := true }

/-- The runs of `initItem`. -/
def allocation (s : Slave) (crit : Bool) : Machine Alloc Attributes where
  start st := st = .empty
  step := Alloc.step s crit

/-- **Every accepted sensor owns its registers or its bit**, the maps have nothing else, and no bits
were accessed outside of a register. -/
structure Alloc.Allocated (s : Slave) (st : Alloc) : Prop where
  inside : st.outside = false
  owned : ∀ addr, MapOwned s (st.ofAddr addr) (st.iomap addr)

/-- **A sensor fits**: a bit below 0 is refused for another reason, the registers behind the first one
of a value are free, and so is a bit, unless the register already has the sensor. -/
structure FitsMap (s : Slave) (crit : Bool) (m : RegMap) (a : Attributes) : Prop where
  below : a.nbit < -1 → ∃ r ∈ m.regs, r.regID = a.regID s ∧ ∀ bvec, r.bitreg = some bvec →
    Slave.check bvec a.base.si = true ∧ crit = false
  words : a.nbit = -1 → (∀ r ∈ m.regs, r.regID ≠ a.regID s) →
    ∀ k, 0 < k → k < a.wsize → ∀ r ∈ m.regs, r.regID ≠ a.wordID s k
  bit : ∀ i, a.bit = some i → ∀ r ∈ m.regs, r.regID = a.regID s → ∀ bvec, r.bitreg = some bvec →
    bvec i = none ∨ Slave.check bvec a.base.si = true

/-- A threshold fits, as it takes no register. -/
def Fits (s : Slave) (crit : Bool) (st : Alloc) (a : Attributes) : Prop :=
  a.threshold = true ∨ FitsMap s crit (st.iomap a.mbaddr) a

section Outcome

variable {s : Slave} {crit : Bool} {m m' : RegMap} {a : Attributes}

theorem FitsMap.free (fits : FitsMap s crit m a) (takes : Takes s m a m') : Free s m a := by
  cases takes with
  | words none first => exact ⟨fun _ => fits.words none first, fun i bit => absurd none (bit_ne bit)⟩
  | bit i r bvec bit mem id bits fresh =>
    refine ⟨fun none => absurd none (bit_ne bit), fun j bit' r' mem' id' bvec' bits' => ?_⟩
    refine (fits.bit j bit' r' mem' id' bvec' bits').resolve_right fun known => ?_
    obtain rfl : r' = r := RegMap.eq_of_regID mem' mem (id'.trans id.symm)
    rw [bits, Option.some.injEq] at bits'
    subst bits'
    rw [fresh] at known
    cases known
  | newBit i bit first =>
    exact ⟨fun none => absurd none (bit_ne bit), fun j _ r mem id => absurd id (first r mem)⟩

/-- The bits of a register are accessed outside of it exactly for a bit below 0 that is not refused
for another reason. -/
theorem initAttributes_outside_iff : s.initAttributes crit m a = .outside ↔
    a.nbit < -1 ∧ ¬ ∃ r ∈ m.regs, r.regID = a.regID s ∧ ∀ bvec, r.bitreg = some bvec →
      Slave.check bvec a.base.si = true ∧ crit = false := by
  by_cases below : a.nbit < -1
  · have noBit : a.bit = none := dif_neg (by omega)
    rw [and_iff_right below, Slave.initAttributes, if_pos (by omega), if_neg (by omega), noBit]
    cases found : m.find (a.prop s).regID with
    | none =>
      refine iff_of_true rfl ?_
      rintro ⟨r, mem, id, -⟩
      exact RegMap.find_eq_none.mp found r mem id
    | some r =>
      obtain ⟨mem, id⟩ := m.mem_of_find found
      have one : ∀ x ∈ m.regs, x.regID = a.regID s → x = r := fun x here same =>
        RegMap.eq_of_regID here mem (same.trans id.symm)
      simp only
      cases bits : r.bitreg with
      | none =>
        refine iff_of_false Outcome.noConfusion (not_not.mpr ⟨r, mem, id, fun bvec some => ?_⟩)
        rw [bits] at some
        cases some
      | some bvec =>
        simp only
        by_cases known : (Slave.check bvec a.base.si && !crit) = true
        · rw [show (a.prop s).si = a.base.si from rfl, if_pos known]
          rw [Bool.and_eq_true, Bool.not_eq_true'] at known
          refine iff_of_false Outcome.noConfusion (not_not.mpr ⟨r, mem, id, fun bvec' some => ?_⟩)
          rw [bits, Option.some.injEq] at some
          rw [← some]
          exact known
        · rw [show (a.prop s).si = a.base.si from rfl, if_neg known]
          refine iff_of_true rfl ?_
          rintro ⟨x, here, same, all⟩
          rw [one x here same] at all
          apply known
          rw [Bool.and_eq_true, Bool.not_eq_true']
          exact all bvec bits
  · refine iff_of_false (fun out => ?_) fun h => below h.1
    by_cases none : a.nbit = -1
    · rw [Slave.initAttributes, if_neg (not_not.mpr none)] at out
      split at out
      · cases out
      · split at out
        · cases out
        · cases out
        · split at out <;> cases out
    · rw [Slave.initAttributes, if_pos none] at out
      split at out
      · cases out
      · next low =>
        have bit : a.bit = some ⟨a.nbit.toNat, by omega⟩ := dif_pos (by omega)
        rw [bit] at out
        cases out

/-- A value of several words with a free first register is accepted. -/
theorem initAttributes_words (none : a.nbit = -1) (first : ∀ r ∈ m.regs, r.regID ≠ a.regID s)
    (several : 1 < a.wsize) : ∃ m', s.initAttributes crit m a = .done true m' := by
  have free : m.find (a.prop s).regID = Option.none := RegMap.find_eq_none.mpr first
  rw [Slave.initAttributes, if_neg (not_not.mpr none), free, if_neg (by decide)]
  rw [Attributes.wsize, Attributes.valueType] at several
  cases type : a.vtype with
  | none =>
    rw [type] at several
    exact absurd several (by decide)
  | some v =>
    rw [type] at several
    cases v <;> first
    | exact absurd several (by decide)
    | exact ⟨_, rfl⟩

/-- A bit of a register that does not have the sensor yet is accepted. -/
theorem initAttributes_bit (bit : a.bit = some i) (mem : r ∈ m.regs) (id : r.regID = a.regID s)
    (bits : r.bitreg = some bvec) (fresh : Slave.check bvec a.base.si = false) :
    ∃ m', s.initAttributes crit m a = .done true m' := by
  have found : m.find (a.prop s).regID = some r := RegMap.find_eq_some.mpr ⟨mem, id⟩
  have inside : 0 ≤ a.nbit ∧ a.nbit < 16 := by
    by_contra out
    rw [Attributes.bit, dif_neg out] at bit
    cases bit
  rw [Slave.initAttributes, if_pos (bit_ne bit), if_neg (by omega), bit]
  simp only [Slave.initBit, found, bits]
  rw [if_neg (by rw [show (a.prop s).si = a.base.si from rfl, fresh]; decide)]
  exact ⟨_, rfl⟩

end Outcome

section Step

variable {s : Slave} {crit : Bool} {st t : Alloc} {a : Attributes}

theorem Alloc.ofAddr_append (addr : Nat) (iomap : Nat → RegMap) (outside : Bool) :
    Alloc.ofAddr ⟨st.accepted ++ [a], iomap, outside⟩ addr =
      st.ofAddr addr ++ if !a.threshold && decide (a.mbaddr = addr) then [a] else [] := by
  rw [Alloc.ofAddr, List.filter_append, List.filter_singleton, Bool.cond_eq_ite]
  rfl

/-- A threshold is accepted and takes nothing. -/
theorem Alloc.Allocated.threshold (allocated : st.Allocated s) (threshold : a.threshold = true) :
    Alloc.Allocated s { st with accepted := st.accepted ++ [a] } where
  inside := allocated.inside
  owned addr := by
    rw [Alloc.ofAddr_append, threshold]
    simp only [Bool.not_true, Bool.false_and, Bool.false_eq_true, if_false, List.append_nil]
    exact allocated.owned addr

/-- The state after a sensor that is no threshold was accepted. -/
def Alloc.take (st : Alloc) (a : Attributes) (m : RegMap) : Alloc :=
  ⟨st.accepted ++ [a], update st.iomap a.mbaddr m, false⟩

/-- The maps of the other addresses are as they were. -/
theorem Alloc.allocated_take_iff (allocated : st.Allocated s) (real : a.threshold = false)
    (m : RegMap) :
    (st.take a m).Allocated s ↔ MapOwned s (st.ofAddr a.mbaddr ++ [a]) m := by
  have own : (st.take a m).ofAddr a.mbaddr = st.ofAddr a.mbaddr ++ [a] := by
    rw [Alloc.take, Alloc.ofAddr_append, real]
    simp
  have map : (st.take a m).iomap a.mbaddr = m := update_self _ _ _
  constructor
  · intro after
    have here := after.owned a.mbaddr
    rwa [own, map] at here
  · intro here
    refine ⟨rfl, fun addr => ?_⟩
    by_cases same : addr = a.mbaddr
    · rw [same, own, map]
      exact here
    · have others : (st.take a m).ofAddr addr = st.ofAddr addr := by
        rw [Alloc.take, Alloc.ofAddr_append, real]
        simp [Ne.symm same]
      have kept : (st.take a m).iomap addr = st.iomap addr := update_of_ne same _ _
      rw [others, kept]
      exact allocated.owned addr

/-- **What a sensor that is no threshold does.** -/
theorem Alloc.step_cases (inside : st.outside = false) (real : a.threshold = false)
    (h : st.step s crit a = some t) :
    t = st ∨ (∃ m', Takes s (st.iomap a.mbaddr) a m' ∧ t = st.take a m') ∨
      (s.initAttributes crit (st.iomap a.mbaddr) a = .outside ∧ t.outside = true) := by
  unfold Alloc.step at h
  rw [inside, if_neg (by decide), if_neg (by rw [real]; decide)] at h
  split at h
  · next accepted m' outcome =>
    rcases initAttributes_cases outcome with ⟨rfl, rfl⟩ | ⟨rfl, takes⟩
    · left
      rw [if_neg (by decide), update_eq_self, Option.some.injEq] at h
      rw [← h, ← inside]
    · right
      left
      rw [if_pos rfl, Option.some.injEq] at h
      exact ⟨m', takes, h.symm⟩
  · cases h
  · next outcome =>
    rw [Option.some.injEq] at h
    exact Or.inr (Or.inr ⟨outcome, h ▸ rfl⟩)

/-- A sensor that fits leaves every sensor what it has. -/
theorem Alloc.Allocated.step (allocated : st.Allocated s) (fits : Fits s crit st a)
    (h : st.step s crit a = some t) : t.Allocated s := by
  cases threshold : a.threshold with
  | true =>
    unfold Alloc.step at h
    rw [if_neg (by rw [allocated.inside]; decide), if_pos threshold, Option.some.injEq] at h
    rw [← h]
    exact allocated.threshold threshold
  | false =>
    have fits := fits.resolve_left (by rw [threshold]; decide)
    rcases Alloc.step_cases allocated.inside threshold h with rfl | ⟨m', takes, rfl⟩ | ⟨outcome, -⟩
    · exact allocated
    · rw [Alloc.allocated_take_iff allocated threshold]
      exact (allocated.owned a.mbaddr).takes (fits.free takes) takes
    · obtain ⟨below, alone⟩ := initAttributes_outside_iff.mp outcome
      exact absurd (fits.below below) alone

/-- A sensor that is accepted but does not take what is free leaves another one without it. -/
theorem Alloc.Allocated.lost (allocated : st.Allocated s) (real : a.threshold = false)
    (outcome : ∃ m', s.initAttributes crit (st.iomap a.mbaddr) a = .done true m')
    (taken : ¬ Free s (st.iomap a.mbaddr) a) : ∃ t, st.step s crit a = some t ∧ ¬ t.Allocated s := by
  obtain ⟨m', outcome⟩ := outcome
  have takes : Takes s (st.iomap a.mbaddr) a m' := by
    rcases initAttributes_cases outcome with ⟨refused, -⟩ | ⟨-, takes⟩
    · cases refused
    · exact takes
  refine ⟨st.take a m', ?_, ?_⟩
  · unfold Alloc.step
    rw [allocated.inside, if_neg (by decide), if_neg (by rw [real]; decide), outcome]
    rfl
  · rw [Alloc.allocated_take_iff allocated real]
    exact (allocated.owned a.mbaddr).lost taken takes

/-- **A sensor that does not fit breaks the allocation.** -/
theorem Alloc.Allocated.broken (allocated : st.Allocated s) (unfit : ¬ Fits s crit st a) :
    ∃ t, st.step s crit a = some t ∧ ¬ t.Allocated s := by
  obtain ⟨real, unfit⟩ := not_or.mp unfit
  rw [Bool.not_eq_true] at real
  by_contra fine
  apply unfit
  constructor
  · intro below
    by_contra alone
    have outcome : s.initAttributes crit (st.iomap a.mbaddr) a = .outside :=
      initAttributes_outside_iff.mpr ⟨below, alone⟩
    refine fine ⟨{ st with outside := true }, ?_, fun after => ?_⟩
    · unfold Alloc.step
      rw [allocated.inside, if_neg (by decide), if_neg (by rw [real]; decide), outcome]
    · exact Bool.noConfusion after.inside
  · intro none first k positive inside r mem id
    refine fine (allocated.lost real (initAttributes_words none first (by omega)) fun free => ?_)
    exact free.words none k positive inside r mem id
  · intro i bit r mem id bvec bits
    by_contra both
    obtain ⟨used, fresh⟩ := not_or.mp both
    rw [Bool.not_eq_true] at fresh
    refine fine (allocated.lost real (initAttributes_bit bit mem id bits fresh) fun free => ?_)
    exact used (free.bit i bit r mem id bvec bits)

end Step

theorem Alloc.allocated_empty (s : Slave) : Alloc.empty.Allocated s :=
  ⟨rfl, fun _ => ⟨fun _ listed => absurd listed List.not_mem_nil,
    fun _ listed => absurd listed List.not_mem_nil⟩⟩

/-- **Throughout a run every accepted sensor owns exactly its registers or its bit, and no bits are
accessed outside of a register, if and only if every sensor of the run fits.** -/
theorem allocation_iff (s : Slave) (crit : Bool) (items : List Attributes) :
    (allocation s crit).Always (Alloc.Allocated s) .empty items ↔
      (allocation s crit).Meets (Fits s crit) .empty items :=
  Machine.always_iff_meets (fun _ allocated => allocated)
    (fun _ _ _ allocated fits stepped => allocated.step fits stepped)
    (fun _ _ allocated unfit => allocated.broken unfit) (Alloc.allocated_empty s)

/-- A second sensor that does not fit beside the first. -/
theorem not_always_pair {s : Slave} {crit : Bool} {a b : Attributes} {st : Alloc}
    (first : Alloc.empty.step s crit a = some st) (unfit : ¬ Fits s crit st b) :
    ¬ (allocation s crit).Always (Alloc.Allocated s) .empty [a, b] := by
  intro always
  obtain ⟨allocated, later⟩ := always.2 st first
  obtain ⟨t, stepped, lost⟩ := allocated.broken unfit
  exact lost (later t stepped)

/-- An analog sensor of the function 3 and the address 1. -/
def plainAttributes (id : ObjectId) (mbreg : UInt16) (nbit : Int) (vtype : Option VType) :
    Attributes where
  base := plainBase id
  threshold := false
  mbaddr := 1
  mbreg := mbreg
  mbfunc := 3
  amode := .amRW
  nbit := nbit
  vtype := vtype
  nbyte := 0

/-- **Two sensors on one bit, a value of two words before a register that is taken, and the bit -2.** -/
theorem allocation_fails :
    ¬ (allocation plainSlave false).Always (Alloc.Allocated plainSlave) .empty
        [plainAttributes 1 10 0 none, plainAttributes 2 10 0 none] ∧
      ¬ (allocation plainSlave false).Always (Alloc.Allocated plainSlave) .empty
        [plainAttributes 1 11 (-1) none, plainAttributes 2 10 (-1) (some .vtI2)] ∧
      ¬ (allocation plainSlave false).Always (Alloc.Allocated plainSlave) .empty
        [plainAttributes 1 10 (-2) none] := by
  refine ⟨not_always_pair rfl ?_, not_always_pair rfl ?_, fun always => ?_⟩
  · rintro (threshold | fits)
    · cases threshold
    · rcases fits.bit 0 rfl _ List.mem_cons_self rfl _ rfl with free | known
      · cases free
      · cases known
  · rintro (threshold | fits)
    · cases threshold
    · refine fits.words rfl (fun r mem => ?_) 1 (by decide) (by decide) _ List.mem_cons_self rfl
      rw [List.mem_singleton.mp mem]
      decide
  · exact Bool.noConfusion (always.2 _ rfl).inside

end UniSet.ModbusSlave

/-
**How the register maps of a Modbus slave are built of its sensors.**

* `Item` — a sensor of the configuration.
* `initItem` — a sensor takes a bit of a register or as many registers as its value has words. The
  registers after the first one overwrite what the map had there.
* **`initWords_find`**: the registers of a value are its words in their order, each with a copy of the item.
-/

import UniSet.ModbusSlave.RegMap

namespace UniSet.ModbusSlave

open ModbusMaster (ObjectId SensorInfo IOType VType genRegID)

/-- **A sensor of the configuration**: what `IOBase::initItem` and `initItem` make of its attributes. -/
structure Item where
  base : IOBase
  /-- The sensor is a threshold, `t_ai`. -/
  threshold : Bool
  mbaddr : Nat
  mbreg : Nat
  mbfunc : Nat
  amode : AccessMode
  nbit : Option Nat
  /-- None for an empty `vtype`. An unknown one is `vtUnknown`. -/
  vtype : Option VType
  nbyte : Nat

/-- The maps by address, in the order the process goes through them. -/
abbrev IOMap := List (Nat × RegMap)

namespace RegMap

theorem insert_sorted (m : RegMap) (r : Register) :
    (((m.regs.filter (fun x => x.regID < r.regID)) ++
      r :: (m.regs.filter (fun x => r.regID < x.regID))).map Register.regID).Pairwise (· < ·) := by
  have sub : ∀ f : Register → Bool, ((m.regs.filter f).map Register.regID).Pairwise (· < ·) :=
    fun f => m.sorted.sublist (List.filter_sublist.map _)
  rw [List.map_append, List.pairwise_append, List.map_cons, List.pairwise_cons]
  refine ⟨sub _, ⟨?_, sub _⟩, ?_⟩
  · intro id mem
    obtain ⟨x, listed, rfl⟩ := List.mem_map.mp mem
    simpa using (List.mem_filter.mp listed).2
  · intro id mem id' mem'
    obtain ⟨x, listed, rfl⟩ := List.mem_map.mp mem
    have less : x.regID < r.regID := by simpa using (List.mem_filter.mp listed).2
    rcases List.mem_cons.mp mem' with rfl | mem'
    · exact less
    · obtain ⟨y, listed', rfl⟩ := List.mem_map.mp mem'
      exact less.trans (by simpa using (List.mem_filter.mp listed').2)

/-- `rmap[regID] = p`. -/
def insert (m : RegMap) (r : Register) : RegMap where
  regs := m.regs.filter (fun x => x.regID < r.regID) ++
    r :: m.regs.filter (fun x => r.regID < x.regID)
  sorted := m.insert_sorted r

/-- A new map. -/
def empty : RegMap := ⟨[], List.Pairwise.nil⟩

theorem mem_insert {m : RegMap} {r x : Register} :
    x ∈ (m.insert r).regs ↔ x = r ∨ (x ∈ m.regs ∧ x.regID ≠ r.regID) := by
  simp only [insert, List.mem_append, List.mem_cons, List.mem_filter, decide_eq_true_eq]
  constructor
  · rintro (⟨mem, less⟩ | rfl | ⟨mem, less⟩)
    · exact Or.inr ⟨mem, less.ne⟩
    · exact Or.inl rfl
    · exact Or.inr ⟨mem, less.ne'⟩
  · rintro (rfl | ⟨mem, apart⟩)
    · exact Or.inr (Or.inl rfl)
    · rcases Nat.lt_or_gt_of_ne apart with less | less
      · exact Or.inl ⟨mem, less⟩
      · exact Or.inr (Or.inr ⟨mem, less⟩)

theorem find_insert_self (m : RegMap) (r : Register) : (m.insert r).find r.regID = some r :=
  find_of_mem _ (mem_insert.mpr (Or.inl rfl))

theorem find_insert_of_ne {m : RegMap} {r x : Register} (found : m.find x.regID = some x)
    (apart : x.regID ≠ r.regID) : (m.insert r).find x.regID = some x :=
  find_of_mem _ (mem_insert.mpr (Or.inr ⟨(m.mem_of_find found).1, apart⟩))

end RegMap

/-! ### A sensor takes its registers -/

namespace Slave

variable (s : Slave)

/-- The function a sensor is asked with. -/
def itemFunc (it : Item) : Nat :=
  s.getOptimizeWriteFunction (if s.checkMBFunc then it.mbfunc else s.defaultMbfunc)

/-- The item of a sensor before its type is known. -/
def itemProp (it : Item) : IOProperty where
  toIOBase := it.base
  mbreg := it.mbreg
  amode := it.amode
  vtype := .vtUnknown
  wnum := 0
  nbyte := 0
  regID := genRegID it.mbreg (s.itemFunc it)

/-- The item of a sensor with a type. Only a byte has a number. -/
def typedProp (it : Item) (v : VType) : IOProperty :=
  { s.itemProp it with vtype := v, nbyte := if v = .vtByte then it.nbyte else 0 }

/-- `BitRegProperty::check`: the sensor already has a bit of the register. -/
def check (bvec : BitRegProperty) (si : SensorInfo) : Bool :=
  (List.finRange 16).any fun i => (bvec i).any fun p => p.si = si

/-- The item of a bit is added to its register, or the register is made for it. -/
def initBit (m : RegMap) (p : IOProperty) (nbit : Fin 16) : Bool × RegMap :=
  match m.find p.regID with
  | some r =>
    match r.bitreg with
    | none => (false, m)
    | some bvec =>
      if check bvec p.si then (false, m)
      else (true, m.insert { r with bitreg := some (Function.update bvec nbit (some p)) })
  | none =>
    let dummy := { p with toIOBase := p.makeIobaseCopy, mbreg := 0 }
    (true, m.insert ⟨dummy, some (Function.update (fun _ => none) nbit (some p))⟩)

/-- The copy of the item for a word of its value. -/
def wordProp (p : IOProperty) (mbfunc k : Nat) : IOProperty :=
  let mbreg := (p.mbreg + k) % 65536
  { p with
    toIOBase := p.makeIobaseCopy
    mbreg := mbreg
    wnum := k
    regID := genRegID mbreg mbfunc }

/-- The registers of a value: the item, and copies of it for the words after the first. -/
def initWords (m : RegMap) (p : IOProperty) (mbfunc : Nat) : RegMap :=
  (List.range' 1 (p.vtype.wsize - 1)).foldl (fun m k => m.insert ⟨wordProp p mbfunc k, none⟩)
    (m.insert ⟨p, none⟩)

/-- The part of `initItem` on the map of the address. None is `abort`. -/
def initReg (m : RegMap) (it : Item) : Option (Bool × RegMap) :=
  let p := s.itemProp it
  match it.nbit with
  | some nbit => if less : nbit < 16 then some (initBit m p ⟨nbit, less⟩) else some (false, m)
  | none =>
    if (m.find p.regID).isSome then none
    else
      match it.vtype with
      | none => some (true, m.insert ⟨p, none⟩)
      | some .vtUnknown => some (false, m)
      | some v =>
        if v = .vtByte ∧ (it.nbyte = 0 ∨ 2 < it.nbyte) then some (false, m)
        else some (true, initWords m (s.typedProp it v) (s.itemFunc it))

/-- **`MBSlave::initItem`**: the map of the address is made if there is none. -/
def initItem (iomap : IOMap) (it : Item) : Option (Bool × IOMap) :=
  if it.threshold then some (true, iomap)
  else
    let iomap := if (iomap.lookup it.mbaddr).isSome then iomap else iomap ++ [(it.mbaddr, .empty)]
    (s.initReg ((iomap.lookup it.mbaddr).getD .empty) it).map fun done =>
      (done.1, iomap.map fun entry => if entry.1 = it.mbaddr then (entry.1, done.2) else entry)

/-- `MBSlave::readConfiguration`: all sensors, one after another. A sensor that is refused is left
out. -/
def readConfiguration (items : List Item) : Option IOMap :=
  items.foldlM (fun iomap it => (s.initItem iomap it).map Prod.snd) []

/-! ### The registers of a value -/

variable {m : RegMap} {p : IOProperty}

theorem find_initWords_of_ne {fn : Nat} {x : Register} (ks : List Nat)
    (apart : ∀ k ∈ ks, x.regID ≠ (wordProp p fn k).regID) (found : m.find x.regID = some x) :
    (ks.foldl (fun m k => m.insert ⟨wordProp p fn k, none⟩) m).find x.regID = some x := by
  induction ks generalizing m with
  | nil => exact found
  | cons k ks ih =>
    rw [List.foldl_cons]
    apply ih fun k' inside => apart k' (List.mem_cons_of_mem _ inside)
    exact RegMap.find_insert_of_ne found (apart k List.mem_cons_self)

theorem wordProp_regID {fn k : Nat} (reg : p.regID = genRegID p.mbreg fn)
    (less : p.mbreg + k < 65536) : (wordProp p fn k).regID = p.regID + k := by
  rw [wordProp, reg]
  dsimp only
  rw [Nat.mod_eq_of_lt less, genRegID, genRegID]
  omega

/-- **The registers of a value are its words in their order**, if the addresses reach for all of them. -/
theorem initWords_find {fn : Nat} (reg : p.regID = genRegID p.mbreg fn)
    (fit : p.mbreg + p.vtype.wsize ≤ 65536) :
    (initWords m p fn).find p.regID = some ⟨p, none⟩ ∧
    ∀ k, 0 < k → k < p.vtype.wsize →
      (initWords m p fn).find (p.regID + k) = some ⟨wordProp p fn k, none⟩ := by
  have same : ∀ k < p.vtype.wsize, (wordProp p fn k).regID = p.regID + k := fun k inside' =>
    wordProp_regID reg (by omega)
  constructor
  · rw [initWords]
    refine find_initWords_of_ne (x := ⟨p, none⟩) _ ?_ (m.find_insert_self ⟨p, none⟩)
    intro k inside'
    rw [List.mem_range'_1] at inside'
    rw [same k (by omega)]
    show p.regID ≠ p.regID + k
    omega
  · intro k pos inside'
    -- the words before, this word and the words after it
    have list : List.range' 1 (p.vtype.wsize - 1) =
        List.range' 1 (k - 1) ++ k :: List.range' (k + 1) (p.vtype.wsize - 1 - k) := by
      have app := @List.range'_append_1 1 (k - 1) (p.vtype.wsize - k)
      have cons : List.range' k (p.vtype.wsize - k) =
          k :: List.range' (k + 1) (p.vtype.wsize - 1 - k) := by
        have len : p.vtype.wsize - k = p.vtype.wsize - 1 - k + 1 := by omega
        rw [len, List.range'_succ]
      have start : 1 + (k - 1) = k := by omega
      have len : k - 1 + (p.vtype.wsize - k) = p.vtype.wsize - 1 := by omega
      rw [start, len, cons] at app
      exact app.symm
    rw [initWords, list, List.foldl_append, List.foldl_cons, ← same k inside']
    refine find_initWords_of_ne (x := ⟨wordProp p fn k, none⟩) _ ?_ (RegMap.find_insert_self _ _)
    intro k' inside
    rw [List.mem_range'_1] at inside
    show (wordProp p fn k).regID ≠ _
    rw [same k inside', same k' (by omega)]
    omega

end Slave

/-! ### A slave and a sensor without conversions -/

/-- An analog sensor of the configuration without conversions. -/
def plainBase (id : ObjectId) : IOBase where
  si := ⟨id, 0⟩
  stype := .AI
  value := 0
  invert := false
  rawdata := false
  depend := none
  filter := none
  filtered := []
  cal := none
  debounced := fun set => set

/-- A slave without `force` that takes every function for one. -/
def plainSlave : Slave where
  force := false
  checkMBFunc := false
  defaultMbfunc := 0
  noMBFuncOptimize := false
  floats := ⟨fun _ _ _ => 0, fun _ _ _ => 0⟩

end UniSet.ModbusSlave

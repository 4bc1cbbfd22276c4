/-
**Block writes of a Modbus slave: which sensors get which words.**

* `RegMap.Layout` — what the registers of a value and of bits look like in a map of `initItem`, whatever
  the values of its items are now (`Laid`).
* `stores` — what the write of a register stores: an item and the words its value is made of. `blockStores`
  is what a whole block stores, in its order (`muchWrite_sm`).
* `due` — what it should store in a register: the words at the item's own positions, if all of them are
  in the range.
* `Foreign` — a register at which a block should store nothing, but would: a later word of a value, the
  first word of one that goes on behind register 65535, an item of another function.
* **`muchWrite_iff`** — a block stores what is due, and stays inside the map, exactly if it meets no such
  register, or only one that its last words do not fill, with nothing due behind it.
-/

import UniSet.ModbusSlave.Allocation
import UniSet.ModbusSlave.BlockRead

namespace UniSet.ModbusSlave

open ModbusMaster (VType genRegID)
open UniSet.Lib (Machine)
open VTypes

/-! ### The maps of `initItem` -/

/-- A register of a later word of a value. -/
def Register.Later (r : Register) : Prop := r.bitreg = none ∧ r.prop.wnum ≠ 0

/-- **The layout of a map**: the items of a register have its identifier, bits have no type, and the
words of a value follow its first one. -/
structure RegMap.Layout (m : RegMap) : Prop where
  items : ∀ r ∈ m.regs, ∀ p ∈ r.items, p.regID = r.regID ∧ p.mbreg < 65536
  bits : ∀ r ∈ m.regs, r.bitreg ≠ none → ∀ p ∈ r.items, p.vtype = .vtUnknown
  words : ∀ f ∈ m.regs, f.bitreg = none → f.prop.wnum = 0 →
    f.prop.mbreg + f.prop.vtype.wsize ≤ 65536 → ∀ k, 0 < k → k < f.prop.vtype.wsize →
      ∃ x ∈ m.regs, x.regID = f.regID + k ∧ x.Later

variable {r : Register} {p : IOProperty} {m : RegMap} {words dat : List ModbusData}

theorem Register.mem_items_word (word : r.bitreg = none) : p ∈ r.items ↔ p = r.prop := by
  rw [items, word]
  exact List.mem_singleton

theorem Register.mem_items_bit {bvec : BitRegProperty} (bits : r.bitreg = some bvec) :
    p ∈ r.items ↔ ∃ i, bvec i = some p := by
  simp [items, bits]

section Built

variable {s : Slave} {m m' : RegMap} {a : Attributes}

theorem RegMap.layout_empty : RegMap.empty.Layout :=
  ⟨fun _ mem => absurd mem List.not_mem_nil, fun _ mem => absurd mem List.not_mem_nil,
    fun _ mem => absurd mem List.not_mem_nil⟩

/-- The words of a value that do not go beyond register 65535 follow one another. -/
theorem Attributes.wordID_eq {k : Nat} (fits : a.mbreg.toNat + k < 65536) :
    a.wordID s k = a.regID s + k := by
  rw [wordID, regID, Nat.mod_eq_of_lt fits, genRegID, genRegID]
  omega

theorem RegMap.Layout.takeWords (layout : m.Layout) (first : ∀ r ∈ m.regs, r.regID ≠ a.regID s) :
    (m.insertAll (a.registers s)).Layout := by
  have cases : ∀ x, x ∈ (m.insertAll (a.registers s)).regs ↔
      x ∈ a.registers s ∨ (x ∈ m.regs ∧ ∀ r ∈ a.registers s, x.regID ≠ r.regID) :=
    fun _ => RegMap.mem_insertAll (a.registers_distinct s)
  -- a later word of the map is one still, or is a later word of the new value now
  have later : ∀ x ∈ m.regs, x.Later →
      ∃ y ∈ (m.insertAll (a.registers s)).regs, y.regID = x.regID ∧ y.Later := by
    intro x old isLater
    by_cases taken : ∃ r ∈ a.registers s, x.regID = r.regID
    · obtain ⟨r, own, same⟩ := taken
      obtain ⟨k, inside, rfl⟩ := (a.mem_registers s).mp own
      refine ⟨_, (cases _).mpr (Or.inl own), same.symm, rfl, ?_⟩
      show (a.word s k).wnum ≠ 0
      rw [a.word_wnum]
      rintro rfl
      refine first x old (same.trans ?_)
      show (a.word s 0).regID = _
      rw [a.word_regID, a.wordID_zero]
    · refine ⟨x, (cases x).mpr (Or.inr ⟨old, fun r own same => taken ⟨r, own, same⟩⟩), rfl, isLater⟩
  constructor
  · intro r here p item
    rcases (cases r).mp here with own | ⟨old, -⟩
    · obtain ⟨k, -, rfl⟩ := (a.mem_registers s).mp own
      rw [(Register.mem_items_word rfl).mp item]
      refine ⟨rfl, ?_⟩
      show (a.word s k).mbreg < 65536
      rw [a.word_mbreg]
      omega
    · exact layout.items r old p item
  · intro r here bits
    rcases (cases r).mp here with own | ⟨old, -⟩
    · obtain ⟨k, -, rfl⟩ := (a.mem_registers s).mp own
      exact absurd rfl bits
    · exact layout.bits r old bits
  · intro f here word start fits k positive inside
    rcases (cases f).mp here with own | ⟨old, -⟩
    · obtain ⟨l, within, rfl⟩ := (a.mem_registers s).mp own
      obtain rfl : l = 0 := (a.word_wnum s l).symm.trans start
      have same : (a.word s 0).vtype.wsize = a.wsize := rfl
      have number : (a.word s 0).mbreg = a.mbreg.toNat := rfl
      simp only [same, number] at fits inside
      have next : (⟨a.word s k, none⟩ : Register) ∈ a.registers s :=
        (a.mem_registers s).mpr ⟨k, inside, rfl⟩
      refine ⟨_, (cases _).mpr (Or.inl next), ?_, rfl, ?_⟩
      · show (a.word s k).regID = (a.word s 0).regID + k
        rw [a.word_regID, a.word_regID, a.wordID_zero, Attributes.wordID_eq (by omega)]
      · show (a.word s k).wnum ≠ 0
        rw [a.word_wnum]
        omega
    · obtain ⟨x, mem, id, isLater⟩ := layout.words f old word start fits k positive inside
      obtain ⟨y, mem', id', isLater'⟩ := later x mem isLater
      exact ⟨y, mem', id'.trans id, isLater'⟩

/-- A register of bits takes the place of one, or is new. -/
theorem RegMap.Layout.takeBit (layout : m.Layout) (bits : r.bitreg ≠ none)
    (place : ∀ x ∈ m.regs, x.regID = r.regID → x.bitreg ≠ none)
    (items : ∀ p ∈ r.items, p.regID = r.regID ∧ p.mbreg < 65536 ∧ p.vtype = .vtUnknown) :
    (m.insert r).Layout := by
  constructor
  · intro x here p item
    rcases RegMap.mem_insert.mp here with rfl | ⟨old, -⟩
    · exact ⟨(items p item).1, (items p item).2.1⟩
    · exact layout.items x old p item
  · intro x here hasBits p item
    rcases RegMap.mem_insert.mp here with rfl | ⟨old, -⟩
    · exact (items p item).2.2
    · exact layout.bits x old hasBits p item
  · intro f here word start fits k positive inside
    rcases RegMap.mem_insert.mp here with rfl | ⟨old, -⟩
    · exact absurd word bits
    · obtain ⟨x, mem, id, isLater⟩ := layout.words f old word start fits k positive inside
      exact ⟨x, RegMap.mem_insert.mpr (Or.inr ⟨mem, fun same => place x mem same isLater.1⟩), id, isLater⟩

/-- **What a sensor takes keeps the layout.** -/
theorem RegMap.Layout.takes (layout : m.Layout) (takes : Takes s m a m') : m'.Layout := by
  have own : (a.prop s).mbreg < 65536 ∧ (a.prop s).vtype = .vtUnknown := ⟨a.mbreg.toNat_lt, rfl⟩
  cases takes with
  | words none first => exact layout.takeWords first
  | bit i r bvec bit mem id bits fresh =>
    refine layout.takeBit (by simp) (fun x here same => ?_) (fun p item => ?_)
    · rw [RegMap.eq_of_regID here mem same, bits]
      simp
    · obtain ⟨j, has⟩ := (Register.mem_items_bit rfl).mp item
      by_cases here : j = i
      · subst here
        rw [Function.update_self, Option.some.injEq] at has
        rw [← has]
        exact ⟨id.symm, own⟩
      · rw [Function.update_of_ne here] at has
        have old : p ∈ r.items := (Register.mem_items_bit bits).mpr ⟨j, has⟩
        obtain ⟨ids, number⟩ := layout.items r mem p old
        exact ⟨ids, number, layout.bits r mem (by rw [bits]; simp) p old⟩
  | newBit i bit first =>
    refine layout.takeBit (by simp) (fun x here same => absurd same (first x here)) (fun p item => ?_)
    obtain ⟨j, has⟩ := (Register.mem_items_bit rfl).mp item
    by_cases here : j = i
    · subst here
      rw [Function.update_self, Option.some.injEq] at has
      rw [← has]
      exact ⟨rfl, own⟩
    · rw [Function.update_of_ne here] at has
      cases has

end Built

/-- Items that differ in the values of their sensors only, in registers of the same layout. -/
structure Register.SameLayout (r r' : Register) : Prop where
  prop : r.prop.SameItem r'.prop
  word : r.bitreg = none ↔ r'.bitreg = none
  items : ∀ p' ∈ r'.items, ∃ p ∈ r.items, p.SameItem p'

/-- **A map of a slave in operation**: one that `initItem` made in some run, with any values now. -/
def Laid (s : Slave) (m : RegMap) : Prop :=
  ∃ crit items st addr, (allocation s crit).run .empty items = some st ∧
    List.Forall₂ Register.SameLayout (st.iomap addr).regs m.regs

theorem Register.SameLayout.regID_eq {r' : Register} (same : r.SameLayout r') :
    r'.regID = r.regID := same.prop.regID

theorem RegMap.Layout.sameLayout {m' : RegMap} (layout : m.Layout)
    (same : List.Forall₂ Register.SameLayout m.regs m'.regs) : m'.Layout := by
  have back : ∀ r' ∈ m'.regs, ∃ r ∈ m.regs, r.SameLayout r' := by
    intro r' mem
    obtain ⟨i, inside, rfl⟩ := List.mem_iff_getElem.mp mem
    have shorter : i < m.regs.length := same.length_eq ▸ inside
    exact ⟨m.regs[i], List.getElem_mem shorter, same.get shorter inside⟩
  have forth : ∀ r ∈ m.regs, ∃ r' ∈ m'.regs, r.SameLayout r' := by
    intro r mem
    obtain ⟨i, inside, rfl⟩ := List.mem_iff_getElem.mp mem
    have shorter : i < m'.regs.length := same.length_eq ▸ inside
    exact ⟨m'.regs[i], List.getElem_mem shorter, same.get inside shorter⟩
  have fields : ∀ {p p' : IOProperty}, p.SameItem p' →
      p'.regID = p.regID ∧ p'.mbreg = p.mbreg ∧ p'.vtype = p.vtype ∧ p'.wnum = p.wnum := by
    intro p p' item
    rw [item.1]
    exact ⟨rfl, rfl, rfl, rfl⟩
  constructor
  · intro r' mem' p' item'
    obtain ⟨r, mem, alike⟩ := back r' mem'
    obtain ⟨p, item, equal⟩ := alike.items p' item'
    rw [(fields equal).1, (fields equal).2.1, alike.regID_eq]
    exact layout.items r mem p item
  · intro r' mem' bits p' item'
    obtain ⟨r, mem, alike⟩ := back r' mem'
    obtain ⟨p, item, equal⟩ := alike.items p' item'
    rw [(fields equal).2.2.1]
    exact layout.bits r mem (fun word => bits (alike.word.mp word)) p item
  · intro f' mem' word start fits k positive inside
    obtain ⟨f, mem, alike⟩ := back f' mem'
    obtain ⟨-, number, type, first⟩ := fields alike.prop
    rw [number, type] at fits
    rw [type] at inside
    rw [first] at start
    obtain ⟨x, here, id, later⟩ :=
      layout.words f mem (alike.word.mpr word) start fits k positive inside
    obtain ⟨x', here', equal⟩ := forth x here
    refine ⟨x', here', ?_, equal.word.mp later.1, ?_⟩
    · rw [equal.regID_eq, id, alike.regID_eq]
    · rw [(fields equal.prop).2.2.2]
      exact later.2

/-- **The maps of a slave have the layout.** -/
theorem Laid.layout {s : Slave} (laid : Laid s m) : m.Layout := by
  obtain ⟨crit, items, st, addr, ran, same⟩ := laid
  refine RegMap.Layout.sameLayout ?_ same
  refine Machine.run_invariant (P := fun st => ∀ addr, (st.iomap addr).Layout) (fun st a t laid _ stepped => ?_)
    (fun _ => RegMap.layout_empty) (Machine.meets_true items) ran addr
  intro addr
  change Alloc.step s crit st a = some t at stepped
  cases outside : st.outside with
  | true =>
    rw [Alloc.step, outside] at stepped
    cases stepped
  | false =>
    cases threshold : a.threshold with
    | true =>
      rw [Alloc.step, outside, if_neg (by decide), if_pos threshold, Option.some.injEq] at stepped
      rw [← stepped]
      exact laid addr
    | false =>
      rcases Alloc.step_cases outside threshold stepped with rfl | ⟨m', takes, rfl⟩ | ⟨outcome, -⟩
      · exact laid addr
      · show (Function.update st.iomap a.mbaddr m' addr).Layout
        by_cases here : addr = a.mbaddr
        · rw [here, Function.update_self]
          exact (laid a.mbaddr).takes takes
        · rw [Function.update_of_ne here]
          exact laid addr
      · rw [Alloc.step, outside, if_neg (by decide), if_neg (by rw [threshold]; decide), outcome,
          Option.some.injEq] at stepped
        rw [← stepped]
        exact laid addr

/-! ### What a write stores -/

/-- **A value that is stored**: the item and the words the value is made of. -/
abbrev Stored := IOProperty × List ModbusData

/-- The word a bit is written with. -/
def bitWord (i : Fin 16) (val : ModbusData) : ModbusData := if val.getLsbD i then 1 else 0

/-- What a write of an item stores: nothing if it is only read, or if the words do not reach. -/
def IOProperty.stores (p : IOProperty) (words : List ModbusData) : List Stored :=
  if p.amode = .amRO ∨ words.length < p.vtype.wsize then [] else [(p, words.take p.vtype.wsize)]

/-- What the bits of a list store. -/
def bitStores (bvec : BitRegProperty) (val : ModbusData) (bits : List (Fin 16)) : List Stored :=
  bits.flatMap fun i => (bvec i).elim [] fun p => p.stores [bitWord i val]

/-- What a write of a register stores. -/
def Register.stores (r : Register) (words : List ModbusData) : List Stored :=
  match r.bitreg with
  | none => r.prop.stores words
  | some bvec => bitStores bvec (words.getD 0 0) (List.finRange 16)

/-- SharedMemory once the value is stored. -/
def Stored.apply (s : Slave) (sm : SMValues) (e : Stored) : SMValues := (e.1.realWriteProp s e.2 sm).sm

section Stores

variable (s : Slave)

theorem VType.wsize_pos (v : VType) : 0 < v.wsize := by cases v <;> decide

/-- Words that are not the item's own do not matter. -/
theorem IOProperty.realWriteProp_take (p : IOProperty) (sm : SMValues)
    (enough : p.vtype.wsize ≤ words.length) :
    (p.realWriteProp s (words.take p.vtype.wsize) sm).sm = (p.realWriteProp s words sm).sm := by
  have get : ∀ k < p.vtype.wsize, (words.take p.vtype.wsize).getD k 0 = words.getD k 0 := by
    intro k inside
    rw [List.getD_eq_getElem?_getD, List.getD_eq_getElem?_getD, List.getElem?_take, if_pos inside]
  have length : (words.take p.vtype.wsize).length = p.vtype.wsize := by
    rw [List.length_take]
    omega
  have first := get 0 (VType.wsize_pos _)
  have same : ¬ p.vtype.wsize < p.vtype.wsize := lt_irrefl _
  have reach : ¬ words.length < p.vtype.wsize := by omega
  rw [realWriteProp, realWriteProp]
  by_cases readOnly : p.amode = .amRO
  · rw [if_pos readOnly, if_pos readOnly]
  · rw [if_neg readOnly, if_neg readOnly]
    simp only [first, writeWords, writeFloat, length, if_neg same, if_neg reach, List.take_take, min_self]
    cases type : p.vtype <;> simp only [type] at get ⊢
    case vtI2 => rw [I2.toLong_congr get]
    case vtI2r => rw [I2r.toLong_congr get]
    case vtU2 => rw [U2.toLong_congr get]
    case vtU2r => rw [U2r.toLong_congr get]

/-- A write of an item leaves SharedMemory as what it stores. -/
theorem IOProperty.realWriteProp_stores (p : IOProperty) (words : List ModbusData) (sm : SMValues)
    (some : words ≠ []) :
    (p.realWriteProp s words sm).sm = (p.stores words).foldl (Stored.apply s) sm := by
  rw [stores]
  split
  · next nothing =>
    rw [List.foldl_nil, realWriteProp]
    rcases nothing with readOnly | short
    · rw [if_pos readOnly]
    · have positive : 0 < words.length := List.length_pos_of_ne_nil some
      by_cases readOnly : p.amode = .amRO
      · rw [if_pos readOnly]
      · rw [if_neg readOnly]
        simp only [writeWords, writeFloat, if_pos short]
        cases type : p.vtype <;> simp only [type, VType.wsize] at short ⊢ <;> omega
  · next whole =>
    rw [not_or, Nat.not_lt] at whole
    exact (p.realWriteProp_take s sm whole.2).symm

/-- The bits still to be written have the items they had before. -/
theorem Register.writeBits_stores (val : ModbusData) (bvec : BitRegProperty) {bits : List (Fin 16)}
    (distinct : bits.Nodup) (w : BitRegProperty × SMValues) (same : ∀ i ∈ bits, w.1 i = bvec i) :
    (bits.foldl (writeBit s val) w).2 = (bitStores bvec val bits).foldl (Stored.apply s) w.2 := by
  induction bits generalizing w with
  | nil => rfl
  | cons i bits ih =>
    obtain ⟨fresh, distinct⟩ := List.nodup_cons.mp distinct
    have here := same i List.mem_cons_self
    have split : bitStores bvec val (i :: bits) =
        ((bvec i).elim [] fun p => p.stores [bitWord i val]) ++ bitStores bvec val bits := rfl
    rw [List.foldl_cons, split, List.foldl_append]
    cases has : bvec i with
    | none =>
      have idle : writeBit s val w i = w := by rw [writeBit, here, has]
      rw [idle]
      exact ih distinct w fun j later => same j (List.mem_cons_of_mem _ later)
    | some p =>
      have write : writeBit s val w i =
          (Function.update w.1 i (some (p.realWriteProp s [bitWord i val] w.2).prop),
            (p.realWriteProp s [bitWord i val] w.2).sm) := by rw [writeBit, here, has]; rfl
      rw [write, ih distinct]
      · rw [p.realWriteProp_stores s _ _ (List.cons_ne_nil _ _)]
        rfl
      · intro j later
        have other : j ≠ i := fun equal => fresh (equal ▸ later)
        show Function.update w.1 i _ j = _
        rw [Function.update_of_ne other]
        exact same j (List.mem_cons_of_mem _ later)

/-- **A write of a register leaves SharedMemory as what it stores.** -/
theorem Register.realWriteIt_stores (r : Register) (words : List ModbusData) (sm : SMValues)
    (some : words ≠ []) :
    (r.realWriteIt s words sm).sm = (r.stores words).foldl (Stored.apply s) sm := by
  obtain ⟨prop, bitreg⟩ := r
  cases bitreg with
  | none => exact prop.realWriteProp_stores s words sm some
  | some bvec => exact writeBits_stores s _ bvec (List.nodup_finRange 16) (bvec, sm) fun _ _ => rfl

/-- An item that stores nothing stays as it is. -/
theorem IOProperty.realWriteProp_kept (p : IOProperty) (sm : SMValues) (some : words ≠ [])
    (nothing : p.stores words = []) :
    (p.realWriteProp s words sm).prop = p ∧ (p.realWriteProp s words sm).sm = sm := by
  have unchanged := p.realWriteProp_stores s words sm some
  rw [nothing] at unchanged
  refine ⟨?_, unchanged⟩
  rw [stores] at nothing
  split at nothing
  · next why =>
    rw [realWriteProp]
    by_cases readOnly : p.amode = .amRO
    · rw [if_pos readOnly]
    · have positive : 0 < words.length := List.length_pos_of_ne_nil some
      have short := why.resolve_left readOnly
      rw [if_neg readOnly]
      simp only [writeWords, writeFloat, if_pos short]
      cases type : p.vtype <;> simp only [type, VType.wsize] at short ⊢ <;> omega
  · cases nothing

/-- A register that stores nothing stays as it is. -/
theorem Register.realWriteIt_kept (r : Register) (sm : SMValues) (some : words ≠ [])
    (nothing : r.stores words = []) : (r.realWriteIt s words sm).reg = r := by
  obtain ⟨prop, bitreg⟩ := r
  cases bitreg with
  | none =>
    obtain ⟨item, -⟩ := prop.realWriteProp_kept s sm some nothing
    show Register.mk (prop.realWriteProp s words sm).prop none = _
    rw [item]
  | some bvec =>
    have none := List.flatMap_eq_nil_iff.mp nothing
    have still : ∀ l : List (Fin 16), l.foldl (writeBit s (words.getD 0 0)) (bvec, sm) = (bvec, sm) := by
      intro l
      induction l with
      | nil => rfl
      | cons i l ih =>
        have idle : writeBit s (words.getD 0 0) (bvec, sm) i = (bvec, sm) := by
          unfold writeBit
          split
          · rfl
          · next p has =>
            have has : bvec i = Option.some p := has
            have empty := none i (List.mem_finRange i)
            rw [has] at empty
            obtain ⟨item, memory⟩ := p.realWriteProp_kept s sm (List.cons_ne_nil _ _) empty
            refine Prod.ext ?_ memory
            show Function.update bvec i (Option.some (p.realWriteProp s [bitWord i _] sm).prop) = bvec
            rw [item, ← has, Function.update_eq_self]
        rw [List.foldl_cons, idle, ih]
    show Register.mk prop (Option.some ((List.finRange 16).foldl _ (bvec, sm)).1) = _
    rw [still]

end Stores

/-! ### Blocks -/

namespace Slave

variable (s : Slave)

/-- The registers `much_write` stops at, with the words from there on. -/
def blockStops (m : RegMap) (reg : Nat) (dat : List ModbusData) (fn : Nat) :
    List (Register × List ModbusData) :=
  match m.firstFound (s.regID reg fn) dat.length with
  | none => []
  | some i => stops (dat.drop i) (s.regID reg fn + i) 0 (m.fromID (s.regID reg fn + i))

/-- **What `much_write` stores**, in its order. -/
def blockStores (m : RegMap) (reg : Nat) (dat : List ModbusData) (fn : Nat) : List Stored :=
  (s.blockStops m reg dat fn).flatMap fun stop => stop.1.stores stop.2

end Slave

/-- The walk leaves SharedMemory as what its stops store. -/
theorem writeWalk_sm (s : Slave) (dat : List ModbusData) (regID skip : Nat) (regs : List Register)
    (sm : SMValues) : (writeWalk s dat regID skip regs sm).2 =
      ((stops dat regID skip regs).flatMap fun stop => stop.1.stores stop.2).foldl (Stored.apply s) sm := by
  induction dat, regID, skip, regs using stops.induct generalizing sm with
  | case1 => rw [writeWalk, stops]; rfl
  | case2 => rw [writeWalk, stops]; rfl
  | case3 _ dat regID skip r regs ih =>
    rw [writeWalk, stops]
    exact ih sm
  | case4 w dat r regs ih =>
    rw [writeWalk, if_pos rfl, stops, if_pos rfl, List.flatMap_cons, List.foldl_append]
    simp only [Register.realWriteIt_taken]
    rw [ih, r.realWriteIt_stores s _ _ (List.cons_ne_nil _ _)]
  | case5 regID w dat r regs other ih =>
    rw [writeWalk, if_neg other, stops, if_neg other]
    exact ih sm

/-- A register stays as it is if no stop of the walk stores anything there. -/
theorem writeWalk_kept (s : Slave) (dat : List ModbusData) (regID skip : Nat) (regs : List Register)
    (sm : SMValues) (mem : r ∈ regs)
    (nothing : ∀ stop ∈ stops dat regID skip regs, stop.1 = r → stop.1.stores stop.2 = []) :
    r ∈ (writeWalk s dat regID skip regs sm).1 := by
  induction dat, regID, skip, regs using stops.induct generalizing sm with
  | case1 => rwa [writeWalk]
  | case2 => exact absurd mem List.not_mem_nil
  | case3 _ dat regID skip first regs ih =>
    rw [writeWalk]
    rcases List.mem_cons.mp mem with rfl | later
    · exact List.mem_cons_self
    · exact List.mem_cons_of_mem _ (ih sm later (by simpa [stops] using nothing))
  | case4 w dat first regs ih =>
    rw [stops, if_pos rfl] at nothing
    rw [writeWalk, if_pos rfl]
    simp only [Register.realWriteIt_taken]
    rcases List.mem_cons.mp mem with rfl | later
    · rw [r.realWriteIt_kept s sm (List.cons_ne_nil _ _) (nothing _ List.mem_cons_self rfl)]
      exact List.mem_cons_self
    · exact List.mem_cons_of_mem _
        (ih _ later fun stop inside => nothing stop (List.mem_cons_of_mem _ inside))
  | case5 regID w dat first regs other ih =>
    rw [stops, if_neg other] at nothing
    rw [writeWalk, if_neg other]
    exact ih sm mem nothing

/-- **`much_write` leaves SharedMemory as what it stores.** -/
theorem muchWrite_sm (s : Slave) (m : RegMap) (reg : Nat) (dat : List ModbusData) (fn : Nat)
    (sm : SMValues) : (s.muchWrite m reg dat fn sm).2.2 =
      (s.blockStores m reg dat fn).foldl (Stored.apply s) sm := by
  rw [Slave.muchWrite, Slave.blockStores, Slave.blockStops]
  cases m.firstFound (s.regID reg fn) dat.length with
  | none => rfl
  | some i => exact writeWalk_sm s _ _ _ _ sm

theorem muchWrite_kept {s : Slave} {reg : Nat} {fn : Nat} (sm : SMValues) (mem : r ∈ m.regs)
    (nothing : ∀ stop ∈ s.blockStops m reg dat fn, stop.1 = r → stop.1.stores stop.2 = []) :
    r ∈ (s.muchWrite m reg dat fn sm).2.1.regs := by
  rw [Slave.blockStops] at nothing
  rw [Slave.muchWrite]
  cases found : m.firstFound (s.regID reg fn) dat.length with
  | none => exact mem
  | some i =>
    rw [found] at nothing
    rw [← m.before_append_fromID (s.regID reg fn + i)] at mem
    rcases List.mem_append.mp mem with before | here
    · exact List.mem_append_left _ before
    · exact List.mem_append_right _ (writeWalk_kept s _ _ _ _ sm here nothing)

/-! ### The walk over a map -/

namespace RegMap

variable {m : RegMap} {lo : Nat} {r : Register}

theorem fromID_of_missing (missing : m.find lo = none) : m.fromID lo = m.fromID (lo + 1) := by
  rw [find_eq_none] at missing
  obtain ⟨regs, sorted⟩ := m
  show regs.dropWhile _ = regs.dropWhile _
  induction regs with
  | nil => rfl
  | cons x regs ih =>
    have other := missing x List.mem_cons_self
    rw [List.dropWhile_cons, List.dropWhile_cons]
    by_cases low : x.regID < lo
    · rw [if_pos (decide_eq_true low), if_pos (decide_eq_true (by omega))]
      exact ih sorted.of_cons fun r mem => missing r (List.mem_cons_of_mem _ mem)
    · have high : ¬ x.regID < lo + 1 := by omega
      rw [if_neg (by rw [decide_eq_true_eq]; exact low), if_neg (by rw [decide_eq_true_eq]; exact high)]

theorem flatMap_fromID {α : Type} (f : Register → List α) (lo : Nat) :
    (m.fromID lo).flatMap f = ((m.find lo).elim [] f) ++ (m.fromID (lo + 1)).flatMap f := by
  cases found : m.find lo with
  | none => rw [fromID_of_missing found]; rfl
  | some r => rw [fromID_of_find m found, List.flatMap_cons]; rfl

/-- Identifiers with nothing to say may be left out. -/
theorem flatMap_fromID_skip {α : Type} {f : Register → List α} {n : Nat}
    (empty : ∀ x ∈ m.regs, lo ≤ x.regID → x.regID < lo + n → f x = []) :
    (m.fromID lo).flatMap f = (m.fromID (lo + n)).flatMap f := by
  induction n with
  | zero => rfl
  | succ n ih =>
    rw [ih fun x mem low high => empty x mem low (by omega), flatMap_fromID]
    have here : (m.find (lo + n)).elim [] f = [] := by
      cases found : m.find (lo + n) with
      | none => rfl
      | some x =>
        obtain ⟨mem, id⟩ := m.mem_of_find found
        exact empty x mem (by omega) (by omega)
    rw [here, List.nil_append, Nat.add_assoc]

/-- Identifiers that are all there have as many registers. -/
theorem length_fromID {n : Nat} (there : ∀ k < n, ∃ x ∈ m.regs, x.regID = lo + k) :
    n ≤ (m.fromID lo).length := by
  induction n generalizing lo with
  | zero => exact Nat.zero_le _
  | succ n ih =>
    obtain ⟨x, mem, id⟩ := there 0 (Nat.succ_pos n)
    have found : m.find lo = some x := find_eq_some.mpr ⟨mem, id⟩
    rw [fromID_of_find m found, List.length_cons]
    refine Nat.succ_le_succ (ih fun k inside => ?_)
    obtain ⟨y, here, same⟩ := there (k + 1) (by omega)
    exact ⟨y, here, by omega⟩

end RegMap

section Walk

variable {m : RegMap}

theorem stops_missing {lo : Nat} (missing : m.find lo = none) :
    stops dat lo 0 (m.fromID lo) = stops (dat.drop 1) (lo + 1) 0 (m.fromID (lo + 1)) := by
  cases dat with
  | nil => rfl
  | cons w dat =>
    rw [RegMap.fromID_of_missing missing]
    cases regs : m.fromID (lo + 1) with
    | nil => cases dat <;> rfl
    | cons x regs =>
      have above : lo + 1 ≤ x.regID :=
        (m.mem_fromID.mp (by rw [regs]; exact List.mem_cons_self)).2
      rw [stops, if_neg (by omega), List.drop_one, List.tail_cons]

theorem stops_found {w : ModbusData} {lo : Nat} (found : m.find lo = some r) :
    stops (w :: dat) lo 0 (m.fromID lo) =
      (r, w :: dat) :: stops dat (lo + 1) (sub r.taken - 1) (m.fromID (lo + 1)) := by
  have id := (m.mem_of_find found).2
  rw [RegMap.fromID_of_find m found, stops, if_pos id]

/-- Registers that are all there are gone by one for each word. -/
theorem stops_skip {n : Nat} {lo : Nat} (there : ∀ k < n, ∃ x ∈ m.regs, x.regID = lo + k) :
    stops dat lo n (m.fromID lo) = stops (dat.drop n) (lo + n) 0 (m.fromID (lo + n)) := by
  induction n generalizing dat lo with
  | zero => rfl
  | succ n ih =>
    obtain ⟨x, mem, id⟩ := there 0 (Nat.succ_pos n)
    have found : m.find lo = some x := RegMap.find_eq_some.mpr ⟨mem, id⟩
    have next := @ih (dat.drop 1) (lo + 1) fun k inside => by
      obtain ⟨y, mem, id⟩ := there (k + 1) (by omega)
      exact ⟨y, mem, by omega⟩
    rw [List.drop_drop, Nat.add_comm 1 n, Nat.add_right_comm lo 1 n] at next
    rw [← Nat.add_assoc, ← next, RegMap.fromID_of_find m found]
    cases dat with
    | nil => cases m.fromID (lo + 1) <;> rfl
    | cons w dat => rfl

/-- A write that cuts a value off is at its end. -/
theorem stops_cut {n : Nat} {lo : Nat} {regs : List Register} (short : dat.length ≤ n) :
    stops dat lo n regs = [] := by
  induction n generalizing dat lo regs with
  | zero =>
    obtain rfl : dat = [] := List.length_eq_zero_iff.mp (Nat.le_zero.mp short)
    rfl
  | succ n ih =>
    cases dat with
    | nil => rfl
    | cons w dat =>
      cases regs with
      | nil => rfl
      | cons r regs => exact ih (Nat.le_of_succ_le_succ short)

/-- Registers that are missing before the first one do not matter. -/
theorem blockStops_eq (s : Slave) (m : RegMap) (reg : Nat) (dat : List ModbusData) (fn : Nat) :
    s.blockStops m reg dat fn = stops dat (s.regID reg fn) 0 (m.fromID (s.regID reg fn)) := by
  have passed : ∀ i, (∀ j < i, m.find (s.regID reg fn + j) = none) →
      stops dat (s.regID reg fn) 0 (m.fromID (s.regID reg fn)) =
        stops (dat.drop i) (s.regID reg fn + i) 0 (m.fromID (s.regID reg fn + i)) := by
    intro i
    induction i with
    | zero => exact fun _ => rfl
    | succ i ih =>
      intro missing
      rw [ih fun j inside => missing j (by omega), stops_missing (missing i (Nat.lt_succ_self i)),
        List.drop_drop, Nat.add_assoc]
  rw [Slave.blockStops]
  cases found : m.firstFound (s.regID reg fn) dat.length with
  | none =>
    have missing := m.firstFound_eq_none.mp found
    rw [passed dat.length fun j inside => RegMap.find_eq_none.mpr (missing j inside), List.drop_length]
    rfl
  | some i =>
    obtain ⟨-, earlier⟩ := m.firstFound_eq_some found
    exact (passed i fun j before => RegMap.find_eq_none.mpr (earlier j before)).symm

variable (bad : Register → Prop)

/-- The register lies among the later words of a value that the walk, from `lo` on, stops at. -/
def Hidden (m : RegMap) (lo : Nat) (x : Register) : Prop :=
  ∃ f ∈ m.regs, ¬ bad f ∧ lo ≤ f.regID ∧ f.regID < x.regID ∧ x.regID < f.regID + f.taken

variable {bad} {due : Register → List Stored}

section Value

variable {lo : Nat} {r : Register}

theorem lt_taken_of_lt_sub {n k : Nat} (positive : 0 < k) (inside : k < sub n) : k < n := by
  rcases Nat.le_total n 1 with one | more
  · rw [sub, Nat.max_eq_right one] at inside
    omega
  · rwa [sub, Nat.max_eq_left more] at inside

variable (present : ∀ k, 0 < k → k < r.taken → ∃ x ∈ m.regs, x.regID = r.regID + k ∧ x.Later)
include present

theorem value_length (mem : r ∈ m.regs) : sub r.taken ≤ (m.fromID r.regID).length := by
  refine RegMap.length_fromID fun k inside => ?_
  rcases Nat.eq_zero_or_pos k with rfl | positive
  · exact ⟨r, mem, rfl⟩
  · obtain ⟨y, there, same, -⟩ := present k positive (lt_taken_of_lt_sub positive inside)
    exact ⟨y, there, same⟩

variable (id : r.regID = lo)
include id

/-- The words of a value behind the first one are later words. -/
theorem later_of_value {x : Register} (here : x ∈ m.regs) (low : lo + 1 ≤ x.regID)
    (high : x.regID < lo + sub r.taken) : x.Later := by
  obtain ⟨y, there, same, isLater⟩ :=
    present (x.regID - lo) (by omega) (lt_taken_of_lt_sub (by omega) (by omega))
  have equal : x = y := RegMap.eq_of_regID here there (by omega)
  rwa [equal]

/-- The walk behind the first word of a value goes on behind the value. -/
theorem stops_value :
    stops dat (lo + 1) (sub r.taken - 1) (m.fromID (lo + 1)) =
      stops (dat.drop (sub r.taken - 1)) (lo + sub r.taken) 0 (m.fromID (lo + sub r.taken)) := by
  have length : 1 ≤ sub r.taken := Nat.le_max_right _ _
  have next : lo + 1 + (sub r.taken - 1) = lo + sub r.taken := by omega
  rw [← next]
  refine stops_skip fun k inside => ?_
  obtain ⟨y, there, same, -⟩ := present (k + 1) (by omega) (lt_taken_of_lt_sub (by omega) (by omega))
  exact ⟨y, there, by omega⟩

/-- What hides a register behind a value begins behind the value as well. -/
theorem Hidden.behind (mem : r ∈ m.regs) (later : ∀ x ∈ m.regs, x.Later → ¬ bad x → x.taken = 0) {x : Register}
    (low : lo + sub r.taken ≤ x.regID) (hidden : Hidden bad m lo x) :
    Hidden bad m (lo + sub r.taken) x := by
  obtain ⟨f, there, well, begins, before, inside⟩ := hidden
  refine ⟨f, there, well, ?_, before, inside⟩
  by_contra low'
  have taken : r.taken ≤ sub r.taken := Nat.le_max_left _ _
  rcases Nat.eq_or_lt_of_le begins with same | after
  · obtain rfl : f = r := RegMap.eq_of_regID there mem (by omega)
    omega
  · have free := later f there (later_of_value present id there (by omega) (by omega)) well
    omega

end Value

/-- **The walk up to an identifier `b`** behind no bad register but hidden ones: it stores what is due. -/
theorem stops_upto (words : ∀ f ∈ m.regs, ¬ bad f → ∀ k, 0 < k → k < f.taken →
      ∃ x ∈ m.regs, x.regID = f.regID + k ∧ x.Later)
    (later : ∀ x ∈ m.regs, x.Later → due x = [] ∧ (¬ bad x → x.taken = 0)) {lo b : Nat}
    (above : lo ≤ b) (below : b ≤ lo + dat.length)
    (own : ∀ x ∈ m.regs, ¬ bad x → lo ≤ x.regID → x.regID < b →
      x.stores (dat.drop (x.regID - lo)) = due x)
    (clear : ∀ x ∈ m.regs, lo ≤ x.regID → x.regID < b → bad x → Hidden bad m lo x)
    (free : b < lo + dat.length → ∀ f ∈ m.regs, ¬ bad f → lo ≤ f.regID → f.regID < b →
      f.regID + f.taken ≤ b) :
    ∃ pre, stops dat lo 0 (m.fromID lo) = pre ++ stops (dat.drop (b - lo)) b 0 (m.fromID b) ∧
      (m.fromID lo).flatMap due = (pre.flatMap fun stop => stop.1.stores stop.2) ++ (m.fromID b).flatMap due ∧
      ∀ stop ∈ pre, stop.1.stores stop.2 = due stop.1 ∧
        sub stop.1.taken ≤ (m.fromID stop.1.regID).length := by
  induction h : dat.length using Nat.strong_induction_on generalizing dat lo with
  | _ n ih =>
  subst h
  rcases Nat.eq_or_lt_of_le above with rfl | room
  · exact ⟨[], by rw [Nat.sub_self]; rfl, rfl, fun _ none => absurd none List.not_mem_nil⟩
  obtain ⟨w, dat, rfl⟩ : ∃ w rest, dat = w :: rest := by
    cases dat with
    | nil => exact absurd below (by rw [List.length_nil]; omega)
    | cons w rest => exact ⟨w, rest, rfl⟩
  rw [List.length_cons] at below free ih
  cases found : m.find lo with
  | none =>
    rw [stops_missing found, List.drop_one, List.tail_cons, RegMap.fromID_of_missing found]
    have missing := RegMap.find_eq_none.mp found
    have shift : (w :: dat).drop (b - lo) = dat.drop (b - (lo + 1)) := by
      rw [show b - lo = b - (lo + 1) + 1 by omega, List.drop_succ_cons]
    rw [shift]
    refine ih dat.length (by omega) (by omega) (by omega) ?_ ?_ ?_ rfl
    · intro x mem good low high
      rw [← own x mem good (by omega) high, show x.regID - lo = x.regID - (lo + 1) + 1 by omega,
        List.drop_succ_cons]
    · intro x mem low high isBad
      obtain ⟨f, here, good, begins, before, inside⟩ := clear x mem (by omega) high isBad
      have other := missing f here
      exact ⟨f, here, good, by omega, before, inside⟩
    · intro early f mem good low high
      exact free (by omega) f mem good (by omega) high
  | some r =>
    obtain ⟨mem, id⟩ := m.mem_of_find found
    have good : ¬ bad r := by
      intro isBad
      obtain ⟨f, -, -, begins, before, -⟩ := clear r mem (by omega) (by omega) isBad
      omega
    have present := words r mem good
    have length : 1 ≤ sub r.taken := Nat.le_max_right _ _
    -- the words after the first one are later words, with nothing due
    have silent : ∀ x ∈ m.regs, lo + 1 ≤ x.regID → x.regID < lo + sub r.taken → due x = [] :=
      fun x here low high => (later x here (later_of_value present id here low high)).1
    have stored : r.stores (w :: dat) = due r := by
      have words := own r mem good (by omega) (by omega)
      rwa [id, Nat.sub_self, List.drop_zero] at words
    have safe := value_length present mem
    have head : (m.fromID lo).flatMap due = due r ++ (m.fromID (lo + 1)).flatMap due := by
      rw [RegMap.flatMap_fromID, found]
      rfl
    rw [stops_found found, head]
    by_cases fits : lo + sub r.taken ≤ b
    · have rest : (m.fromID (lo + 1)).flatMap due = (m.fromID (lo + sub r.taken)).flatMap due := by
        rw [show lo + sub r.taken = lo + 1 + (sub r.taken - 1) by omega]
        exact RegMap.flatMap_fromID_skip fun x here low high => silent x here low (by omega)
      have size : (dat.drop (sub r.taken - 1)).length = dat.length - (sub r.taken - 1) := List.length_drop
      have shift : ∀ k, lo + sub r.taken ≤ k →
          (dat.drop (sub r.taken - 1)).drop (k - (lo + sub r.taken)) = (w :: dat).drop (k - lo) := by
        intro k beyond
        rw [List.drop_drop, show k - lo = sub r.taken - 1 + (k - (lo + sub r.taken)) + 1 by omega,
          List.drop_succ_cons]
      have behind : ∀ x ∈ m.regs, lo + sub r.taken ≤ x.regID → x.regID < b → bad x →
          Hidden bad m (lo + sub r.taken) x := fun x here low high isBad =>
        (clear x here (by omega) high isBad).behind present id mem (fun f there isLater =>
          (later f there isLater).2) low
      obtain ⟨pre, split, whole, each⟩ := @ih (dat.drop (sub r.taken - 1)).length (by omega)
        (dat.drop (sub r.taken - 1)) (lo + sub r.taken) fits (by omega)
        (fun x here well low high => by rw [shift _ low]; exact own x here well (by omega) high)
        behind (fun early f there well low high => free (by omega) f there well (by omega) high) rfl
      rw [shift b fits] at split
      refine ⟨(r, w :: dat) :: pre, ?_, ?_, ?_⟩
      · rw [stops_value present id, split, List.cons_append]
      · rw [rest, whole, List.flatMap_cons, stored, List.append_assoc]
      · intro stop here
        rcases List.mem_cons.mp here with rfl | earlier
        · exact ⟨stored, safe⟩
        · exact each stop earlier
    · -- the last value is cut off by the end of the words
      have last : b = lo + (dat.length + 1) := by
        by_contra inner
        have bound := free (by omega) r mem good (by omega) (by omega)
        have cut : sub r.taken = max r.taken 1 := rfl
        omega
      have done : stops dat (lo + 1) (sub r.taken - 1) (m.fromID (lo + 1)) = [] :=
        stops_cut (by omega)
      have empty : (w :: dat).drop (b - lo) = [] := List.drop_eq_nil_iff.mpr (by rw [List.length_cons]; omega)
      have rest : (m.fromID (lo + 1)).flatMap due = (m.fromID b).flatMap due := by
        have skip := @RegMap.flatMap_fromID_skip m (lo + 1) _ due (b - (lo + 1)) fun x here low high =>
          silent x here low (by omega)
        rwa [show lo + 1 + (b - (lo + 1)) = b by omega] at skip
      refine ⟨[(r, w :: dat)], ?_, ?_, ?_⟩
      · rw [done, empty]
        rfl
      · rw [rest, List.flatMap_cons, stored, List.flatMap_nil, List.append_nil]
      · intro stop here
        rw [List.mem_singleton.mp here]
        exact ⟨stored, safe⟩

end Walk

/-! ### What is due -/

section Request

variable (s : Slave) (start : UInt16) (dat : List ModbusData) (fn : Nat)

namespace IOProperty

variable (p : IOProperty)

/-- The item is one of the function a request asks for. -/
def Asked : Prop := p.regID = genRegID p.mbreg (s.askedFunc fn)

/-- The position of a word of the item among the words of the request. -/
def place (k : Nat) : Nat := (p.mbreg + k) % 65536 - start.toNat

/-- **All words of the item are in the range written.** -/
def Covered : Prop := p.Asked s fn ∧ ∀ k < p.vtype.wsize,
  start.toNat ≤ (p.mbreg + k) % 65536 ∧ (p.mbreg + k) % 65536 < start.toNat + dat.length

instance : Decidable (p.Covered s start dat fn) :=
  inferInstanceAs (Decidable (_ = _ ∧ ∀ k < p.vtype.wsize, _ ∧ _))

/-- The words of the request at the item's own positions. -/
def ownWords : List ModbusData := (List.range p.vtype.wsize).map fun k => dat.getD (p.place start k) 0

/-- What a request should store in an item, from its words as they are or from a bit of them. -/
def due (part : ModbusData → ModbusData) : List Stored :=
  if p.amode ≠ .amRO ∧ p.Covered s start dat fn then [(p, (p.ownWords start dat).map part)] else []

end IOProperty

namespace Register

variable (r : Register)

/-- **What a request should store in a register**: in a value at its first word, or in the bits. -/
def due : List Stored :=
  match r.bitreg with
  | none => if r.prop.wnum = 0 then r.prop.due s start dat fn id else []
  | some bvec => (List.finRange 16).flatMap fun i =>
      (bvec i).elim [] fun p => p.due s start dat fn (bitWord i)

/-- **A register where a request should store nothing, and does**: it is written, but it is no first
word of a value asked for that ends before register 65536, or one of its bits was not asked for. -/
def Foreign : Prop :=
  match r.bitreg with
  | none => r.prop.amode ≠ .amRO ∧
      ¬ (r.prop.wnum = 0 ∧ r.prop.Asked s fn ∧ r.prop.mbreg + r.prop.vtype.wsize ≤ 65536)
  | some bvec => ∃ i p, bvec i = some p ∧ p.amode ≠ .amRO ∧ ¬ p.Asked s fn

/-- The identifier of the register is one of the range. -/
def InRange : Prop :=
  s.regID start.toNat fn ≤ r.regID ∧ r.regID < s.regID start.toNat fn + dat.length

end Register

/-- **A block write as it should be**: every sensor whose words are all in the range gets the value of the
words at its own positions, no other one is changed, and the iterator stays inside the map. -/
structure BlockWrite (m : RegMap) (sm : SMValues) : Prop where
  stores : s.blockStores m start.toNat dat fn = m.regs.flatMap fun r => r.due s start dat fn
  memory : (s.muchWrite m start.toNat dat fn sm).2.2 =
    (m.regs.flatMap fun r => r.due s start dat fn).foldl (Stored.apply s) sm
  kept : ∀ r ∈ m.regs, r.due s start dat fn = [] → r ∈ (s.muchWrite m start.toNat dat fn sm).2.1.regs
  inside : ∀ stop ∈ s.blockStops m start.toNat dat fn,
    sub stop.1.taken ≤ (m.fromID stop.1.regID).length

/-- A foreign register the request gets to, the first one. -/
structure Met (m : RegMap) (r : Register) : Prop where
  mem : r ∈ m.regs
  range : r.InRange s start dat fn
  foreign : r.Foreign s fn
  shown : ¬ Hidden (Register.Foreign s fn) m (s.regID start.toNat fn) r
  first : ∀ x ∈ m.regs, x.InRange s start dat fn → x.regID < r.regID → x.Foreign s fn →
    Hidden (Register.Foreign s fn) m (s.regID start.toNat fn) x

/-- **The condition**: the first foreign register the request gets to, if any, is the one of a value that
the words left do not fill and the registers from there on do, and nothing is due behind it. -/
def Clear (m : RegMap) : Prop := ∀ r, Met s start dat fn m r →
  r.bitreg = none ∧ s.regID start.toNat fn + dat.length < r.regID + r.prop.vtype.wsize ∧
    r.prop.vtype.wsize ≤ (m.fromID r.regID).length ∧
    ∀ x ∈ m.regs, r.regID < x.regID → x.due s start dat fn = []

variable {s start dat fn}

/-- The position of an asked item is the one of its identifier. -/
theorem IOProperty.Asked.place_eq (asked : p.Asked s fn) {i : Nat}
    (id : p.regID = s.regID start.toNat fn + i) : p.mbreg = start.toNat + i := by
  rw [Asked, id, Slave.regID, ← Slave.askedFunc, genRegID, genRegID] at asked
  omega

theorem IOProperty.Asked.regID_eq (asked : p.Asked s fn) {i : Nat}
    (number : p.mbreg = start.toNat + i) : p.regID = s.regID start.toNat fn + i := by
  rw [Asked, number] at asked
  rw [asked, Slave.regID, ← Slave.askedFunc, genRegID, genRegID]
  omega

/-- The words of a covered item do not go beyond register 65535. -/
theorem IOProperty.Covered.fits (short : dat.length ≤ 65535) (number : p.mbreg < 65536)
    (covered : p.Covered s start dat fn) : p.mbreg + p.vtype.wsize ≤ 65536 := by
  by_contra beyond
  have last := covered.2 (65535 - p.mbreg) (by omega)
  have wrap := covered.2 (65536 - p.mbreg) (by omega)
  have top : (p.mbreg + (65535 - p.mbreg)) % 65536 = 65535 := by omega
  have bottom : (p.mbreg + (65536 - p.mbreg)) % 65536 = 0 := by omega
  rw [top] at last
  rw [bottom] at wrap
  omega

/-- An item is covered exactly if the words from its position on reach for its value. -/
theorem IOProperty.covered_iff (asked : p.Asked s fn) {i : Nat} (number : p.mbreg = start.toNat + i)
    (fits : p.mbreg + p.vtype.wsize ≤ 65536) :
    p.Covered s start dat fn ↔ p.vtype.wsize ≤ (dat.drop i).length := by
  have positive := VType.wsize_pos p.vtype
  rw [List.length_drop]
  constructor
  · intro covered
    have last := (covered.2 (p.vtype.wsize - 1) (by omega)).2
    rw [Nat.mod_eq_of_lt (by omega)] at last
    omega
  · intro enough
    refine ⟨asked, fun k inside => ?_⟩
    rw [Nat.mod_eq_of_lt (by omega)]
    omega

theorem IOProperty.ownWords_eq {i : Nat} (number : p.mbreg = start.toNat + i)
    (fits : p.mbreg + p.vtype.wsize ≤ 65536) (enough : p.vtype.wsize ≤ (dat.drop i).length) :
    p.ownWords start dat = (dat.drop i).take p.vtype.wsize := by
  refine List.ext_getElem ?_ fun k inside _ => ?_
  · rw [ownWords, List.length_map, List.length_range, List.length_take]
    omega
  · rw [ownWords, List.length_map, List.length_range] at inside
    rw [List.length_drop] at enough
    have place : p.place start k = i + k := by
      rw [place, Nat.mod_eq_of_lt (by omega)]
      omega
    have there : i + k < dat.length := by omega
    simp only [ownWords, List.getElem_map, List.getElem_range, List.getElem_take, List.getElem_drop, place]
    rw [List.getD_eq_getElem?_getD, List.getElem?_eq_getElem there, Option.getD_some]

theorem IOProperty.due_readOnly (readOnly : p.amode = .amRO) (part : ModbusData → ModbusData) :
    p.due s start dat fn part = [] :=
  if_neg fun both => both.1 readOnly

/-- **At a register that is not foreign a write stores what is due.** -/
theorem Register.stores_eq_due (layout : m.Layout) (mem : r ∈ m.regs) (own : ¬ r.Foreign s fn)
    {i : Nat} (id : r.regID = s.regID start.toNat fn + i) (inside : i < dat.length) :
    r.stores (dat.drop i) = r.due s start dat fn := by
  have items := layout.items r mem
  have types := layout.bits r mem
  rw [stores, due]
  rw [Foreign] at own
  split
  · next word =>
    rw [word] at own
    have number := (items r.prop ((mem_items_word word).mpr rfl)).2
    rw [IOProperty.stores]
    by_cases readOnly : r.prop.amode = .amRO
    · rw [if_pos (Or.inl readOnly), IOProperty.due_readOnly readOnly, ite_self]
    · obtain ⟨first, asked, fits⟩ := not_not.mp fun foreign => own ⟨readOnly, foreign⟩
      have place : r.prop.mbreg = start.toNat + i := asked.place_eq id
      rw [if_pos first, IOProperty.due]
      simp only [readOnly, false_or, ne_eq, not_false_eq_true, true_and,
        IOProperty.covered_iff asked place fits]
      by_cases enough : r.prop.vtype.wsize ≤ (dat.drop i).length
      · rw [if_neg (by omega), if_pos enough, IOProperty.ownWords_eq place fits enough, List.map_id]
      · rw [if_pos (by omega), if_neg enough]
  · next bvec bits =>
    rw [bits] at own
    refine List.flatMap_congr fun j _ => ?_
    cases has : bvec j with
    | none => rfl
    | some p =>
      have item : p ∈ r.items := (mem_items_bit bits).mpr ⟨j, has⟩
      obtain ⟨ids, number⟩ := items p item
      have type := types (by rw [bits]; simp) p item
      show p.stores [bitWord j ((dat.drop i).getD 0 0)] = p.due s start dat fn (bitWord j)
      rw [IOProperty.stores]
      by_cases readOnly : p.amode = .amRO
      · rw [if_pos (Or.inl readOnly), IOProperty.due_readOnly readOnly]
      · have asked : p.Asked s fn := not_not.mp fun foreign => own ⟨j, p, has, readOnly, foreign⟩
        have place : p.mbreg = start.toNat + i := asked.place_eq (ids.trans id)
        have one : p.vtype.wsize = 1 := by rw [type]; rfl
        have fits : p.mbreg + p.vtype.wsize ≤ 65536 := by omega
        have enough : p.vtype.wsize ≤ (dat.drop i).length := by rw [List.length_drop]; omega
        have covered := (IOProperty.covered_iff asked place fits).mpr enough
        have head : (dat.drop i).take 1 = [(dat.drop i).getD 0 0] := by
          cases rest : dat.drop i with
          | nil =>
            rw [rest, one] at enough
            exact absurd enough (by decide)
          | cons w words => rfl
        rw [if_neg (by rw [one]; simp [readOnly]), IOProperty.due, if_pos ⟨readOnly, covered⟩,
          IOProperty.ownWords_eq place fits enough, one, head]
        rfl

/-- What is due comes from an item that was asked for, a value from its first word. -/
theorem Register.mem_due {e : Stored} (due : e ∈ r.due s start dat fn) :
    e.1 ∈ r.items ∧ e.1.amode ≠ .amRO ∧ e.1.Covered s start dat fn ∧
      (r.bitreg = none → e.1 = r.prop ∧ r.prop.wnum = 0) := by
  have item : ∀ {p : IOProperty} {part : ModbusData → ModbusData}, e ∈ p.due s start dat fn part →
      e.1 = p ∧ p.amode ≠ .amRO ∧ p.Covered s start dat fn := by
    intro p part mem
    rw [IOProperty.due] at mem
    split at mem
    · next both =>
      rw [List.mem_singleton.mp mem]
      exact ⟨rfl, both⟩
    · exact absurd mem List.not_mem_nil
  rw [Register.due] at due
  split at due
  · next word =>
    split at due
    · next first =>
      obtain ⟨own, write, covered⟩ := item due
      rw [own]
      exact ⟨(mem_items_word word).mpr rfl, write, covered, fun _ => ⟨rfl, first⟩⟩
    · exact absurd due List.not_mem_nil
  · next bvec bits =>
    obtain ⟨i, -, mem⟩ := List.mem_flatMap.mp due
    cases has : bvec i with
    | none =>
      rw [has] at mem
      exact absurd mem List.not_mem_nil
    | some p =>
      rw [has] at mem
      obtain ⟨own, write, covered⟩ := item mem
      rw [own]
      refine ⟨(mem_items_bit bits).mpr ⟨i, has⟩, write, covered, fun word => ?_⟩
      rw [bits] at word
      cases word

theorem Register.due_outside (layout : m.Layout) (mem : r ∈ m.regs)
    (outside : ¬ r.InRange s start dat fn) : r.due s start dat fn = [] := by
  rw [List.eq_nil_iff_forall_not_mem]
  intro e due
  obtain ⟨item, -, covered, -⟩ := mem_due due
  obtain ⟨ids, number⟩ := layout.items r mem e.1 item
  have first := covered.2 0 (VType.wsize_pos _)
  rw [Nat.add_zero, Nat.mod_eq_of_lt number] at first
  have place : e.1.regID = s.regID start.toNat fn + (e.1.mbreg - start.toNat) :=
    covered.1.regID_eq (by omega)
  apply outside
  rw [InRange]
  omega

/-- A later word has nothing due; it takes no words if it is not written. -/
theorem Register.Later.silent {x : Register} (later : x.Later) :
    x.due s start dat fn = [] ∧ (¬ x.Foreign s fn → x.taken = 0) := by
  obtain ⟨word, notFirst⟩ := later
  constructor
  · rw [due, word]
    exact if_neg notFirst
  · intro own
    rw [Foreign, word] at own
    have readOnly : x.prop.amode = .amRO := by
      by_contra write
      exact own ⟨write, fun first => notFirst first.1⟩
    rw [taken, word, if_neg (by decide), IOProperty.taken, if_pos (Or.inl readOnly)]

/-- The words of a value that a write takes follow its first one. -/
theorem RegMap.Layout.following (layout : m.Layout) {f : Register} (mem : f ∈ m.regs)
    (own : ¬ f.Foreign s fn) {k : Nat} (positive : 0 < k) (inside : k < f.taken) :
    ∃ x ∈ m.regs, x.regID = f.regID + k ∧ x.Later := by
  rw [Register.taken] at inside
  cases bits : f.bitreg with
  | some bvec =>
    rw [bits, if_pos Option.isSome_some] at inside
    exact absurd inside (Nat.not_lt_zero k)
  | none =>
    rw [bits, if_neg (by decide), IOProperty.taken] at inside
    split at inside
    · exact absurd inside (Nat.not_lt_zero k)
    · next several =>
      rw [not_or] at several
      rw [Register.Foreign, bits] at own
      obtain ⟨first, -, fits⟩ := not_not.mp fun foreign => own ⟨several.1, foreign⟩
      exact layout.words f mem bits first fits k positive inside

/-- What is due, from the first identifier of the range on. -/
theorem flatMap_due (layout : m.Layout) :
    (m.regs.flatMap fun r => r.due s start dat fn) =
      (m.fromID (s.regID start.toNat fn)).flatMap fun r => r.due s start dat fn := by
  rw [← m.before_append_fromID (s.regID start.toNat fn), List.flatMap_append]
  have before : ((m.before (s.regID start.toNat fn)).flatMap fun r => r.due s start dat fn) = [] := by
    rw [List.flatMap_eq_nil_iff]
    intro r low
    have mem : r ∈ m.regs := (List.takeWhile_sublist _).subset low
    refine Register.due_outside layout mem fun range => ?_
    have small := List.mem_takeWhile_imp low
    rw [decide_eq_true_eq] at small
    exact absurd range.1 (by omega)
  rw [before, List.nil_append]

theorem due_behind (layout : m.Layout) :
    ((m.fromID (s.regID start.toNat fn + dat.length)).flatMap fun r => r.due s start dat fn) = [] := by
  rw [List.flatMap_eq_nil_iff]
  intro r high
  obtain ⟨mem, beyond⟩ := m.mem_fromID.mp high
  exact Register.due_outside layout mem fun range => absurd range.2 (by omega)

/-- **A foreign register that has all its words stores something that is not due.** -/
theorem Register.Foreign.stores (layout : m.Layout) (short : dat.length ≤ 65535) (mem : r ∈ m.regs)
    (foreign : r.Foreign s fn) (enough : r.bitreg = none → r.prop.vtype.wsize ≤ words.length) :
    ∃ e ∈ r.stores words, ∀ x ∈ m.regs, e ∉ x.due s start dat fn := by
  rw [Foreign] at foreign
  cases bits : r.bitreg with
  | none =>
    rw [bits] at foreign
    obtain ⟨write, notFirst⟩ := foreign
    have all := enough bits
    refine ⟨(r.prop, words.take r.prop.vtype.wsize), ?_, fun x here due => notFirst ?_⟩
    · rw [Register.stores, bits]
      show _ ∈ r.prop.stores words
      rw [IOProperty.stores, if_neg (not_or.mpr ⟨write, by omega⟩)]
      exact List.mem_cons_self
    · obtain ⟨item, -, covered, first⟩ := mem_due due
      obtain ⟨ids, number⟩ := layout.items x here _ item
      obtain rfl : r = x := RegMap.eq_of_regID mem here ids
      exact ⟨(first bits).2, covered.1, covered.fits short number⟩
  | some bvec =>
    rw [bits] at foreign
    obtain ⟨i, p, has, write, other⟩ := foreign
    have item : p ∈ r.items := (mem_items_bit bits).mpr ⟨i, has⟩
    have one : p.vtype.wsize = 1 := by
      rw [layout.bits r mem (by rw [bits]; simp) p item]
      rfl
    refine ⟨(p, [bitWord i (words.getD 0 0)]), ?_, fun x here due => other (mem_due due).2.2.1.1⟩
    rw [Register.stores, bits]
    refine List.mem_flatMap.mpr ⟨i, List.mem_finRange i, ?_⟩
    rw [has]
    show _ ∈ p.stores _
    rw [IOProperty.stores, one, if_neg (not_or.mpr ⟨write, by simp⟩)]
    exact List.mem_cons_self

theorem Register.stores_cut (word : r.bitreg = none) (cut : words.length < r.prop.vtype.wsize) :
    r.stores words = [] := by
  rw [stores, word]
  exact if_pos (Or.inr cut)

theorem Register.Foreign.due (layout : m.Layout) (short : dat.length ≤ 65535) (mem : r ∈ m.regs)
    (word : r.bitreg = none) (foreign : r.Foreign s fn) :
    r.due s start dat fn = [] := by
  rw [List.eq_nil_iff_forall_not_mem]
  intro e due
  obtain ⟨item, -, covered, first⟩ := mem_due due
  obtain ⟨-, number⟩ := layout.items r mem e.1 item
  obtain ⟨own, start⟩ := first word
  rw [own] at covered number
  rw [Foreign, word] at foreign
  exact foreign.2 ⟨start, covered.1, covered.fits short number⟩

/-- The first foreign register a request gets to, if it gets to one. -/
theorem exists_met (some : ∃ r ∈ m.regs, r.InRange s start dat fn ∧ r.Foreign s fn ∧
    ¬ Hidden (Register.Foreign s fn) m (s.regID start.toNat fn) r) :
    ∃ r, Met s start dat fn m r := by
  have some : ∃ id, ∃ r ∈ m.regs, r.regID = id ∧ r.InRange s start dat fn ∧ r.Foreign s fn ∧
      ¬ Hidden (Register.Foreign s fn) m (s.regID start.toNat fn) r := by
    obtain ⟨r, mem, rest⟩ := some
    exact ⟨r.regID, r, mem, rfl, rest⟩
  classical
  obtain ⟨r, mem, id, range, foreign, shown⟩ := Nat.find_spec some
  refine ⟨r, mem, range, foreign, shown, fun x here inside before isForeign => ?_⟩
  by_contra alone
  exact Nat.find_min some (id ▸ before) ⟨x, here, rfl, inside, isForeign, alone⟩

/-- **Up to the first foreign register, or to the end, a request stores what is due.** -/
theorem blockStops_upto (layout : m.Layout) {b : Nat} (above : s.regID start.toNat fn ≤ b)
    (below : b ≤ s.regID start.toNat fn + dat.length)
    (clear : ∀ x ∈ m.regs, s.regID start.toNat fn ≤ x.regID → x.regID < b → x.Foreign s fn →
      Hidden (Register.Foreign s fn) m (s.regID start.toNat fn) x)
    (free : b < s.regID start.toNat fn + dat.length → ∀ f ∈ m.regs, ¬ f.Foreign s fn →
      s.regID start.toNat fn ≤ f.regID → f.regID < b → f.regID + f.taken ≤ b) :
    ∃ pre, s.blockStops m start.toNat dat fn =
        pre ++ stops (dat.drop (b - s.regID start.toNat fn)) b 0 (m.fromID b) ∧
      (m.regs.flatMap fun r => r.due s start dat fn) = (pre.flatMap fun stop => stop.1.stores stop.2) ++
        (m.fromID b).flatMap (fun r => r.due s start dat fn) ∧
      ∀ stop ∈ pre, stop.1.stores stop.2 = stop.1.due s start dat fn ∧
        sub stop.1.taken ≤ (m.fromID stop.1.regID).length := by
  rw [blockStops_eq, flatMap_due layout]
  refine stops_upto (fun f mem own k positive inside => layout.following mem own positive inside)
    (fun x _ later => later.silent) above below (fun x mem own low high => ?_) clear free
  exact Register.stores_eq_due layout mem own (by omega) (by omega)

/-- A block whose stops store what is due is as it should be. -/
theorem blockWrite_of_stops (sm : SMValues)
    (stores : s.blockStores m start.toNat dat fn = m.regs.flatMap fun r => r.due s start dat fn)
    (each : ∀ stop ∈ s.blockStops m start.toNat dat fn,
      stop.1.stores stop.2 = stop.1.due s start dat fn ∧
        sub stop.1.taken ≤ (m.fromID stop.1.regID).length) : BlockWrite s start dat fn m sm where
  stores := stores
  memory := by rw [muchWrite_sm, stores]
  kept r mem nothing := by
    refine muchWrite_kept sm mem fun stop here same => ?_
    rw [(each stop here).1, same]
    exact nothing
  inside stop here := (each stop here).2

/-- **A request stops at the first foreign register it gets to**, with the words from there on. -/
theorem Met.split (layout : m.Layout) (met : Met s start dat fn m r) :
    ∃ pre, s.blockStops m start.toNat dat fn = pre ++
        (r, dat.drop (r.regID - s.regID start.toNat fn)) ::
          stops (dat.drop (r.regID - s.regID start.toNat fn + 1)) (r.regID + 1) (sub r.taken - 1)
            (m.fromID (r.regID + 1)) ∧
      (m.regs.flatMap fun r => r.due s start dat fn) = (pre.flatMap fun stop => stop.1.stores stop.2) ++
        (m.fromID r.regID).flatMap (fun r => r.due s start dat fn) ∧
      ∀ stop ∈ pre, stop.1.stores stop.2 = stop.1.due s start dat fn ∧
        sub stop.1.taken ≤ (m.fromID stop.1.regID).length := by
  obtain ⟨mem, ⟨low, high⟩, foreign, shown, first⟩ := met
  obtain ⟨pre, split, whole, each⟩ := blockStops_upto layout low (Nat.le_of_lt high)
    (fun x here after before isForeign => first x here ⟨after, by omega⟩ before isForeign)
    (fun _ f there own after before => by
      by_contra reaches
      exact shown ⟨f, there, own, after, before, by omega⟩)
  refine ⟨pre, ?_, whole, each⟩
  have inside : r.regID - s.regID start.toNat fn < dat.length := by omega
  rw [split, List.drop_eq_getElem_cons inside, stops_found (m.find_of_mem mem)]

/-- A foreign register of a value takes its words. -/
theorem Register.Foreign.sub_taken (word : r.bitreg = none) (foreign : r.Foreign s fn) :
    sub r.taken = r.prop.vtype.wsize := by
  rw [Foreign, word] at foreign
  have positive := VType.wsize_pos r.prop.vtype
  rw [Register.taken, word, if_neg (by decide), IOProperty.taken, sub]
  simp only [foreign.1, false_or]
  split <;> omega

/-- **A request that gets to a foreign register** is as it should be only if the words do not fill it. -/
theorem BlockWrite.clear (layout : m.Layout) (short : dat.length ≤ 65535) {sm : SMValues}
    (block : BlockWrite s start dat fn m sm) : Clear s start dat fn m := by
  intro r met
  obtain ⟨pre, split, whole, -⟩ := met.split layout
  obtain ⟨mem, ⟨low, high⟩, foreign, -, -⟩ := met
  have safe := block.inside (r, dat.drop (r.regID - s.regID start.toNat fn)) (by rw [split]; simp)
  have stores := block.stores
  rw [Slave.blockStores, split, whole, List.flatMap_append, List.flatMap_cons] at stores
  have stores := List.append_cancel_left stores
  have left : (dat.drop (r.regID - s.regID start.toNat fn)).length =
      dat.length - (r.regID - s.regID start.toNat fn) := List.length_drop
  -- what the register stores is due nowhere, so words must be missing
  have lacking : r.bitreg = none ∧
      (dat.drop (r.regID - s.regID start.toNat fn)).length < r.prop.vtype.wsize := by
    by_contra filled
    have all : r.bitreg = none →
        r.prop.vtype.wsize ≤ (dat.drop (r.regID - s.regID start.toNat fn)).length := by
      intro word
      by_contra cut
      exact filled ⟨word, Nat.lt_of_not_le cut⟩
    have extra : ∃ e ∈ r.stores (dat.drop (r.regID - s.regID start.toNat fn)),
        ∀ x ∈ m.regs, e ∉ x.due s start dat fn := foreign.stores layout short mem all
    obtain ⟨e, stored, other⟩ := extra
    have due : e ∈ (m.fromID r.regID).flatMap fun r => r.due s start dat fn := by
      rw [← stores]
      exact List.mem_append_left _ stored
    obtain ⟨x, here, listed⟩ := List.mem_flatMap.mp due
    exact other x (m.mem_fromID.mp here).1 listed
  obtain ⟨word, cut⟩ := lacking
  have taken := foreign.sub_taken word
  refine ⟨word, by omega, taken ▸ safe, fun x here behind => ?_⟩
  have ended : stops (dat.drop (r.regID - s.regID start.toNat fn + 1)) (r.regID + 1) (sub r.taken - 1)
      (m.fromID (r.regID + 1)) = [] := stops_cut (by rw [List.length_drop]; omega)
  rw [Register.stores_cut word cut, ended] at stores
  exact List.flatMap_eq_nil_iff.mp stores.symm x (m.mem_fromID.mpr ⟨here, Nat.le_of_lt behind⟩)

/-- A request that gets to no foreign register is as it should be. -/
theorem blockWrite_of_own (layout : m.Layout) (sm : SMValues)
    (own : ∀ x ∈ m.regs, x.InRange s start dat fn → x.Foreign s fn →
      Hidden (Register.Foreign s fn) m (s.regID start.toNat fn) x) :
    BlockWrite s start dat fn m sm := by
  obtain ⟨pre, split, whole, each⟩ := blockStops_upto layout (Nat.le_add_right _ _) (Nat.le_refl _)
    (fun x mem low high => own x mem ⟨low, high⟩) (fun early => absurd early (Nat.lt_irrefl _))
  rw [Nat.add_sub_cancel_left, List.drop_length, stops, List.append_nil] at split
  rw [due_behind layout, List.append_nil] at whole
  refine blockWrite_of_stops sm ?_ fun stop here => each stop (split ▸ here)
  rw [Slave.blockStores, split, whole]

/-- A request that ends at a foreign register it does not fill is as it should be. -/
theorem Met.blockWrite (layout : m.Layout) (short : dat.length ≤ 65535) (sm : SMValues)
    (met : Met s start dat fn m r) (clear : Clear s start dat fn m) :
    BlockWrite s start dat fn m sm := by
  obtain ⟨pre, split, whole, each⟩ := met.split layout
  obtain ⟨word, cut, room, behind⟩ := clear r met
  obtain ⟨mem, ⟨low, high⟩, foreign, -, -⟩ := met
  have taken := foreign.sub_taken word
  have own : r.due s start dat fn = [] := foreign.due layout short mem word
  have nothing : r.stores (dat.drop (r.regID - s.regID start.toNat fn)) = [] :=
    Register.stores_cut word (by rw [List.length_drop]; omega)
  have ended : stops (dat.drop (r.regID - s.regID start.toNat fn + 1)) (r.regID + 1) (sub r.taken - 1)
      (m.fromID (r.regID + 1)) = [] := stops_cut (by rw [List.length_drop]; omega)
  have rest : ((m.fromID r.regID).flatMap fun r => r.due s start dat fn) = [] := by
    rw [List.flatMap_eq_nil_iff]
    intro x here
    obtain ⟨listed, after'⟩ := m.mem_fromID.mp here
    rcases Nat.eq_or_lt_of_le after' with same | after
    · rw [← RegMap.eq_of_regID mem listed same]
      exact own
    · exact behind x listed after
  rw [ended] at split
  rw [rest, List.append_nil] at whole
  refine blockWrite_of_stops sm ?_ fun stop here => ?_
  · rw [Slave.blockStores, split, whole, List.flatMap_append, List.flatMap_singleton, nothing,
      List.append_nil]
  · rw [split] at here
    rcases List.mem_append.mp here with earlier | last
    · exact each stop earlier
    · rw [List.mem_singleton.mp last]
      exact ⟨nothing.trans own.symm, taken ▸ room⟩

/-- **A block write stores in every sensor whose words are all in the range the value of its own words,
changes no other one and stays inside the map, if and only if the range is clear.** -/
theorem muchWrite_iff {m : RegMap} (laid : Laid s m) (short : dat.length ≤ 65535) (sm : SMValues) :
    BlockWrite s start dat fn m sm ↔ Clear s start dat fn m := by
  have layout := laid.layout
  refine ⟨fun block => block.clear layout short, fun clear => ?_⟩
  by_cases some : ∃ r ∈ m.regs, r.InRange s start dat fn ∧ r.Foreign s fn ∧
      ¬ Hidden (Register.Foreign s fn) m (s.regID start.toNat fn) r
  · obtain ⟨r, met⟩ := exists_met some
    exact met.blockWrite layout short sm clear
  · refine blockWrite_of_own layout sm fun x mem range foreign => ?_
    by_contra shown
    exact some ⟨x, mem, range, foreign, shown⟩

end Request

/-! ### From the middle of a value -/

theorem Register.SameLayout.refl (r : Register) : r.SameLayout r :=
  ⟨.refl r.prop, Iff.rfl, fun p item => ⟨p, item, .refl p⟩⟩

theorem Laid.of_run {s : Slave} (crit : Bool) (items : List Attributes) (addr : Nat)
    (ran : ∃ st, (allocation s crit).run .empty items = some st ∧ st.iomap addr = m) :
    Laid s m := by
  obtain ⟨st, ran, rfl⟩ := ran
  exact ⟨crit, items, st, addr, ran, List.forall₂_same.mpr fun r _ => .refl r⟩

/-- A value of two words at 10 and 11. -/
def valueRegs : RegMap :=
  RegMap.empty.insertAll ((plainAttributes 1 10 (-1) (some .vtU2)).registers plainSlave)

/-- The same with another sensor at 12. -/
def besideRegs : RegMap :=
  valueRegs.insertAll ((plainAttributes 2 12 (-1) none).registers plainSlave)

/-- All three registers are written: the value with its words and the sensor behind it. -/
theorem muchWrite_whole : BlockWrite plainSlave 10 [1, 2, 3] 3 besideRegs fun _ => 0 := by
  have laid : Laid plainSlave besideRegs := Laid.of_run false
    [plainAttributes 1 10 (-1) (some .vtU2), plainAttributes 2 12 (-1) none] 1 ⟨_, rfl, rfl⟩
  refine (muchWrite_iff laid (by decide) _).mpr ?_
  rintro r ⟨mem, -, foreign, shown, -⟩
  have regs : besideRegs.regs =
      [⟨(plainAttributes 1 10 (-1) (some .vtU2)).word plainSlave 0, none⟩,
        ⟨(plainAttributes 1 10 (-1) (some .vtU2)).word plainSlave 1, none⟩,
        ⟨(plainAttributes 2 12 (-1) none).word plainSlave 0, none⟩] := rfl
  have first : ¬ Register.Foreign plainSlave 3
      ⟨(plainAttributes 1 10 (-1) (some .vtU2)).word plainSlave 0, none⟩ :=
    fun foreign => foreign.2 ⟨rfl, rfl, by decide⟩
  rw [regs, List.mem_cons, List.mem_cons, List.mem_singleton] at mem
  rcases mem with rfl | rfl | rfl
  · exact absurd foreign first
  · exact absurd ⟨_, List.mem_cons_self, first, by decide, by decide, by decide⟩ shown
  · exact absurd ⟨rfl, rfl, by decide⟩ foreign.2

/-- **A block that begins at the second word of the value** stores its words as the value, and leaves the
sensor behind it without its word. Alone it takes the iterator past the end of the map. -/
theorem muchWrite_fails :
    ((plainSlave.muchWrite besideRegs 11 [1, 2] 3 fun _ => 0).2.2 1 = 131073 ∧
      (plainSlave.muchWrite besideRegs 11 [1, 2] 3 fun _ => 0).2.2 2 = 0 ∧
      ¬ BlockWrite plainSlave 11 [1, 2] 3 besideRegs fun _ => 0) ∧
    ¬ BlockWrite plainSlave 11 [5] 3 valueRegs fun _ => 0 := by
  have alone : (plainSlave.muchWrite besideRegs 11 [1, 2] 3 fun _ => 0).2.2 2 = 0 := by decide +kernel
  refine ⟨⟨by decide +kernel, alone, fun block => ?_⟩, fun block => ?_⟩
  · have stored := congrFun block.memory 2
    rw [show (11 : UInt16).toNat = 11 from rfl, alone] at stored
    exact absurd stored (by decide +kernel)
  · have stop : (⟨(plainAttributes 1 10 (-1) (some .vtU2)).word plainSlave 1, none⟩, [5]) ∈
        plainSlave.blockStops valueRegs 11 [5] 3 := List.mem_singleton.mpr rfl
    exact absurd (block.inside _ stop) (by decide +kernel)

end UniSet.ModbusSlave

/-
**Which positions of a device the sensors of a master write, and when no two sensors write one.**

* `writes` — the bits of its words a sensor writes.
* `Position`, `Occupies` — a bit of a holding register or a coil, and the sensors bound to it.
* `device` — `initItem` over the items of one device of type RTU.
* `Unguarded` — an item the checks do not compare with a sensor it collides with: a bit of a register that
  takes single words, or a coil.
* **`writeExclusive_iff`** — the sensors of a configuration write different positions exactly if no item was
  unguarded.
-/

import UniSet.Lib.Machine
import UniSet.ModbusMaster.Registers
import UniSet.ModbusMaster.Update

namespace UniSet.ModbusMaster.Exclusive

open UniSet.Lib (Machine put getLsbD_put getLsbD_putBit)
open Registers VTypes

/-! ### The bits of a sensor -/

/-- The bits a sensor writes of every one of its words. A bit or a mask counts as far as the type lets it. -/
def inField (p : RSProperty) (bit : Nat) : Bool :=
  let masked := p.mask = 0 || p.mask.testBit bit
  match p.vType with
  | .vtUnknown =>
    match p.nbit with
    | some nbit => bit = nbit
    | none => masked
  | .vtSigned | .vtUnsigned => masked
  | .vtByte => bit / 8 + 1 = p.nbyte
  | _ => true

/-- **The sensor writes this bit of this word of its value.** -/
def writes (p : RSProperty) (word bit : Nat) : Bool := word < p.rnum && bit < 16 && inField p bit

/-- The sensor as `initRSProperty` leaves it and as `updateRSProperty` has it. -/
structure Same (p : RSProperty) (q : Update.Property) : Prop where
  nbit : q.nbit.map Fin.val = p.nbit
  vType : q.vType = p.vType
  rnum : q.rnum = p.rnum
  nbyte : q.nbyte = p.nbyte
  mask : q.mask.toNat = p.mask

variable {bit : Nat}

theorem lt_of_writes {p : RSProperty} {word : Nat} (here : writes p word bit = true) :
    word < p.rnum ∧ bit < 16 ∧ inField p bit = true := by
  rw [writes, Bool.and_eq_true, Bool.and_eq_true, decide_eq_true_eq, decide_eq_true_eq] at here
  exact ⟨here.1.1, here.1.2, here.2⟩

/-! ### Positions -/

/-- The functions that write holding registers, and those that write coils. -/
def writesRegister : MbFunc → Bool
  | .fnWriteOutputSingleRegister | .fnWriteOutputRegisters => true
  | _ => false

def writesCoil : MbFunc → Bool
  | .fnForceSingleCoil | .fnForceMultipleCoils => true
  | _ => false

/-- **A position of a device**: a bit of a holding register, or a coil. -/
inductive Position
  | bit (reg bit : Nat)
  | coil (reg : Nat)

/-- **A sensor in the register of a map.** -/
structure Binding where
  pollfactor : Nat
  mbfunc : MbFunc
  mbreg : Nat
  sensor : RSProperty

/-- The sensors of a configuration. -/
def bindings (conf : MBConf) : List Binding :=
  conf.pollmaps.flatMap fun m => m.regs.flatMap fun r => r.slst.map fun p =>
    ⟨m.pollfactor, r.mbfunc, r.mbreg, p⟩

/-- **The positions of a sensor.** A coil is that of a sensor that writes any bit: what is sent is whether the
register is zero. -/
def Occupies (b : Binding) : Position → Prop
  | .bit reg bit => writesRegister b.mbfunc = true ∧
      ∃ k, writes b.sensor k bit = true ∧ reg = (b.mbreg + k) % 65536
  | .coil reg => writesCoil b.mbfunc = true ∧ reg = b.mbreg ∧ ∃ bit < 16, writes b.sensor 0 bit = true

/-- **No position is that of two sensors.** -/
def WriteExclusive (conf : MBConf) : Prop :=
  ∀ a ∈ bindings conf, ∀ b ∈ bindings conf, a.sensor.si ≠ b.sensor.si →
    ∀ position, ¬ (Occupies a position ∧ Occupies b position)

/-! ### The items of a device -/

/-- **`MBConfig::initRSProperty`**, as far as it refuses the settings of a bit, of a byte and of a mask. -/
def initRSProperty (item : Item) : Bool :=
  item.nbit.all (fun nbit => nbit < 16) && item.nbyte ≤ 2 &&
    (item.mask = 0 || (item.nbit.isNone && item.nbyte = 0))

/-- **An item of a device of type RTU.** -/
structure DeviceItem (address : Nat) extends Item where
  rtu : dtype = .dtRTU
  addr : toItem.mbaddr = address
  word : mbreg < 65536

/-- **`initItem` over the items of one device.** -/
def device (address : Nat) : Machine MBConf (DeviceItem address) where
  start conf := conf.pollmaps = []
  step conf item := if initRSProperty item.toItem then initItem conf item.toItem else none

/-- The sensor of an item where it asks to be. -/
def bindingOf (item : Item) : Binding := ⟨item.pollfactor, item.mbfunc, item.mbreg, item.property 0⟩

/-- **The checks do not compare** a sensor of a register with one that is there: the new one is a bit of a
register that takes single words, and one of its bits is a bit of the other; or both write a coil, and the new
one is no whole value of the same function. -/
def Uncompared (new old : Binding) : Prop :=
  (new.mbfunc = .fnWriteOutputSingleRegister ∧ old.mbfunc = .fnWriteOutputSingleRegister ∧
      new.sensor.nbit.isSome = true ∧ ∃ bit < 16, writes new.sensor 0 bit = true ∧ writes old.sensor 0 bit = true) ∨
    (writesCoil new.mbfunc = true ∧ writesCoil old.mbfunc = true ∧
      (old.mbfunc = new.mbfunc → new.sensor.nbit.isSome = true ∨ new.sensor.mask ≠ 0) ∧
      (∃ bit < 16, writes new.sensor 0 bit = true) ∧ ∃ bit < 16, writes old.sensor 0 bit = true)

instance (new old : Binding) : Decidable (Uncompared new old) := inferInstanceAs (Decidable (_ ∨ _))

/-- The item is that of a sensor its register has. -/
def Repeats (conf : MBConf) (item : Item) : Prop :=
  ∃ b ∈ bindings conf, b.pollfactor = item.pollfactor ∧ b.mbfunc = item.mbfunc ∧ b.mbreg = item.mbreg ∧
    b.sensor.si = item.si

/-- **An unguarded item**: the checks do not compare its sensor, which is new, with another one of the register
it asks for. -/
def Unguarded (conf : MBConf) (item : Item) : Prop :=
  ¬ Repeats conf item ∧ ∃ b ∈ bindings conf, b.mbreg = item.mbreg ∧ b.sensor.si ≠ item.si ∧
    Uncompared (bindingOf item) b

instance (conf : MBConf) (item : Item) : Decidable (Unguarded conf item) :=
  inferInstanceAs (Decidable (¬ (∃ b ∈ bindings conf, _ ∧ _) ∧ ∃ b ∈ bindings conf, _ ∧ _))

/-! ### The sensors after an item -/

section Step

variable {address : Nat} {conf conf' : MBConf} {item : Item} {slst : List RSProperty}

variable {b : Binding} {s : List RSProperty} {reg : Nat}

theorem mem_bindings :
    b ∈ bindings conf ↔ ∃ slst, Known conf b.pollfactor b.mbfunc b.mbreg slst ∧ b.sensor ∈ slst := by
  rw [bindings, List.mem_flatMap]
  constructor
  · rintro ⟨m, member, inside⟩
    obtain ⟨r, there, inside⟩ := List.mem_flatMap.mp inside
    obtain ⟨p, attached, rfl⟩ := List.mem_map.mp inside
    exact ⟨r.slst, ⟨m, member, rfl, r, there, rfl, rfl, rfl⟩, attached⟩
  · rintro ⟨slst, ⟨m, member, factor, r, there, func, reg, rfl⟩, attached⟩
    refine ⟨m, member, List.mem_flatMap.mpr ⟨r, there, List.mem_map.mpr ⟨b.sensor, attached, ?_⟩⟩⟩
    rw [factor, func, reg]

theorem mem_slst (maps : Of address conf) (added : Added item conf conf' slst) {q : RSProperty} :
    q ∈ slst ↔ (⟨item.pollfactor, item.mbfunc, item.mbreg, q⟩ : Binding) ∈ bindings conf := by
  rw [mem_bindings]
  rcases added.old with known | ⟨rfl, none⟩
  · refine ⟨fun inside => ⟨slst, known, inside⟩, ?_⟩
    rintro ⟨s, there, inside⟩
    rwa [Known.unique maps known there]
  · refine iff_of_false List.not_mem_nil ?_
    rintro ⟨s, there, -⟩
    exact none s there

theorem repeats_iff (maps : Of address conf) (added : Added item conf conf' slst) :
    Repeats conf item ↔ ∃ q ∈ slst, q.si = item.si := by
  constructor
  · rintro ⟨⟨pf, f, g, q⟩, member, rfl, rfl, rfl, same⟩
    exact ⟨q, (mem_slst maps added).mpr member, same⟩
  · rintro ⟨q, inside, same⟩
    exact ⟨_, (mem_slst maps added).mp inside, rfl, rfl, rfl, same⟩

theorem mem_addProp (maps : Of address conf) (added : Added item conf conf' slst) {q : RSProperty} :
    q ∈ (addProp slst (item.property 0)).1 ↔ q ∈ slst ∨ ¬ Repeats conf item ∧ q = item.property 0 := by
  rw [repeats_iff maps added]
  rcases addProp_cases slst (item.property 0) with ⟨other, inside, same, list, -⟩ | ⟨none, list, -⟩
  · rw [list]
    exact (or_iff_left fun new => new.1 ⟨other, inside, same⟩).symm
  · rw [list, List.mem_append, List.mem_singleton]
    refine or_congr_right (and_iff_right ?_).symm
    rintro ⟨other, inside, same⟩
    exact none other inside same

/-- **An item adds its sensor, unless its register has it.** -/
theorem mem_bindings_added (maps : Of address conf) (added : Added item conf conf' slst) {b : Binding} :
    b ∈ bindings conf' ↔ b ∈ bindings conf ∨ ¬ Repeats conf item ∧ b = bindingOf item := by
  obtain ⟨pf, f, g, p⟩ := b
  by_cases here : pf = item.pollfactor ∧ f = item.mbfunc ∧ g = item.mbreg
  · obtain ⟨rfl, rfl, rfl⟩ := here
    have same : (⟨item.pollfactor, item.mbfunc, item.mbreg, p⟩ : Binding) = bindingOf item ↔
        p = item.property 0 := by
      rw [bindingOf, Binding.mk.injEq]
      exact ⟨fun all => all.2.2.2, fun sensor => ⟨rfl, rfl, rfl, sensor⟩⟩
    rw [same, ← mem_slst maps added, ← mem_addProp maps added, mem_bindings]
    constructor
    · rintro ⟨s, there, inside⟩
      rcases (added.known _ _ _ s).mp there with ⟨-, -, -, rfl⟩ | ⟨other, -⟩ | ⟨-, -, other, -⟩
      · exact inside
      · exact absurd ⟨rfl, rfl, rfl⟩ other
      · exact absurd rfl other
    · exact fun inside => ⟨_, (added.known _ _ _ _).mpr (Or.inl ⟨rfl, rfl, rfl, rfl⟩), inside⟩
  · have other : (⟨pf, f, g, p⟩ : Binding) ≠ bindingOf item := by
      rw [bindingOf, ne_eq, Binding.mk.injEq]
      exact fun all => here ⟨all.1, all.2.1, all.2.2.1⟩
    rw [or_iff_left fun new => other new.2, mem_bindings, mem_bindings]
    constructor
    · rintro ⟨s, there, inside⟩
      rcases (added.known pf f g s).mp there with ⟨pf', f', g', -⟩ | ⟨-, old⟩ | ⟨-, -, -, -, rfl, -⟩
      · exact absurd ⟨pf', f', g'⟩ here
      · exact ⟨s, old, inside⟩
      · exact absurd inside List.not_mem_nil
    · rintro ⟨s, old, inside⟩
      exact ⟨s, (added.known pf f g s).mpr (Or.inr (Or.inl ⟨here, old⟩)), inside⟩

/-! ### What the checks exclude -/

/-- A register that is found is in the map that is left out. -/
theorem factor_of_untaken (maps : Of address conf) (addr : item.mbaddr = address) {f : MbFunc}
    {except : Option Nat}
    (untaken : conf.checkDuplicationRegID (genRegID reg f.code) item.mbaddr except = false)
    {pf : Nat} (known : Known conf pf f reg s) : some pf = except := by
  obtain ⟨m, member, rfl, r, there, func, number, -⟩ := known
  by_contra other
  rw [MBConf.checkDuplicationRegID, List.any_eq_false] at untaken
  refine untaken m member ?_
  have found : (m.regs.any fun r => r.regID = genRegID reg f.code) = true := by
    refine List.any_eq_true.mpr ⟨r, there, decide_eq_true ?_⟩
    rw [(maps.keyed m member).own r there, func, number]
  rw [found, maps.mine m member, addr, decide_eq_true rfl, decide_eq_true other]
  rfl

/-- The register an item asks for is in no other map. -/
theorem factor_of_known (maps : Of address conf) (addr : item.mbaddr = address)
    (free : conf.refuses item = false) {pf : Nat} (known : Known conf pf item.mbfunc item.mbreg s) :
    pf = item.pollfactor := by
  rw [MBConf.refuses] at free
  simp only [Bool.or_eq_false_iff] at free
  exact Option.some.inj (factor_of_untaken maps addr free.1.2 known)

/-- A register of single words is none of values of several words. -/
theorem not_known_single (maps : Of address conf) (addr : item.mbaddr = address)
    (word : item.mbreg < 65536) (free : conf.refuses item = false)
    (func : item.mbfunc = .fnWriteOutputSingleRegister) {pf : Nat} :
    ¬ Known conf pf .fnWriteOutputRegisters item.mbreg s := by
  intro known
  rw [MBConf.refuses] at free
  simp only [Bool.or_eq_false_iff] at free
  have crosses := free.2
  rw [MBConf.crosses, func] at crosses
  simp only [Nat.mod_eq_of_lt word] at crosses
  cases factor_of_untaken maps addr crosses known

/-- The words of a value of several words are no registers yet. -/
theorem not_known_multiple (maps : Of address conf) (addr : item.mbaddr = address)
    (free : conf.refuses item = false) (func : item.mbfunc = .fnWriteOutputRegisters) {pf : Nat}
    {f : MbFunc} {i : Nat} (inside : i < item.vType.wsize) (writing : writesRegister f = true) :
    ¬ Known conf pf f (wordOf item i) s := by
  intro known
  rw [MBConf.refuses] at free
  simp only [Bool.or_eq_false_iff] at free
  have crosses := free.2
  rw [MBConf.crosses, func] at crosses
  simp only [List.any_eq_false, Bool.not_eq_true, Bool.or_eq_false_iff] at crosses
  obtain ⟨single, multiple⟩ := crosses i (List.mem_range.mpr inside)
  cases f with
  | fnWriteOutputSingleRegister => cases factor_of_untaken maps addr single known
  | fnWriteOutputRegisters => cases factor_of_untaken maps addr multiple known
  | _ => cases writing

/-- **A sensor that shares its register** is a bit, or has a mask of its own. -/
theorem shared_cases (added : Added item conf conf' slst) (write : item.mbfunc.isWriteFunction = true)
    {q : RSProperty} (inside : q ∈ slst) :
    item.nbit.isSome = true ∨ item.mask ≠ 0 ∧ q.mask ≠ 0 ∧ q.mask &&& item.mask = 0 := by
  have accepted := added.accepted { newReg item 0 0 with slst := slst } rfl rfl
  have several : slst.isEmpty = false := by
    cases slst with
    | nil => exact absurd inside List.not_mem_nil
    | cons _ _ => rfl
  rw [RegInfo.refuses, newReg, Item.property] at accepted
  simp only [write, several, Bool.true_and, Bool.not_false, Bool.and_true, Bool.or_eq_false_iff] at accepted
  obtain ⟨⟨whole, -⟩, masks⟩ := accepted
  cases bit : item.nbit with
  | some nbit => exact Or.inl rfl
  | none =>
    have masked : item.mask ≠ 0 := by
      intro zero
      rw [bit, zero] at whole
      cases whole
    rw [decide_eq_true masked, Bool.true_and, List.any_eq_false] at masks
    have clear := masks q inside
    rw [Bool.not_eq_true, Bool.or_eq_false_iff, decide_eq_false_iff_not, decide_eq_false_iff_not, not_not]
      at clear
    exact Or.inr ⟨masked, clear.1, clear.2⟩

/-- **A sensor as the configuration leaves it.** -/
structure Formed (b : Binding) : Prop where
  size : b.sensor.rnum = b.sensor.vType.wsize
  masked : b.sensor.mask ≠ 0 → b.sensor.nbit = none ∧ b.sensor.nbyte = 0
  single : b.mbfunc.isWriteFunction = true → b.mbfunc ≠ .fnWriteOutputRegisters → b.sensor.rnum = 1

/-- The sensors of a device. -/
structure Sound (address : Nat) (conf : MBConf) : Prop where
  maps : Of address conf
  formed : ∀ b ∈ bindings conf, Formed b

/-- A sensor of one word with a mask writes bits of its mask only. -/
theorem mask_of_writes (formed : Formed b) (one : b.sensor.rnum = 1) (masked : b.sensor.mask ≠ 0)
    {word : Nat} (here : writes b.sensor word bit = true) : b.sensor.mask.testBit bit = true := by
  obtain ⟨-, -, field⟩ := lt_of_writes here
  obtain ⟨noBit, noByte⟩ := formed.masked masked
  have size := formed.size
  rw [one] at size
  have only : (decide (b.sensor.mask = 0) || b.sensor.mask.testBit bit) = true →
      b.sensor.mask.testBit bit = true := by
    rw [decide_eq_false masked, Bool.false_or]
    exact id
  rw [inField, noBit, noByte] at field
  cases type : b.sensor.vType <;> simp only [type] at field size
  case vtByte => exact absurd (of_decide_eq_true field) (Nat.succ_ne_zero _)
  case vtUnknown | vtSigned | vtUnsigned => exact only field
  all_goals cases size

theorem formed_bindingOf (rtu : item.dtype = .dtRTU) (checked : initRSProperty item = true)
    (maps : Of address conf) (added : Added item conf conf' slst) (isNew : ¬ Repeats conf item) :
    Formed (bindingOf item) := by
  have size : (item.property 0).rnum = item.vType.wsize := (property_rtu rtu 0).2
  refine ⟨size, fun masked => ?_, fun write other => ?_⟩
  · rw [initRSProperty, Bool.and_eq_true, Bool.or_eq_true, decide_eq_true_eq] at checked
    have both := checked.2.resolve_left masked
    rw [Bool.and_eq_true, decide_eq_true_eq, Option.isNone_iff_eq_none] at both
    exact both
  · have sensor : (addProp slst (item.property 0)).2.1 = item.property 0 := by
      rcases addProp_cases slst (item.property 0) with ⟨q, inside, same, -⟩ | ⟨-, -, sensor⟩
      · exact absurd ((repeats_iff maps added).mpr ⟨q, inside, same⟩) isNew
      · exact sensor
    have positive : 0 < item.vType.wsize := by cases item.vType <;> decide
    have one : ¬ 1 < (item.property 0).rnum := fun several =>
      other (added.single (by rwa [sensor]) write)
    show (item.property 0).rnum = 1
    omega

theorem known_of_occupies (maps : Of address conf) (member : b ∈ bindings conf)
    (here : Occupies b (.bit reg bit)) : ∃ s, Known conf b.pollfactor b.mbfunc reg s := by
  obtain ⟨s, ⟨m, there, factor, listed⟩, inside⟩ := mem_bindings.mp member
  obtain ⟨-, k, written, rfl⟩ := here
  obtain ⟨s', word⟩ := maps.worded m there b.mbfunc b.mbreg s listed b.sensor inside k (lt_of_writes written).1
  exact ⟨s', m, there, factor, word⟩

theorem word_of_mem (maps : Of address conf) (member : b ∈ bindings conf) : b.mbreg < 65536 := by
  obtain ⟨s, ⟨m, there, -, r, listed, -, reg, -⟩, -⟩ := mem_bindings.mp member
  rw [← reg]
  exact (maps.keyed m there).word r listed

theorem isWriteFunction_of_register {f : MbFunc} (writing : writesRegister f = true) :
    f.isWriteFunction = true := by
  cases f <;> first | rfl | cases writing

theorem isWriteFunction_of_coil {f : MbFunc} (writing : writesCoil f = true) :
    f.isWriteFunction = true ∧ f ≠ .fnWriteOutputRegisters := by
  cases f <;> first | exact ⟨rfl, by decide⟩ | cases writing

/-- The sensors of the register of an item, by the number and the function of the register. -/
theorem mem_slst_of_known (maps : Of address conf) (addr : item.mbaddr = address)
    (added : Added item conf conf' slst) (member : b ∈ bindings conf)
    (func : b.mbfunc = item.mbfunc) (reg : b.mbreg = item.mbreg) : b.sensor ∈ slst := by
  obtain ⟨s, known, -⟩ := mem_bindings.mp member
  rw [func, reg] at known
  have factor := factor_of_known maps addr added.free known
  rw [mem_slst maps added, ← factor, ← func, ← reg]
  exact member

/-- **A value of several words** is apart from all sensors that are there. -/
theorem apart_multiple (sound : Sound address conf) (addr : item.mbaddr = address)
    (added : Added item conf conf' slst) (size : (item.property 0).rnum = item.vType.wsize)
    (func : item.mbfunc = .fnWriteOutputRegisters) (member : b ∈ bindings conf)
    (new : Occupies (bindingOf item) (.bit reg bit)) : ¬ Occupies b (.bit reg bit) := by
  intro old
  obtain ⟨s, known⟩ := known_of_occupies sound.maps member old
  obtain ⟨-, k, written, rfl⟩ := new
  have inside : k < item.vType.wsize := size ▸ (lt_of_writes written).1
  exact not_known_multiple sound.maps addr added.free func inside old.1 known

/-- **A single word** is apart from all sensors but those of its register, and of these from all that are
compared with it. -/
theorem apart_single (sound : Sound address conf) (addr : item.mbaddr = address)
    (word : item.mbreg < 65536) (added : Added item conf conf' slst)
    (formed : Formed (bindingOf item)) (func : item.mbfunc = .fnWriteOutputSingleRegister)
    (member : b ∈ bindings conf) (guarded : b.mbreg = item.mbreg → ¬ Uncompared (bindingOf item) b)
    (new : Occupies (bindingOf item) (.bit reg bit)) : ¬ Occupies b (.bit reg bit) := by
  intro old
  have write : item.mbfunc.isWriteFunction = true := by rw [func]; rfl
  have other : item.mbfunc ≠ .fnWriteOutputRegisters := by rw [func]; decide
  have one : (item.property 0).rnum = 1 := formed.single write other
  obtain ⟨s, known⟩ := known_of_occupies sound.maps member old
  obtain ⟨-, k, written, place⟩ := new
  have first : k = 0 := Nat.lt_one_iff.mp (one ▸ (lt_of_writes written).1)
  subst first
  have here : reg = item.mbreg := place.trans (Nat.mod_eq_of_lt word)
  subst here
  obtain ⟨writing, k', written', place'⟩ := old
  have same : b.mbfunc = item.mbfunc := by
    rw [func]
    cases there : b.mbfunc with
    | fnWriteOutputSingleRegister => rfl
    | fnWriteOutputRegisters =>
      rw [there] at known
      exact absurd known (not_known_single sound.maps addr word added.free func)
    | _ => rw [there] at writing; cases writing
  have one' : b.sensor.rnum = 1 := by
    refine (sound.formed b member).single (isWriteFunction_of_register writing) ?_
    rwa [same]
  have first' : k' = 0 := Nat.lt_one_iff.mp (one' ▸ (lt_of_writes written').1)
  subst first'
  have reg' : b.mbreg = item.mbreg :=
    (place'.trans (Nat.mod_eq_of_lt (word_of_mem sound.maps member))).symm
  rcases shared_cases added write (mem_slst_of_known sound.maps addr added member same reg') with
    single | ⟨masked, masked', clear⟩
  · exact guarded reg' (Or.inl ⟨func, same.trans func, single, bit, (lt_of_writes written).2.1, written,
      written'⟩)
  · have mine := mask_of_writes formed one masked written
    have other := mask_of_writes (sound.formed b member) one' masked' written'
    have both : (b.sensor.mask &&& item.mask).testBit bit = true := by
      rw [Nat.testBit_and, other]
      exact mine
    rw [clear, Nat.zero_testBit] at both
    cases both

/-- **A coil** is never compared, but for a whole value of the same function. -/
theorem apart_coil (sound : Sound address conf) (addr : item.mbaddr = address)
    (added : Added item conf conf' slst) (member : b ∈ bindings conf)
    (guarded : b.mbreg = item.mbreg → ¬ Uncompared (bindingOf item) b)
    (new : Occupies (bindingOf item) (.coil reg)) : ¬ Occupies b (.coil reg) := by
  rintro ⟨writing', place', acts'⟩
  obtain ⟨writing, rfl, acts⟩ := new
  refine guarded place'.symm (Or.inr ⟨writing, writing', fun same => ?_, acts, acts'⟩)
  have shared := mem_slst_of_known sound.maps addr added member same place'.symm
  exact (shared_cases added (isWriteFunction_of_coil writing).1 shared).imp_right fun masks => masks.1

/-- **The sensor of a guarded item is apart from all others.** -/
theorem apart_of_guarded (sound : Sound address conf) (addr : item.mbaddr = address)
    (word : item.mbreg < 65536) (added : Added item conf conf' slst)
    (formed : Formed (bindingOf item)) (member : b ∈ bindings conf)
    (guarded : b.mbreg = item.mbreg → ¬ Uncompared (bindingOf item) b) (position : Position) :
    ¬ (Occupies (bindingOf item) position ∧ Occupies b position) := by
  rintro ⟨new, old⟩
  cases position with
  | bit reg bit =>
    cases func : item.mbfunc with
    | fnWriteOutputRegisters => exact apart_multiple sound addr added formed.size func member new old
    | fnWriteOutputSingleRegister =>
      exact apart_single sound addr word added formed func member guarded new old
    | _ =>
      have writing := new.1
      rw [bindingOf, func] at writing
      cases writing
  | coil reg => exact apart_coil sound addr added member guarded new old

/-- A sensor that is not compared has a position of the one that is there. -/
theorem occupies_of_uncompared {new old : Binding} (uncompared : Uncompared new old)
    (reg : old.mbreg = new.mbreg) : ∃ position, Occupies new position ∧ Occupies old position := by
  rcases uncompared with ⟨func, func', -, bit, -, here, there⟩ | ⟨writing, writing', -, acts, acts'⟩
  · refine ⟨.bit (new.mbreg % 65536) bit, ⟨by rw [func]; rfl, 0, here, rfl⟩, ⟨by rw [func']; rfl, 0, there, ?_⟩⟩
    rw [reg, Nat.add_zero]
  · exact ⟨.coil new.mbreg, ⟨writing, rfl, acts⟩, ⟨writing', reg.symm, acts'⟩⟩

/-- **A new sensor keeps the positions apart exactly if the item is guarded.** -/
theorem writeExclusive_added (sound : Sound address conf) (addr : item.mbaddr = address)
    (word : item.mbreg < 65536) (added : Added item conf conf' slst) (isNew : ¬ Repeats conf item)
    (formed : Formed (bindingOf item)) :
    WriteExclusive conf' ↔ WriteExclusive conf ∧ ¬ Unguarded conf item := by
  have mem := fun b => @mem_bindings_added address conf conf' item slst sound.maps added b
  have here : bindingOf item ∈ bindings conf' := (mem _).mpr (Or.inr ⟨isNew, rfl⟩)
  constructor
  · intro exclusive
    refine ⟨fun a ha b hb => exclusive a ((mem a).mpr (Or.inl ha)) b ((mem b).mpr (Or.inl hb)), ?_⟩
    rintro ⟨-, b, member, reg, other, uncompared⟩
    obtain ⟨position, both⟩ := occupies_of_uncompared uncompared reg
    exact exclusive _ here b ((mem b).mpr (Or.inl member)) (Ne.symm other) position both
  · rintro ⟨exclusive, guarded⟩
    have apart : ∀ b ∈ bindings conf, b.sensor.si ≠ item.si → ∀ position,
        ¬ (Occupies (bindingOf item) position ∧ Occupies b position) := fun b member other =>
      apart_of_guarded sound addr word added formed member fun reg uncompared =>
        guarded ⟨isNew, b, member, reg, other, uncompared⟩
    intro a ha b hb other position both
    rcases (mem a).mp ha with oldA | ⟨-, rfl⟩ <;> rcases (mem b).mp hb with oldB | ⟨-, rfl⟩
    · exact exclusive a oldA b oldB other position both
    · exact apart a oldA other position both.symm
    · exact apart b oldB (Ne.symm other) position both
    · exact other rfl

end Step

/-! ### The configuration of a device -/

section Device

variable {address : Nat} {conf conf' : MBConf}

/-- **One item**: the configuration stays sound, and its sensors write different positions afterwards exactly if
they did before and the item is guarded. -/
theorem device_step (sound : Sound address conf) (item : DeviceItem address) (own : Own conf item.toItem)
    (stepped : (device address).step conf item = some conf') :
    Sound address conf' ∧ (WriteExclusive conf' ↔ WriteExclusive conf ∧ ¬ Unguarded conf item.toItem) := by
  have stepped : (if initRSProperty item.toItem then initItem conf item.toItem else none) = some conf' := stepped
  split_ifs at stepped with checked
  obtain ⟨maps, slst, added⟩ := initItem_spec sound.maps item.addr item.rtu item.word own stepped
  have mem := fun b => @mem_bindings_added address conf conf' item.toItem slst sound.maps added b
  by_cases repeated : Repeats conf item.toItem
  · have same : ∀ b, b ∈ bindings conf' ↔ b ∈ bindings conf := fun b =>
      (mem b).trans (or_iff_left fun new => new.1 repeated)
    refine ⟨⟨maps, fun b member => sound.formed b ((same b).mp member)⟩, ?_⟩
    rw [and_iff_left fun unguarded : Unguarded conf item.toItem => unguarded.1 repeated]
    constructor
    · exact fun exclusive a ha b hb => exclusive a ((same a).mpr ha) b ((same b).mpr hb)
    · exact fun exclusive a ha b hb => exclusive a ((same a).mp ha) b ((same b).mp hb)
  · have formed := formed_bindingOf item.rtu checked sound.maps added repeated
    refine ⟨⟨maps, fun b member => ?_⟩,
      writeExclusive_added sound item.addr item.word added repeated formed⟩
    rcases (mem b).mp member with old | ⟨-, rfl⟩
    · exact sound.formed b old
    · exact formed

theorem sound_start (started : (device address).start conf) : Sound address conf ∧ WriteExclusive conf := by
  have none : conf.pollmaps = [] := started
  have empty : ∀ b, b ∉ bindings conf := by
    intro b
    rw [bindings, none]
    exact List.not_mem_nil
  refine ⟨⟨⟨?_, ?_, ?_, ?_⟩, fun b member => absurd member (empty b)⟩, fun a member => absurd member (empty a)⟩
  all_goals rw [none]
  · exact fun m member => absurd member List.not_mem_nil
  · exact List.Pairwise.nil
  · exact fun m member => absurd member List.not_mem_nil
  · exact fun m member => absurd member List.not_mem_nil

/-- **The sensors of a device write different positions exactly if no item was unguarded**, in every
configuration whose registers have identifiers of their own. -/
theorem writeExclusive_iff (started : (device address).start conf) {items : List (DeviceItem address)}
    (ran : (device address).run conf items = some conf')
    (own : (device address).Meets (fun conf item => Own conf item.toItem) conf items) :
    WriteExclusive conf' ↔
      (device address).Meets (fun conf item => ¬ Unguarded conf item.toItem) conf items := by
  obtain ⟨sound, exclusive⟩ := sound_start started
  have steps := Machine.goal_iff_meets
    (fun conf item conf' sound own stepped => @device_step address conf conf' sound item own stepped)
    sound own ran
  exact steps.trans (and_iff_right exclusive)

end Device

/-- An item of device 1 that writes a register. -/
def writeItem (id : ObjectId) (mbfunc : MbFunc) (mbreg : Nat) (word : mbreg < 65536) (nbit : Option Nat)
    (mask : Nat) (vType : VType) : DeviceItem 1 where
  si := ⟨id, 0⟩
  stype := .AI
  nbit := nbit
  vType := vType
  nbyte := 0
  mask := mask
  default := 0
  mbaddr := 1
  dtype := .dtRTU
  mtrSize := 0
  mbreg := mbreg
  mbfunc := mbfunc
  pollfactor := 0
  smInitOK := false
  preinit := false
  initMbreg := none
  initMbfunc := none
  rtu := rfl
  addr := rfl
  word := word

/-- Two masks of a register, two of its bits in another one, and a value behind them. -/
def apartItems : List (DeviceItem 1) :=
  [writeItem 1 .fnWriteOutputSingleRegister 10 (by decide) none 0x00FF .vtUnknown,
    writeItem 2 .fnWriteOutputSingleRegister 10 (by decide) none 0xFF00 .vtSigned,
    writeItem 3 .fnWriteOutputSingleRegister 11 (by decide) (some 0) 0 .vtUnknown,
    writeItem 4 .fnWriteOutputSingleRegister 11 (by decide) (some 1) 0 .vtUnknown,
    writeItem 5 .fnWriteOutputRegisters 12 (by decide) none 0 .vtI2]

theorem writeExclusive_apartItems :
    ∃ conf, (device 1).run ⟨false, [], []⟩ apartItems = some conf ∧ WriteExclusive conf := by
  obtain ⟨conf, ran⟩ := Option.isSome_iff_exists.mp
    (show ((device 1).run ⟨false, [], []⟩ apartItems).isSome = true by decide +kernel)
  have started : (device 1).start ⟨false, [], []⟩ := rfl
  exact ⟨conf, ran, (writeExclusive_iff started ran (by decide +kernel)).mpr (by decide +kernel)⟩

/-- Two sensors of the configuration that are not compared. -/
def Collide (conf : MBConf) : Prop :=
  ∃ a ∈ bindings conf, ∃ b ∈ bindings conf, a.sensor.si ≠ b.sensor.si ∧ b.mbreg = a.mbreg ∧ Uncompared a b

instance (conf : MBConf) : Decidable (Collide conf) :=
  inferInstanceAs (Decidable (∃ a ∈ bindings conf, ∃ b ∈ bindings conf, _ ∧ _))

theorem not_writeExclusive_of_run {items : List (DeviceItem 1)}
    (collide : ((device 1).run ⟨false, [], []⟩ items).any (fun conf => decide (Collide conf)) = true) :
    ∃ conf, (device 1).run ⟨false, [], []⟩ items = some conf ∧ ¬ WriteExclusive conf := by
  cases ran : (device 1).run ⟨false, [], []⟩ items with
  | none =>
    rw [ran] at collide
    cases collide
  | some conf =>
    rw [ran] at collide
    have found : Collide conf := of_decide_eq_true collide
    obtain ⟨a, ha, b, hb, other, reg, uncompared⟩ := found
    refine ⟨conf, rfl, fun exclusive => ?_⟩
    obtain ⟨position, both⟩ := occupies_of_uncompared uncompared reg
    exact exclusive a ha b hb other position both

/-- **Items that are accepted**: two sensors with one bit, a bit below two masks, a coil that is written with both
functions, and a bit of holding register 0, which finds coil 65535 of the other function. -/
theorem writeExclusive_fails :
    (∃ conf, (device 1).run ⟨false, [], []⟩
        [writeItem 1 .fnWriteOutputSingleRegister 10 (by decide) (some 3) 0 .vtUnknown,
          writeItem 2 .fnWriteOutputSingleRegister 10 (by decide) (some 3) 0 .vtUnknown] = some conf ∧
        ¬ WriteExclusive conf) ∧
      (∃ conf, (device 1).run ⟨false, [], []⟩
        [writeItem 1 .fnWriteOutputSingleRegister 10 (by decide) none 0x0F .vtUnknown,
          writeItem 2 .fnWriteOutputSingleRegister 10 (by decide) none 0xF0 .vtUnknown,
          writeItem 3 .fnWriteOutputSingleRegister 10 (by decide) (some 0) 0 .vtUnknown] = some conf ∧
        ¬ WriteExclusive conf) ∧
      (∃ conf, (device 1).run ⟨false, [], []⟩
        [writeItem 1 .fnForceSingleCoil 7 (by decide) none 0 .vtUnknown,
          writeItem 2 .fnForceMultipleCoils 7 (by decide) none 0 .vtUnknown] = some conf ∧
        ¬ WriteExclusive conf) ∧
      ∃ conf, (device 1).run ⟨false, [], []⟩
        [writeItem 1 .fnForceSingleCoil 65535 (by decide) (some 0) 0 .vtUnknown,
          writeItem 2 .fnWriteOutputSingleRegister 0 (by decide) (some 1) 0 .vtUnknown] = some conf ∧
        ¬ WriteExclusive conf :=
  ⟨not_writeExclusive_of_run (by decide +kernel), not_writeExclusive_of_run (by decide +kernel),
    not_writeExclusive_of_run (by decide +kernel), not_writeExclusive_of_run (by decide +kernel)⟩

end UniSet.ModbusMaster.Exclusive

/-
**The maps of registers that `initItem` builds.**

`regID` is no key: that of register 65535 is that of register 0 with the next function. As long as the
items stay away from this, every map is what it should be.

* `Word`, `ToldApart` — the registers that the values of the items lie in, and that they can be told apart.
* `Shape` — a map sorted by `regID`, with every register known by its function and its number.
* `RegMap` — moreover every register is a word of a value, and a map of one register asks for one.
* `Extends` — what the operations of `initItem` do to a map.
* **`initItem_regMap`**, **`readConfiguration_regMap`** — an item keeps the maps, and so do all items.
-/

import Mathlib.Data.List.Nodup
import UniSet.ModbusMaster.InitItem

namespace UniSet.ModbusMaster

/-- The register is a word of a value of `r`. -/
def Owns (r m : RegInfo) : Prop :=
  m.mbfunc = r.mbfunc ∧ ∃ p ∈ r.slst, r.mbreg ≤ m.mbreg ∧ m.mbreg < r.mbreg + p.rnum

instance (r m : RegInfo) : Decidable (Owns r m) := inferInstanceAs (Decidable (_ ∧ _))

/-- A function that is polled. -/
def MbFunc.Polled (func : MbFunc) : Prop := func.isReadFunction = true ∨ func.isWriteFunction = true

instance (func : MbFunc) : Decidable func.Polled := inferInstanceAs (Decidable (_ ∨ _))

theorem MbFunc.Polled.eq_of_code {func func' : MbFunc} (polled : func.Polled) (polled' : func'.Polled)
    (same : func.code = func'.code) : func = func' := by
  cases func with
  | other code => rcases polled with no | no <;> cases no
  | _ =>
    cases func' with
    | other code => rcases polled' with no | no <;> cases no
    | _ => first | rfl | exact absurd same (by decide)

/-! ### The words of the items -/

/-- The items of one map. -/
def itemsOf (items : List Item) (mbaddr pollfactor : Nat) : List Item :=
  items.filter fun item => item.mbaddr = mbaddr && item.pollfactor = pollfactor

/-- A register that a value of the items lies in. The number of words is that of the register where the
device has such registers, and another item may have created it. -/
def Word (items : List Item) (func : MbFunc) (reg : Nat) : Prop :=
  ∃ item ∈ items, func = item.mbfunc ∧
    (reg = item.mbreg ∨
      ∃ other ∈ items, item.mbreg ≤ reg ∧ reg < item.mbreg + (item.property other.mtrSize).rnum)

/-- **The items of a map can be told apart**: they are polled, no value goes past the last register, and
no two words have one `regID`. -/
structure ToldApart (items : List Item) : Prop where
  polled : ∀ item ∈ items, item.mbfunc.Polled
  low : ∀ func reg, Word items func reg → reg < 65536
  known : ∀ func reg func' reg', Word items func reg → Word items func' reg' →
    genRegID reg func.code = genRegID reg' func'.code → func = func' ∧ reg = reg'

variable {item : Item} {items : List Item} {regs : List RegInfo} {r : RegInfo}
  {f : RegInfo → RegInfo}

theorem Word.first (listed : item ∈ items) : Word items item.mbfunc item.mbreg :=
  ⟨item, listed, rfl, .inl rfl⟩

theorem Word.inside {other : Item} (listed : item ∈ items) (listed' : other ∈ items) {i : Nat}
    (lt : i < (item.property other.mtrSize).rnum) :
    Word items item.mbfunc (item.mbreg + i) :=
  ⟨item, listed, rfl, .inr ⟨other, listed', Nat.le_add_right _ _, Nat.add_lt_add_left lt _⟩⟩

/-- Items that stay away from the last register can be told apart. -/
theorem ToldApart.of_low (low : ∀ item ∈ items, item.mbfunc.Polled ∧ item.mbreg < 65535 ∧
      ∀ other ∈ items, item.mbreg + (item.property other.mtrSize).rnum ≤ 65535) :
    ToldApart items := by
  have below : ∀ func reg, Word items func reg → func.Polled ∧ reg < 65535 := by
    rintro func reg ⟨item, listed, rfl, rfl | ⟨other, listed', -, lt⟩⟩
    · exact ⟨(low item listed).1, (low item listed).2.1⟩
    · exact ⟨(low item listed).1, Nat.lt_of_lt_of_le lt ((low item listed).2.2 other listed')⟩
  refine ⟨fun item listed => (low item listed).1, fun func reg word => ?_, ?_⟩
  · exact Nat.lt_succ_of_lt (below func reg word).2
  · intro func reg func' reg' word word' same
    obtain ⟨polled, lt⟩ := below func reg word
    obtain ⟨polled', lt'⟩ := below func' reg' word'
    rw [genRegID, genRegID] at same
    exact ⟨polled.eq_of_code polled' (by omega), by omega⟩

theorem itemsOf_apart (low : ∀ item ∈ items, item.mbfunc.Polled ∧ item.mbreg < 65535 ∧
      ∀ other ∈ items, item.mbreg + (item.property other.mtrSize).rnum ≤ 65535)
    (mbaddr pollfactor : Nat) : ToldApart (itemsOf items mbaddr pollfactor) := by
  refine ToldApart.of_low fun item listed => ?_
  obtain ⟨polled, first, words⟩ := low item (List.mem_of_mem_filter listed)
  exact ⟨polled, first, fun other listed' => words other (List.mem_of_mem_filter listed')⟩

/-! ### A map -/

/-- **The registers of a map, as far as they are known by function and number.** -/
structure Shape (items : List Item) (regs : List RegInfo) : Prop where
  sorted : regs.Pairwise fun a b => a.regID < b.regID
  own : ∀ r ∈ regs, r.regID = genRegID r.mbreg r.mbfunc.code ∧ Word items r.mbfunc r.mbreg
  sized : ∀ r ∈ regs, ∃ item ∈ items, item.mtrSize = r.mtrSize
  words : ∀ r ∈ regs, ∀ p ∈ r.slst, 0 < p.rnum ∧ ∀ i < p.rnum, Word items r.mbfunc (r.mbreg + i)

/-- **A map of registers.** -/
structure RegMap (items : List Item) (regs : List RegInfo) : Prop extends Shape items regs where
  owned : ∀ m ∈ regs, ∃ r ∈ regs, Owns r m
  single : ∀ r ∈ regs, (r.qCount = 1 ∧ r.qNum = 0) ∨ 1 < regs.length

theorem RegMap.nil (items : List Item) : RegMap items [] := by
  refine ⟨⟨List.Pairwise.nil, ?_, ?_, ?_⟩, ?_, ?_⟩ <;>
    exact fun r member => absurd member List.not_mem_nil

/-! ### The operations on a map -/

theorem mem_insertReg {other : RegInfo} : other ∈ insertReg r regs ↔ other = r ∨ other ∈ regs := by
  induction regs with
  | nil => rw [insertReg, List.mem_singleton]; simp
  | cons first rest ih =>
    rw [insertReg]
    split_ifs
    · rw [List.mem_cons]
    · rw [List.mem_cons, ih, List.mem_cons]
      exact or_left_comm

theorem insertReg_sorted (sorted : regs.Pairwise fun a b => a.regID < b.regID)
    (absent : ∀ other ∈ regs, other.regID ≠ r.regID) :
    (insertReg r regs).Pairwise fun a b => a.regID < b.regID := by
  induction regs with
  | nil => exact List.pairwise_singleton _ _
  | cons first rest ih =>
    obtain ⟨below, sorted'⟩ := List.pairwise_cons.mp sorted
    have other := absent first List.mem_cons_self
    rw [insertReg]
    split_ifs with less
    · refine List.pairwise_cons.mpr ⟨fun x member => ?_, sorted⟩
      rcases List.mem_cons.mp member with rfl | later
      · exact less
      · exact Nat.lt_trans less (below x later)
    · refine List.pairwise_cons.mpr ⟨fun x member => ?_, ?_⟩
      · rcases mem_insertReg.mp member with rfl | later
        · omega
        · exact below x later
      · exact ih sorted' fun x member => absent x (List.mem_cons_of_mem _ member)

section AddReg

variable {item : Item} {regID mbreg : Nat} {regs : List RegInfo}

theorem mem_addReg (member : r ∈ addReg item regID mbreg regs) :
    r ∈ regs ∨ r = newReg item regID mbreg := by
  rw [addReg] at member
  split_ifs at member
  · exact .inl member
  · exact (mem_insertReg.mp member).symm

theorem mem_addReg_of_mem (member : r ∈ regs) : r ∈ addReg item regID mbreg regs := by
  rw [addReg]
  split_ifs
  · exact member
  · exact mem_insertReg.mpr (.inr member)

theorem exists_addReg (item : Item) (regID mbreg : Nat) (regs : List RegInfo) :
    ∃ r ∈ addReg item regID mbreg regs, r.regID = regID := by
  rw [addReg]
  split_ifs with there
  · obtain ⟨r, member, same⟩ := List.any_eq_true.mp there
    exact ⟨r, member, by simpa using same⟩
  · exact ⟨newReg item regID mbreg, mem_insertReg.mpr (.inl rfl), rfl⟩

theorem addReg_sorted (sorted : regs.Pairwise fun a b => a.regID < b.regID) :
    (addReg item regID mbreg regs).Pairwise fun a b => a.regID < b.regID := by
  rw [addReg]
  split_ifs with there
  · exact sorted
  · refine insertReg_sorted sorted fun other member same => there ?_
    exact List.any_eq_true.mpr ⟨other, member, decide_eq_true same⟩

end AddReg

theorem mem_modifyReg {regID : Nat} :
    r ∈ modifyReg regID f regs ↔ ∃ old ∈ regs, (if old.regID = regID then f old else old) = r :=
  List.mem_map

/-! ### What they keep -/

/-- The change of a register keeps what it is known by. -/
structure Keeps (items : List Item) (f : RegInfo → RegInfo) (r : RegInfo) : Prop where
  regID : (f r).regID = r.regID
  mbreg : (f r).mbreg = r.mbreg
  mbfunc : (f r).mbfunc = r.mbfunc
  mtrSize : (f r).mtrSize = r.mtrSize
  slst : r.slst ⊆ (f r).slst
  words : ∀ p ∈ (f r).slst, 0 < p.rnum ∧ ∀ i < p.rnum, Word items r.mbfunc (r.mbreg + i)

/-- **A map that has grown**: nothing is lost, and what is new has `new`. -/
structure Extends (new : RegInfo → Prop) (regs regs' : List RegInfo) : Prop where
  grows : ∀ r ∈ regs, ∃ r' ∈ regs', r'.mbfunc = r.mbfunc ∧ r'.mbreg = r.mbreg ∧ r.slst ⊆ r'.slst
  covered : ∀ r' ∈ regs', new r' ∨ ∃ r ∈ regs, r.mbfunc = r'.mbfunc ∧ r.mbreg = r'.mbreg

section Operations

variable {items : List Item} {regs : List RegInfo} {new : RegInfo → Prop}

theorem Extends.trans {regs' regs'' : List RegInfo} (first : Extends new regs regs')
    (second : Extends new regs' regs'')
    (known : ∀ a b : RegInfo, a.mbfunc = b.mbfunc → a.mbreg = b.mbreg → new a → new b) :
    Extends new regs regs'' where
  grows r member := by
    obtain ⟨r', member', func, reg, sub⟩ := first.grows r member
    obtain ⟨r'', member'', func', reg', sub'⟩ := second.grows r' member'
    exact ⟨r'', member'', func'.trans func, reg'.trans reg, List.Subset.trans sub sub'⟩
  covered r'' member'' := by
    rcases second.covered r'' member'' with isNew | ⟨r', member', func, reg⟩
    · exact .inl isNew
    · rcases first.covered r' member' with isNew | ⟨r, member, func', reg'⟩
      · exact .inl (known r' r'' func reg isNew)
      · exact .inr ⟨r, member, func'.trans func, reg'.trans reg⟩

/-- A register is known by its function and its number. -/
theorem Shape.known (apart : ToldApart items) (shape : Shape items regs) (member : r ∈ regs)
    {func : MbFunc} {reg : Nat} (word : Word items func reg)
    (same : r.regID = genRegID reg func.code) : r.mbfunc = func ∧ r.mbreg = reg := by
  obtain ⟨id, word'⟩ := shape.own r member
  exact apart.known _ _ _ _ word' word (id.symm.trans same)

theorem Shape.eq_of_regID (shape : Shape items regs) {a b : RegInfo} (ha : a ∈ regs) (hb : b ∈ regs)
    (same : a.regID = b.regID) : a = b := by
  have nodup : (regs.map RegInfo.regID).Nodup :=
    List.pairwise_map.mpr (shape.sorted.imp fun lt => Nat.ne_of_lt lt)
  exact List.inj_on_of_nodup_map nodup ha hb same

theorem Shape.addReg (shape : Shape items regs) {mbreg : Nat} (listed : item ∈ items)
    (word : Word items item.mbfunc mbreg) :
    Shape items (addReg item (genRegID mbreg item.mbfunc.code) mbreg regs) where
  sorted := addReg_sorted shape.sorted
  own r member := by
    rcases mem_addReg member with old | rfl
    · exact shape.own r old
    · exact ⟨rfl, word⟩
  sized r member := by
    rcases mem_addReg member with old | rfl
    · exact shape.sized r old
    · exact ⟨item, listed, rfl⟩
  words r member := by
    rcases mem_addReg member with old | rfl
    · exact shape.words r old
    · exact fun p inside => absurd inside List.not_mem_nil

theorem Shape.modifyReg (shape : Shape items regs) {regID : Nat}
    (keeps : ∀ r ∈ regs, r.regID = regID → Keeps items f r) :
    Shape items (modifyReg regID f regs) := by
  have same : ∀ r ∈ regs, (if r.regID = regID then f r else r).regID = r.regID := by
    intro r member
    split_ifs with here
    · exact (keeps r member here).regID
    · rfl
  refine ⟨?_, ?_, ?_, ?_⟩
  · refine List.pairwise_map.mpr (shape.sorted.imp_of_mem fun {a b} ha hb lt => ?_)
    rw [same a ha, same b hb]
    exact lt
  all_goals
    intro r' member'
    obtain ⟨r, member, rfl⟩ := mem_modifyReg.mp member'
    split_ifs with here
  · have kept := keeps r member here
    rw [kept.regID, kept.mbreg, kept.mbfunc]
    exact shape.own r member
  · exact shape.own r member
  · rw [(keeps r member here).mtrSize]
    exact shape.sized r member
  · exact shape.sized r member
  · have kept := keeps r member here
    rw [kept.mbreg, kept.mbfunc]
    exact kept.words
  · exact shape.words r member

theorem extends_addReg {regID mbreg : Nat} (isNew : new (newReg item regID mbreg)) :
    Extends new regs (addReg item regID mbreg regs) where
  grows r member := ⟨r, mem_addReg_of_mem member, rfl, rfl, List.Subset.refl _⟩
  covered r' member' := by
    rcases mem_addReg member' with old | rfl
    · exact .inr ⟨r', old, rfl, rfl⟩
    · exact .inl isNew

theorem extends_modifyReg {regID : Nat} (keeps : ∀ r ∈ regs, r.regID = regID → Keeps items f r) :
    Extends new regs (modifyReg regID f regs) where
  grows r member := by
    refine ⟨_, mem_modifyReg.mpr ⟨r, member, rfl⟩, ?_⟩
    split_ifs with here
    · have kept := keeps r member here
      exact ⟨kept.mbfunc, kept.mbreg, kept.slst⟩
    · exact ⟨rfl, rfl, List.Subset.refl _⟩
  covered r' member' := by
    obtain ⟨r, member, rfl⟩ := mem_modifyReg.mp member'
    refine .inr ⟨r, member, ?_⟩
    split_ifs with here
    · have kept := keeps r member here
      exact ⟨kept.mbfunc.symm, kept.mbreg.symm⟩
    · exact ⟨rfl, rfl⟩

end Operations

/-! ### The further words of a value -/

/-- The words of a value with `rnum` of them, from the register of the item on. -/
def Within (item : Item) (rnum : Nat) (m : RegInfo) : Prop :=
  m.mbfunc = item.mbfunc ∧ item.mbreg ≤ m.mbreg ∧ m.mbreg < item.mbreg + rnum

theorem Within.known {rnum : Nat} (a b : RegInfo) (func : a.mbfunc = b.mbfunc)
    (reg : a.mbreg = b.mbreg) (within : Within item rnum a) : Within item rnum b := by
  rw [Within, ← func, ← reg]
  exact within

section Tails

variable {items : List Item} (apart : ToldApart items) {item : Item} (listed : item ∈ items)
  {rnum : Nat} (words : ∀ i < rnum, Word items item.mbfunc (item.mbreg + i))
include apart listed words

theorem addTail_keeps (defaultMBinitOK : Bool) (shape : Shape items regs) {i : Nat}
    (inside : i < rnum) :
    Shape items (addTail defaultMBinitOK item item.mbfunc regs i) ∧
      Extends (Within item rnum) regs (addTail defaultMBinitOK item item.mbfunc regs i) ∧
      ∃ r ∈ addTail defaultMBinitOK item item.mbfunc regs i,
        r.mbfunc = item.mbfunc ∧ r.mbreg = item.mbreg + i := by
  have word := words i inside
  have reg : (item.mbreg + i) % 65536 = item.mbreg + i := Nat.mod_eq_of_lt (apart.low _ _ word)
  have added := shape.addReg listed word
  have keeps : ∀ r ∈ addReg item (genRegID (item.mbreg + i) item.mbfunc.code) (item.mbreg + i) regs,
      r.regID = genRegID (item.mbreg + i) item.mbfunc.code →
      Keeps items (fun r => { r with
        qNum := i + 1, qCount := 1, mbfunc := item.mbfunc, mbInitOK := defaultMBinitOK,
        smInitOK := false }) r := by
    intro r member same
    have known := added.known apart member word same
    exact ⟨rfl, rfl, known.1.symm, rfl, List.Subset.refl _, added.words r member⟩
  rw [addTail, reg]
  refine ⟨added.modifyReg keeps, ?_, ?_⟩
  · refine Extends.trans (extends_addReg ?_) (extends_modifyReg keeps) Within.known
    exact ⟨rfl, Nat.le_add_right _ _, Nat.add_lt_add_left inside _⟩
  · obtain ⟨r, member, same⟩ := exists_addReg item (genRegID (item.mbreg + i) item.mbfunc.code)
      (item.mbreg + i) regs
    have known := added.known apart member word same
    refine ⟨_, mem_modifyReg.mpr ⟨r, member, rfl⟩, ?_⟩
    rw [if_pos same]
    exact ⟨rfl, known.2⟩

theorem foldl_addTail_keeps (defaultMBinitOK : Bool) (shape : Shape items regs) (list : List Nat)
    (inside : ∀ i ∈ list, i < rnum) :
    Shape items (list.foldl (addTail defaultMBinitOK item item.mbfunc) regs) ∧
      Extends (Within item rnum) regs (list.foldl (addTail defaultMBinitOK item item.mbfunc) regs) ∧
      ∀ i ∈ list, ∃ r ∈ list.foldl (addTail defaultMBinitOK item item.mbfunc) regs,
        r.mbfunc = item.mbfunc ∧ r.mbreg = item.mbreg + i := by
  induction list generalizing regs with
  | nil =>
    refine ⟨shape, ⟨fun r member => ⟨r, member, rfl, rfl, List.Subset.refl _⟩,
      fun r member => .inr ⟨r, member, rfl, rfl⟩⟩, fun i member => absurd member List.not_mem_nil⟩
  | cons first rest ih =>
    obtain ⟨shape', grown, r, member, func, reg⟩ := addTail_keeps apart listed words defaultMBinitOK
      shape (inside first List.mem_cons_self)
    obtain ⟨shape'', grown', tails⟩ := ih shape' fun i later => inside i (List.mem_cons_of_mem _ later)
    refine ⟨shape'', grown.trans grown' Within.known, fun i member' => ?_⟩
    rcases List.mem_cons.mp member' with rfl | later
    · obtain ⟨r', member'', func', reg', -⟩ := grown'.grows r member
      exact ⟨r', member'', func'.trans func, reg'.trans reg⟩
    · exact tails i later

end Tails

/-! ### A sensor of a register -/

/-- The sensor that is in the list afterwards, and the list. -/
theorem addProp_keeps (slst : List RSProperty) (p : RSProperty) :
    slst ⊆ (addProp slst p).1 ∧ (addProp slst p).2.1 ∈ (addProp slst p).1 ∧
      ∀ other ∈ (addProp slst p).1, other ∈ slst ∨ other = p := by
  rw [addProp]
  split
  · rename_i other found
    exact ⟨List.Subset.refl _, List.mem_of_find?_eq_some found, fun _ member => .inl member⟩
  · refine ⟨List.subset_append_left _ _, List.mem_append_right _ (List.mem_singleton_self p), ?_⟩
    intro other member
    rcases List.mem_append.mp member with old | new
    · exact .inl old
    · exact .inr (List.mem_singleton.mp new)

theorem two_of_mem {a b : RegInfo} (ha : a ∈ regs) (hb : b ∈ regs) (ne : a ≠ b) :
    1 < regs.length := by
  match regs, ha, hb with
  | [r], ha, hb => exact absurd ((List.mem_singleton.mp ha).trans (List.mem_singleton.mp hb).symm) ne
  | _ :: _ :: rest, _, _ => exact Nat.succ_lt_succ (Nat.succ_pos _)

/-- What a register is known by is not changed by its flags. -/
theorem initFlags_keeps (defaultMBinitOK : Bool) (item : Item) (ri : RegInfo) :
    ∃ mbInitOK smInitOK, ri.initFlags defaultMBinitOK item =
      { ri with mbInitOK := mbInitOK, smInitOK := smInitOK } := by
  rw [RegInfo.initFlags]
  split_ifs
  · exact ⟨true, item.smInitOK, rfl⟩
  · exact ⟨defaultMBinitOK, false, rfl⟩

/-- The register that replaces that of an item. -/
structure Replaces (items : List Item) (ri new : RegInfo) (p1 : RSProperty) : Prop
    extends Keeps items (fun _ => new) ri where
  listed : p1 ∈ new.slst
  count : ¬ 1 < p1.rnum → new.qCount = ri.qCount ∧ new.qNum = ri.qNum

section Attach

variable {items : List Item} {defaultMBinitOK : Bool} {item : Item} (listed : item ∈ items)
  {regs tails : List RegInfo} {ri ri' : RegInfo} {left : SensorInfo} (shape : Shape items regs)
  (member : ri ∈ regs) (func : ri.mbfunc = item.mbfunc) (reg : ri.mbreg = item.mbreg)
  (attached : attach defaultMBinitOK item ri regs = some (tails, ri', left))
include listed shape member func reg attached

/-- **What `attach` does**: the register is replaced, and the further words are added. -/
theorem attach_eq :
    ∃ new p1, Replaces items ri new p1 ∧
      tails = (List.range p1.rnum).tail.foldl (addTail defaultMBinitOK item item.mbfunc)
        (modifyReg ri.regID (fun _ => new) regs) := by
  obtain ⟨mbInitOK, smInitOK, flags⟩ := initFlags_keeps defaultMBinitOK item ri
  obtain ⟨sub, last, old⟩ := addProp_keeps ri.slst (item.property ri.mtrSize)
  have all : (item.property ri.mtrSize).rnum ≠ 0 → ∀ p ∈ (addProp ri.slst (item.property ri.mtrSize)).1,
      0 < p.rnum ∧ ∀ i < p.rnum, Word items ri.mbfunc (ri.mbreg + i) := by
    intro nonzero p inside
    rcases old p inside with before | rfl
    · exact shape.words ri member p before
    · obtain ⟨other, listed', size⟩ := shape.sized ri member
      rw [func, reg]
      refine ⟨Nat.pos_of_ne_zero nonzero, fun i lt => Word.inside listed listed' ?_⟩
      rwa [size]
  rw [attach] at attached
  simp only [flags] at attached
  split_ifs at attached with refused several more
  all_goals
    have nonzero : (item.property ri.mtrSize).rnum ≠ 0 := fun zero => refused (by simp [zero])
    simp only [Option.some.injEq, Prod.mk.injEq] at attached
    obtain ⟨rfl, -, -⟩ := attached
  · refine ⟨{ ri with
      mbInitOK := mbInitOK, smInitOK := smInitOK, qNum := 1, qCount := _, slst := _ }, _,
      ⟨⟨rfl, rfl, rfl, rfl, sub, all nonzero⟩, last, fun one => absurd more one⟩, by rw [func]⟩
  · refine ⟨{ ri with mbInitOK := mbInitOK, smInitOK := smInitOK, slst := _ }, _,
      ⟨⟨rfl, rfl, rfl, rfl, sub, all nonzero⟩, last, fun _ => ⟨rfl, rfl⟩⟩, by rw [func]⟩

/-- **A map after `attach`**: it has grown by the words of a value of the item. -/
theorem attach_keeps (apart : ToldApart items)
    (single : ∀ r ∈ regs, (r.qCount = 1 ∧ r.qNum = 0) ∨ 1 < regs.length) :
    Shape items tails ∧ (∀ r ∈ tails, (r.qCount = 1 ∧ r.qNum = 0) ∨ 1 < tails.length) ∧
      ∃ p : RSProperty, 0 < p.rnum ∧ Extends (Within item p.rnum) regs tails ∧
        ∃ o ∈ tails, o.mbfunc = item.mbfunc ∧ o.mbreg = item.mbreg ∧ p ∈ o.slst := by
  obtain ⟨new, p1, replaces, rfl⟩ := attach_eq listed shape member func reg attached
  obtain ⟨positive, words⟩ := replaces.words p1 replaces.listed
  rw [func, reg] at words
  have keeps : ∀ r ∈ regs, r.regID = ri.regID → Keeps items (fun _ => new) r := by
    intro r inside same
    rw [shape.eq_of_regID inside member same]
    exact replaces.toKeeps
  have replaced : new ∈ modifyReg ri.regID (fun _ => new) regs :=
    mem_modifyReg.mpr ⟨ri, member, if_pos rfl⟩
  obtain ⟨shape', grown, tail⟩ := foldl_addTail_keeps apart listed words defaultMBinitOK
    (shape.modifyReg keeps) (List.range p1.rnum).tail
    fun i inside => List.mem_range.mp (List.mem_of_mem_tail inside)
  obtain ⟨o, inside, func', reg', sub⟩ := grown.grows new replaced
  have owner := And.intro (func'.trans (replaces.mbfunc.trans func)) (reg'.trans (replaces.mbreg.trans reg))
  refine ⟨shape', ?_, p1, positive, (extends_modifyReg keeps).trans grown Within.known,
    o, inside, owner.1, owner.2, sub replaces.listed⟩
  by_cases more : 1 < p1.rnum
  · -- the register of the item and that of its second word
    obtain ⟨r, inside', -, second⟩ := tail 1 (by
      rw [List.range_eq_range', List.tail_range', List.mem_range'_1]
      omega)
    refine fun _ _ => .inr (two_of_mem inside inside' fun same => ?_)
    rw [← same, owner.2] at second
    omega
  · have none' : (List.range p1.rnum).tail = [] := by
      rw [show p1.rnum = 1 by omega]
      rfl
    rw [none', List.foldl_nil]
    intro r' member'
    rw [modifyReg, List.length_map]
    obtain ⟨r, inside', rfl⟩ := mem_modifyReg.mp member'
    split_ifs with here
    · rw [(replaces.count more).1, (replaces.count more).2]
      exact single ri member
    · exact single r inside'

end Attach

/-! ### An item -/

theorem insertReg_length (r : RegInfo) (regs : List RegInfo) :
    (insertReg r regs).length = regs.length + 1 := by
  induction regs with
  | nil => rfl
  | cons first rest ih =>
    rw [insertReg]
    split_ifs
    · rfl
    · rw [List.length_cons, ih, List.length_cons]

section Maps

variable {items : List Item} {regs : List RegInfo}

/-- The flags and the values of registers are not looked at. -/
theorem RegMap.map (map : RegMap items regs) (flags : ∀ r, ∃ mbInitOK smInitOK mbval,
      f r = { r with mbInitOK := mbInitOK, smInitOK := smInitOK, mbval := mbval }) :
    RegMap items (regs.map f) := by
  have known : ∀ r, (f r).regID = r.regID ∧ (f r).mbreg = r.mbreg ∧ (f r).mbfunc = r.mbfunc ∧
      (f r).mtrSize = r.mtrSize ∧ (f r).slst = r.slst ∧ (f r).qCount = r.qCount ∧ (f r).qNum = r.qNum := by
    intro r
    obtain ⟨mbInitOK, smInitOK, mbval, eq⟩ := flags r
    rw [eq]
    exact ⟨rfl, rfl, rfl, rfl, rfl, rfl, rfl⟩
  refine ⟨⟨?_, ?_, ?_, ?_⟩, ?_, ?_⟩
  · refine List.pairwise_map.mpr (map.sorted.imp fun {a b} lt => ?_)
    rw [(known a).1, (known b).1]
    exact lt
  all_goals
    intro r' member'
    obtain ⟨r, member, rfl⟩ := List.mem_map.mp member'
    obtain ⟨regID, mbreg, mbfunc, mtrSize, slst, qCount, qNum⟩ := known r
  · rw [regID, mbreg, mbfunc]
    exact map.own r member
  · rw [mtrSize]
    exact map.sized r member
  · rw [slst, mbfunc, mbreg]
    exact map.words r member
  · obtain ⟨o, inside, owns⟩ := map.owned r member
    refine ⟨f o, List.mem_map_of_mem inside, ?_⟩
    obtain ⟨-, mbreg', mbfunc', -, slst', -⟩ := known o
    rw [Owns, mbreg, mbfunc, mbreg', mbfunc', slst']
    exact owns
  · rw [qCount, qNum, List.length_map]
    exact map.single r member

/-- A map that has grown by the words of a value whose register is there. -/
theorem Extends.owned {p : RSProperty} {regs' : List RegInfo}
    (grown : Extends (Within item p.rnum) regs regs') (owned : ∀ m ∈ regs, ∃ r ∈ regs, Owns r m)
    {o : RegInfo} (inside : o ∈ regs') (func : o.mbfunc = item.mbfunc) (reg : o.mbreg = item.mbreg)
    (listed : p ∈ o.slst) : ∀ m ∈ regs', ∃ r ∈ regs', Owns r m := by
  intro m member
  rcases grown.covered m member with ⟨func', low, high⟩ | ⟨m', member', func', reg'⟩
  · refine ⟨o, inside, func'.trans func.symm, p, listed, ?_, ?_⟩
    · rwa [reg]
    · rwa [reg]
  · obtain ⟨r, inside', owns, q, listed', low, high⟩ := owned m' member'
    obtain ⟨r', inside'', func'', reg'', sub⟩ := grown.grows r inside'
    refine ⟨r', inside'', func'.symm.trans (owns.trans func''.symm), q, sub listed', ?_, ?_⟩
    · rwa [reg'', ← reg']
    · rwa [reg'', ← reg']

/-- **The map of an item afterwards.** -/
theorem RegMap.attach (apart : ToldApart items) (map : RegMap items regs) (listed : item ∈ items)
    {defaultMBinitOK : Bool} {tails : List RegInfo} {ri ri' : RegInfo} {left : SensorInfo}
    (member : ri ∈ addReg item (genRegID item.mbreg item.mbfunc.code) item.mbreg regs)
    (same : ri.regID = genRegID item.mbreg item.mbfunc.code)
    (attached : attach defaultMBinitOK item ri
      (addReg item (genRegID item.mbreg item.mbfunc.code) item.mbreg regs) = some (tails, ri', left)) :
    RegMap items tails := by
  have shape := map.toShape.addReg listed (Word.first listed)
  obtain ⟨func, reg⟩ := shape.known apart member (Word.first listed) same
  have single : ∀ r ∈ addReg item (genRegID item.mbreg item.mbfunc.code) item.mbreg regs,
      (r.qCount = 1 ∧ r.qNum = 0) ∨
        1 < (addReg item (genRegID item.mbreg item.mbfunc.code) item.mbreg regs).length := by
    intro r inside
    rcases mem_addReg inside with old | rfl
    · refine (map.single r old).imp_right fun more => ?_
      rw [addReg]
      split_ifs
      · exact more
      · rw [insertReg_length]
        exact Nat.lt_succ_of_lt more
    · exact .inl ⟨rfl, rfl⟩
  obtain ⟨shape', single', p, positive, grown, o, inside, func', reg', last⟩ :=
    attach_keeps listed shape member func reg attached apart single
  have added : Extends (Within item p.rnum) regs
      (addReg item (genRegID item.mbreg item.mbfunc.code) item.mbreg regs) :=
    extends_addReg ⟨rfl, Nat.le_refl _, Nat.lt_add_of_pos_right positive⟩
  exact ⟨shape', (added.trans grown Within.known).owned map.owned inside func' reg' last, single'⟩

theorem RegMap.awaitRead (map : RegMap items regs) (regID : Nat) :
    RegMap items (awaitRead regID regs) := by
  refine map.map fun r => ?_
  split_ifs
  · exact ⟨false, false, r.mbval, rfl⟩
  · exact ⟨r.mbInitOK, r.smInitOK, r.mbval, rfl⟩

end Maps

/-! ### A configuration -/

/-- All maps of a configuration. -/
def MBConf.RegMaps (items : List Item) (conf : MBConf) : Prop :=
  ∀ m ∈ conf.pollmaps, RegMap (itemsOf items m.mbaddr m.pollfactor) m.regs

section Configuration

variable {items : List Item} {conf conf' : MBConf} {item : Item}

theorem initItem_pollmaps (done : initItem conf item = some conf') :
    ∃ ri tails ri' left,
      ri ∈ addReg item (genRegID item.mbreg item.mbfunc.code) item.mbreg (conf.regmap item) ∧
      ri.regID = genRegID item.mbreg item.mbfunc.code ∧
      attach conf.defaultMBinitOK item ri
        (addReg item (genRegID item.mbreg item.mbfunc.code) item.mbreg (conf.regmap item)) =
          some (tails, ri', left) ∧
      (conf'.pollmaps = (conf.setRegmap item tails).pollmaps ∨
        conf'.pollmaps =
          (conf.setRegmap item (awaitRead (genRegID item.mbreg item.mbfunc.code) tails)).pollmaps) := by
  rw [initItem] at done
  split at done
  · cases done
  · dsimp only at done
    split at done
    · cases done
    · rename_i ri found
      have same := List.find?_some found
      split at done
      · cases done
      · rename_i tails ri' left attached
        refine ⟨ri, tails, ri', left, List.mem_of_find?_eq_some found, of_decide_eq_true same,
          attached, ?_⟩
        split_ifs at done
        · cases done
          exact .inr rfl
        · cases done
          exact .inl rfl

theorem regmap_regMap (maps : conf.RegMaps items) (item : Item) :
    RegMap (itemsOf items item.mbaddr item.pollfactor) (conf.regmap item) := by
  rw [MBConf.regmap]
  split
  · rename_i m found
    have key := List.find?_some found
    simp only [Bool.and_eq_true, decide_eq_true_eq] at key
    have map := maps m (List.mem_of_find?_eq_some found)
    rwa [key.1, key.2] at map
  · exact RegMap.nil _

theorem setRegmap_regMaps (maps : conf.RegMaps items)
    (map : RegMap (itemsOf items item.mbaddr item.pollfactor) regs) :
    (conf.setRegmap item regs).RegMaps items := by
  intro m' member'
  rw [MBConf.setRegmap] at member'
  split_ifs at member'
  · obtain ⟨m, member, rfl⟩ := List.mem_map.mp member'
    split_ifs with key
    · rw [← key.1, ← key.2] at map
      exact map
    · exact maps m member
  · rcases List.mem_append.mp member' with old | new
    · exact maps m' old
    · rw [List.mem_singleton.mp new]
      exact map

/-- **An item keeps the maps.** -/
theorem initItem_regMap (apart : ∀ mbaddr pollfactor, ToldApart (itemsOf items mbaddr pollfactor))
    (listed : item ∈ items) (maps : conf.RegMaps items) (done : initItem conf item = some conf') :
    conf'.RegMaps items := by
  obtain ⟨ri, tails, ri', left, member, same, attached, result⟩ := initItem_pollmaps done
  have mine : item ∈ itemsOf items item.mbaddr item.pollfactor := by
    simp only [itemsOf, List.mem_filter, listed, decide_true, Bool.and_self, and_self]
  have map := (regmap_regMap maps item).attach (apart _ _) mine member same attached
  rcases result with plain | awaits
  · rw [MBConf.RegMaps, plain]
    exact setRegmap_regMaps maps map
  · rw [MBConf.RegMaps, awaits]
    exact setRegmap_regMaps maps (map.awaitRead _)

/-- **All items together.** -/
theorem readConfiguration_regMap
    (apart : ∀ mbaddr pollfactor, ToldApart (itemsOf items mbaddr pollfactor)) {defaultMBinitOK : Bool}
    (done : readConfiguration defaultMBinitOK items = some conf) : conf.RegMaps items := by
  have run : ∀ (rest : List Item) (conf₀ : MBConf), rest ⊆ items → conf₀.RegMaps items →
      rest.foldlM initItem conf₀ = some conf → conf.RegMaps items := by
    intro rest
    induction rest with
    | nil =>
      intro conf₀ _ maps done
      cases done
      exact maps
    | cons item rest ih =>
      intro conf₀ sub maps done
      rw [List.foldlM_cons] at done
      obtain ⟨conf₁, step, done⟩ := Option.bind_eq_some_iff.mp done
      obtain ⟨listed, sub⟩ := List.cons_subset.mp sub
      exact ih conf₁ sub (initItem_regMap apart listed maps step) done
  exact run items _ (List.Subset.refl _) (fun m member => absurd member List.not_mem_nil) done

end Configuration

end UniSet.ModbusMaster

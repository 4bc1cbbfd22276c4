/-
**Whether a Modbus slave answers with the current values of its sensors.**

* `Built` — the maps of a configuration whose sensors are not bits: the words of each one in registers
  one after another.
* `PlainMap` — a map of items without calibration diagrams, which keep their last conversion.
* `configured_once_refreshed` — if each sensor is configured once, messages get to all of its copies.
* **`answers_current_iff`**: every sensor is asked for and every read gives the last reported value,
  exactly if the sensors of all bits are those of registers too and every copy that is read is reached or
  is read the same for every value. No message gets to the copy of a bit (`bit_frozen`).
-/

import UniSet.ModbusSlave.SensorInfo

namespace UniSet.ModbusSlave

open ModbusMaster (ObjectId IOType VType genRegID)

variable (s : Slave)

/-! ### Maps of sensors configured once -/

/-- The words of a sensor's value. -/
def Item.wsize (it : Item) : Nat := (it.vtype.getD .vtUnknown).wsize

/-- A register of a sensor that is not a bit: one of those from its own one on. -/
structure Item.Has (it : Item) (addr : Nat) (r : Register) : Prop where
  mbaddr : it.mbaddr = addr
  id : r.id = it.base.si.id
  bitreg : r.bitreg = none
  wsize : r.prop.vtype.wsize = it.wsize
  first : genRegID it.mbreg (s.itemFunc it) ≤ r.regID
  last : r.regID < genRegID it.mbreg (s.itemFunc it) + it.wsize

/-- **What the maps have that are built of sensors without bits.** -/
structure Built (items : List Item) (iomap : IOMap) : Prop where
  nodup : (iomap.map Prod.fst).Nodup
  has : ∀ entry ∈ iomap, ∀ r ∈ entry.2.regs, ∃ it ∈ items, it.Has s entry.1 r

variable {m : RegMap} {r : Register}

theorem mem_initWords {p : IOProperty} {fn : Nat} (mem : r ∈ (Slave.initWords m p fn).regs) :
    r ∈ m.regs ∨ r = ⟨p, none⟩ ∨
      ∃ k < p.vtype.wsize, r = ⟨Slave.wordProp p fn k, none⟩ := by
  have fold : ∀ (ks : List Nat) (m : RegMap),
      r ∈ (ks.foldl (fun m k => m.insert ⟨Slave.wordProp p fn k, none⟩) m).regs →
      r ∈ m.regs ∨ ∃ k ∈ ks, r = ⟨Slave.wordProp p fn k, none⟩ := by
    intro ks
    induction ks with
    | nil => exact fun m mem => Or.inl mem
    | cons k ks ih =>
      intro m mem
      rcases ih _ mem with mem | ⟨k', there, mem⟩
      · rcases RegMap.mem_insert.mp mem with mem | mem
        · exact Or.inr ⟨k, List.mem_cons_self, mem⟩
        · exact Or.inl mem.1
      · exact Or.inr ⟨k', List.mem_cons_of_mem _ there, mem⟩
  rcases fold _ _ mem with mem | ⟨k, inside, mem⟩
  · rcases RegMap.mem_insert.mp mem with mem | mem
    · exact Or.inr (Or.inl mem)
    · exact Or.inl mem.1
  · rw [List.mem_range'_1] at inside
    exact Or.inr (Or.inr ⟨k, by omega, mem⟩)

/-- The registers a sensor adds to the map of its address. -/
theorem mem_initReg {m' : RegMap} {it : Item} {b : Bool} (accepted : s.initReg m it = some (b, m'))
    (whole : it.nbit = none) (fit : it.mbreg + it.wsize ≤ 65536) (mem : r ∈ m'.regs) :
    r ∈ m.regs ∨ it.Has s it.mbaddr r := by
  simp only [Slave.initReg, whole] at accepted
  split at accepted
  · cases accepted
  · split at accepted
    · next nothing =>
      obtain ⟨-, rfl⟩ := Prod.mk.inj (Option.some.inj accepted)
      rcases RegMap.mem_insert.mp mem with rfl | mem
      · refine Or.inr ⟨rfl, rfl, rfl, ?_, Nat.le_refl _, ?_⟩
        · rw [Item.wsize, nothing]
          rfl
        · rw [Item.wsize, nothing]
          exact Nat.lt_succ_self _
      · exact Or.inl mem.1
    · obtain ⟨-, rfl⟩ := Prod.mk.inj (Option.some.inj accepted)
      exact Or.inl mem
    · next v _ typed =>
      have size : it.wsize = v.wsize := by rw [Item.wsize, typed]; rfl
      split at accepted
      · obtain ⟨-, rfl⟩ := Prod.mk.inj (Option.some.inj accepted)
        exact Or.inl mem
      · obtain ⟨-, rfl⟩ := Prod.mk.inj (Option.some.inj accepted)
        have pos := wsize_pos v
        rcases mem_initWords mem with mem | rfl | ⟨k, inside, rfl⟩
        · exact Or.inl mem
        · refine Or.inr ⟨rfl, rfl, rfl, size.symm, Nat.le_refl _, ?_⟩
          rw [size]
          exact Nat.lt_add_of_pos_right pos
        · have less : k < v.wsize := inside
          have reg : (Register.mk (Slave.wordProp (s.typedProp it v) (s.itemFunc it) k) none).regID =
              genRegID it.mbreg (s.itemFunc it) + k :=
            Slave.wordProp_regID rfl (show it.mbreg + k < 65536 by omega)
          refine Or.inr ⟨rfl, rfl, rfl, size.symm, ?_, ?_⟩
          · rw [reg]
            omega
          · rw [reg, size]
            omega

theorem mem_lookup {iomap : IOMap} {addr : Nat} (found : iomap.lookup addr = some m) :
    (addr, m) ∈ iomap := by
  induction iomap with
  | nil => cases found
  | cons entry iomap ih =>
    rw [List.lookup_cons] at found
    split at found
    · next same =>
      rw [beq_iff_eq] at same
      obtain rfl := Option.some.inj found
      rw [same]
      exact List.mem_cons_self
    · exact List.mem_cons_of_mem _ (ih found)

theorem Built.initItem {items : List Item} {iomap iomap' : IOMap} {it : Item} {b : Bool}
    (built : Built s items iomap) (accepted : s.initItem iomap it = some (b, iomap'))
    (whole : it.nbit = none) (fit : it.mbreg + it.wsize ≤ 65536) : Built s (it :: items) iomap' := by
  rw [Slave.initItem] at accepted
  split at accepted
  · obtain ⟨-, rfl⟩ := Prod.mk.inj (Option.some.inj accepted)
    exact ⟨built.nodup, fun entry listed r mem =>
      (built.has entry listed r mem).imp fun x item => ⟨List.mem_cons_of_mem _ item.1, item.2⟩⟩
  · dsimp only at accepted
    generalize begun : (if (iomap.lookup it.mbaddr).isSome then iomap
      else iomap ++ [(it.mbaddr, RegMap.empty)]) = io at accepted
    -- a new address has an empty map
    have kept : (io.map Prod.fst).Nodup ∧ ∀ entry ∈ io, ∀ r ∈ entry.2.regs,
        ∃ x ∈ items, x.Has s entry.1 r := by
      subst begun
      split
      · exact ⟨built.nodup, built.has⟩
      · next nothing =>
        refine ⟨?_, ?_⟩
        · rw [List.map_append, List.nodup_append]
          refine ⟨built.nodup, List.nodup_singleton _, ?_⟩
          intro addr here addr' there same
          rw [List.map_cons, List.map_nil, List.mem_singleton] at there
          obtain ⟨entry, listed, holds⟩ := List.mem_map.mp here
          have look : (iomap.lookup it.mbaddr).isSome = true :=
            List.lookup_isSome_iff.mpr ⟨entry, listed, by simp [holds, same, there]⟩
          exact nothing look
        · intro entry listed r mem
          rcases List.mem_append.mp listed with listed | listed
          · exact built.has entry listed r mem
          · rw [List.mem_singleton.mp listed] at mem
            exact absurd mem List.not_mem_nil
    obtain ⟨done, put, pair⟩ := Option.map_eq_some_iff.mp accepted
    obtain ⟨-, rfl⟩ := Prod.mk.inj pair
    have holds : ∀ entry : Nat × RegMap,
        (if entry.1 = it.mbaddr then (entry.1, done.2) else entry).1 = entry.1 := fun entry => by
      split <;> rfl
    refine ⟨?_, ?_⟩
    · rw [List.map_map, show (Prod.fst ∘ fun entry : Nat × RegMap =>
        if entry.1 = it.mbaddr then (entry.1, done.2) else entry) = Prod.fst from funext holds]
      exact kept.1
    · intro entry listed r mem
      obtain ⟨old, hold, rfl⟩ := List.mem_map.mp listed
      split at mem
      · next own =>
        rw [if_pos own]
        dsimp only
        rcases mem_initReg s put whole fit mem with mem | owns
        · cases look : io.lookup it.mbaddr with
          | none =>
            rw [look] at mem
            exact absurd mem List.not_mem_nil
          | some m =>
            rw [look] at mem
            obtain ⟨x, item, owned⟩ := kept.2 _ (mem_lookup look) r mem
            rw [own]
            exact ⟨x, List.mem_cons_of_mem _ item, owned⟩
        · rw [own]
          exact ⟨it, List.mem_cons_self, owns⟩
      · next own =>
        rw [if_neg own]
        obtain ⟨x, item, owned⟩ := kept.2 old hold r mem
        exact ⟨x, List.mem_cons_of_mem _ item, owned⟩

theorem Built.readConfiguration (items : List Item) {iomap : IOMap}
    (read : s.readConfiguration items = some iomap) (whole : ∀ it ∈ items, it.nbit = none)
    (fit : ∀ it ∈ items, it.mbreg + it.wsize ≤ 65536) : Built s items iomap := by
  have fold : ∀ (rest done : List Item) (iomap₀ : IOMap), (∀ it ∈ rest, it ∈ items) →
      (∀ it ∈ done, it ∈ items) → Built s done iomap₀ →
      rest.foldlM (fun iomap it => (s.initItem iomap it).map Prod.snd) iomap₀ = some iomap →
      Built s items iomap := by
    intro rest
    induction rest with
    | nil =>
      intro done iomap₀ _ old built read
      obtain rfl := Option.some.inj read
      exact ⟨built.nodup, fun entry listed r mem =>
        (built.has entry listed r mem).imp fun x item => ⟨old x item.1, item.2⟩⟩
    | cons it rest ih =>
      intro done iomap₀ later old built read
      rw [List.foldlM_cons] at read
      obtain ⟨iomap₁, first, read⟩ := Option.bind_eq_some_iff.mp read
      obtain ⟨⟨b, m⟩, begun, rfl⟩ := Option.map_eq_some_iff.mp first
      have hit := later it List.mem_cons_self
      refine ih (it :: done) m (fun x item => later x (List.mem_cons_of_mem _ item)) ?_
        (built.initItem s begun (whole it hit) (fit it hit)) read
      intro x item
      rcases List.mem_cons.mp item with rfl | item
      · exact hit
      · exact old x item
  refine fold items [] [] (fun _ item => item) (fun _ item => absurd item List.not_mem_nil) ?_ read
  exact ⟨List.nodup_nil, fun _ listed => absurd listed List.not_mem_nil⟩

/-- Identifiers grow at least as fast as places. -/
theorem regID_growth {i j : Nat} {r' : Register} (found : m.regs[i]? = some r)
    (found' : m.regs[j]? = some r') (less : i ≤ j) : r.regID + (j - i) ≤ r'.regID := by
  induction j generalizing r' with
  | zero =>
    obtain rfl : i = 0 := Nat.le_zero.mp less
    rw [found, Option.some.injEq] at found'
    rw [found']
    exact Nat.le_refl _
  | succ j ih =>
    rcases Nat.eq_or_lt_of_le less with rfl | less'
    · rw [found, Option.some.injEq] at found'
      rw [found', Nat.sub_self]
      exact Nat.le_refl _
    · obtain ⟨jlt, same⟩ := List.getElem?_eq_some_iff.mp found'
      have prev : m.regs[j]? = some m.regs[j] := List.getElem?_eq_getElem (by omega)
      have step : m.regs[j].regID < r'.regID := by
        have pair := List.pairwise_iff_getElem.mp m.sorted j (j + 1) (by simp; omega)
          (by simpa using jlt) (Nat.lt_succ_self j)
        rw [List.getElem_map, List.getElem_map, same] at pair
        exact pair
      have growth := ih prev (Nat.le_of_lt_succ less')
      omega

/-- Registers of a sensor that lie within the words of one value are in the window of the first one. -/
theorem inWindow_of_regID {j first wsize : Nat} (found' : m.regs[j]? = some r)
    (both : ∀ r' ∈ m.regs, r'.id = r.id → r'.prop.vtype.wsize = wsize ∧ first ≤ r'.regID)
    (last : r.regID < first + wsize) : inWindow r.id (m.regs.map Register.key) j = true := by
  have found : (m.regs.map Register.key)[j]? = some r.key := by rw [List.getElem?_map, found']; rfl
  obtain ⟨jlt, value⟩ := List.getElem?_eq_some_iff.mp found
  rw [inWindow]
  generalize place : (m.regs.map Register.key).findIdx (fun key => key.1 = r.id) = i
  have less : i ≤ j := by
    apply Nat.le_of_not_lt
    intro before
    rw [← place] at before
    have isNot := List.not_of_lt_findIdx before
    rw [value] at isNot
    simp [Register.key] at isNot
  have ilt : i < (m.regs.map Register.key).length := Nat.lt_of_le_of_lt less jlt
  obtain ⟨r₀, first'⟩ : ∃ r₀, m.regs[i]? = some r₀ := by
    rw [List.length_map] at ilt
    exact ⟨_, List.getElem?_eq_getElem ilt⟩
  have key₀ : (m.regs.map Register.key)[i]? = some r₀.key := by rw [List.getElem?_map, first']; rfl
  have equal : r₀.id = r.id := by
    have same' := ((List.findIdx_eq ilt).mp place).1
    rw [(List.getElem?_eq_some_iff.mp key₀).2] at same'
    exact of_decide_eq_true same'
  obtain ⟨size, start⟩ := both r₀ (List.mem_of_getElem? first') equal
  have growth := regID_growth first' found' less
  have same : ((m.regs.map Register.key)[i]?).elim 0 Prod.snd = wsize := by
    rw [key₀]
    exact size
  rw [same, Bool.and_eq_true, decide_eq_true_eq, decide_eq_true_eq]
  exact ⟨less, by omega⟩

/-- **In a map of sensors that are configured once and not as bits, messages get to every copy.** -/
theorem configured_once_refreshed {items : List Item} {iomap : IOMap}
    (read : s.readConfiguration items = some iomap) (whole : ∀ it ∈ items, it.nbit = none)
    (fit : ∀ it ∈ items, it.mbreg + it.wsize ≤ 65536)
    (once : ∀ it ∈ items, ∀ it' ∈ items, it.base.si.id = it'.base.si.id → it = it')
    {k j : Nat} {r : Register} (found : regAt iomap k j = some r) : r.Refreshed s iomap k j := by
  have built := Built.readConfiguration s items read whole fit
  obtain ⟨entry, place, there⟩ := Option.bind_eq_some_iff.mp found
  obtain ⟨it, hit, owns⟩ := built.has entry (List.mem_of_getElem? place) r (List.mem_of_getElem? there)
  rw [Register.Refreshed, owns.bitreg]
  left
  -- a register of this sensor is of the same item, so it is at the same address
  have same : ∀ entry' ∈ iomap, ∀ r' ∈ entry'.2.regs, r'.id = r.id → it.Has s entry'.1 r' := by
    intro entry' listed r' mem same'
    obtain ⟨it', mem', has'⟩ := built.has entry' listed r' mem
    rw [once it hit it' mem' (by rw [← owns.id, ← has'.id, same'])]
    exact has'
  obtain ⟨inside, value⟩ := List.getElem?_eq_some_iff.mp place
  have listed' : r ∈ entry.2.regs := List.mem_of_getElem? there
  rw [reached, Bool.and_eq_true, decide_eq_true_eq]
  refine ⟨?_, ?_⟩
  · -- no address before this one has the sensor
    rw [List.findIdx_eq (by simpa [keys] using inside)]
    refine ⟨?_, ?_⟩
    · simp only [keys, List.getElem_map, value, List.any_map, List.any_eq_true]
      exact ⟨r, listed', by simp [Register.key]⟩
    · intro k' before
      rw [← Bool.not_eq_true]
      intro anyOf
      simp only [keys, List.getElem_map, List.any_map, List.any_eq_true] at anyOf
      obtain ⟨r', mem, same'⟩ := anyOf
      have has' := same _ (List.getElem_mem (by omega)) r' mem (of_decide_eq_true same')
      have apart := List.pairwise_iff_getElem.mp built.nodup k' k (by simp; omega) (by simpa using inside)
        before
      rw [List.getElem_map, List.getElem_map, value] at apart
      exact apart (has'.mbaddr.symm.trans owns.mbaddr)
  · rw [keys, List.getElem?_map, place, Option.map_some, Option.any_some]
    refine inWindow_of_regID there (fun r' mem same' => ?_) owns.last
    have has' := same entry (List.mem_of_getElem? place) r' mem same'
    exact ⟨has'.wsize, has'.first⟩

/-- **A map whose items have no calibration diagram.** A read of one that has a diagram keeps the
conversion, and before the first one it has the zeros that `DiagramItem` starts with. -/
def PlainMap : Type :=
  { iomap : IOMap // ∀ entry ∈ iomap, ∀ r ∈ entry.2.regs, ∀ p ∈ r.items, ∀ cal ∈ p.cal,
    cal.diagram = false }

/-- **The slave asks for every sensor and answers with the last reported values exactly if every copy
that is read is refreshed**, for all messages and reads in any order. -/
theorem answers_current_iff (unforced : s.force = false) (plain : PlainMap) :
    Subscribed s plain.1 ∧ AnswersCurrent s plain.1 ↔
      ∀ k j r, regAt plain.1 k j = some r → r.Refreshed s plain.1 k j := by
  obtain ⟨iomap, -⟩ := plain
  constructor
  · rintro ⟨ask, cur⟩ k j r found
    exact (refreshed_iff s unforced iomap found).mp ⟨ask k j r found, fun events r' => cur events k j r'⟩
  · intro refreshed
    refine ⟨fun k j r found => ((refreshed_iff s unforced iomap found).mpr (refreshed k j r found)).1, ?_⟩
    intro events k j r' after
    obtain ⟨r, found⟩ : ∃ r, regAt iomap k j = some r := by
      rw [run_at s unforced, Option.map_eq_some_iff] at after
      exact ⟨after.choose, after.choose_spec.1⟩
    exact ((refreshed_iff s unforced iomap found).mpr (refreshed k j r found)).2 events r' after

/-- A sensor at address 1. -/
def plainItem (id : ObjectId) (mbreg : Nat) (nbit : Option Nat) (vtype : Option VType) : Item where
  base := plainBase id
  threshold := false
  mbaddr := 1
  mbreg := mbreg
  mbfunc := 0
  amode := .amRW
  nbit := nbit
  vtype := vtype
  nbyte := 0

/-- A sensor of two words is answered as last reported. -/
theorem answers_current_words : ∃ iomap,
    plainSlave.readConfiguration [plainItem 100 5 none (some .vtU2)] = some iomap ∧
      Subscribed plainSlave iomap ∧ AnswersCurrent plainSlave iomap := by
  have noCal : ∀ iomap, plainSlave.readConfiguration [plainItem 100 5 none (some .vtU2)] = some iomap →
      ∀ entry ∈ iomap, ∀ r ∈ entry.2.regs, ∀ p ∈ r.items, p.cal.isNone = true := by
    intro iomap same
    cases same
    decide
  refine ⟨_, rfl, (answers_current_iff plainSlave rfl ⟨_, fun entry listed r reg p item cal mem => ?_⟩).mpr
    fun k j r reg => ?_⟩
  · have none := noCal _ rfl entry listed r reg p item
    rw [mem] at none
    cases none
  refine @configured_once_refreshed plainSlave [plainItem 100 5 none (some .vtU2)] _ rfl ?_ ?_ ?_
    k j r reg
  · exact fun it hit => by rw [List.mem_singleton.mp hit]; rfl
  · exact fun it hit => by rw [List.mem_singleton.mp hit]; decide
  · exact fun it hit it' mem' _ => by rw [List.mem_singleton.mp hit, List.mem_singleton.mp mem']

/-- Sensors 100 and 101 on the bits 0 and 1 of a register: only the first one is asked for, and its bit is
read as 0 after it is reported to be 1. -/
theorem bit_frozen : ∃ iomap,
    plainSlave.readConfiguration [plainItem 100 5 (some 0) none, plainItem 101 5 (some 1) none] =
      some iomap ∧ askSensors plainSlave iomap = [100] ∧
      ¬Subscribed plainSlave iomap ∧ ¬AnswersCurrent plainSlave iomap := by
  refine ⟨_, rfl, rfl, ?_, ?_⟩
  · intro current
    have other := current 0 0 _ rfl 101 (by decide +kernel)
    revert other
    decide +kernel
  · intro current
    have cur := current [.sensorInfo 100 1] 0 0 _ rfl (fun _ => 0) 0 _ 1 rfl rfl
    revert cur
    decide +kernel

end UniSet.ModbusSlave

/-
**Block reads of a Modbus slave against single reads.**

* `readWalk_hit`, `readWalk_miss` — what the walk along the map puts at a position: the value of the
  register with this identifier, or zero.
* `bitsRead` — `bits_read`, which puts the truth values into a `BitsBuffer`.
* `Labels` — the number and the function every register of a map was made for.
* `Neighbour` — a register of a neighbouring function with an identifier in the range of the request:
  a request beyond register 65535 goes on in the next function, whose register 0 has the identifier of
  the register 65535.
* **`blockRead_iff`** — a block read answers what single reads give, and nothing else, exactly if the
  neighbours in its range read as zero and are not its only registers.
-/

import Mathlib.Data.List.TakeWhile
import UniSet.Modbus.BitsBuffer
import UniSet.ModbusSlave.InitItem

namespace UniSet.ModbusSlave

open ModbusMaster (genRegID)
open Modbus (BitsBuffer)

variable (s : Slave)

/-! ### The walk -/

/-- The value a walk puts for a register; one that cannot be read gives zero. -/
def Register.value (r : Register) (sm : SMValues) : ModbusData := (r.realReadIt s sm).2

theorem readWalk_length (sm : SMValues) (count regID : Nat) (regs : List Register) :
    (readWalk s sm count regID regs).1.length = count := by
  induction count, regID, regs using readWalk.induct s sm with
  | case1 => rfl
  | case2 => rw [readWalk, List.length_replicate]
  | case3 count r regs ih =>
    rw [readWalk, if_pos rfl]
    exact congrArg (· + 1) ih
  | case4 count regID r regs other ih =>
    rw [readWalk, if_neg other]
    exact congrArg (· + 1) ih

variable {r : Register} {i : Nat}

/-- A register of the walk is found at the position of its identifier. -/
theorem readWalk_hit (sm : SMValues) (count regID : Nat) (regs : List Register) {j : Nat}
    (sorted : (regs.map Register.regID).Pairwise (· < ·)) (above : ∀ x ∈ regs, regID ≤ x.regID)
    (mem : r ∈ regs) (id : r.regID = regID + j) (inside : j < count) :
    (readWalk s sm count regID regs).1[j]? = some (r.value s sm) := by
  induction count, regID, regs using readWalk.induct s sm generalizing j with
  | case1 => exact absurd inside (Nat.not_lt_zero j)
  | case2 => exact absurd mem List.not_mem_nil
  | case3 count first regs ih =>
    have later : ∀ x ∈ regs, first.regID < x.regID := fun x here =>
      (List.pairwise_cons.mp sorted).1 _ (List.mem_map.mpr ⟨x, here, rfl⟩)
    rw [readWalk, if_pos rfl]
    rcases List.mem_cons.mp mem with rfl | rest
    · obtain rfl : j = 0 := by omega
      rfl
    · have positive := later r rest
      obtain ⟨k, rfl⟩ : ∃ k, j = k + 1 := ⟨j - 1, by omega⟩
      exact ih sorted.of_cons later rest (by omega) (by omega)
  | case4 count regID first regs other ih =>
    have begins := above first List.mem_cons_self
    have later : ∀ x ∈ first :: regs, regID + 1 ≤ x.regID := by
      intro x here
      rcases List.mem_cons.mp here with rfl | rest
      · omega
      · have greater := (List.pairwise_cons.mp sorted).1 _ (List.mem_map.mpr ⟨x, rest, rfl⟩)
        omega
    have positive := later r mem
    rw [readWalk, if_neg other]
    obtain ⟨k, rfl⟩ : ∃ k, j = k + 1 := ⟨j - 1, by omega⟩
    exact ih sorted later mem (by omega) (by omega)

/-- Where no register has the identifier the walk puts zero. -/
theorem readWalk_miss (sm : SMValues) (count regID : Nat) (regs : List Register) {j : Nat}
    (none : ∀ r ∈ regs, r.regID ≠ regID + j) (inside : j < count) :
    (readWalk s sm count regID regs).1[j]? = some 0 := by
  induction count, regID, regs using readWalk.induct s sm generalizing j with
  | case1 => exact absurd inside (Nat.not_lt_zero j)
  | case2 => rw [readWalk, List.getElem?_replicate, if_pos inside]
  | case3 count first regs ih =>
    rw [readWalk, if_pos rfl]
    rcases Nat.eq_zero_or_pos j with rfl | positive
    · exact absurd rfl (none first List.mem_cons_self)
    · obtain ⟨k, rfl⟩ : ∃ k, j = k + 1 := ⟨j - 1, by omega⟩
      refine ih (fun r mem => ?_) (by omega)
      have other := none r (List.mem_cons_of_mem _ mem)
      omega
  | case4 count regID first regs other ih =>
    rw [readWalk, if_neg other]
    rcases Nat.eq_zero_or_pos j with rfl | positive
    · rfl
    · obtain ⟨k, rfl⟩ : ∃ k, j = k + 1 := ⟨j - 1, by omega⟩
      refine ih (fun r mem => ?_) (by omega)
      have other := none r mem
      omega

namespace RegMap

variable (m : RegMap)

theorem mem_fromID {regID : Nat} : r ∈ m.fromID regID ↔ r ∈ m.regs ∧ regID ≤ r.regID := by
  constructor
  · intro mem
    have listed : r ∈ m.regs := (List.dropWhile_sublist _).subset mem
    refine ⟨listed, ?_⟩
    by_contra low
    obtain ⟨regs, sorted⟩ := m
    rw [fromID] at mem
    induction regs with
    | nil => exact absurd listed List.not_mem_nil
    | cons first regs ih =>
      simp only [List.dropWhile_cons] at mem
      split at mem
      · exact ih sorted.of_cons mem ((List.dropWhile_sublist _).subset mem)
      · next stays =>
        rw [decide_eq_true_eq] at stays
        rcases List.mem_cons.mp mem with rfl | rest
        · omega
        · have greater := (List.pairwise_cons.mp sorted).1 _ (List.mem_map.mpr ⟨r, rest, rfl⟩)
          omega
  · rintro ⟨mem, high⟩
    rw [← m.before_append_fromID regID] at mem
    rcases List.mem_append.mp mem with low | there
    · have low := List.mem_takeWhile_imp low
      rw [decide_eq_true_eq] at low
      omega
    · exact there

/-- The first register of a request is found exactly if there is one. -/
theorem firstFound_eq_none {regID count : Nat} :
    m.firstFound regID count = none ↔ ∀ i < count, ∀ r ∈ m.regs, r.regID ≠ regID + i := by
  simp [firstFound, List.find?_eq_none, find]

theorem firstFound_eq_some {regID count : Nat} (found : m.firstFound regID count = some i) :
    i < count ∧ ∀ j < i, ∀ r ∈ m.regs, r.regID ≠ regID + j := by
  rw [firstFound, List.find?_range_eq_some] at found
  obtain ⟨-, inside, earlier⟩ := found
  refine ⟨List.mem_range.mp inside, fun j before r mem id => ?_⟩
  have missed := earlier j before
  rw [Bool.not_eq_true', Option.isSome_eq_false_iff, Option.isNone_iff_eq_none, find,
    List.find?_eq_none] at missed
  exact missed r mem (decide_eq_true id)

end RegMap

/-! ### The bits of an answer -/

/-- `setByBitNum` of the bits from `i` on. -/
def setBits : BitsBuffer → Nat → List Bool → BitsBuffer
  | dat, _, [] => dat
  | dat, i, b :: bits => setBits (dat.setByBitNum (UInt16.ofNat i) b).2 (i + 1) bits

/-- Bits of the buffer that are in use stay in use. -/
theorem setByBitNum_bcnt_le (dat : BitsBuffer) {num : UInt16}
    (inside : (BitsBuffer.byteNum num).toNat < Modbus.maxPduLen) (state : Bool) :
    dat.bcnt.toNat ≤ (dat.setByBitNum num state).2.bcnt.toNat := by
  rw [BitsBuffer.setByBitNum, dif_pos inside]
  show _ ≤ (if dat.bcnt.toNat ≤ (BitsBuffer.byteNum num).toNat then BitsBuffer.byteNum num + 1
    else dat.bcnt).toNat
  split
  · rw [BitsBuffer.next_bcnt inside]
    omega
  · exact Nat.le_refl _

/-- The bits up to the end of the buffer are addressed by their numbers. -/
theorem bitNum_of_small (small : i < 2024) :
    (BitsBuffer.byteNum (UInt16.ofNat i)).toNat = i / 8 ∧ BitsBuffer.bitNum (UInt16.ofNat i) = i := by
  have num : (UInt16.ofNat i).toNat = i := by
    rw [UInt16.toNat_ofNat']
    exact Nat.mod_eq_of_lt (by omega)
  have byte := BitsBuffer.byteNum_toNat (UInt16.ofNat i)
  rw [num] at byte
  refine ⟨by omega, ?_⟩
  rw [BitsBuffer.bitNum, num]
  omega

/-- The bits that are set have their values, those before them keep theirs. -/
theorem setBits_bit (dat : BitsBuffer) (i : Nat) (bits : List Bool) (fits : i + bits.length ≤ 2024) :
    (∀ k < i, (setBits dat i bits).bit k = dat.bit k) ∧
      dat.bcnt.toNat ≤ (setBits dat i bits).bcnt.toNat ∧
      ∀ j b, bits[j]? = some b → (setBits dat i bits).bit (i + j) = b ∧
        (i + j) / 8 < (setBits dat i bits).bcnt.toNat := by
  induction bits generalizing dat i with
  | nil => exact ⟨fun _ _ => rfl, Nat.le_refl _, fun _ _ none => by cases none⟩
  | cons b bits ih =>
    rw [List.length_cons] at fits
    obtain ⟨byte, num⟩ := bitNum_of_small (i := i) (by omega)
    have inside : (BitsBuffer.byteNum (UInt16.ofNat i)).toNat < Modbus.maxPduLen := by
      rw [byte, Modbus.maxPduLen]
      omega
    obtain ⟨written, used⟩ := dat.setByBitNum_bit inside b
    obtain ⟨before, grows, rest⟩ := ih (dat.setByBitNum (UInt16.ofNat i) b).2 (i + 1) (by omega)
    rw [num] at written
    rw [byte] at used
    refine ⟨fun k low => ?_, (setByBitNum_bcnt_le dat inside b).trans grows, fun j c here => ?_⟩
    · rw [setBits, before k (by omega), written, if_neg (by omega)]
    · rcases Nat.eq_zero_or_pos j with rfl | positive
      · obtain rfl : b = c := Option.some.inj here
        simp only [setBits, Nat.add_zero]
        refine ⟨?_, Nat.lt_of_lt_of_le used grows⟩
        rw [before i (by omega), written, if_pos rfl]
      · obtain ⟨k, rfl⟩ : ∃ k, j = k + 1 := ⟨j - 1, by omega⟩
        have next := rest k c here
        rw [setBits, show i + (k + 1) = i + 1 + k by omega]
        exact next

/-- A buffer that is filled from its beginning reads as the bits. -/
theorem setBits_get (dat : BitsBuffer) {bits : List Bool} (fits : bits.length ≤ 2024) {b : Bool}
    (here : bits[i]? = some b) : (setBits dat 0 bits).getByBitNum (UInt16.ofNat i) = some b := by
  have inside : i < bits.length := (List.getElem?_eq_some_iff.mp here).1
  obtain ⟨-, -, rest⟩ := setBits_bit dat 0 bits (by omega)
  obtain ⟨bit, used⟩ := rest i b here
  obtain ⟨byte, num⟩ := bitNum_of_small (i := i) (by omega)
  rw [Nat.zero_add] at bit used
  rw [BitsBuffer.getByBitNum_eq, byte, if_pos used, num, bit]

/-! ### Block reads -/

namespace Slave

/-- **`MBSlave::bits_read`**: `much_read` with the truth values of the words. -/
def bitsRead (m : RegMap) (reg count fn : Nat) (sm : SMValues) (dat : BitsBuffer) :
    MbErrCode × BitsBuffer × RegMap :=
  match m.firstFound (s.regID reg fn) count with
  | none => (.erBadDataAddress, setBits dat 0 (List.replicate count false), m)
  | some i =>
    let regID := s.regID reg fn + i
    let rest := count - i
    let regs := m.fromID regID
    let walk := readWalk s sm rest regID regs
    (.erNoError,
      setBits dat 0 (List.replicate i false ++ walk.1.map fun val => decide (val ≠ 0)),
      m.replaceFrom regID walk.2 (readWalk_regIDs s sm rest regID regs))

/-- The value of the register with an identifier, zero if there is none. -/
def valueAt (m : RegMap) (regID : Nat) (sm : SMValues) : ModbusData :=
  (m.find regID).elim 0 fun r => r.value s sm

variable {s} {m : RegMap} {reg count fn : Nat} {sm : SMValues}

/-- The words of a block: what the walk puts, with zeros before the first register. -/
theorem blockWords {i k : Nat} (found : m.firstFound (s.regID reg fn) count = some i)
    (inside : k < count) :
    (List.replicate i 0 ++ (readWalk s sm (count - i) (s.regID reg fn + i)
      (m.fromID (s.regID reg fn + i))).1)[k]? = some (s.valueAt m (s.regID reg fn + k) sm) := by
  obtain ⟨_, earlier⟩ := m.firstFound_eq_some found
  rcases Nat.lt_or_ge k i with before | behind
  · have none : m.find (s.regID reg fn + k) = none := by
      rw [RegMap.find, List.find?_eq_none]
      exact fun r mem same => earlier k before r mem (of_decide_eq_true same)
    rw [List.getElem?_append_left (by rw [List.length_replicate]; exact before),
      List.getElem?_replicate, if_pos before, valueAt, none]
    rfl
  · have place : k - (List.replicate i (0 : ModbusData)).length = k - i := by
      rw [List.length_replicate]
    have sum : s.regID reg fn + i + (k - i) = s.regID reg fn + k := by omega
    rw [List.getElem?_append_right (by rw [List.length_replicate]; exact behind), place]
    cases here : m.find (s.regID reg fn + k) with
    | none =>
      rw [valueAt, here]
      refine readWalk_miss s sm _ _ _ (fun r mem same => ?_) (by omega)
      rw [RegMap.find, List.find?_eq_none] at here
      exact here r (m.mem_fromID.mp mem).1 (decide_eq_true (same.trans sum))
    | some r =>
      rw [valueAt, here]
      obtain ⟨mem, id⟩ := m.mem_of_find here
      refine readWalk_hit s sm _ _ _ (m.fromID_sorted _) (fun x there => (m.mem_fromID.mp there).2)
        (m.mem_fromID.mpr ⟨mem, by omega⟩) (by omega) (by omega)

/-- A register of the map has the identifier of the position `i` of a request. -/
def Present (s : Slave) (m : RegMap) (reg fn i : Nat) : Prop := ∃ r ∈ m.regs, r.regID = s.regID reg fn + i

theorem firstFound_of_present (some : ∃ i < count, Present s m reg fn i) :
    ∃ i, m.firstFound (s.regID reg fn) count = Option.some i := by
  cases found : m.firstFound (s.regID reg fn) count with
  | none =>
    obtain ⟨i, inside, r, mem, id⟩ := some
    exact absurd id (m.firstFound_eq_none.mp found i inside r mem)
  | some i => exact ⟨i, rfl⟩

theorem firstFound_of_absent (none : ¬ ∃ i < count, Present s m reg fn i) :
    m.firstFound (s.regID reg fn) count = Option.none :=
  m.firstFound_eq_none.mpr fun i inside r mem id => none ⟨i, inside, r, mem, id⟩

theorem valueAt_absent (absent : ¬ Present s m reg fn i) :
    s.valueAt m (s.regID reg fn + i) sm = 0 := by
  have none : m.find (s.regID reg fn + i) = Option.none := by
    rw [RegMap.find, List.find?_eq_none]
    exact fun r mem same => absent ⟨r, mem, of_decide_eq_true same⟩
  rw [valueAt, none]
  rfl

end Slave

/-- **What a block read should answer**: if it asks for a register at all, no error and at every
position what a single read gives, or zero where it asks for none; else a bad address. -/
structure BlockAnswer {α : Type} (asked : Nat → Prop) (single : Nat → α) (zero : α) (count : Nat)
    (err : MbErrCode) (pos : Nat → Option α) : Prop where
  found : (∃ i < count, asked i) → err = .erNoError ∧
    ∀ i < count, (asked i → pos i = some (single i)) ∧ (¬ asked i → pos i = some zero)
  missed : (¬ ∃ i < count, asked i) → err = .erBadDataAddress

/-- An answer by identifiers is the one by registers exactly if the registers that were not asked for
read as zero and are not alone. -/
theorem blockAnswer_iff {α : Type} {asked present : Nat → Prop} {single value : Nat → α} {zero : α}
    {count : Nat} {err : MbErrCode} {pos : Nat → Option α}
    (own : ∀ i < count, asked i → present i ∧ value i = single i)
    (absent : ∀ i, ¬ present i → value i = zero)
    (found : (∃ i < count, present i) → err = .erNoError ∧ ∀ i < count, pos i = some (value i))
    (missed : (¬ ∃ i < count, present i) → err = .erBadDataAddress) :
    BlockAnswer asked single zero count err pos ↔
      ∀ i < count, present i → ¬ asked i → value i = zero ∧ ∃ j < count, asked j := by
  constructor
  · intro answer i inside here foreign
    obtain ⟨good, words⟩ := found ⟨i, inside, here⟩
    have some : ∃ j < count, asked j := by
      by_contra none
      rw [answer.missed none] at good
      cases good
    have word := ((answer.found some).2 i inside).2 foreign
    rw [words i inside, Option.some.injEq] at word
    exact ⟨word, some⟩
  · intro clear
    constructor
    · rintro ⟨j, inside, asks⟩
      obtain ⟨good, words⟩ := found ⟨j, inside, (own j inside asks).1⟩
      refine ⟨good, fun i within => ⟨fun mine => ?_, fun foreign => ?_⟩⟩
      · rw [words i within, (own i within mine).2]
      · rw [words i within]
        by_cases here : present i
        · rw [(clear i within here foreign).1]
        · rw [absent i here]
    · intro none
      refine missed fun here => ?_
      obtain ⟨i, inside, there⟩ := here
      by_cases asks : asked i
      · exact none ⟨i, inside, asks⟩
      · exact none (clear i inside there asks).2

/-! ### The registers by number and function -/

/-- The number and the function each register of the map was made for. -/
structure Labels (m : RegMap) where
  number : Register → UInt16
  func : Register → Nat
  own : ∀ r ∈ m.regs, r.regID = genRegID (number r).toNat (func r)

section Request

variable {m : RegMap} (labels : Labels m) (start : UInt16) (count fn : Nat) (sm : SMValues)

/-- The function a request asks for. -/
def Slave.askedFunc : Nat := if s.checkMBFunc then fn else s.defaultMbfunc

/-- The map has the register that the request asks for at the position `i`. -/
def Asked (i : Nat) : Prop :=
  ∃ r ∈ m.regs, (labels.number r).toNat = start.toNat + i ∧ labels.func r = s.askedFunc fn

/-- What a single read gives, zero for a register that cannot be read. -/
def singleRead (m : RegMap) (i : Nat) : ModbusData :=
  let read := s.realRead m (start.toNat + i) fn sm
  if read.1 = .erNoError then read.2.1 else 0

/-- **A register of a neighbouring function** at the position `i` of the request: one of the next
function, from the register 65535 on, or the last one of the function before at the register 0. -/
def Neighbour (i : Nat) (r : Register) : Prop :=
  (labels.func r = s.askedFunc fn + 1 ∧ start.toNat + i = 65535 + (labels.number r).toNat) ∨
    (labels.func r + 1 = s.askedFunc fn ∧ (labels.number r).toNat = 65535 ∧ start.toNat + i = 0)

/-- **The neighbours in the range of the request** read as zero, and are not its only registers. -/
def NeighboursClear : Prop :=
  ∀ i < count, ∀ r ∈ m.regs, Neighbour s labels start fn i r →
    r.value s sm = 0 ∧ ∃ j < count, Asked s labels start fn j

variable {s labels start count fn sm}

/-- A register with an identifier in the range was asked for or is a neighbour. -/
theorem present_iff (short : i < 2024) (mem : r ∈ m.regs) :
    r.regID = s.regID start.toNat fn + i ↔
      ((labels.number r).toNat = start.toNat + i ∧ labels.func r = s.askedFunc fn) ∨
        Neighbour s labels start fn i r := by
  have small := (labels.number r).toNat_lt
  have small' := start.toNat_lt
  rw [labels.own r mem, Slave.regID, ← Slave.askedFunc, genRegID, genRegID, Neighbour]
  generalize s.askedFunc fn = f
  generalize labels.func r = g
  omega

theorem realReadIt_failed (failed : (r.realReadIt s sm).1 ≠ .erNoError) :
    (r.realReadIt s sm).2 = 0 := by
  rw [Register.realReadIt] at failed ⊢
  split
  · next bits =>
    rw [bits] at failed
    exact absurd rfl failed
  · next bits =>
    rw [bits] at failed
    simp only at failed
    rw [IOProperty.realReadProp] at failed ⊢
    split
    · rfl
    · next readable =>
      rw [if_neg readable] at failed
      split at failed
      · exact absurd rfl failed
      · split at failed <;> exact absurd rfl failed

/-- A register that was asked for is found by its identifier, and read alone as well. -/
theorem asked_present (short : i < 2024) (asked : Asked s labels start fn i) :
    Slave.Present s m start.toNat fn i ∧
      s.valueAt m (s.regID start.toNat fn + i) sm = singleRead s start fn sm m i := by
  obtain ⟨r, mem, own⟩ := asked
  have id := (present_iff short mem).mpr (Or.inl own)
  have found : m.find (s.regID start.toNat fn + i) = some r := by
    rw [← id]
    exact m.find_of_mem mem
  have there : s.regID (start.toNat + i) fn = s.regID start.toNat fn + i := by
    rw [Slave.regID, Slave.regID, genRegID, genRegID]
    omega
  refine ⟨⟨r, mem, id⟩, ?_⟩
  rw [singleRead, Slave.realRead, there, found, Slave.valueAt, found]
  show r.value s sm = if (r.realReadIt s sm).1 = .erNoError then (r.realReadIt s sm).2 else 0
  split
  · rfl
  · next failed => exact realReadIt_failed failed

/-- The neighbours in the range, by identifiers. -/
theorem neighboursClear_iff (short : count ≤ 2024) : NeighboursClear s labels start count fn sm ↔
    ∀ i < count, Slave.Present s m start.toNat fn i → ¬ Asked s labels start fn i →
      s.valueAt m (s.regID start.toNat fn + i) sm = 0 ∧ ∃ j < count, Asked s labels start fn j := by
  constructor
  · rintro clear i inside ⟨r, mem, id⟩ foreign
    have neighbour := ((present_iff (by omega) mem).mp id).resolve_left fun own =>
      foreign ⟨r, mem, own⟩
    obtain ⟨zero, some⟩ := clear i inside r mem neighbour
    refine ⟨?_, some⟩
    rw [Slave.valueAt, ← id, m.find_of_mem mem]
    exact zero
  · intro clear i inside r mem neighbour
    have id := (present_iff (by omega) mem).mpr (Or.inr neighbour)
    have foreign : ¬ Asked s labels start fn i := by
      rintro ⟨x, listed, own⟩
      have id' := (present_iff (by omega) listed).mpr (Or.inl own)
      have found := m.find_of_mem mem
      rw [id, ← id', m.find_of_mem listed, Option.some.injEq] at found
      subst found
      have small := (labels.number x).toNat_lt
      rw [Neighbour] at neighbour
      omega
    obtain ⟨zero, some⟩ := clear i inside ⟨r, mem, id⟩ foreign
    rw [Slave.valueAt, ← id, m.find_of_mem mem] at zero
    exact ⟨zero, some⟩

/-- **The words of a block read**, by identifiers. -/
theorem muchRead_spec : ((∃ i < count, Slave.Present s m start.toNat fn i) →
      (s.muchRead m start.toNat count fn sm).1 = .erNoError ∧ ∀ i < count,
        (s.muchRead m start.toNat count fn sm).2.1[i]? =
          some (s.valueAt m (s.regID start.toNat fn + i) sm)) ∧
    ((¬ ∃ i < count, Slave.Present s m start.toNat fn i) →
      (s.muchRead m start.toNat count fn sm).1 = .erBadDataAddress) := by
  constructor
  · intro some
    obtain ⟨i, found⟩ := Slave.firstFound_of_present some
    obtain ⟨good, words⟩ := s.muchRead_eq sm found
    refine ⟨good, fun k inside => ?_⟩
    rw [words]
    exact Slave.blockWords found inside
  · intro none
    rw [Slave.muchRead, Slave.firstFound_of_absent none]

/-- **The bits of a block read**, by identifiers. -/
theorem bitsRead_spec (short : count ≤ 2024) (dat : BitsBuffer) :
    ((∃ i < count, Slave.Present s m start.toNat fn i) →
      (s.bitsRead m start.toNat count fn sm dat).1 = .erNoError ∧ ∀ i < count,
        (s.bitsRead m start.toNat count fn sm dat).2.1.getByBitNum (UInt16.ofNat i) =
          some (decide (s.valueAt m (s.regID start.toNat fn + i) sm ≠ 0))) ∧
    ((¬ ∃ i < count, Slave.Present s m start.toNat fn i) →
      (s.bitsRead m start.toNat count fn sm dat).1 = .erBadDataAddress) := by
  constructor
  · intro some
    obtain ⟨i, found⟩ := Slave.firstFound_of_present some
    obtain ⟨first, -⟩ := m.firstFound_eq_some found
    rw [Slave.bitsRead, found]
    refine ⟨rfl, fun k inside => ?_⟩
    have word := @Slave.blockWords s m start.toNat count fn sm i k found inside
    have bits : List.replicate i false ++ (readWalk s sm (count - i) (s.regID start.toNat fn + i)
          (m.fromID (s.regID start.toNat fn + i))).1.map (fun val => decide (val ≠ 0)) =
        (List.replicate i 0 ++ (readWalk s sm (count - i) (s.regID start.toNat fn + i)
          (m.fromID (s.regID start.toNat fn + i))).1).map fun val => decide (val ≠ 0) := by
      rw [List.map_append, List.map_replicate]
      rfl
    refine setBits_get dat ?_ ?_
    · rw [List.length_append, List.length_replicate, List.length_map, readWalk_length]
      omega
    · rw [bits, List.getElem?_map, word]
      rfl
  · intro none
    rw [Slave.bitsRead, Slave.firstFound_of_absent none]

/-- **A block read answers what single reads give**, in words and in bits, exactly if the registers of
a neighbouring function in its range read as zero and are not the only ones it finds. -/
theorem blockRead_iff (short : count ≤ 2024) (dat : BitsBuffer) :
    (BlockAnswer (Asked s labels start fn) (singleRead s start fn sm m) 0 count
        (s.muchRead m start.toNat count fn sm).1 (fun i => (s.muchRead m start.toNat count fn sm).2.1[i]?) ↔
      NeighboursClear s labels start count fn sm) ∧
    (BlockAnswer (Asked s labels start fn) (fun i => decide (singleRead s start fn sm m i ≠ 0)) false count
        (s.bitsRead m start.toNat count fn sm dat).1
        (fun i => (s.bitsRead m start.toNat count fn sm dat).2.1.getByBitNum (UInt16.ofNat i)) ↔
      NeighboursClear s labels start count fn sm) := by
  have own : ∀ i < count, Asked s labels start fn i → Slave.Present s m start.toNat fn i ∧
      s.valueAt m (s.regID start.toNat fn + i) sm = singleRead s start fn sm m i :=
    fun i inside asks => asked_present (by omega) asks
  rw [neighboursClear_iff short]
  constructor
  · obtain ⟨found, missed⟩ := @muchRead_spec s m start count fn sm
    exact blockAnswer_iff own (fun i absent => Slave.valueAt_absent absent) found missed
  · obtain ⟨found, missed⟩ := @bitsRead_spec s m start count fn sm short dat
    have truth : ∀ i < count, Asked s labels start fn i → Slave.Present s m start.toNat fn i ∧
        decide (s.valueAt m (s.regID start.toNat fn + i) sm ≠ 0) =
          decide (singleRead s start fn sm m i ≠ 0) := by
      intro i inside asks
      obtain ⟨present, same⟩ := own i inside asks
      exact ⟨present, by rw [same]⟩
    have absent : ∀ i, ¬ Slave.Present s m start.toNat fn i →
        decide (s.valueAt m (s.regID start.toNat fn + i) sm ≠ 0) = false := by
      intro i missing
      rw [Slave.valueAt_absent missing]
      rfl
    rw [blockAnswer_iff truth absent found missed]
    simp only [decide_eq_false_iff_not, not_not]

end Request

/-! ### A block with a hole, and one across register 65535 -/

/-- A slave that tells the functions apart. -/
def strictSlave : Slave := { plainSlave with checkMBFunc := true }

/-- A register of a sensor with a value. -/
def valueReg (number : UInt16) (func : Nat) (value : Int) : Register where
  prop :=
    { plainBase 100 with
      value := value
      mbreg := number.toNat
      amode := .amRO
      vtype := .vtUnsigned
      wnum := 0
      nbyte := 0
      regID := genRegID number.toNat func }
  bitreg := none

/-- Registers 10 and 13 with a value, and register 12, which is only written; 11 is not there. -/
def holedMap : RegMap :=
  ⟨[valueReg 10 3 5, { valueReg 12 3 9 with prop := { (valueReg 12 3 9).prop with amode := .amWO } },
    valueReg 13 3 7], by decide +kernel⟩

/-- Their numbers, all of function 3. -/
def holedLabels : Labels holedMap where
  number r := UInt16.ofNat r.prop.mbreg
  func _ := 3
  own := by decide +kernel

/-- **Four registers in a block**: the missing one and the one that cannot be read give zero. -/
theorem blockRead_holed : (strictSlave.muchRead holedMap 10 4 3 fun _ => 0).2.1 = [5, 0, 0, 7] ∧
    BlockAnswer (Asked strictSlave holedLabels 10 3) (singleRead strictSlave 10 3 (fun _ => 0) holedMap) 0 4
      (strictSlave.muchRead holedMap 10 4 3 fun _ => 0).1
      (fun i => (strictSlave.muchRead holedMap 10 4 3 fun _ => 0).2.1[i]?) := by
  refine ⟨by decide +kernel, (blockRead_iff (by decide) .clear).1.mpr ?_⟩
  rintro i inside r - (⟨other, -⟩ | ⟨-, -, first⟩)
  · exact absurd (show 3 = 4 from other) (by decide)
  · have ten : 10 + i = 0 := first
    omega

/-- The last register of function 3 and the register 1 of function 4. -/
def borderMap : RegMap := ⟨[valueReg 65535 3 5, valueReg 1 4 7], by decide +kernel⟩

/-- The numbers and functions of these two. -/
def borderLabels : Labels borderMap where
  number r := if r.prop.mbreg = 1 then 1 else 65535
  func r := if r.prop.mbreg = 1 then 4 else 3
  own r mem := by
    have both : r = valueReg 65535 3 5 ∨ r = valueReg 1 4 7 := by simpa [borderMap] using mem
    rcases both with rfl | rfl <;> rfl

/-- **A request for two registers from 65535 on** is answered with the register 1 of the next function
at the second position. -/
theorem blockRead_fails :
    (strictSlave.muchRead borderMap 65535 2 3 fun _ => 0).2.1 = [5, 7] ∧
    ¬ BlockAnswer (Asked strictSlave borderLabels 65535 3)
      (singleRead strictSlave 65535 3 (fun _ => 0) borderMap) 0 2
      (strictSlave.muchRead borderMap 65535 2 3 fun _ => 0).1
      (fun i => (strictSlave.muchRead borderMap 65535 2 3 fun _ => 0).2.1[i]?) := by
  have words : (strictSlave.muchRead borderMap 65535 2 3 fun _ => 0).2.1 = [5, 7] := by decide +kernel
  refine ⟨words, fun answer => ?_⟩
  have asked : Asked strictSlave borderLabels 65535 3 0 :=
    ⟨valueReg 65535 3 5, List.mem_cons_self, rfl, rfl⟩
  have foreign : ¬ Asked strictSlave borderLabels 65535 3 1 := by
    rintro ⟨r, -, number, -⟩
    have small := (borderLabels.number r).toNat_lt
    rw [number] at small
    exact absurd small (by decide)
  have word := ((answer.found ⟨0, by decide, asked⟩).2 1 (by decide)).2 foreign
  rw [words] at word
  exact absurd word (by decide)

end UniSet.ModbusSlave

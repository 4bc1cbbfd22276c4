/-
**`ModbusHelpers::autodetectSlave`: the first address of a range that answers.**

The loop variable is a byte, so a range that ends with `0xff` needs an exit inside the loop. The exit
stands behind the first turn, not behind the last: such a range is given up after its first address.

* `ReadEnd`, `ReadingClient` — how the reading functions of a client end.
* `search` — the loop; it ends because the variable does not reach `0xff`.
* `Detected` — the result the search is for.
* `search_detected` — the loop finds it in a range below `0xff`.
* **`autodetectSlave_detects_iff`** — the ranges in which the function finds it.
-/

import UniSet.Modbus.Server

namespace UniSet.Modbus

/-- How a reading function of `ModbusClient` ends: it returns or throws. -/
inductive ReadEnd
  | returned
  | mbException (err : MbErrCode)
  | exception
deriving DecidableEq, Repr

/-- The slave is there: it answered, if only with an error. -/
def ReadEnd.found : ReadEnd → Bool
  | .returned => true
  | .mbException err => err.isReply
  | .exception => false

/-- **The reading functions of a client**, for an address, the first register and the count. -/
structure ReadingClient where
  read01 : Byte → Nat → Nat → ReadEnd
  read02 : Byte → Nat → Nat → ReadEnd
  read03 : Byte → Nat → Nat → ReadEnd
  read04 : Byte → Nat → Nat → ReadEnd

namespace ModbusHelpers

variable (m : ReadingClient) (reg : Nat) (fn : SlaveFunctionCode)

/-- The body of the loop. -/
def ask (a : Byte) : ReadEnd :=
  match fn with
  | .fnReadInputRegisters => m.read04 a reg 1
  | .fnReadInputStatus => m.read02 a reg 1
  | .fnReadCoilStatus => m.read01 a reg 1
  | .fnReadOutputRegisters => m.read03 a reg 1
  | _ => .mbException .erOperationFailed

theorem next_toNat {a : Byte} (notLast : a ≠ 0xff) : (a + 1).toNat = a.toNat + 1 := by
  have below : a.toNat ≠ 255 := fun same => notLast (UInt8.toNat_inj.mp same)
  have := a.toNat_lt
  rw [UInt8.toNat_add, UInt8.toNat_one]
  omega

/-- A turn that goes on is not at the last address. -/
theorem not_last {beg last a : Byte} (inside : a ≤ last) (on : ¬ (beg = 0xff ∨ last = 0xff)) :
    a ≠ 0xff := by
  rintro rfl
  exact on (.inr (UInt8.le_antisymm (UInt8.le_iff_toNat_le.mpr (Nat.le_of_lt_succ last.toNat_lt))
    inside))

/-- **The loop of `autodetectSlave`** from the address `a` on. -/
def search (found : Byte → Bool) (beg last a : Byte) : Option Byte :=
  if inside : a ≤ last then
    if found a then some a
    else if on : beg = 0xff ∨ last = 0xff then none
    else search found beg last (a + 1)
  else none
termination_by 256 - a.toNat
decreasing_by
  have := a.toNat_lt
  rw [next_toNat (not_last inside on)]
  omega

/-- The address that was returned from the loop, or the `TimeOut` behind it. -/
def outcome : Option Byte → Except Exc Byte
  | some a => .ok a
  | none => .error .timeOut

/-- The ends of the range, in their order. -/
def lower (beg last : Byte) : Byte := if last < beg then last else beg

def upper (beg last : Byte) : Byte := if last < beg then beg else last

theorem lower_le_upper (beg last : Byte) : lower beg last ≤ upper beg last := by
  unfold lower upper
  split_ifs with less
  · exact UInt8.le_of_lt less
  · exact UInt8.not_lt.mp less

/-- **`ModbusHelpers::autodetectSlave`.** -/
def autodetectSlave (beg last : Byte) : Except Exc Byte :=
  outcome (search (fun a => (ask m reg fn a).found) (lower beg last) (upper beg last)
    (lower beg last))

/-- **The result of the search**: the smallest address between `lo` and `hi` at which there is a
slave, or a `TimeOut` if there is none. -/
def Detected (found : Byte → Bool) (lo hi : Byte) : Except Exc Byte → Prop
  | .ok a => (lo ≤ a ∧ a ≤ hi ∧ found a = true) ∧ ∀ b, lo ≤ b → b < a → found b = false
  | .error ex => ex = .timeOut ∧ ∀ a, lo ≤ a → a ≤ hi → found a = false

variable {found : Byte → Bool}

theorem detected_first {lo hi : Byte} (range : lo ≤ hi) (here : found lo = true) :
    Detected found lo hi (.ok lo) :=
  ⟨⟨UInt8.le_refl lo, range, here⟩, fun _ above below => absurd above (UInt8.not_le.mpr below)⟩

theorem detected_next {a hi : Byte} (notLast : a ≠ 0xff) (absent : found a = false)
    {result : Except Exc Byte} (later : Detected found (a + 1) hi result) :
    Detected found a hi result := by
  have next := next_toNat notLast
  have split : ∀ b, a ≤ b → b ≠ a → a + 1 ≤ b := by
    intro b above other
    have apart : b.toNat ≠ a.toNat := fun same => other (UInt8.toNat_inj.mp same)
    rw [UInt8.le_iff_toNat_le] at above ⊢
    omega
  cases result with
  | ok c =>
    obtain ⟨⟨above, below, here⟩, first⟩ := later
    refine ⟨⟨?_, below, here⟩, fun b from' under => ?_⟩
    · rw [UInt8.le_iff_toNat_le] at above ⊢
      omega
    · by_cases same : b = a
      · rw [same, absent]
      · exact first b (split b from' same) under
  | error ex =>
    obtain ⟨timeOut, none⟩ := later
    refine ⟨timeOut, fun b from' upTo => ?_⟩
    by_cases same : b = a
    · rw [same, absent]
    · exact none b (split b from' same) upTo

/-- **In a range below `0xff` the loop finds the first slave.** -/
theorem search_detected {beg hi : Byte} (on : ¬ (beg = 0xff ∨ hi = 0xff)) (a : Byte) :
    Detected found a hi (outcome (search found beg hi a)) := by
  induction a using search.induct found beg hi with
  | case1 a inside here =>
    rw [search, dif_pos inside, if_pos here]
    exact detected_first inside here
  | case2 a inside absent off => exact absurd off on
  | case3 a inside absent _ ih =>
    rw [search, dif_pos inside, if_neg absent, dif_neg on]
    exact detected_next (not_last inside on) (Bool.eq_false_iff.mpr absent) ih
  | case4 a outside =>
    rw [search, dif_neg outside]
    refine ⟨rfl, fun b from' upTo => absurd (UInt8.le_trans from' upTo) outside⟩

/-- A range that ends with `0xff` is given up after its first address. -/
theorem search_last (found : Byte → Bool) (lo : Byte) :
    search found lo 0xff lo = if found lo then some lo else none := by
  have inside : lo ≤ 0xff := UInt8.le_iff_toNat_le.mpr (Nat.le_of_lt_succ lo.toNat_lt)
  rw [search, dif_pos inside]
  split
  · rfl
  · rw [dif_pos (.inr rfl)]

/-- **The first slave of a range is detected exactly if the range ends before `0xff`, begins with the
slave, or has none.** -/
theorem autodetectSlave_detects_iff (m : ReadingClient) (reg : Nat) (fn : SlaveFunctionCode)
    (beg last : Byte) :
    Detected (fun a => (ask m reg fn a).found) (lower beg last) (upper beg last)
        (autodetectSlave m reg fn beg last) ↔
      upper beg last ≠ 0xff ∨ (ask m reg fn (lower beg last)).found = true ∨
        ∀ a, lower beg last ≤ a → a ≤ upper beg last → (ask m reg fn a).found = false := by
  have range := lower_le_upper beg last
  unfold autodetectSlave
  generalize lower beg last = lo at range ⊢
  generalize upper beg last = hi at range ⊢
  by_cases top : hi = 0xff
  · rw [top] at range ⊢
    rw [search_last]
    by_cases here : (ask m reg fn lo).found = true
    · rw [if_pos here]
      exact iff_of_true (detected_first range here) (.inr (.inl here))
    · rw [if_neg here]
      constructor
      · rintro ⟨-, none⟩
        exact .inr (.inr none)
      · rintro (below | found | none)
        · exact absurd rfl below
        · exact absurd found here
        · exact ⟨rfl, none⟩
  · have low : lo ≠ 0xff := by
      rintro rfl
      exact top (UInt8.le_antisymm
        (UInt8.le_iff_toNat_le.mpr (Nat.le_of_lt_succ hi.toNat_lt)) range)
    exact iff_of_true (search_detected (not_or.mpr ⟨low, top⟩) lo) (.inl top)

/-- A line with one slave, at the address `5`. -/
def onlyFive : ReadingClient :=
  let read (a : Byte) (_ _ : Nat) : ReadEnd :=
    if a = 5 then .returned else .mbException .erTimeOut
  ⟨read, read, read, read⟩

/-- **The default range does not find it.** -/
theorem default_range_gives_up :
    ¬ Detected (fun a => (ask onlyFive 0 .fnReadInputRegisters a).found) (lower 0 255) (upper 0 255)
      (autodetectSlave onlyFive 0 .fnReadInputRegisters 0 255) := by
  have given : autodetectSlave onlyFive 0 .fnReadInputRegisters 0 255 = .error .timeOut := by
    show outcome (search _ 0 0xff 0) = _
    rw [search_last]
    rfl
  rw [given]
  rintro ⟨-, none⟩
  exact absurd (none 5 (by decide) (by decide)) (by decide)

end ModbusHelpers

end UniSet.Modbus

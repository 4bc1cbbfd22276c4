/-
**`genRegID`: one number for a register and a function.**

The range of a function begins 65535 numbers after the range of the one before it, but has 65536
registers: the last register of a function and the first of the next share their number.

* `RegIDRequirements` — what the declaration of `genRegID` requires, for two registers.
* `Touching` — two registers at the ends of neighbouring ranges.
* **`regID_requirements_iff`** — the requirements hold of all registers but these.
-/

import UniSet.ModbusMaster.Grouping

namespace UniSet.ModbusMaster

/-- **The requirements**, for the registers `r` and `r'` of the functions `fn` and `fn'`. -/
structure RegIDRequirements (r r' : UInt16) (fn fn' : UInt8) : Prop where
  injective : genRegID r.toNat fn.toNat = genRegID r'.toNat fn'.toNat → r = r' ∧ fn = fn'
  above : 65535 < genRegID r.toNat fn.toNat ∧ 65535 < genRegID r'.toNat fn'.toNat
  consecutive :
    (genRegID r'.toNat fn'.toNat = genRegID r.toNat fn.toNat + 1 ∨
        genRegID r.toNat fn.toNat = genRegID r'.toNat fn'.toNat + 1) ↔
      fn = fn' ∧ (r'.toNat = r.toNat + 1 ∨ r.toNat = r'.toNat + 1)

/-- The register `r` is at the end of its function and `r'` at the beginning of the next one. -/
def Touching (r r' : UInt16) (fn fn' : UInt8) : Prop :=
  fn'.toNat = fn.toNat + 1 ∧ r'.toNat + 65534 ≤ r.toNat

theorem genRegID_above (mbreg fn : Nat) : 65535 < genRegID mbreg fn := by
  rw [genRegID]
  omega

/-- Numbers that differ by at most one belong to one function, unless the registers touch. -/
theorem fn_eq_of_near {mbreg mbreg' fn fn' : Nat} (small : mbreg < 65536) (small' : mbreg' < 65536)
    (near : genRegID mbreg fn ≤ genRegID mbreg' fn' + 1)
    (near' : genRegID mbreg' fn' ≤ genRegID mbreg fn + 1)
    (apart : ¬ (fn' = fn + 1 ∧ mbreg' + 65534 ≤ mbreg))
    (apart' : ¬ (fn = fn' + 1 ∧ mbreg + 65534 ≤ mbreg')) : fn = fn' := by
  rw [genRegID, genRegID] at near near'
  omega

/-- **The requirements hold of two registers exactly if they do not touch.** -/
theorem regID_requirements_iff (r r' : UInt16) (fn fn' : UInt8) :
    RegIDRequirements r r' fn fn' ↔ ¬ Touching r r' fn fn' ∧ ¬ Touching r' r fn' fn := by
  have small := r.toNat_lt
  have small' := r'.toNat_lt
  constructor
  · rintro ⟨injective, -, consecutive⟩
    have meet : fn.toNat ≠ fn'.toNat →
        genRegID r.toNat fn.toNat ≠ genRegID r'.toNat fn'.toNat ∧
        genRegID r'.toNat fn'.toNat ≠ genRegID r.toNat fn.toNat + 1 ∧
        genRegID r.toNat fn.toNat ≠ genRegID r'.toNat fn'.toNat + 1 := by
      intro far
      refine ⟨fun same => ?_, fun next => ?_, fun next => ?_⟩
      · exact far (congrArg UInt8.toNat (injective same).2)
      · exact far (congrArg UInt8.toNat (consecutive.mp (.inl next)).1)
      · exact far (congrArg UInt8.toNat (consecutive.mp (.inr next)).1)
    simp only [genRegID] at meet
    constructor
    · rintro ⟨next, last⟩
      obtain ⟨distinct, notNext, -⟩ := meet (by omega)
      omega
    · rintro ⟨next, last⟩
      obtain ⟨distinct, -, notNext⟩ := meet (by omega)
      omega
  · rintro ⟨apart, apart'⟩
    have one : genRegID r.toNat fn.toNat ≤ genRegID r'.toNat fn'.toNat + 1 →
        genRegID r'.toNat fn'.toNat ≤ genRegID r.toNat fn.toNat + 1 → fn.toNat = fn'.toNat :=
      fun near near' => fn_eq_of_near small small' near near' apart apart'
    refine ⟨fun same => ?_, ⟨genRegID_above _ _, genRegID_above _ _⟩, fun next => ?_, ?_⟩
    · have fns := one (by omega) (by omega)
      rw [genRegID, genRegID, fns] at same
      exact ⟨UInt16.toNat_inj.mp (by omega), UInt8.toNat_inj.mp fns⟩
    · have fns := one (by omega) (by omega)
      rw [genRegID, genRegID, fns] at next
      exact ⟨UInt8.toNat_inj.mp fns, by omega⟩
    · rintro ⟨rfl, next⟩
      simp only [genRegID]
      omega

/-- **The last register of the function 3 and the first of the function 4 have one number**, and the
numbers of the registers 65534 and 0 follow each other. -/
theorem regID_requirements_fail : ¬ RegIDRequirements 65535 0 3 4 ∧ ¬ RegIDRequirements 65534 0 3 4 := by
  constructor
  · intro required
    exact absurd (required.injective (by decide)).2 (by decide)
  · intro required
    exact absurd (required.consecutive.mp (by decide)).1 (by decide)

end UniSet.ModbusMaster

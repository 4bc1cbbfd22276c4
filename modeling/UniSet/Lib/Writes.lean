/-
**Lists of writes to a store, of which the last one counts.**

A write has a key, a value and a rank. In a list that is sorted by rank, the write that counts for a key
is one of the greatest rank.

* `writeAll` — the store after the writes.
* `writeAll_eq` — what is at a key: what was there before, or the value of a write of the greatest rank.
* `writeAll_last` — the same for any list: the value of the last write to the key.
* **`writeAll_congr`** — two sorted lists of the same writes leave the same store, if the writes of one
  rank to one key agree.
-/

import Mathlib.Logic.Function.Basic
import Mathlib.Data.List.Induction
import Mathlib.Data.List.Pairwise

namespace UniSet.Lib

section Writes

variable {W K V : Type*} [DecidableEq K] (key : W → K) (val : W → V) (rank : W → Nat)

/-- The store after the writes, taken in order. -/
def writeAll (store : K → V) (writes : List W) : K → V :=
  writes.foldl (fun store w => Function.update store (key w) (val w)) store

variable {key val rank}

/-- What is at a key after writes that are sorted by rank. -/
theorem writeAll_eq (k : K) {writes : List W} (sorted : writes.Pairwise fun a b => rank a ≤ rank b)
    (store : K → V) :
    ((∀ w ∈ writes, key w ≠ k) ∧ writeAll key val store writes k = store k) ∨
      ∃ w ∈ writes, key w = k ∧ writeAll key val store writes k = val w ∧
        ∀ other ∈ writes, key other = k → rank other ≤ rank w := by
  induction writes generalizing store with
  | nil => exact .inl ⟨fun w member => absurd member List.not_mem_nil, rfl⟩
  | cons first rest ih =>
    obtain ⟨below, sorted⟩ := List.pairwise_cons.mp sorted
    rcases ih sorted (Function.update store (key first) (val first)) with
      ⟨none, eq⟩ | ⟨w, member, here, eq, greatest⟩
    · by_cases here : key first = k
      · refine .inr ⟨first, List.mem_cons_self, here, ?_, ?_⟩
        · rw [writeAll, List.foldl_cons]
          refine eq.trans ?_
          rw [← here, Function.update_self]
        · intro other member same
          rcases List.mem_cons.mp member with rfl | member
          · exact Nat.le_refl _
          · exact absurd same (none other member)
      · refine .inl ⟨fun w member => ?_, ?_⟩
        · rcases List.mem_cons.mp member with rfl | member
          · exact here
          · exact none w member
        · rw [writeAll, List.foldl_cons]
          exact eq.trans (Function.update_of_ne (Ne.symm here) _ _)
    · refine .inr ⟨w, List.mem_cons_of_mem _ member, here, eq, fun other member' same => ?_⟩
      rcases List.mem_cons.mp member' with rfl | member'
      · exact below w member
      · exact greatest other member' same

/-- What is at a key is the value of the last write to it. -/
theorem writeAll_last (k : K) (writes : List W) (store : K → V) :
    writeAll key val store writes k =
      ((writes.filter fun w => key w = k).getLast?.map val).getD (store k) := by
  induction writes using List.reverseRecOn with
  | nil => rfl
  | append_singleton writes last ih =>
    rw [writeAll, List.foldl_append, List.filter_append]
    by_cases here : key last = k
    · simp [here]
    · rw [writeAll] at ih
      simpa [here, Ne.symm here, Function.update_apply] using ih

/-- **Two sorted lists of the same writes leave the same store.** -/
theorem writeAll_congr (rank : W → Nat) {writes writes' : List W}
    (sorted : writes.Pairwise fun a b => rank a ≤ rank b)
    (sorted' : writes'.Pairwise fun a b => rank a ≤ rank b)
    (same : ∀ w, w ∈ writes ↔ w ∈ writes')
    (agree : ∀ a ∈ writes, ∀ b ∈ writes, key a = key b → rank a = rank b → val a = val b)
    (store : K → V) : writeAll key val store writes = writeAll key val store writes' := by
  funext k
  rcases writeAll_eq k sorted store with ⟨none, eq⟩ | ⟨w, member, here, eq, greatest⟩
  · rcases writeAll_eq k sorted' store with ⟨-, eq'⟩ | ⟨w', member', here', -, -⟩
    · rw [eq, eq']
    · exact absurd here' (none w' ((same w').mpr member'))
  · rcases writeAll_eq k sorted' store with ⟨none', -⟩ | ⟨w', member', here', eq', greatest'⟩
    · exact absurd here (none' w ((same w).mp member))
    · have rank_eq : rank w = rank w' :=
        Nat.le_antisymm (greatest' w ((same w).mp member) here) (greatest w' ((same w').mpr member') here')
      rw [eq, eq']
      exact agree w member w' ((same w').mpr member') (here.trans here'.symm) rank_eq

end Writes

end UniSet.Lib

/-
**The newest values of a stream.**

Values come one by one after a first one that stands for all that came before; a window shows the newest `n`.

* `newest` — the window, newest value first.
* **`newest_push`**, **`newest_shrink`** — a window of the same size after one more value, and a smaller window.
* **`newest_grow_iff`** — when a larger window is the smaller one with a constant put in front.
-/

import Mathlib.Data.List.TakeDrop

namespace UniSet.Lib

variable {α : Type*}

/-- **The newest `n` values**, newest first: those that came, and before them the first one. -/
def newest (n : Nat) (came : List α) (first : α) : List α := came.takeD n first

@[simp] theorem length_newest (n : Nat) (came : List α) (first : α) : (newest n came first).length = n :=
  List.takeD_length n came first

theorem newest_nil (n : Nat) (first : α) : newest n [] first = List.replicate n first := List.takeD_nil n first

theorem takeD_larger {n : Nat} {values : List α} (larger : values.length ≤ n) (z : α) :
    values.takeD n z = values ++ List.replicate (n - values.length) z := by
  induction values generalizing n with
  | nil => rw [List.takeD_nil, List.nil_append, List.length_nil, Nat.sub_zero]
  | cons value rest ih =>
    obtain ⟨n, rfl⟩ := Nat.exists_eq_succ_of_ne_zero (Nat.ne_zero_of_lt larger)
    rw [List.length_cons, Nat.succ_sub_succ, List.cons_append, ← ih (Nat.le_of_succ_le_succ larger)]
    rfl

/-- **A smaller window.** -/
theorem newest_shrink {m n : Nat} (smaller : m ≤ n) (came : List α) (first : α) :
    (newest n came first).take m = newest m came first := by
  induction m generalizing n came with
  | zero => rfl
  | succ m ih =>
    obtain ⟨n, rfl⟩ := Nat.exists_eq_succ_of_ne_zero (Nat.ne_zero_of_lt smaller)
    show came.headD first :: (newest n came.tail first).take m = came.headD first :: newest m came.tail first
    rw [ih (Nat.le_of_succ_le_succ smaller)]

/-- **One more value**: the oldest one leaves. -/
theorem newest_push {n : Nat} (some : n ≠ 0) (came : List α) (first value : α) :
    newest n (value :: came) first = value :: (newest n came first).dropLast := by
  obtain ⟨n, rfl⟩ := Nat.exists_eq_succ_of_ne_zero some
  show value :: newest n came first = _
  rw [List.dropLast_eq_take, length_newest]
  exact congrArg (value :: ·) (newest_shrink (Nat.le_succ n) came first).symm

/-- A list that is pushed along by a constant is constant. -/
theorem append_eq_replicate_append_iff {values older : List α} {z : α} (some : older ≠ []) :
    values ++ older = List.replicate older.length z ++ values ↔ ∀ x ∈ values ++ older, x = z := by
  induction values with
  | nil =>
    rw [List.nil_append, List.append_nil, List.eq_replicate_iff]
    exact and_iff_right rfl
  | cons value rest ih =>
    obtain ⟨k, length⟩ := Nat.exists_eq_succ_of_ne_zero fun none => some (List.eq_nil_of_length_eq_zero none)
    have moved : List.replicate older.length z ++ value :: rest =
        z :: (List.replicate k z ++ value :: rest) := by
      rw [length, List.replicate_succ, List.cons_append]
    have pushed : List.replicate k z ++ z :: rest = List.replicate older.length z ++ rest := by
      rw [length, List.replicate_succ', List.append_assoc]
      rfl
    rw [moved, List.cons_append, List.cons.injEq, List.forall_mem_cons, ← ih]
    refine and_congr_right fun same => ?_
    rw [same, pushed]

/-- **A larger window** is the smaller one with a constant in front exactly if it is constant. -/
theorem newest_grow_iff {m n : Nat} (larger : n < m) (came : List α) (first z : α) :
    newest m came first = List.replicate (m - n) z ++ newest n came first ↔ ∀ x ∈ newest m came first, x = z := by
  have parts : newest m came first = newest n came first ++ (newest m came first).drop n := by
    rw [← newest_shrink (Nat.le_of_lt larger) came first, List.take_append_drop]
  have length : ((newest m came first).drop n).length = m - n := by
    rw [List.length_drop, length_newest]
  have older : (newest m came first).drop n ≠ [] := fun none => by
    rw [none, List.length_nil] at length
    omega
  have constant := @append_eq_replicate_append_iff α (newest n came first) ((newest m came first).drop n) z older
  rwa [length, ← parts] at constant

end UniSet.Lib

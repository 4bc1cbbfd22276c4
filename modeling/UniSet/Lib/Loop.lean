/-
**Loops: a partial step taken until it is no longer enabled.**

A `while` loop is a partial step `body : State → Option State`; `none` is the exit. `loop body n`
allows `n` turns.

* `loop_keeps`, `loop_keeps_turns` — what one turn keeps, the loop keeps.
* `loop_exit_unique` — the state in which it is left does not depend on the turns allowed.
* `loop_exits`, `loop_exits_of_invariant` — if a number drops with every turn, as many turns as that
  number suffice.
-/

import Mathlib.Logic.Basic

namespace UniSet.Lib

variable {State : Type*} (body : State → Option State)

/-- The state after at most `n` turns. -/
def loop : Nat → State → State
  | 0, s => s
  | n + 1, s =>
    match body s with
    | none => s
    | some t => loop n t

variable {body}

variable {s : State}

theorem loop_none (exit : body s = none) (n : Nat) : loop body n s = s := by
  cases n with
  | zero => rfl
  | succ n => rw [loop, exit]

theorem loop_some {t : State} (turn : body s = some t) (n : Nat) :
    loop body (n + 1) s = loop body n t := by
  rw [loop, turn]

/-- **The invariant rule.** -/
theorem loop_keeps {P : State → Prop} (keeps : ∀ s t, P s → body s = some t → P t) (n : Nat)
    (initially : P s) : P (loop body n s) := by
  induction n generalizing s with
  | zero => exact initially
  | succ n ih =>
    cases turn : body s with
    | none =>
      rw [loop_none turn]
      exact initially
    | some t =>
      rw [loop_some turn]
      exact ih (keeps s t initially turn)

theorem loop_succ (n : Nat) (s : State) :
    loop body (n + 1) s = (body (loop body n s)).getD (loop body n s) := by
  induction n generalizing s with
  | zero =>
    show loop body 1 s = (body s).getD s
    cases turn : body s with
    | none => rw [loop_none turn, Option.getD_none]
    | some t =>
      rw [loop_some turn]
      rfl
  | succ n ih =>
    cases turn : body s with
    | none => rw [loop_none turn, loop_none turn, turn, Option.getD_none]
    | some t => rw [loop_some turn, loop_some turn, ih]

/-- **A loop that is left is left in one state**, whatever the turns allowed. -/
theorem loop_exit_unique {n m : Nat} (left : body (loop body n s) = none)
    (left' : body (loop body m s) = none) : loop body n s = loop body m s := by
  induction n generalizing s m with
  | zero => exact (loop_none left m).symm
  | succ n ih =>
    cases turn : body s with
    | none => rw [loop_none turn, loop_none turn]
    | some t =>
      rw [loop_some turn] at left ⊢
      cases m with
      | zero => exact absurd (turn.symm.trans left') (Option.some_ne_none t)
      | succ m =>
        rw [loop_some turn] at left' ⊢
        exact ih left left'

/-- **The invariant rule for the turns that are taken**: what each of the first `n` turns keeps. -/
theorem loop_keeps_turns {P : State → Prop} {n : Nat}
    (keeps : ∀ i < n, ∀ t, P (loop body i s) → body (loop body i s) = some t → P t)
    (initially : P s) : P (loop body n s) := by
  induction n with
  | zero => exact initially
  | succ n ih =>
    have held := ih fun i few => keeps i (Nat.lt_succ_of_lt few)
    rw [loop_succ]
    cases turn : body (loop body n s) with
    | none => exact held
    | some t => exact keeps n (Nat.lt_succ_self n) t held turn

/-- **The exit rule under an invariant**: a number that drops with every turn bounds the turns. -/
theorem loop_exits_of_invariant {P : State → Prop} (keeps : ∀ s t, P s → body s = some t → P t)
    (measure : State → Nat) (drops : ∀ s t, P s → body s = some t → measure t < measure s) (n : Nat)
    (initially : P s) (enough : measure s ≤ n) : body (loop body n s) = none := by
  induction n generalizing s with
  | zero =>
    cases turn : body s with
    | none => exact turn
    | some t =>
      have := drops s t initially turn
      omega
  | succ n ih =>
    cases turn : body s with
    | none =>
      rw [loop_none turn]
      exact turn
    | some t =>
      rw [loop_some turn]
      have := drops s t initially turn
      exact ih (keeps s t initially turn) (by omega)

/-- **The exit rule.** -/
theorem loop_exits (measure : State → Nat) (drops : ∀ s t, body s = some t → measure t < measure s)
    (n : Nat) (enough : measure s ≤ n) : body (loop body n s) = none :=
  loop_exits_of_invariant (P := fun _ => True) (fun _ _ _ _ => trivial) measure
    (fun s t _ => drops s t) n trivial enough

end UniSet.Lib

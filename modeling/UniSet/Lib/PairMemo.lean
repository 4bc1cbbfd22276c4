/-
**A memo of one pair for two opposite conversions.**

The pair has an argument of the one conversion and one of the other. Each conversion asks for its own half
and answers the other one.

* `forth`, `back` — a conversion of either direction through the memo.
* `Last` — the last conversion; `Keeps` is what the memo then has.
* **`forth_exact_iff`**, **`back_exact_iff`** — a conversion through the memo is right exactly if it does
  not meet the result of the last opposite one, or its own result there is the argument of that one.
-/

import Mathlib.Data.Prod.Basic

set_option linter.unusedSectionVars false

namespace UniSet.Lib

/-- **The memo.** -/
structure PairMemo (α β : Type*) where
  left : α
  right : β
deriving DecidableEq, Repr

namespace PairMemo

variable {α β : Type*} [DecidableEq α] [DecidableEq β] (f : α → β) (g : β → α)

/-- A conversion of the left half. -/
def forth (m : PairMemo α β) (a : α) : β × PairMemo α β :=
  if m.left ≠ a then (f a, ⟨a, f a⟩) else (m.right, m)

/-- A conversion of the right half. -/
def back (m : PairMemo α β) (b : β) : α × PairMemo α β :=
  if m.right ≠ b then (g b, ⟨g b, b⟩) else (m.left, m)

/-- The last conversion. -/
inductive Last (α β : Type*) where
  | never
  | forth (a : α)
  | back (b : β)
deriving DecidableEq, Repr

/-- What the memo has after the last conversion, if that was right; `start` is the memo before the first. -/
def Keeps (start : PairMemo α β) : Last α β → PairMemo α β
  | .never => start
  | .forth a => ⟨a, f a⟩
  | .back b => ⟨g b, b⟩

/-- The left half `a` is not in the memo, or with its own result. -/
def OwnForth (start : PairMemo α β) (last : Last α β) (a : α) : Prop :=
  match last with
  | .never => a = start.left → f start.left = start.right
  | .forth _ => True
  | .back b => a = g b → f (g b) = b

/-- The right half `b` is not in the memo, or with its own result. -/
def OwnBack (start : PairMemo α β) (last : Last α β) (b : β) : Prop :=
  match last with
  | .never => b = start.right → g start.right = start.left
  | .forth a => b = f a → g (f a) = a
  | .back _ => True

instance (start : PairMemo α β) : ∀ (last : Last α β) (a : α), Decidable (OwnForth f g start last a)
  | .never, a => inferInstanceAs (Decidable (a = start.left → f start.left = start.right))
  | .forth _, _ => inferInstanceAs (Decidable True)
  | .back b, a => inferInstanceAs (Decidable (a = g b → f (g b) = b))

instance (start : PairMemo α β) : ∀ (last : Last α β) (b : β), Decidable (OwnBack f g start last b)
  | .never, b => inferInstanceAs (Decidable (b = start.right → g start.right = start.left))
  | .forth a, b => inferInstanceAs (Decidable (b = f a → g (f a) = a))
  | .back _, _ => inferInstanceAs (Decidable True)

variable {f g} {start : PairMemo α β} {last : Last α β}

variable {m : PairMemo α β}

/-- A hit is right if the memo has the result. -/
theorem forth_exact {a : α} : (m.forth f a).1 = f a ↔ (a = m.left → f m.left = m.right) := by
  rw [forth]
  by_cases hit : m.left = a
  · subst hit
    rw [if_neg (fun other => other rfl)]
    exact ⟨fun same _ => same.symm, fun own => (own rfl).symm⟩
  · rw [if_pos hit]
    exact iff_of_true rfl fun same => absurd same.symm hit

theorem back_exact {b : β} : (m.back g b).1 = g b ↔ (b = m.right → g m.right = m.left) := by
  rw [back]
  by_cases hit : m.right = b
  · subst hit
    rw [if_neg (fun other => other rfl)]
    exact ⟨fun same _ => same.symm, fun own => (own rfl).symm⟩
  · rw [if_pos hit]
    exact iff_of_true rfl fun same => absurd same.symm hit

/-- **A conversion through the memo is right** exactly if the memo does not have its argument from elsewhere. -/
theorem forth_exact_iff (a : α) :
    ((Keeps f g start last).forth f a).1 = f a ↔ OwnForth f g start last a := by
  rw [forth_exact]
  cases last with
  | never => exact Iff.rfl
  | forth a' => exact iff_of_true (fun _ => rfl) trivial
  | back b => exact Iff.rfl

theorem back_exact_iff (b : β) :
    ((Keeps f g start last).back g b).1 = g b ↔ OwnBack f g start last b := by
  rw [back_exact]
  cases last with
  | never => exact Iff.rfl
  | forth a => exact Iff.rfl
  | back b' => exact iff_of_true (fun _ => rfl) trivial

/-- A right conversion leaves itself in the memo. -/
theorem forth_keeps {a : α} (found : (m.forth f a).1 = f a) :
    (m.forth f a).2 = Keeps f g start (.forth a) := by
  rw [forth] at found ⊢
  by_cases hit : m.left = a
  · rw [if_neg (fun other => other hit)] at found ⊢
    show m = ⟨a, f a⟩
    rw [← found, ← hit]
  · rw [if_pos hit]
    rfl

theorem back_keeps {b : β} (found : (m.back g b).1 = g b) :
    (m.back g b).2 = Keeps f g start (.back b) := by
  rw [back] at found ⊢
  by_cases hit : m.right = b
  · rw [if_neg (fun other => other hit)] at found ⊢
    show m = ⟨g b, b⟩
    rw [← found, ← hit]
  · rw [if_pos hit]
    rfl

end PairMemo

end UniSet.Lib

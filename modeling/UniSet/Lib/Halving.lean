/-
**Search by halving, on a list of places with a side.**

The search asks both ends of a range of places, then the place in the middle, and goes on in the half on the side
that the middle one answers. It has no measure of its own: a range of two places halves to itself.

* `halving` — the search on a range, with the search of a half as a parameter.
* `ends` — the upper ends that the halving of a range towards a place meets.
* **`halving_iff`** — where the places before `k` answer right and none from `k` on does, the search returns
  exactly what is found first at the lower end and at the upper ends of the halving towards `k`.
* `unroll_halving` — as many nested calls as there are places suffice, if any number does.
* `mem_ends` — a place of the range is met by the halving towards it.
-/

import UniSet.Lib.Cascade

namespace UniSet.Lib

/-- The middle of a range of places. -/
def middle (lo hi : Nat) : Nat := lo + (hi - lo) / 2

variable (side : Nat → Ordering)

/-- **The search.** -/
def halving (call : Nat × Nat → Option Nat) (range : Nat × Nat) : Option Nat :=
  if side range.1 = .eq then some range.1
  else if side range.2 = .eq then some range.2
  else match side (middle range.1 range.2) with
    | .lt => call (range.1, middle range.1 range.2)
    | .gt => call (middle range.1 range.2, range.2)
    | .eq => some (middle range.1 range.2)

/-- **The upper ends** of the halving towards `k`, for so many halvings. -/
def ends (k : Nat) : Nat → Nat → Nat → List Nat
  | 0, _, hi => [hi]
  | n + 1, lo, hi => hi :: if k ≤ middle lo hi then ends k n lo (middle lo hi) else ends k n (middle lo hi) hi

variable {side} {k n m lo hi i : Nat}

theorem le_middle (lo hi : Nat) : lo ≤ middle lo hi := Nat.le_add_right _ _

theorem middle_le (ordered : lo ≤ hi) : middle lo hi ≤ hi := by
  unfold middle
  omega

/-- What a halving of the upper ends finds, once the first of them is not it. -/
theorem find?_ends_succ (missed : side hi ≠ .eq) :
    (ends k (n + 1) lo hi).find? (side · = .eq) = if k ≤ middle lo hi
      then (ends k n lo (middle lo hi)).find? (side · = .eq)
      else (ends k n (middle lo hi) hi).find? (side · = .eq) := by
  rw [ends, List.find?_cons_of_neg (by simpa using missed)]
  split <;> rfl

section Towards

/-- Of the places up to the last one, those before `k` answer right and none from `k` on does. -/
structure Towards (side : Nat → Ordering) (k last : Nat) : Prop where
  before : ∀ i ≤ last, i < k → side i = .gt
  after : ∀ i ≤ last, k ≤ i → side i ≠ .gt

variable {last : Nat}

/-- **The first range of the search is empty of answers or decides it.** -/
theorem halving_of_missed {call : Nat × Nat → Option Nat} (left : side lo ≠ .eq) (right : side hi ≠ .eq) :
    halving side call (lo, hi) = match side (middle lo hi) with
      | .lt => call (lo, middle lo hi)
      | .gt => call (middle lo hi, hi)
      | .eq => some (middle lo hi) := by
  rw [halving, if_neg left, if_neg right]

theorem find?_ends_head (found : side hi = .eq) : (ends k n lo hi).find? (side · = .eq) = some hi := by
  cases n with
  | zero => exact List.find?_cons_of_pos (by simpa using found)
  | succ n => exact List.find?_cons_of_pos (by simpa using found)

/-- **What the upper ends have, the search finds**, with one call for each halving. -/
theorem halving_of_ends (towards : Towards side k last) :
    ∀ n lo hi, lo ≤ hi → hi ≤ last → (lo :: ends k n lo hi).find? (side · = .eq) = some i →
      unroll (halving side) (n + 1) (lo, hi) = some i
  | n, lo, hi, ordered, within, found => by
    by_cases left : side lo = .eq
    · rw [List.find?_cons_of_pos (by simpa using left)] at found
      rw [unroll, halving, if_pos left]
      exact found
    rw [List.find?_cons_of_neg (by simpa using left)] at found
    by_cases right : side hi = .eq
    · rw [find?_ends_head right] at found
      rw [unroll, halving, if_neg left, if_pos right]
      exact found
    rw [unroll, halving_of_missed left right]
    have inside := Nat.le_trans (middle_le ordered) within
    cases n with
    | zero =>
      rw [ends, List.find?_cons_of_neg (by simpa using right)] at found
      cases found
    | succ n =>
      rw [find?_ends_succ right] at found
      by_cases upper : k ≤ middle lo hi
      · rw [if_pos upper] at found
        cases answer : side (middle lo hi) with
        | lt =>
          refine halving_of_ends towards n lo (middle lo hi) (le_middle lo hi) inside ?_
          rw [List.find?_cons_of_neg (by simpa using left)]
          exact found
        | eq =>
          rw [find?_ends_head answer] at found
          exact found
        | gt => exact absurd answer (towards.after _ inside upper)
      · rw [if_neg upper] at found
        have answer := towards.before _ inside (Nat.lt_of_not_le upper)
        rw [answer]
        refine halving_of_ends towards n (middle lo hi) hi (middle_le ordered) within ?_
        rw [List.find?_cons_of_neg (by simp [answer])]
        exact found

/-- **What the search finds, the upper ends have**, with one halving for each place of the range. A range of two
places that halves to itself has been searched before. -/
theorem ends_of_halving (towards : Towards side k last) :
    ∀ m lo hi n, lo ≤ hi → hi ≤ last → hi - lo ≤ n → unroll (halving side) m (lo, hi) = some i →
      (lo :: ends k n lo hi).find? (side · = .eq) = some i
  | 0, _, _, _, _, _, _, found => absurd found (by simp [unroll])
  | m + 1, lo, hi, n, ordered, within, enough, found => by
    have inside := Nat.le_trans (middle_le ordered) within
    by_cases left : side lo = .eq
    · rw [unroll, halving, if_pos left] at found
      rw [List.find?_cons_of_pos (by simpa using left)]
      exact found
    by_cases right : side hi = .eq
    · rw [unroll, halving, if_neg left, if_pos right] at found
      rw [List.find?_cons_of_neg (by simpa using left), find?_ends_head right]
      exact found
    rw [unroll, halving_of_missed left right] at found
    have ih := ends_of_halving towards m
    cases n with
    | zero =>
      have same : middle lo hi = lo := by unfold middle; omega
      obtain rfl : hi = lo := by omega
      rw [same] at found
      cases answer : side hi with
      | lt =>
        rw [answer] at found
        exact ih hi hi 0 ordered within enough found
      | eq => exact absurd answer left
      | gt =>
        rw [answer] at found
        exact ih hi hi 0 ordered within enough found
    | succ n =>
      by_cases upper : k ≤ middle lo hi
      · rw [List.find?_cons_of_neg (by simpa using left), find?_ends_succ right, if_pos upper]
        cases answer : side (middle lo hi) with
        | lt =>
          rw [answer] at found
          have later := ih lo (middle lo hi) n (le_middle lo hi) inside (by unfold middle; omega) found
          rwa [List.find?_cons_of_neg (by simpa using left)] at later
        | eq =>
          rw [answer] at found
          rw [find?_ends_head answer]
          exact found
        | gt => exact absurd answer (towards.after _ inside upper)
      · have answer := towards.before _ inside (Nat.lt_of_not_le upper)
        rw [answer] at found
        by_cases wide : hi - middle lo hi ≤ n
        · rw [List.find?_cons_of_neg (by simpa using left), find?_ends_succ right, if_neg upper]
          have later := ih (middle lo hi) hi n (middle_le ordered) within wide found
          rwa [List.find?_cons_of_neg (by simp [answer])] at later
        · have same : middle lo hi = lo := by unfold middle at wide ⊢; omega
          rw [same] at found
          exact ih lo hi (n + 1) ordered within enough found

/-- **The search by halving.** It returns exactly what is found first at the lower end and at the upper ends of the
halving towards `k`. -/
theorem halving_iff (towards : Towards side k hi) (ordered : lo ≤ hi) :
    (∃ n, unroll (halving side) n (lo, hi) = some i) ↔
      (lo :: ends k (hi - lo) lo hi).find? (side · = .eq) = some i :=
  ⟨fun ⟨n, found⟩ => ends_of_halving towards n lo hi _ ordered (Nat.le_refl _) (Nat.le_refl _) found,
    fun found => ⟨_, halving_of_ends towards _ lo hi ordered (Nat.le_refl _) found⟩⟩

/-- **As many nested calls as there are places suffice.** -/
theorem unroll_halving (towards : Towards side k hi) (ordered : lo ≤ hi) :
    unroll (halving side) (hi - lo + 1) (lo, hi) = (lo :: ends k (hi - lo) lo hi).find? (side · = .eq) := by
  ext i
  exact ⟨fun found => ends_of_halving towards _ lo hi _ ordered (Nat.le_refl _) (Nat.le_refl _) found,
    fun found => halving_of_ends towards _ lo hi ordered (Nat.le_refl _) found⟩

end Towards

/-- The halving towards a place of the range meets it. -/
theorem mem_ends : ∀ n lo hi, lo ≤ k → k ≤ hi → hi - lo ≤ n → k ∈ ends k n lo hi
  | 0, lo, hi, above, below, enough => by
    obtain rfl : k = hi := by omega
    exact List.mem_singleton.mpr rfl
  | n + 1, lo, hi, above, below, enough => by
    rw [ends]
    by_cases last : k = hi
    · exact last ▸ List.mem_cons_self
    refine List.mem_cons_of_mem _ ?_
    by_cases upper : k ≤ middle lo hi
    · rw [if_pos upper]
      exact mem_ends n lo _ above upper (by unfold middle; omega)
    · rw [if_neg upper]
      exact mem_ends n _ hi (Nat.le_of_not_le upper) below (by unfold middle at upper ⊢; omega)

theorem ends_le (ordered : lo ≤ hi) (member : i ∈ ends k n lo hi) : i ≤ hi := by
  induction n generalizing lo hi with
  | zero => exact Nat.le_of_eq (List.mem_singleton.mp member)
  | succ n ih =>
    rw [ends] at member
    rcases List.mem_cons.mp member with rfl | member
    · exact Nat.le_refl _
    · split at member
      · exact Nat.le_trans (ih (le_middle lo hi) member) (middle_le ordered)
      · exact ih (middle_le ordered) member

end UniSet.Lib

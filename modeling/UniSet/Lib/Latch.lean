/-
**Latches: a state that one kind of value sets, another resets, and every other value keeps.**

* `latch` — one value. Setting and resetting look at the value only, so a value that comes again
  changes nothing (`latch_latch`).
* `Latched` — some value of a history sets, and no later one resets.
* **`foldl_latch_eq_on`** — a latch that starts reset is set exactly after the histories that are
  `Latched`, and is reset after all others (`foldl_latch_eq_off`).
-/

import Mathlib.Data.List.Induction

namespace UniSet.Lib

variable {σ α : Type*}

/-- **A latch**: a value that resets wins over one that sets. -/
def latch (set reset : α → Prop) [DecidablePred set] [DecidablePred reset] (on off : σ) (s : σ)
    (v : α) : σ :=
  if reset v then off else if set v then on else s

/-- **Some value sets, and no later one resets.** -/
def Latched (set reset : α → Prop) (vs : List α) : Prop :=
  ∃ before v after, vs = before ++ v :: after ∧ set v ∧ ∀ w ∈ after, ¬ reset w

variable {set reset : α → Prop}

/-- One more value: it sets, or it does not reset what was set before. -/
theorem latched_concat (vs : List α) (v : α) :
    Latched set reset (vs ++ [v]) ↔ set v ∨ (¬ reset v ∧ Latched set reset vs) := by
  constructor
  · rintro ⟨before, w, after, split, sets, keeps⟩
    rcases List.eq_nil_or_concat after with rfl | ⟨later, last, rfl⟩
    · obtain ⟨-, same⟩ := List.append_inj' split rfl
      cases same
      exact .inl sets
    · have longer : vs ++ [v] = (before ++ w :: later) ++ [last] := by
        rw [split, List.append_assoc, List.cons_append, List.concat_eq_append]
      obtain ⟨rfl, same⟩ := List.append_inj' longer rfl
      cases same
      refine .inr ⟨keeps v (by simp), before, w, later, rfl, sets, ?_⟩
      exact fun x member => keeps x (by simp [member])
  · rintro (sets | ⟨keep, before, w, after, rfl, sets, keeps⟩)
    · exact ⟨vs, v, [], rfl, sets, nofun⟩
    · refine ⟨before, w, after ++ [v], by simp, sets, fun x member => ?_⟩
      rcases List.mem_append.mp member with inside | single
      · exact keeps x inside
      · rw [List.mem_singleton.mp single]
        exact keep

variable [DecidablePred set] [DecidablePred reset] {on off : σ}

theorem latch_latch (s : σ) (v : α) :
    latch set reset on off (latch set reset on off s v) v = latch set reset on off s v := by
  unfold latch
  split
  · rfl
  · split <;> rfl

/-- **The state of a latch is what its history says**, where no value both sets and resets. -/
theorem foldl_latch (on off : σ) (apart : ∀ v, set v → ¬ reset v) (vs : List α) :
    (Latched set reset vs ∧ vs.foldl (latch set reset on off) off = on) ∨
      (¬ Latched set reset vs ∧ vs.foldl (latch set reset on off) off = off) := by
  induction vs using List.reverseRecOn with
  | nil =>
    refine .inr ⟨?_, rfl⟩
    rintro ⟨before, v, after, split, -⟩
    simp at split
  | append_singleton vs v ih =>
    rw [latched_concat, List.foldl_append, List.foldl_cons, List.foldl_nil, latch]
    by_cases resets : reset v
    · rw [if_pos resets]
      exact .inr ⟨fun later => later.elim (fun sets => apart v sets resets) fun kept => kept.1 resets,
        rfl⟩
    · rw [if_neg resets]
      by_cases sets : set v
      · rw [if_pos sets]
        exact .inl ⟨.inl sets, rfl⟩
      · rw [if_neg sets]
        rcases ih with ⟨latched, state⟩ | ⟨free, state⟩
        · exact .inl ⟨.inr ⟨resets, latched⟩, state⟩
        · exact .inr ⟨fun later => later.elim sets fun kept => free kept.2, state⟩

/-- **A latch is set exactly after the histories that are latched.** -/
theorem foldl_latch_eq_on (apart : ∀ v, set v → ¬ reset v) (distinct : on ≠ off) (vs : List α) :
    vs.foldl (latch set reset on off) off = on ↔ Latched set reset vs := by
  rcases foldl_latch on off apart vs with ⟨latched, state⟩ | ⟨free, state⟩
  · exact ⟨fun _ => latched, fun _ => state⟩
  · exact ⟨fun same => absurd (same.symm.trans state) distinct, fun latched => absurd latched free⟩

/-- **A latch that is not set is reset.** -/
theorem foldl_latch_eq_off (apart : ∀ v, set v → ¬ reset v) (distinct : on ≠ off) (vs : List α) :
    vs.foldl (latch set reset on off) off = off ↔ ¬ Latched set reset vs := by
  rcases foldl_latch on off apart vs with ⟨latched, state⟩ | ⟨free, state⟩
  · exact ⟨fun same => absurd (state.symm.trans same) distinct, fun free => absurd latched free⟩
  · exact ⟨fun _ => free, fun _ => state⟩

end UniSet.Lib

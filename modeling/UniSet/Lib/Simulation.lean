/-
**Simulation of one machine by another.**

Every step of the first machine is matched by one step of the second, or by none where it is silent.

* `Simulates` — a relation between the states that every admissible step keeps.
* **`run_simulated`** — a run of the first machine is matched by the run of its visible labels.
-/

import UniSet.Lib.Machine

namespace UniSet.Lib.Machine

variable {State Label State' Label' : Type*}

/-- **A simulation** of `M` by `N`: the steps of `M` that meet `cond` are seen in `N` as `visible` says. -/
structure Simulates (M : Machine State Label) (N : Machine State' Label') (cond : State → Label → Prop)
    (visible : Label → Option Label') (R : State → State' → Prop) : Prop where
  silent : ∀ s s' label t, R s s' → cond s label → visible label = none → M.step s label = some t → R t s'
  seen : ∀ s s' label label' t, R s s' → cond s label → visible label = some label' →
    M.step s label = some t → ∃ t', N.step s' label' = some t' ∧ R t t'

variable {M : Machine State Label} {N : Machine State' Label'} {cond : State → Label → Prop}
  {visible : Label → Option Label'} {R : State → State' → Prop}

/-- **A run is simulated** by the run of its visible labels. -/
theorem Simulates.run_simulated (simulates : M.Simulates N cond visible R) {s t : State} {s' : State'}
    {labels : List Label} (related : R s s') (meets : M.Meets cond s labels)
    (ran : M.run s labels = some t) : ∃ t', N.run s' (labels.filterMap visible) = some t' ∧ R t t' := by
  induction labels generalizing s s' with
  | nil =>
    cases ran
    exact ⟨s', rfl, related⟩
  | cons label rest ih =>
    obtain ⟨u, stepped, ran⟩ := run_cons ran
    have later := meets.2 u stepped
    cases shown : visible label with
    | none =>
      rw [List.filterMap_cons_none shown]
      exact ih (simulates.silent s s' label u related meets.1 shown stepped) later ran
    | some label' =>
      obtain ⟨u', stepped', related⟩ := simulates.seen s s' label label' u related meets.1 shown stepped
      obtain ⟨t', ran', related⟩ := ih related later ran
      rw [List.filterMap_cons_some shown]
      refine ⟨t', ?_, related⟩
      rw [run, stepped', Option.bind_some]
      exact ran'

end UniSet.Lib.Machine

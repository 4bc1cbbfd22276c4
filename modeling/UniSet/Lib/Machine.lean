/-
**Machines: executable labelled steps, their runs and their invariants.**

A machine has a set of start states and, for every label, a partial step. A label carries every
choice the environment makes (which thread moves, which event is delivered, with which result), so
the step itself is a function and a run is evaluated label by label.

* `run` — the state after a list of labels, `none` when one of them is not enabled.
* `Meets cond` — every step of a run is taken in a state and with a label that satisfy `cond`.
* `Always goal` — every state of a run has the property.
* `Reachable cond` — the states reached by the runs that meet `cond`; `fun _ _ => True` is every run.
* **`run_history`**, **`run_past`**, **`run_invariant`**, **`reachable_invariant`** — what one step
  keeps, a whole run keeps.
* **`meets_of_invariant`** — what one step has, every step of a run has.
* **`exists_run`** — where every admissible step can be taken, so can every run.
* **`run_broken`** — where a run that breaks the condition ends.
* **`meets_iff_meets`** — two properties of steps that an invariant makes the same.
* **`always_iff_meets`** — the runs that keep a property are exactly those that meet a condition;
  `always_iff_meets_within`: so it is among the runs that stay good; `goal_iff_meets`: so it is for the
  last state, where a property once lost is not had again.
-/

import Mathlib.Logic.Basic

namespace UniSet.Lib

/-- **A machine**: its start states, and one partial step for every label. -/
structure Machine (State Label : Type*) where
  start : State → Prop
  step : State → Label → Option State

namespace Machine

variable {State Label : Type*} (M : Machine State Label)

/-- The state after the labels, taken in order. -/
def run : State → List Label → Option State
  | s, [] => some s
  | s, label :: rest => (M.step s label).bind fun t => run t rest

/-- Every step of the run meets `cond` in the state it is taken from. -/
def Meets (cond : State → Label → Prop) : State → List Label → Prop
  | _, [] => True
  | s, label :: rest => cond s label ∧ ∀ t ∈ M.step s label, Meets cond t rest

instance decidableMeets (cond : State → Label → Prop) [∀ s label, Decidable (cond s label)] :
    ∀ s labels, Decidable (M.Meets cond s labels)
  | _, [] => inferInstanceAs (Decidable True)
  | s, label :: rest =>
    have := fun t => decidableMeets cond t rest
    inferInstanceAs (Decidable (cond s label ∧ ∀ t ∈ M.step s label, M.Meets cond t rest))

/-- Every state the run passes through, its first one included, has the property. -/
def Always (goal : State → Prop) : State → List Label → Prop
  | s, [] => goal s
  | s, label :: rest => goal s ∧ ∀ t ∈ M.step s label, Always goal t rest

/-- The states reached from a start state by a run whose steps all meet `cond`. -/
def Reachable (cond : State → Label → Prop) (t : State) : Prop :=
  ∃ s labels, M.start s ∧ M.Meets cond s labels ∧ M.run s labels = some t

variable {M} {cond : State → Label → Prop} {s t : State}

theorem run_cons {label : Label} {rest : List Label} (ran : M.run s (label :: rest) = some t) :
    ∃ u, M.step s label = some u ∧ M.run u rest = some t :=
  Option.bind_eq_some_iff.mp ran

theorem run_concat (labels : List Label) (label : Label) :
    M.run s (labels ++ [label]) = (M.run s labels).bind fun t => M.step t label := by
  induction labels generalizing s with
  | nil =>
    rw [List.nil_append, run, run, Option.bind_some]
    cases M.step s label <;> rfl
  | cons first rest ih =>
    rw [List.cons_append, run, run, Option.bind_assoc]
    congr 1
    funext u
    exact ih

theorem run_append (labels more : List Label) :
    M.run s (labels ++ more) = (M.run s labels).bind fun t => M.run t more := by
  induction labels generalizing s with
  | nil => rfl
  | cons first rest ih =>
    rw [List.cons_append, run, run, Option.bind_assoc]
    congr 1
    funext u
    exact ih

variable {labels : List Label} {P : State → Prop}

/-- The last step of a run that meets the condition. -/
theorem Meets.last {label : Label} (meets : M.Meets cond s (labels ++ [label]))
    (ran : M.run s labels = some t) : cond t label := by
  induction labels generalizing s with
  | nil =>
    cases ran
    exact meets.1
  | cons first rest ih =>
    obtain ⟨u, stepped, ran⟩ := run_cons ran
    exact ih (meets.2 u stepped) ran

/-- The first part of a run that meets the condition. -/
theorem Meets.past {more : List Label} (meets : M.Meets cond s (labels ++ more)) :
    M.Meets cond s labels := by
  induction labels generalizing s with
  | nil => trivial
  | cons first rest ih => exact ⟨meets.1, fun t stepped => ih (meets.2 t stepped)⟩

/-- A condition that every state and label of a run has. -/
theorem meets_of_forall (all : ∀ s, ∀ label ∈ labels, cond s label) : M.Meets cond s labels := by
  induction labels generalizing s with
  | nil => trivial
  | cons label rest ih =>
    exact ⟨all s label List.mem_cons_self, fun _ _ => ih fun s l member => all s l (List.mem_cons_of_mem _ member)⟩

theorem meets_true (labels : List Label) : M.Meets (fun _ _ => True) s labels :=
  meets_of_forall fun _ _ _ => trivial

/-- **The history rule.** What every admissible step keeps between the state and a record of the
labels taken so far, a run keeps. -/
theorem run_history {A : Type*} {P : A → State → Prop} (record : A → Label → A)
    (keeps : ∀ a s label t, P a s → cond s label → M.step s label = some t → P (record a label) t)
    {a : A} (initially : P a s) (meets : M.Meets cond s labels) (ran : M.run s labels = some t) :
    P (labels.foldl record a) t := by
  induction labels generalizing s a with
  | nil =>
    cases ran
    exact initially
  | cons label rest ih =>
    obtain ⟨u, stepped, ran⟩ := run_cons ran
    exact ih (keeps a s label u initially meets.1 stepped) (meets.2 u stepped) ran

/-- **The history rule for the labels themselves.** -/
theorem run_past {P : List Label → State → Prop}
    (keeps : ∀ past s label t, P past s → cond s label → M.step s label = some t → P (past ++ [label]) t)
    (initially : P [] s) (meets : M.Meets cond s labels) (ran : M.run s labels = some t) :
    P labels t := by
  have whole : labels.foldl (fun past label => past ++ [label]) [] = labels := by
    rw [List.foldl_append_eq_append, List.nil_append, ← List.flatMap_def, List.flatMap_singleton']
  rw [← whole]
  exact run_history _ keeps initially meets ran

/-- **The invariant rule for runs.** What every admissible step keeps, a run keeps. -/
theorem run_invariant (keeps : ∀ s label t, P s → cond s label → M.step s label = some t → P t)
    (initially : P s) (meets : M.Meets cond s labels) (ran : M.run s labels = some t) : P t :=
  run_history (P := fun _ => P) (fun (a : Unit) _ => a) (fun _ => keeps) (a := ()) initially meets ran

/-- **The rule for properties of steps.** Where an invariant and the condition give a property of the
step, every step of a run that meets the condition has it. -/
theorem meets_of_invariant {goal : State → Label → Prop}
    (keeps : ∀ s label t, P s → cond s label → M.step s label = some t → P t)
    (gives : ∀ s label, P s → cond s label → goal s label) (initially : P s)
    (meets : M.Meets cond s labels) : M.Meets goal s labels := by
  induction labels generalizing s with
  | nil => trivial
  | cons label rest ih =>
    refine ⟨gives s label initially meets.1, fun t stepped => ?_⟩
    exact ih (keeps s label t initially meets.1 stepped) (meets.2 t stepped)

/-- **The progress rule.** Where every admissible step can be taken and keeps a property of the labels
taken so far, every run that meets the condition can be taken and has it. -/
theorem exists_run {P : List Label → State → Prop}
    (moves : ∀ past s label, P past s → cond s label →
      ∃ t, M.step s label = some t ∧ P (past ++ [label]) t) (past : List Label)
    (initially : P past s) (meets : M.Meets cond s labels) :
    ∃ t, M.run s labels = some t ∧ P (past ++ labels) t := by
  induction labels generalizing s past with
  | nil => exact ⟨s, rfl, by rwa [List.append_nil]⟩
  | cons label rest ih =>
    obtain ⟨u, stepped, kept⟩ := moves past s label initially meets.1
    obtain ⟨t, ran, held⟩ := ih (past ++ [label]) kept (meets.2 u stepped)
    refine ⟨t, ?_, by rwa [List.append_assoc] at held⟩
    rw [run, stepped]
    exact ran

/-- **The rule for runs that break the condition.** A step that breaks it leaves `Q`, and no step
leads out of `Q` again. -/
theorem run_broken {Q : State → Prop}
    (keeps : ∀ s label t, P s → cond s label → M.step s label = some t → P t)
    (breaks : ∀ s label t, P s → ¬ cond s label → M.step s label = some t → Q t)
    (stays : ∀ s label t, Q s → M.step s label = some t → Q t) (initially : P s)
    (broken : ¬ M.Meets cond s labels) (ran : M.run s labels = some t) : Q t := by
  induction labels generalizing s with
  | nil => exact absurd trivial broken
  | cons label rest ih =>
    obtain ⟨u, stepped, ran⟩ := run_cons ran
    by_cases meets : cond s label
    · refine ih (keeps s label u initially meets stepped) (fun later => broken ⟨meets, ?_⟩) ran
      intro v other
      rw [stepped] at other
      cases other
      exact later
    · exact run_invariant (fun s label t holds _ => stays s label t holds)
        (breaks s label u initially meets stepped) (meets_true rest) ran

/-- **The rule for two properties of steps, within the runs that meet a third.** Where an invariant makes them the
same and a step that has one of them keeps it, the runs whose steps all have the one are those whose steps all have
the other. -/
theorem meets_iff_meets_within {ok goal : State → Label → Prop}
    (same : ∀ s label, P s → ok s label → (goal s label ↔ cond s label))
    (keeps : ∀ s label t, P s → ok s label → goal s label → M.step s label = some t → P t)
    (within : M.Meets ok s labels) (initially : P s) :
    M.Meets goal s labels ↔ M.Meets cond s labels := by
  induction labels generalizing s with
  | nil => exact Iff.rfl
  | cons label rest ih =>
    have here := within.1
    constructor
    · rintro ⟨held, holds⟩
      exact ⟨(same s label initially here).mp held, fun t stepped =>
        (ih (within.2 t stepped) (keeps s label t initially here held stepped)).mp (holds t stepped)⟩
    · rintro ⟨meets, holds⟩
      have held := (same s label initially here).mpr meets
      exact ⟨held, fun t stepped =>
        (ih (within.2 t stepped) (keeps s label t initially here held stepped)).mpr (holds t stepped)⟩

/-- **The rule for two properties of steps**, where the labels have the third. -/
theorem meets_iff_meets {P : State → Prop} {ok : Label → Prop} {goal : State → Label → Prop}
    (same : ∀ s label, P s → ok label → (goal s label ↔ cond s label))
    (keeps : ∀ s label t, P s → ok label → goal s label → M.step s label = some t → P t)
    {labels : List Label} (oks : ∀ label ∈ labels, ok label) (initially : P s) :
    M.Meets goal s labels ↔ M.Meets cond s labels :=
  meets_iff_meets_within same keeps (meets_of_forall fun _ => oks) initially

/-- **The exact rule, within the runs that stay good.** Where an invariant gives the property, a step
that meets the condition keeps the invariant and any other step loses the property, a run of good states
has the property throughout exactly if its steps all meet the condition. -/
theorem always_iff_meets_within {good goal : State → Prop} (gives : ∀ s, P s → goal s)
    (keeps : ∀ s label t, P s → cond s label → M.step s label = some t → good t → P t)
    (loses : ∀ s label, P s → ¬ cond s label → ∃ t, M.step s label = some t ∧ ¬ goal t)
    (within : M.Always good s labels) (initially : P s) :
    M.Always goal s labels ↔ M.Meets cond s labels := by
  induction labels generalizing s with
  | nil => exact iff_of_true (gives s initially) trivial
  | cons label rest ih =>
    have first : ∀ t ∈ M.step s label, good t := by
      intro t stepped
      have here := within.2 t stepped
      cases rest with
      | nil => exact here
      | cons _ _ => exact here.1
    constructor
    · rintro ⟨-, later⟩
      have meets : cond s label := by
        refine Classical.byContradiction fun broken => ?_
        obtain ⟨t, stepped, lost⟩ := loses s label initially broken
        have held := later t stepped
        cases rest with
        | nil => exact lost held
        | cons _ _ => exact lost held.1
      exact ⟨meets, fun t stepped => (ih (within.2 t stepped)
        (keeps s label t initially meets stepped (first t stepped))).mp (later t stepped)⟩
    · rintro ⟨meets, later⟩
      exact ⟨gives s initially, fun t stepped => (ih (within.2 t stepped)
        (keeps s label t initially meets stepped (first t stepped))).mpr (later t stepped)⟩

/-- **The exact rule for the last state.** Where every step that meets the condition keeps an invariant, and
the property holds after it exactly if it held before and the step is good, the property holds at the end of a
run exactly if all its steps are good. -/
theorem goal_iff_meets {goal : State → Prop} {good : State → Label → Prop}
    (step : ∀ s label t, P s → cond s label → M.step s label = some t →
      P t ∧ (goal t ↔ goal s ∧ good s label)) (initially : P s) (meets : M.Meets cond s labels)
    (ran : M.run s labels = some t) :
    goal t ↔ goal s ∧ M.Meets good s labels := by
  induction labels generalizing s with
  | nil =>
    cases ran
    exact (and_iff_left trivial).symm
  | cons label rest ih =>
    obtain ⟨u, stepped, ran⟩ := run_cons ran
    obtain ⟨kept, here⟩ := step s label u initially meets.1 stepped
    rw [ih kept (meets.2 u stepped) ran, here, and_assoc]
    refine and_congr_right fun _ => and_congr_right fun _ => ⟨fun later v other => ?_, fun all => all u stepped⟩
    rw [stepped] at other
    cases other
    exact later

theorem always_true (labels : List Label) : M.Always (fun _ => True) s labels := by
  induction labels generalizing s with
  | nil => trivial
  | cons label rest ih => exact ⟨trivial, fun _ _ => ih⟩

/-- **The exact rule.** Where an invariant gives the property, a step that meets the condition keeps
the invariant and any other step loses the property, a run has the property throughout exactly if its
steps all meet the condition. -/
theorem always_iff_meets {goal : State → Prop} (gives : ∀ s, P s → goal s)
    (keeps : ∀ s label t, P s → cond s label → M.step s label = some t → P t)
    (loses : ∀ s label, P s → ¬ cond s label → ∃ t, M.step s label = some t ∧ ¬ goal t)
    (initially : P s) :
    M.Always goal s labels ↔ M.Meets cond s labels :=
  always_iff_meets_within gives
    (fun s label t held meets stepped (_ : True) => keeps s label t held meets stepped) loses
    (always_true labels) initially

/-- **The invariant rule for reachable states.** -/
theorem reachable_invariant (initially : ∀ s, M.start s → P s)
    (keeps : ∀ s label t, P s → cond s label → M.step s label = some t → P t)
    (reached : M.Reachable cond t) : P t := by
  obtain ⟨s, labels, started, meets, ran⟩ := reached
  exact run_invariant keeps (initially s started) meets ran

/-- A run from a start state reaches its last state. -/
theorem reachable_of_run (started : M.start s) (ran : M.run s labels = some t) :
    M.Reachable (fun _ _ => True) t :=
  ⟨s, labels, started, meets_true labels, ran⟩

end Machine

end UniSet.Lib

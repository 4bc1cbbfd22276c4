/-
**A signal that follows its input once the input has held.**

* `outputs` — what a machine with outputs answers to a list of inputs; **`outputs_eq`** — two machines
  that a relation ties together step by step answer alike.
* `Hold` — the automaton of a delayed signal: its output, the level of the input and the time since
  which the input has had it. `due v since now` says when a level `v` has held for long enough.
* **`after_run_iff`** — over a run of equal samples the output is the level of the run from the first
  sample on that is due, counted from the run's first sample, and not before.
-/

import Mathlib.Data.List.Basic

namespace UniSet.Lib

/-! ### Machines with outputs -/

section Outputs

variable {State State' Input Output : Type*}

/-- The answers to the inputs, taken in order. -/
def outputs (step : State → Input → Output × State) : State → List Input → List Output
  | _, [] => []
  | s, input :: rest => (step s input).1 :: outputs step (step s input).2 rest

/-- **The simulation rule for outputs.** -/
theorem outputs_eq {step : State → Input → Output × State}
    {step' : State' → Input → Output × State'} (R : State → State' → Prop)
    (keeps : ∀ s t input, R s t →
      (step s input).1 = (step' t input).1 ∧ R (step s input).2 (step' t input).2)
    {s : State} {t : State'} (initially : R s t) (inputs : List Input) :
    outputs step s inputs = outputs step' t inputs := by
  induction inputs generalizing s t with
  | nil => rfl
  | cons input rest ih =>
    obtain ⟨same, tied⟩ := keeps s t input initially
    rw [outputs, outputs, same, ih tied]

end Outputs

/-! ### The delayed signal -/

/-- **The state of a delayed signal.** -/
structure Hold (Time : Type*) where
  out : Bool
  /-- The level of the input. -/
  level : Bool
  /-- The time of the first sample with this level. -/
  since : Time
deriving DecidableEq, Repr

namespace Hold

variable {Time : Type*} (due : Bool → Time → Time → Bool)

/-- Before the first sample: a signal of zeros. -/
def init (start : Time) : Hold Time := ⟨false, false, start⟩

/-- The beginning of the run the sample belongs to. -/
def begin (h : Hold Time) (s : Time × Bool) : Time := if s.2 = h.level then h.since else s.1

/-- **One sample**: the new output and the state. -/
def sample (h : Hold Time) (s : Time × Bool) : Bool × Hold Time :=
  let out := if s.2 ≠ h.out ∧ due s.2 (h.begin s) s.1 then s.2 else h.out
  (out, ⟨out, s.2, h.begin s⟩)

/-- The state after the samples. -/
def after (h : Hold Time) (samples : List (Time × Bool)) : Hold Time :=
  samples.foldl (fun h s => (h.sample due s).2) h

variable {due} {h : Hold Time} {v : Bool}

/-- A sample of the level `v` makes the output `v` if it is due. -/
theorem sample_out_iff (t : Time) :
    ((h.sample due (t, v)).2.out = v) ↔ h.out = v ∨ due v (h.begin (t, v)) t = true := by
  show (if v ≠ h.out ∧ due v (h.begin (t, v)) t then v else h.out) = v ↔ _
  by_cases here : h.out = v
  · rw [if_neg fun moved => moved.1 here.symm]
    exact ⟨Or.inl, fun _ => here⟩
  · by_cases elapsed : due v (h.begin (t, v)) t = true
    · rw [if_pos ⟨Ne.symm here, elapsed⟩]
      exact ⟨fun _ => Or.inr elapsed, fun _ => rfl⟩
    · rw [if_neg fun moved => elapsed moved.2]
      exact ⟨Or.inl, fun either => either.resolve_right elapsed⟩

/-- **A run of equal samples**, counted from the beginning of the run its first sample belongs to. -/
theorem after_cons_iff {first : Time × Bool} {run : List (Time × Bool)}
    (same : ∀ s ∈ first :: run, s.2 = v) :
    (h.after due (first :: run)).out = v ↔
      h.out = v ∨ ∃ s ∈ first :: run, due v (h.begin first) s.1 = true := by
  induction run generalizing h first with
  | nil =>
    obtain ⟨t, w⟩ := first
    obtain rfl : w = v := same (t, w) List.mem_cons_self
    have one : ((h.sample due (t, w)).2.out = w) ↔ h.out = w ∨ due w (h.begin (t, w)) t = true :=
      sample_out_iff t
    simpa [after] using one
  | cons s rest ih =>
    obtain ⟨t, w⟩ := first
    obtain rfl : w = v := same (t, w) List.mem_cons_self
    have level : s.2 = w := same s (List.mem_cons_of_mem _ List.mem_cons_self)
    have next : ((h.sample due (t, w)).2.after due (s :: rest)).out = w ↔
        (h.sample due (t, w)).2.out = w ∨
          ∃ x ∈ s :: rest, due w ((h.sample due (t, w)).2.begin s) x.1 = true :=
      ih fun x mem => same x (List.mem_cons_of_mem _ mem)
    have began : (h.sample due (t, w)).2.begin s = h.begin (t, w) := if_pos level
    rw [began, sample_out_iff] at next
    show ((h.sample due (t, w)).2.after due (s :: rest)).out = w ↔ _
    rw [next, or_assoc, List.exists_mem_cons_iff (a := (t, w))]

/-- The last answer is the output after the samples. -/
theorem getLast?_outputs (h : Hold Time) (samples : List (Time × Bool)) :
    (outputs (sample due) h samples).getLast?.getD h.out = (h.after due samples).out := by
  induction samples generalizing h with
  | nil => rfl
  | cons s rest ih =>
    have next := ih (h.sample due s).2
    rw [outputs, List.getLast?_cons, Option.getD_some]
    exact next

theorem after_append (past more : List (Time × Bool)) :
    h.after due (past ++ more) = (h.after due past).after due more := List.foldl_append

theorem level_after (past : List (Time × Bool)) (s : Time × Bool) (last : s ∈ past.getLast?) :
    (h.after due past).level = s.2 := by
  obtain ⟨front, rfl⟩ := List.getLast?_eq_some_iff.mp last
  rw [after_append]
  rfl

/-- **The law of the delayed signal.** A run of samples of the level `v`, with no sample of this level
before it, has the output `v` if the output was `v` before the run or one of its samples is due,
counted from the first one. -/
theorem after_run_iff {start : Time} {past run : List (Time × Bool)} {first : Time × Bool}
    (same : ∀ s ∈ first :: run, s.2 = v) (fresh : ∀ s ∈ past.getLast?, s.2 ≠ v) :
    ((init start).after due (past ++ first :: run)).out = v ↔
      ((init start).after due past).out = v ∨ ∃ s ∈ first :: run, due v first.1 s.1 = true := by
  rw [after_append, after_cons_iff same]
  rcases List.eq_nil_or_concat past with rfl | ⟨front, last, rfl⟩
  · cases v with
    | false => exact iff_of_true (Or.inl rfl) (Or.inl rfl)
    | true =>
      have high : first.2 = true := same first List.mem_cons_self
      have began : ((init start).after due []).begin first = first.1 :=
        if_neg (by rw [high]; exact Bool.noConfusion)
      rw [began]
  · rw [List.concat_eq_append] at fresh ⊢
    have moved : first.2 ≠ ((init start).after due (front ++ [last])).level := by
      rw [level_after _ last List.getLast?_concat, same first List.mem_cons_self]
      exact (fresh last List.getLast?_concat).symm
    have began : ((init start).after due (front ++ [last])).begin first = first.1 := if_neg moved
    rw [began]

end Hold

end UniSet.Lib

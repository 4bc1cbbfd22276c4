/-
**A trigger with several outputs, of which one is active.**

`TriggerOUT` reports every change of an output to its owner, and first sets the other outputs to zero.

* `TriggerOUT` — the outputs in the order of the map and their values; `add`, `remove`, `set`, `resetOuts`,
  `update` and `reset` as in the source, with the calls of the action they make.
* `report` — the last reported values after a call of the action.
* `Exclusive` — at no moment of a call two outputs have a value other than zero reported, and after it the
  outputs have their values reported.
* **`exclusive_iff`** — the calls of a run are all exclusive exactly if none of them sets another output while an
  output that is removed has a value other than zero reported.
-/

import Mathlib.Algebra.Ring.Int.Defs
import Mathlib.Data.List.Infix
import Mathlib.Logic.Function.Basic
import UniSet.Lib.Machine

namespace UniSet

open Lib (Machine)

set_option linter.unusedSectionVars false

/-- **`TriggerOUT`**: the outputs, in the order in which the map is gone through, and their values. -/
structure TriggerOUT (Out V : Type*) where
  keys : List Out
  val : Out → V

variable {Out V : Type*} [DecidableEq Out] [Zero V] [DecidableEq V]

namespace TriggerOUT

/-- What a function leaves, and the calls of the action it makes. -/
abbrev Done (Out V : Type*) := TriggerOUT Out V × List (Out × V)

/-- The loop of `resetOuts`. -/
def resetLoop (outIgnore : Out) : List Out → (Out → V) → (Out → V) × List (Out × V)
  | [], val => (val, [])
  | out :: rest, val =>
    if out ≠ outIgnore ∧ val out ≠ 0 then
      let later := resetLoop outIgnore rest (Function.update val out 0)
      (later.1, (out, 0) :: later.2)
    else resetLoop outIgnore rest val

/-- **`resetOuts`.** -/
def resetOuts (t : TriggerOUT Out V) (outIgnore : Out) : Done Out V :=
  let looped := resetLoop outIgnore t.keys t.val
  (⟨t.keys, looped.1⟩, looped.2)

/-- **`set`.** -/
def set (t : TriggerOUT Out V) (out : Out) (val : V) : Done Out V :=
  if out ∉ t.keys then (t, [])
  else
    let r := t.resetOuts out
    let prev := r.1.val out
    (⟨t.keys, Function.update r.1.val out val⟩, r.2 ++ if prev ≠ val then [(out, val)] else [])

/-- The map in another order, if that has the same outputs. -/
def inOrder (t : TriggerOUT Out V) (order : List Out) : TriggerOUT Out V :=
  if order.Perm t.keys then { t with keys := order } else t

/-- **`add`**: the value is in the map before `set` is called. -/
def add (t : TriggerOUT Out V) (order : List Out) (num : Out) (val : V) : Done Out V :=
  let t : TriggerOUT Out V := inOrder ⟨t.keys.insert num, Function.update t.val num val⟩ order
  let s := t.set num val
  let r := s.1.resetOuts num
  (r.1, s.2 ++ r.2 ++ [(num, val)])

/-- **`remove`.** -/
def remove (t : TriggerOUT Out V) (num : Out) : Done Out V :=
  ({ t with keys := t.keys.filter fun out => out ≠ num }, [])

/-- **`update`.** -/
def update (t : TriggerOUT Out V) : Done Out V := (t, t.keys.map fun out => (out, t.val out))

/-- **`reset`.** -/
def reset (t : TriggerOUT Out V) : Done Out V :=
  (⟨t.keys, fun out => if out ∈ t.keys then 0 else t.val out⟩, t.keys.map fun out => (out, 0))

/-- The calls for a trigger. -/
inductive Op (Out V : Type*)
  | add (num : Out) (val : V)
  | set (out : Out) (val : V)
  | remove (num : Out)
  | update
  | reset

/-- A call, with the order of the map that it finds. -/
structure Call (Out V : Type*) where
  op : Op Out V
  order : List Out

/-- A call for a trigger. -/
def call (t : TriggerOUT Out V) (c : Call Out V) : Done Out V :=
  match c.op with
  | .add num val => t.add c.order num val
  | .set out val => (t.inOrder c.order).set out val
  | .remove num => (t.inOrder c.order).remove num
  | .update => (t.inOrder c.order).update
  | .reset => (t.inOrder c.order).reset

/-! ### What is reported -/

/-- The last reported values after a call of the action. -/
def report (reported : Out → V) (a : Out × V) : Out → V := Function.update reported a.1 a.2

/-- No two outputs have a value other than zero. -/
def AtMostOne (reported : Out → V) : Prop := ∀ a b, reported a ≠ 0 → reported b ≠ 0 → a = b

/-- A trigger, and what it has reported last of each output. -/
structure Run (Out V : Type*) where
  trigger : TriggerOUT Out V
  reported : Out → V

/-- **The calls for a trigger**, from one without outputs on. -/
def machine : Machine (Run Out V) (Call Out V) where
  start r := r.trigger.keys = [] ∧ ∀ out, r.reported out = 0
  step r c :=
    let done := r.trigger.call c
    some ⟨done.1, done.2.foldl report r.reported⟩

/-- **A call that shows no two active outputs**, at no moment, and after which the outputs have their values
reported. -/
structure Exclusive (r : Run Out V) (c : Call Out V) : Prop where
  moments : ∀ past, past <+: (r.trigger.call c).2 → AtMostOne (past.foldl report r.reported)
  shown : ∀ out ∈ (r.trigger.call c).1.keys,
    (r.trigger.call c).2.foldl report r.reported out = (r.trigger.call c).1.val out

/-- An output that is set by a call to a value other than zero. -/
def Activates (r : Run Out V) (c : Call Out V) (out : Out) : Prop :=
  match c.op with
  | .add num val => num = out ∧ val ≠ 0
  | .set num val => num = out ∧ num ∈ r.trigger.keys ∧ val ≠ 0
  | _ => False

/-- **No removed output is left active** where another one is set. -/
def NoneLeft (r : Run Out V) (c : Call Out V) : Prop :=
  ∀ out, Activates r c out → ∀ other, other ≠ out → other ∉ r.trigger.keys → r.reported other = 0

section Reports

variable {reported : Out → V} {acts past : List (Out × V)}

/-- Zeros that are reported leave no more outputs active. -/
theorem atMostOne_zeros (zeros : ∀ a ∈ acts, a.2 = 0) (one : AtMostOne reported) :
    AtMostOne (acts.foldl report reported) := by
  induction acts generalizing reported with
  | nil => exact one
  | cons a rest ih =>
    refine ih (fun x member => zeros x (List.mem_cons_of_mem _ member)) fun b c hb hc => ?_
    have zero : a.2 = 0 := zeros a List.mem_cons_self
    rw [report, zero] at hb hc
    have other : ∀ {x}, Function.update reported a.1 0 x ≠ 0 → reported x ≠ 0 := by
      intro x active
      by_cases own : x = a.1
      · rw [own, Function.update_self] at active
        exact absurd rfl active
      · rwa [Function.update_of_ne own] at active
    exact one b c (other hb) (other hc)

/-- Values that are reported already change nothing. -/
theorem foldl_report_same (same : ∀ a ∈ acts, reported a.1 = a.2) : acts.foldl report reported = reported := by
  induction acts with
  | nil => rfl
  | cons a rest ih =>
    have here : report reported a = reported := by
      rw [report, ← same a List.mem_cons_self]
      exact Function.update_eq_self _ _
    rw [List.foldl_cons, here]
    exact ih fun x member => same x (List.mem_cons_of_mem _ member)

/-- **After zeros a last report decides.** -/
theorem moments_iff {last : List (Out × V)} (zeros : ∀ a ∈ acts, a.2 = 0) (short : last.length ≤ 1)
    (one : AtMostOne reported) :
    (∀ past, past <+: acts ++ last → AtMostOne (past.foldl report reported)) ↔
      AtMostOne ((acts ++ last).foldl report reported) := by
  refine ⟨fun all => all _ (List.prefix_refl _), fun whole past start => ?_⟩
  have early : past <+: acts → AtMostOne (past.foldl report reported) := fun inside =>
    atMostOne_zeros (fun a member => zeros a (inside.subset member)) one
  cases last with
  | nil =>
    rw [List.append_nil] at start
    exact early start
  | cons x more =>
    obtain rfl : more = [] := List.eq_nil_of_length_eq_zero (by simpa using short)
    rcases List.prefix_concat_iff.mp start with same | inside
    · rw [same]
      exact whole
    · exact early inside

end Reports

/-! ### The loop -/

section Loop

variable {outIgnore : Out} {keys : List Out} {val reported : Out → V}

/-- The values after all outputs but one are set to zero. -/
def othersZero (outIgnore : Out) (keys : List Out) (val : Out → V) : Out → V :=
  fun out => if out ∈ keys ∧ out ≠ outIgnore then 0 else val out

theorem resetLoop_zeros : ∀ a ∈ (resetLoop outIgnore keys val).2, a.2 = 0 := by
  induction keys generalizing val with
  | nil => exact fun _ member => absurd member List.not_mem_nil
  | cons out rest ih =>
    rw [resetLoop]
    split
    · intro a member
      rcases List.mem_cons.mp member with rfl | later
      · rfl
      · exact ih a later
    · exact ih

/-- **The loop sets the others to zero**, in the map and for the owner. -/
theorem resetLoop_eq (shown : ∀ out ∈ keys, out ≠ outIgnore → reported out = val out) :
    (resetLoop outIgnore keys val).1 = othersZero outIgnore keys val ∧
      (resetLoop outIgnore keys val).2.foldl report reported = othersZero outIgnore keys reported := by
  induction keys generalizing val reported with
  | nil => exact ⟨rfl, rfl⟩
  | cons out rest ih =>
    rw [resetLoop]
    by_cases active : out ≠ outIgnore ∧ val out ≠ 0
    · have zeroed : ∀ f : Out → V, othersZero outIgnore rest (Function.update f out 0) =
          othersZero outIgnore (out :: rest) f := by
        intro f
        funext x
        by_cases own : x = out
        · subst own
          simp [othersZero, active.1]
        · simp [othersZero, own]
      rw [if_pos active, ← zeroed, ← zeroed]
      refine ih fun x member other => ?_
      by_cases own : x = out
      · rw [own, report, Function.update_self, Function.update_self]
      · rw [report, Function.update_of_ne own, Function.update_of_ne own]
        exact shown x (List.mem_cons_of_mem _ member) other
    · have kept : ∀ f : Out → V, (out ≠ outIgnore → f out = 0) →
          othersZero outIgnore rest f = othersZero outIgnore (out :: rest) f := by
        intro f zero
        funext x
        by_cases own : x = out
        · subst own
          by_cases ignored : x = outIgnore
          · simp [othersZero, ignored]
          · simp [othersZero, ignored, zero ignored]
        · simp [othersZero, own]
      have zero : out ≠ outIgnore → val out = 0 := fun other => by
        by_contra nonzero
        exact active ⟨other, nonzero⟩
      rw [if_neg active, ← kept val zero, ← kept reported fun other =>
        (shown out List.mem_cons_self other).trans (zero other)]
      exact ih fun x member other => shown x (List.mem_cons_of_mem _ member) other

/-- Where the others are zero the loop does nothing. -/
theorem resetLoop_idle (zero : ∀ out ∈ keys, out ≠ outIgnore → val out = 0) :
    resetLoop outIgnore keys val = (val, []) := by
  induction keys with
  | nil => rfl
  | cons out rest ih =>
    rw [resetLoop, if_neg fun active => active.2 (zero out List.mem_cons_self active.1)]
    exact ih fun x member => zero x (List.mem_cons_of_mem _ member)

end Loop

/-! ### One call -/

section Calls

variable {t : TriggerOUT Out V} {reported : Out → V} {out : Out} {val : V}

/-- Where an output has been set after the others. -/
theorem atMostOne_set_iff {keys : List Out} (one : AtMostOne reported) :
    AtMostOne (Function.update (othersZero out keys reported) out val) ↔
      (val ≠ 0 → ∀ other, other ≠ out → other ∉ keys → reported other = 0) := by
  have elsewhere : ∀ {x}, x ≠ out →
      (Function.update (othersZero out keys reported) out val x ≠ 0 ↔ x ∉ keys ∧ reported x ≠ 0) := by
    intro x other
    rw [Function.update_of_ne other, othersZero]
    by_cases member : x ∈ keys
    · rw [if_pos ⟨member, other⟩]
      exact iff_of_false (fun nonzero => nonzero rfl) fun outside => outside.1 member
    · rw [if_neg fun inside => member inside.1]
      exact (and_iff_right member).symm
  constructor
  · intro single active other ne outside
    by_contra nonzero
    refine ne (single other out ((elsewhere ne).mpr ⟨outside, nonzero⟩) ?_)
    rwa [Function.update_self]
  · intro left a b ha hb
    by_cases aOut : a = out
    · by_cases bOut : b = out
      · rw [aOut, bOut]
      · have nonzero := (elsewhere bOut).mp hb
        rw [aOut, Function.update_self] at ha
        exact absurd (left ha b bOut nonzero.1) nonzero.2
    · have nonzero := (elsewhere aOut).mp ha
      by_cases bOut : b = out
      · rw [bOut, Function.update_self] at hb
        exact absurd (left hb a aOut nonzero.1) nonzero.2
      · exact one a b nonzero.2 ((elsewhere bOut).mp hb).2

theorem mem_inOrder (t : TriggerOUT Out V) (order : List Out) :
    (∀ x, x ∈ (t.inOrder order).keys ↔ x ∈ t.keys) ∧ (t.inOrder order).val = t.val := by
  rw [inOrder]
  split
  · next perm => exact ⟨fun x => perm.mem_iff, rfl⟩
  · exact ⟨fun x => Iff.rfl, rfl⟩

/-- What the calls of the action leave reported, and the values in the map. -/
structure Sets (t : TriggerOUT Out V) (reported : Out → V) (out : Out) (val : V) (done : Done Out V) : Prop where
  keys : done.1.keys = t.keys
  values : done.1.val = Function.update (othersZero out t.keys t.val) out val
  shown : done.2.foldl report reported = Function.update (othersZero out t.keys reported) out val
  zeros : ∃ acts last, done.2 = acts ++ last ∧ (∀ a ∈ acts, a.2 = 0) ∧ last.length ≤ 1

/-- **`set`** of an output that is in the map. -/
theorem set_eq (member : out ∈ t.keys) (val : V) : t.set out val =
    (⟨t.keys, Function.update (othersZero out t.keys t.val) out val⟩,
      (resetLoop out t.keys t.val).2 ++ if t.val out ≠ val then [(out, val)] else []) := by
  have values : (resetLoop out t.keys t.val).1 = othersZero out t.keys t.val :=
    (resetLoop_eq (fun _ _ _ => rfl : ∀ x ∈ t.keys, x ≠ out → t.val x = t.val x)).1
  have prev : othersZero out t.keys t.val out = t.val out := if_neg fun inside => inside.2 rfl
  rw [set, if_neg (not_not_intro member)]
  show (TriggerOUT.mk t.keys (Function.update (resetLoop out t.keys t.val).1 out val),
    (resetLoop out t.keys t.val).2 ++ if (resetLoop out t.keys t.val).1 out ≠ val then [(out, val)] else []) = _
  rw [values, prev]

theorem set_sets (member : out ∈ t.keys) (shown : ∀ x ∈ t.keys, reported x = t.val x) (val : V) :
    Sets t reported out val (t.set out val) := by
  rw [set_eq member]
  have short : (if t.val out ≠ val then [(out, val)] else []).length ≤ 1 := by
    split
    · exact Nat.le_refl 1
    · exact Nat.zero_le 1
  refine ⟨rfl, rfl, ?_, _, _, rfl, resetLoop_zeros, short⟩
  rw [List.foldl_append, (resetLoop_eq fun x inside _ => shown x inside).2]
  by_cases same : t.val out = val
  · have kept : othersZero out t.keys reported out = val := by
      rw [othersZero, if_neg fun inside => inside.2 rfl, shown out member, same]
    rw [if_neg (not_not_intro same), List.foldl_nil, ← kept, Function.update_eq_self]
  · rw [if_pos same]
    rfl

/-- **`add`**: `set` finds the value in the map already, and the action is called at the end. -/
theorem add_sets (order : List Out) (num : Out) (val : V) (shown : ∀ x ∈ t.keys, reported x = t.val x) :
    Sets (inOrder ⟨t.keys.insert num, Function.update t.val num val⟩ order) reported num val
      (t.add order num val) := by
  have added : t.add order num val =
      (let t := inOrder ⟨t.keys.insert num, Function.update t.val num val⟩ order
      (((t.set num val).1.resetOuts num).1,
        (t.set num val).2 ++ ((t.set num val).1.resetOuts num).2 ++ [(num, val)])) := rfl
  have same := mem_inOrder ⟨t.keys.insert num, Function.update t.val num val⟩ order
  rw [added]
  generalize inOrder ⟨t.keys.insert num, Function.update t.val num val⟩ order = u at same ⊢
  obtain ⟨members, values⟩ := same
  have member : num ∈ u.keys := (members num).mpr List.mem_insert_self
  have own : u.val num = val := by
    rw [values]
    exact Function.update_self _ _ _
  have idle : (TriggerOUT.mk u.keys (Function.update (othersZero num u.keys u.val) num val)).resetOuts num =
      (⟨u.keys, Function.update (othersZero num u.keys u.val) num val⟩, []) := by
    have nothing : resetLoop num u.keys (Function.update (othersZero num u.keys u.val) num val) =
        (Function.update (othersZero num u.keys u.val) num val, []) := resetLoop_idle fun x inside other => by
      rw [Function.update_of_ne other, othersZero, if_pos ⟨inside, other⟩]
    rw [resetOuts, nothing]
  dsimp only
  rw [set_eq member, if_neg (not_not_intro own), idle, List.append_nil, List.append_nil]
  refine ⟨rfl, rfl, ?_, _, _, rfl, resetLoop_zeros, Nat.le_refl 1⟩
  rw [List.foldl_append, (resetLoop_eq fun x inside other => ?_).2]
  · rfl
  · have old : x ∈ t.keys := by
      have inserted := (members x).mp inside
      exact (List.mem_insert_iff.mp inserted).resolve_left other
    rw [shown x old, values]
    exact (Function.update_of_ne other _ _).symm

/-- **What a call that sets an output shows.** -/
theorem Sets.exclusive_left_iff {done : Done Out V} (sets : Sets t reported out val done) (one : AtMostOne reported) :
    ((∀ past, past <+: done.2 → AtMostOne (past.foldl report reported)) ∧
      ∀ x ∈ done.1.keys, done.2.foldl report reported x = done.1.val x) ↔
      (val ≠ 0 → ∀ other, other ≠ out → other ∉ t.keys → reported other = 0) := by
  obtain ⟨acts, last, parts, zeros, short⟩ := sets.zeros
  have moments : (∀ past, past <+: done.2 → AtMostOne (past.foldl report reported)) ↔
      AtMostOne (done.2.foldl report reported) := by
    rw [parts]
    exact moments_iff zeros short one
  have values : ∀ x ∈ done.1.keys, done.2.foldl report reported x = done.1.val x := by
    intro x inside
    rw [sets.keys] at inside
    rw [sets.shown, sets.values]
    by_cases own : x = out
    · rw [own, Function.update_self, Function.update_self]
    · rw [Function.update_of_ne own, Function.update_of_ne own, othersZero, othersZero,
        if_pos ⟨inside, own⟩, if_pos ⟨inside, own⟩]
  rw [and_iff_left values, moments, sets.shown]
  exact atMostOne_set_iff one

/-- **What exclusive calls keep.** -/
structure Shown (r : Run Out V) : Prop where
  one : AtMostOne r.reported
  values : ∀ out ∈ r.trigger.keys, r.reported out = r.trigger.val out

variable {r : Run Out V}

theorem Shown.inOrder (shown : Shown r) (order : List Out) :
    ∀ x ∈ (r.trigger.inOrder order).keys, r.reported x = (r.trigger.inOrder order).val x := by
  obtain ⟨members, values⟩ := mem_inOrder r.trigger order
  intro x inside
  rw [values]
  exact shown.values x ((members x).mp inside)

theorem exclusive_and {c : Call Out V} : Exclusive r c ↔
    (∀ past, past <+: (r.trigger.call c).2 → AtMostOne (past.foldl report r.reported)) ∧
      ∀ out ∈ (r.trigger.call c).1.keys,
        (r.trigger.call c).2.foldl report r.reported out = (r.trigger.call c).1.val out :=
  ⟨fun exclusive => ⟨exclusive.moments, exclusive.shown⟩, fun both => ⟨both.1, both.2⟩⟩

/-- A call that reports what is reported already. -/
theorem exclusive_of_same {c : Call Out V} (one : AtMostOne r.reported)
    (same : ∀ a ∈ (r.trigger.call c).2, r.reported a.1 = a.2)
    (values : ∀ x ∈ (r.trigger.call c).1.keys, r.reported x = (r.trigger.call c).1.val x) :
    Exclusive r c where
  moments past start := by
    rw [foldl_report_same fun a member => same a (start.subset member)]
    exact one
  shown := by
    rw [foldl_report_same same]
    exact values

/-- An output that no call of the action is about. -/
theorem foldl_report_other {keys : List Out} {f : Out → V} {x : Out} (outside : x ∉ keys) :
    (keys.map fun out => (out, (0 : V))).foldl report f x = f x := by
  induction keys generalizing f with
  | nil => rfl
  | cons y more ih =>
    have other : x ≠ y := fun same => outside (by rw [same]; exact List.mem_cons_self)
    rw [List.map_cons, List.foldl_cons, ih fun inside => outside (List.mem_cons_of_mem _ inside)]
    exact Function.update_of_ne other _ _

theorem foldl_report_zero {keys : List Out} {f : Out → V} {x : Out} (inside : x ∈ keys) :
    (keys.map fun out => (out, (0 : V))).foldl report f x = 0 := by
  induction keys generalizing f with
  | nil => exact absurd inside List.not_mem_nil
  | cons y more ih =>
    rw [List.map_cons, List.foldl_cons]
    by_cases later : x ∈ more
    · exact ih later
    · obtain rfl := (List.mem_cons.mp inside).resolve_right later
      rw [foldl_report_other later]
      exact Function.update_self _ _ _

/-- **`reset`.** -/
theorem exclusive_reset (shown : Shown r) (order : List Out) : Exclusive r ⟨.reset, order⟩ := by
  have zeros : ∀ a ∈ (r.trigger.inOrder order).reset.2, a.2 = 0 := by
    intro a member
    obtain ⟨x, -, rfl⟩ := List.mem_map.mp member
    rfl
  refine ⟨fun past start => atMostOne_zeros (fun a member => zeros a (start.subset member)) shown.one, ?_⟩
  intro x inside
  have value : (r.trigger.inOrder order).reset.1.val x = 0 := if_pos inside
  exact (foldl_report_zero inside).trans value.symm

/-- **Which calls are exclusive.** -/
theorem exclusive_call_iff (shown : Shown r) (c : Call Out V) : Exclusive r c ↔ NoneLeft r c := by
  obtain ⟨op, order⟩ := c
  obtain ⟨members, values⟩ := mem_inOrder r.trigger order
  cases op with
  | add num val =>
    obtain ⟨inserted, -⟩ := mem_inOrder ⟨r.trigger.keys.insert num, Function.update r.trigger.val num val⟩ order
    rw [exclusive_and]
    refine Iff.trans ((add_sets order num val shown.values).exclusive_left_iff shown.one) ?_
    have outside : ∀ x, x ≠ num → (x ∉ (TriggerOUT.inOrder ⟨r.trigger.keys.insert num,
        Function.update r.trigger.val num val⟩ order).keys ↔ x ∉ r.trigger.keys) := by
      intro x other
      rw [inserted, List.mem_insert_iff, or_iff_right other]
    constructor
    · rintro left out ⟨rfl, active⟩ other ne gone
      exact left active other ne ((outside other ne).mpr gone)
    · exact fun left active other ne gone => left num ⟨rfl, active⟩ other ne ((outside other ne).mp gone)
  | set out val =>
    by_cases member : out ∈ r.trigger.keys
    · have sets := set_sets ((members out).mpr member) (shown.inOrder order) val
      rw [exclusive_and]
      refine Iff.trans (sets.exclusive_left_iff shown.one) ?_
      constructor
      · rintro left x ⟨rfl, -, active⟩ other ne gone
        exact left active other ne fun inside => gone ((members other).mp inside)
      · exact fun left active other ne gone =>
          left out ⟨rfl, member, active⟩ other ne fun inside => gone ((members other).mpr inside)
    · have nothing : r.trigger.call ⟨.set out val, order⟩ = (r.trigger.inOrder order, []) :=
        if_pos fun inside => member ((members out).mp inside)
      refine iff_of_true (exclusive_of_same shown.one ?_ ?_) fun x active => absurd (active.1 ▸ active.2.1) ?_
      · rw [nothing]
        exact fun _ inside => absurd inside List.not_mem_nil
      · rw [nothing]
        exact shown.inOrder order
      · exact active.1 ▸ member
  | remove num =>
    refine iff_of_true (exclusive_of_same shown.one (fun _ inside => absurd inside List.not_mem_nil) ?_)
      fun _ active => active.elim
    exact fun x inside => shown.inOrder order x (List.mem_filter.mp inside).1
  | update =>
    refine iff_of_true (exclusive_of_same shown.one ?_ (shown.inOrder order)) fun _ active => active.elim
    intro a member
    obtain ⟨x, inside, rfl⟩ := List.mem_map.mp member
    exact shown.inOrder order x inside
  | reset => exact iff_of_true (exclusive_reset shown order) fun _ active => active.elim

/-- **The runs whose calls are exclusive**: those in which no output is set while another one that is removed has
been left active. -/
theorem exclusive_iff {r : Run Out V} (started : machine.start r) (calls : List (Call Out V)) :
    machine.Meets Exclusive r calls ↔ machine.Meets NoneLeft r calls := by
  refine Machine.meets_iff_meets (P := Shown) (fun r c shown (_ : True) => exclusive_call_iff shown c) ?_
    (fun _ _ => trivial) ⟨fun a b active => absurd (started.2 a) active, ?_⟩
  · intro r c u _ _ exclusive stepped
    obtain rfl := Option.some.inj stepped
    exact ⟨exclusive.moments _ (List.prefix_refl _), exclusive.shown⟩
  · rw [started.1]
    exact fun _ inside => absurd inside List.not_mem_nil

/-- **An output that is set to zero before it is removed.** -/
theorem exclusive_removed : machine.Meets Exclusive (⟨⟨[], fun _ => 0⟩, fun _ => 0⟩ : Run Nat Int)
    [⟨.add 1 4, []⟩, ⟨.set 1 0, []⟩, ⟨.remove 1, []⟩, ⟨.add 2 3, []⟩, ⟨.reset, []⟩] := by
  refine (exclusive_iff ⟨rfl, fun _ => rfl⟩ _).mpr ?_
  refine ⟨fun _ _ _ _ _ => rfl, ?_⟩
  rintro _ ⟨⟩
  refine ⟨fun _ active => absurd rfl active.2.2, ?_⟩
  rintro _ ⟨⟩
  refine ⟨fun _ active => active.elim, ?_⟩
  rintro _ ⟨⟩
  refine ⟨fun _ _ other _ _ => ?_, ?_⟩
  · show Function.update (Function.update (fun _ => (0 : Int)) 1 4) 1 0 other = 0
    rw [Function.update_idem]
    exact congrFun (Function.update_eq_self 1 fun _ => (0 : Int)) other
  rintro _ ⟨⟩
  refine ⟨fun _ active => active.elim, ?_⟩
  rintro _ ⟨⟩
  trivial

/-- **An output that is removed while it is active** stays active for the owner, and the next one that is set is
active beside it. -/
theorem removed_active :
    (¬ ∀ (r : Run Nat Int) (calls : List (Call Nat Int)), machine.start r → machine.Meets Exclusive r calls) ∧
    ∃ t, machine.run (⟨⟨[], fun _ => 0⟩, fun _ => 0⟩ : Run Nat Int)
        [⟨.add 1 1, []⟩, ⟨.remove 1, []⟩, ⟨.add 2 1, []⟩] = some t ∧ t.reported 1 = 1 ∧ t.reported 2 = 1 := by
  constructor
  · intro all
    have meets := all ⟨⟨[], fun _ => 0⟩, fun _ => 0⟩ [⟨.add 1 1, []⟩, ⟨.remove 1, []⟩, ⟨.add 2 1, []⟩]
      ⟨rfl, fun _ => rfl⟩
    have last := ((meets.2 _ rfl).2 _ rfl).1
    have same := last.moments _ (List.prefix_refl _) 1 2 (by decide) (by decide)
    exact absurd same (by decide)
  · exact ⟨_, rfl, by decide, by decide⟩

end Calls

end TriggerOUT

end UniSet

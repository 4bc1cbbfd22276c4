/-
**Cascades: recursion through a virtual function, bounded by an acyclic relation.**

A function whose body calls itself on other arguments is written with the recursive call as a
parameter, `body : (A → Option B) → A → Option B`; `unroll body n` allows `n` nested calls and is
`none` when they do not suffice.

* `unroll_induct` — a property of functions that holds of the empty one and that `body` keeps holds
  of every unrolling.
* `unroll_isSome` — if `body` calls only arguments of smaller rank, `n` nested calls suffice for
  every argument of rank below `n`.
* `height` — the rank an acyclic relation gives on a finite list of nodes: the number of nodes
  strictly below. `height_lt`: it drops along every edge into the list. `height_le`: it never
  exceeds the length of the list.
-/

import Mathlib.Logic.Relation
import Mathlib.Data.List.Basic

namespace UniSet.Lib

section Unroll

variable {A B : Type*} (body : (A → Option B) → A → Option B)

/-- The body with at most `n` nested calls. -/
def unroll : Nat → A → Option B
  | 0, _ => none
  | n + 1, a => body (unroll n) a

variable {body}

/-- **Induction over the nesting depth.** -/
theorem unroll_induct {S : (A → Option B) → Prop} (bottom : S fun _ => none)
    (step : ∀ call, S call → S (body call)) : ∀ n, S (unroll body n)
  | 0 => bottom
  | n + 1 => step _ (unroll_induct bottom step n)

/-- **A body that calls only smaller arguments returns.** -/
theorem unroll_isSome (rank : A → Nat)
    (step : ∀ call a, (∀ b, rank b < rank a → (call b).isSome) → (body call a).isSome) :
    ∀ n a, rank a < n → (unroll body n a).isSome
  | 0, _, below => absurd below (Nat.not_lt_zero _)
  | n + 1, a, below => step _ a fun b smaller =>
      unroll_isSome rank step n b (Nat.lt_of_lt_of_le smaller (Nat.lt_succ_iff.mp below))

end Unroll

section Height

variable {A : Type*} {edge : A → A → Prop}

/-- No node is reached from itself. -/
def Acyclic (edge : A → A → Prop) : Prop := ∀ a, ¬ Relation.TransGen edge a a

/-- A relation that a number grows along is acyclic. -/
theorem acyclic_of_rank (rank : A → Nat) (grows : ∀ a b, edge a b → rank a < rank b) :
    Acyclic edge := by
  intro a cycle
  have strictly : ∀ b, Relation.TransGen edge a b → rank a < rank b := by
    intro b reached
    induction reached with
    | single one => exact grows _ _ one
    | tail _ last ih => exact Nat.lt_trans ih (grows _ _ last)
  exact Nat.lt_irrefl _ (strictly a cycle)

open Classical in
/-- The number of listed nodes strictly below `a`. -/
noncomputable def height (edge : A → A → Prop) (nodes : List A) (a : A) : Nat :=
  (nodes.filter fun b => Relation.TransGen edge a b).length

theorem height_le (nodes : List A) (a : A) : height edge nodes a ≤ nodes.length :=
  List.length_filter_le _ _

/-- **The height drops along every edge** of an acyclic relation: what is below the lower node is
below the upper one, and the lower node itself is below the upper one only. -/
theorem height_lt (acyclic : Acyclic edge) {nodes : List A} {a b : A} (below : edge a b)
    (member : b ∈ nodes) : height edge nodes b < height edge nodes a := by
  classical
  unfold height
  have sub : (nodes.filter fun c => Relation.TransGen edge b c).Sublist
      (nodes.filter fun c => Relation.TransGen edge a c) :=
    List.monotone_filter_right nodes fun c reached => by
      simp only [decide_eq_true_eq] at reached ⊢
      exact Relation.TransGen.head below reached
  refine Nat.lt_of_le_of_ne sub.length_le fun same => ?_
  have inUpper : b ∈ nodes.filter fun c => Relation.TransGen edge a c :=
    List.mem_filter.mpr ⟨member, by simpa using Relation.TransGen.single below⟩
  rw [← sub.eq_of_length same] at inUpper
  exact acyclic b (by simpa using (List.mem_filter.mp inUpper).2)

end Height

end UniSet.Lib

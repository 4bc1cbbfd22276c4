/-
**Logic schemas: how elements are linked, and that outputs are forwarded to an end.**

* `Schema` — the elements by their identifiers, each with its list of children.
* `find` — the search for an element among the descendants of another one. It follows the first child of
  each element only.
* `manage`, `link`, `unlink` — a schema is built. A link is refused if the search finds the parent.
* `propagate` — `setIn` with all calls that come of it through `setChildOut`.
* **`acyclic_iff`**: a schema stays acyclic in exactly the runs in which every link from `a` to a `b` that
  reaches `a` finds `a` along the first children of `b`. In these runs `link` refuses exactly the links
  that would close a cycle, and every propagation ends.
-/

import UniSet.Lib.Cascade
import UniSet.Lib.Machine
import UniSet.LogicProcessor.Element
import Mathlib.Logic.Function.Basic

namespace UniSet.LogicProcessor

open Lib Function

/-- **`Schema`**: the identifiers of the elements, the elements and their children with the number of
the input. -/
structure Schema (ID : Type*) where
  ids : List ID
  el : ID → Element
  outs : ID → List (ID × Nat)

set_option linter.unusedSectionVars false

variable {ID : Type*} [DecidableEq ID]

namespace Schema

/-- A schema without elements. -/
def empty : Schema ID := ⟨[], fun _ => .TNOT false true, fun _ => []⟩

/-- `b` is a child of `a`. -/
def Edge (outs : ID → List (ID × Nat)) (a b : ID) : Prop := b ∈ (outs a).map Prod.fst

instance (outs : ID → List (ID × Nat)) (a b : ID) : Decidable (Edge outs a b) :=
  inferInstanceAs (Decidable (b ∈ (outs a).map Prod.fst))

/-- `b` is the first child of `a`. -/
def FirstEdge (outs : ID → List (ID × Nat)) (a b : ID) : Prop :=
  ((outs a).head?.map Prod.fst) = some b

/-! ### Links -/

/-- **`Element::find`** with at most so many nested calls: whether the element is found. The loop over
the children returns at the first one. -/
def find (outs : ID → List (ID × Nat)) (id : ID) : Nat → ID → Option Bool
  | 0, _ => none
  | n + 1, cur =>
    match outs cur with
    | [] => some false
    | (child, _) :: _ => if child = id then some true else find outs id n child

/-- The reasons of a `LogicException`. -/
inductive Refusal (ID : Type*)
  | notFound (id : ID)
  | selfLink
  | alreadyLinked
  | cyclic
deriving DecidableEq, Repr

/-- **`Element::addChildOut`** and `Schema::link`: the schema after it and the exception, if there is one.
None is a search that does not come to an end: one with more calls than elements comes to an element
again. -/
def link (s : Schema ID) (rootID childID : ID) (numIn : Nat) :
    Option (Schema ID × Option (Refusal ID)) :=
  if rootID ∉ s.ids then some (s, some (.notFound rootID))
  else if childID ∉ s.ids then some (s, some (.notFound childID))
  else if childID = rootID then some (s, some .selfLink)
  else if childID ∈ (s.outs rootID).map Prod.fst then some (s, some .alreadyLinked)
  else
    (find s.outs rootID (s.ids.length + 1) childID).map fun found =>
      if found then (s, some .cyclic)
      else
        ({ s with outs := update s.outs rootID (s.outs rootID ++ [(childID, numIn)]) }, none)

/-- `Schema::unlink`, `Element::delChildOut`. -/
def unlink (s : Schema ID) (rootID childID : ID) : Schema ID × Option (Refusal ID) :=
  if rootID ∉ s.ids then (s, some (.notFound rootID))
  else if childID ∉ s.ids then (s, some (.notFound childID))
  else
    ({ s with
        outs := update s.outs rootID ((s.outs rootID).eraseP fun out => out.1 = childID) },
      none)

/-- `Schema::manage` of a new element. -/
def manage (s : Schema ID) (id : ID) (el : Element) : Schema ID :=
  { ids := s.ids ++ [id]
    el := update s.el id el
    outs := update s.outs id [] }

/-! ### Propagation -/

/-- The arguments of a call of `setIn`: the elements and which input gets which value. -/
structure Call (ID : Type*) where
  els : ID → Element
  id : ID
  num : Nat
  value : Int

/-- A call of `setIn` that has been made: the element before it, the input and the value. -/
structure Visit (ID : Type*) where
  id : ID
  el : Element
  num : Nat
  value : Int
deriving DecidableEq, Repr

/-- The elements after a call and all calls of `setIn` it consisted of, in their order. -/
abbrev Answer (ID : Type*) := (ID → Element) × List (Visit ID)

/-- **`Element::setChildOut`**: every child gets the output. -/
def setChildOut (setIn : Call ID → Option (Answer ID)) (out : Int) :
    List (ID × Nat) → (ID → Element) → Option (Answer ID)
  | [], els => some (els, [])
  | (child, num) :: outs, els =>
    (setIn ⟨els, child, num, out⟩).bind fun first =>
      (setChildOut setIn out outs first.1).map fun rest => (rest.1, first.2 ++ rest.2)

/-- `setIn` of an element, with the calls it makes as a parameter. -/
def setInBody (outs : ID → List (ID × Nat)) (now : Nat) (setIn : Call ID → Option (Answer ID))
    (call : Call ID) : Option (Answer ID) :=
  let done := (call.els call.id).setIn now call.num call.value
  let els := update call.els call.id done.1
  let visit := Visit.mk call.id (call.els call.id) call.num call.value
  if done.2 then
    (setChildOut setIn done.1.getOut (outs call.id) els).map fun rest => (rest.1, visit :: rest.2)
  else some (els, [visit])

/-- **`setIn` with at most so many nested calls.** -/
def propagate (outs : ID → List (ID × Nat)) (now n : Nat) : Call ID → Option (Answer ID) :=
  unroll (setInBody outs now) n

/-- **`tick` with at most so many nested calls.** -/
def tick (outs : ID → List (ID × Nat)) (now n : Nat) (els : ID → Element) (id : ID) :
    Option (Answer ID) :=
  let done := (els id).tick now
  let els := update els id done.1
  if done.2 then setChildOut (propagate outs now n) done.1.getOut (outs id) els else some (els, [])

/-! ### The search -/

variable {outs : ID → List (ID × Nat)}

theorem FirstEdge.edge {a b : ID} (firstEdge : FirstEdge outs a b) : Edge outs a b := by
  rw [FirstEdge] at firstEdge
  rw [Edge]
  cases output : outs a with
  | nil =>
    rw [output] at firstEdge
    cases firstEdge
  | cons out rest =>
    rw [output] at firstEdge
    rw [← Option.some.inj firstEdge]
    exact List.mem_cons_self

/-- **The search finds what lies along the first children**, if it ends. -/
theorem find_eq {id : ID} {n : Nat} {cur : ID} {found : Bool} (searched : find outs id n cur = some found) :
    found = true ↔ Relation.TransGen (FirstEdge outs) cur id := by
  induction n generalizing cur with
  | zero => cases searched
  | succ n ih =>
    rw [find] at searched
    split at searched
    · next out =>
      obtain rfl := Option.some.inj searched
      refine ⟨fun searched => Bool.noConfusion searched, fun path => ?_⟩
      obtain ⟨next, step, -⟩ := Relation.TransGen.head'_iff.mp path
      rw [FirstEdge, out] at step
      cases step
    · next child num rest out =>
      have first : ∀ next, FirstEdge outs cur next ↔ child = next := fun next => by
        rw [FirstEdge, out]
        exact Option.some_inj
      split at searched
      · next same =>
        obtain rfl := Option.some.inj searched
        exact ⟨fun _ => .single ((first id).mpr same), fun _ => rfl⟩
      · next apart =>
        rw [ih searched]
        constructor
        · exact .head ((first child).mpr rfl)
        · intro path
          obtain ⟨next, step, later⟩ := Relation.TransGen.head'_iff.mp path
          obtain rfl := (first next).mp step
          rcases Relation.reflTransGen_iff_eq_or_transGen.mp later with same | later
          · exact absurd same.symm apart
          · exact later

/-! ### Acyclic schemas -/

/-- **The invariant of a schema**: links are between its elements and close no cycle. -/
structure Inv (s : Schema ID) : Prop where
  known : ∀ a b, Edge s.outs a b → a ∈ s.ids ∧ b ∈ s.ids
  acyclic : Acyclic (Edge s.outs)

variable {s : Schema ID}

theorem Inv.find_isSome (inv : Inv s) (id : ID) {n : Nat} {cur : ID}
    (enough : height (Edge s.outs) s.ids cur < n) : (find s.outs id n cur).isSome := by
  induction n generalizing cur with
  | zero => exact absurd enough (Nat.not_lt_zero _)
  | succ n ih =>
    rw [find]
    split
    · rfl
    · next child num rest out =>
      have edge : Edge s.outs cur child := by
        rw [Edge, out]
        exact List.mem_cons_self
      split
      · rfl
      · have less := height_lt inv.acyclic edge (inv.known cur child edge).2
        exact ih (by omega)

theorem setChildOut_isSome {setIn : Call ID → Option (Answer ID)} {out : Int}
    {children : List (ID × Nat)} (els : ID → Element)
    (holds : ∀ child ∈ children, ∀ els, (setIn ⟨els, child.1, child.2, out⟩).isSome) :
    (setChildOut setIn out children els).isSome := by
  induction children generalizing els with
  | nil => rfl
  | cons child children ih =>
    obtain ⟨first, fst⟩ := Option.isSome_iff_exists.mp (holds child List.mem_cons_self els)
    rw [setChildOut, fst, Option.bind_some, Option.isSome_map]
    exact ih _ fun c mem => holds c (List.mem_cons_of_mem _ mem)

/-- **A propagation through an acyclic schema ends**: as many nested calls suffice as it has elements. -/
theorem Inv.propagate_isSome (inv : Inv s) (now : Nat) {n : Nat} (enough : s.ids.length < n)
    (call : Call ID) : (propagate s.outs now n call).isSome := by
  refine unroll_isSome (fun call : Call ID => height (Edge s.outs) s.ids call.id) ?_ n call
    (Nat.lt_of_le_of_lt (height_le _ _) enough)
  intro setIn call below
  rw [setInBody]
  split
  · rw [Option.isSome_map]
    apply setChildOut_isSome
    intro child mem els
    have edge : Edge s.outs call.id child.1 := List.mem_map.mpr ⟨child, mem, rfl⟩
    exact below _ (height_lt inv.acyclic edge (inv.known _ _ edge).2)
  · rfl

theorem Inv.tick_isSome (inv : Inv s) (now : Nat) {n : Nat} (enough : s.ids.length < n)
    (els : ID → Element) (id : ID) : (tick s.outs now n els id).isSome := by
  rw [tick]
  split
  · exact setChildOut_isSome _ fun _ _ _ => inv.propagate_isSome now enough _
  · rfl

/-! ### One step -/

theorem edge_link {rootID childID : ID} {numIn : Nat} {a b : ID} :
    Edge (update s.outs rootID (s.outs rootID ++ [(childID, numIn)])) a b ↔
      Edge s.outs a b ∨ (a = rootID ∧ b = childID) := by
  by_cases own : a = rootID
  · subst own
    simp [Edge]
  · simp [Edge, own]

/-- A path after a link is one before it, or goes over the link. -/
theorem path_link {rootID childID : ID} {numIn : Nat} {a b : ID}
    (path : Relation.TransGen
      (Edge (update s.outs rootID (s.outs rootID ++ [(childID, numIn)]))) a b) :
    Relation.TransGen (Edge s.outs) a b ∨
      (Relation.ReflTransGen (Edge s.outs) a rootID ∧
        Relation.ReflTransGen (Edge s.outs) childID b) := by
  induction path with
  | single path =>
    rcases edge_link.mp path with path | ⟨rfl, rfl⟩
    · exact Or.inl (.single path)
    · exact Or.inr ⟨.refl, .refl⟩
  | tail _ path ih =>
    rcases edge_link.mp path with path | ⟨rfl, rfl⟩
    · rcases ih with ih | ih
      · exact Or.inl (ih.tail path)
      · exact Or.inr ⟨ih.1, ih.2.tail path⟩
    · rcases ih with ih | ih
      · exact Or.inr ⟨ih.to_reflTransGen, .refl⟩
      · exact Or.inr ⟨ih.1, .refl⟩

theorem Inv.link_acyclic (inv : Inv s) {rootID childID : ID} (numIn : Nat)
    (apart : childID ≠ rootID) (free : ¬Relation.TransGen (Edge s.outs) childID rootID) :
    Acyclic (Edge (update s.outs rootID (s.outs rootID ++ [(childID, numIn)]))) := by
  intro x cycle
  rcases path_link cycle with cycle | ⟨toRoot, fromChild⟩
  · exact inv.acyclic x cycle
  · rcases Relation.reflTransGen_iff_eq_or_transGen.mp (fromChild.trans toRoot) with same | path
    · exact apart same.symm
    · exact free path

/-- **What `link` does in an acyclic schema.** -/
theorem Inv.link_cases (inv : Inv s) (rootID childID : ID) (numIn : Nat) :
    (∃ r, s.link rootID childID numIn = some (s, some r) ∧ r ≠ .selfLink ∧ r ≠ .cyclic ∧
      (rootID ∉ s.ids ∨ childID ∉ s.ids ∨ Edge s.outs rootID childID)) ∨
    (childID = rootID ∧ s.link rootID childID numIn = some (s, some .selfLink)) ∨
    (Relation.TransGen (FirstEdge s.outs) childID rootID ∧
      s.link rootID childID numIn = some (s, some .cyclic)) ∨
    (rootID ∈ s.ids ∧ childID ∈ s.ids ∧ childID ≠ rootID ∧
      ¬Relation.TransGen (FirstEdge s.outs) childID rootID ∧ s.link rootID childID numIn = some
        ({ s with outs := update s.outs rootID (s.outs rootID ++ [(childID, numIn)]) },
          none)) := by
  rw [link]
  by_cases root : rootID ∈ s.ids
  · rw [if_neg (not_not_intro root)]
    by_cases child : childID ∈ s.ids
    · rw [if_neg (not_not_intro child)]
      by_cases self : childID = rootID
      · rw [if_pos self]
        exact Or.inr (Or.inl ⟨self, rfl⟩)
      · rw [if_neg self]
        by_cases edge : childID ∈ (s.outs rootID).map Prod.fst
        · rw [if_pos edge]
          exact Or.inl ⟨_, rfl, by simp, by simp, Or.inr (Or.inr edge)⟩
        · rw [if_neg edge]
          obtain ⟨found, searched⟩ := Option.isSome_iff_exists.mp
            (inv.find_isSome rootID (Nat.lt_succ_of_le (height_le s.ids childID)))
          rw [searched, Option.map_some]
          cases found with
          | true => exact Or.inr (Or.inr (Or.inl ⟨(find_eq searched).mp rfl, rfl⟩))
          | false =>
            refine Or.inr (Or.inr (Or.inr ⟨root, child, self, fun path => ?_, rfl⟩))
            cases (find_eq searched).mpr path
    · rw [if_pos child]
      exact Or.inl ⟨_, rfl, by simp, by simp, Or.inr (Or.inl child)⟩
  · rw [if_pos root]
    exact Or.inl ⟨_, rfl, by simp, by simp, Or.inl root⟩

/-! ### Runs -/

/-- The calls a schema is built with. -/
inductive Op (ID : Type*)
  | manage (id : ID) (el : Element)
  | link (rootID childID : ID) (numIn : Nat)
  | unlink (rootID childID : ID)
deriving DecidableEq, Repr

/-- **The machine of a schema.** Elements are managed under pairwise distinct identifiers. -/
def machine : Machine (Schema ID) (Op ID) where
  start s := s = empty
  step s
    | .manage id el => if id ∈ s.ids then none else some (s.manage id el)
    | .link rootID childID numIn => (s.link rootID childID numIn).map Prod.fst
    | .unlink rootID childID => some (s.unlink rootID childID).1

/-- **The links the search decides rightly**: if the child reaches the parent, it does so along first
children. -/
def FirstPath (s : Schema ID) : Op ID → Prop
  | .link rootID childID _ => Relation.TransGen (Edge s.outs) childID rootID →
      Relation.TransGen (FirstEdge s.outs) childID rootID
  | _ => True

/-- **`link` refuses the cyclic links and no other one as cyclic**; a refused link changes nothing. -/
def LinkLaw (s : Schema ID) : Op ID → Prop
  | .link rootID childID numIn =>
    ∃ done r, s.link rootID childID numIn = some (done, r) ∧
      ((Relation.TransGen (Edge s.outs) childID rootID ∨ childID = rootID) →
        r.isSome ∧ done = s) ∧
      (¬(Relation.TransGen (Edge s.outs) childID rootID ∨ childID = rootID) →
        r ≠ some .cyclic ∧ r ≠ some .selfLink)
  | _ => True

/-- **No cycle, and every propagation ends**: with enough nested calls, whatever the elements are. -/
structure Good (s : Schema ID) : Prop where
  acyclic : Acyclic (Edge s.outs)
  setIn : ∀ now call, ∃ n, ∀ m ≥ n, (propagate s.outs now m call).isSome
  tick : ∀ now els id, ∃ n, ∀ m ≥ n, (Schema.tick s.outs now m els id).isSome

theorem Inv.good (inv : Inv s) : Good s where
  acyclic := inv.acyclic
  setIn now call := ⟨s.ids.length + 1, fun _ enough => inv.propagate_isSome now enough call⟩
  tick now els id := ⟨s.ids.length + 1, fun _ enough => inv.tick_isSome now enough els id⟩

theorem inv_empty : Inv (empty : Schema ID) where
  known _ _ edge := absurd edge List.not_mem_nil
  acyclic := acyclic_of_rank (fun _ => 0) fun _ _ edge => absurd edge List.not_mem_nil

theorem acyclic_mono {outs outs' : ID → List (ID × Nat)}
    (sub : ∀ a b, Edge outs' a b → Edge outs a b) (acyclic : Acyclic (Edge outs)) :
    Acyclic (Edge outs') := fun x cycle => acyclic x (Relation.TransGen.mono sub _ _ cycle)

theorem Inv.manage (inv : Inv s) (id : ID) (el : Element) : Inv (s.manage id el) := by
  have sub : ∀ a b, Edge (s.manage id el).outs a b → Edge s.outs a b := by
    intro a b edge
    rw [Edge, Schema.manage] at edge
    dsimp only at edge
    by_cases own : a = id
    · rw [own] at edge
      simp at edge
    · rwa [update_of_ne own] at edge
  refine ⟨fun a b edge => ?_, acyclic_mono sub inv.acyclic⟩
  have ends := inv.known a b (sub a b edge)
  exact ⟨List.mem_append_left _ ends.1, List.mem_append_left _ ends.2⟩

theorem Inv.unlink (inv : Inv s) (rootID childID : ID) : Inv (s.unlink rootID childID).1 := by
  have same : (s.unlink rootID childID).1.ids = s.ids := by
    rw [Schema.unlink]
    split
    · rfl
    · split
      · rfl
      · rfl
  have sub : ∀ a b, Edge (s.unlink rootID childID).1.outs a b → Edge s.outs a b := by
    intro a b edge
    rw [Schema.unlink] at edge
    split at edge
    · exact edge
    · split at edge
      · exact edge
      · rw [Edge] at edge
        dsimp only at edge
        by_cases own : a = rootID
        · subst own
          rw [update_self] at edge
          exact (List.eraseP_sublist.map _).subset edge
        · rwa [update_of_ne own] at edge
  refine ⟨fun a b edge => ?_, acyclic_mono sub inv.acyclic⟩
  rw [same]
  exact inv.known a b (sub a b edge)

/-- A step that meets the condition keeps the invariant. -/
theorem Inv.step (inv : Inv s) {op : Op ID} {t : Schema ID} (cond : FirstPath s op)
    (ran : machine.step s op = some t) : Inv t := by
  cases op with
  | manage id el =>
    simp only [machine] at ran
    split at ran
    · cases ran
    · obtain rfl := Option.some.inj ran
      exact inv.manage id el
  | unlink rootID childID =>
    obtain rfl := Option.some.inj ran
    exact inv.unlink rootID childID
  | link rootID childID numIn =>
    simp only [machine] at ran
    rcases inv.link_cases rootID childID numIn with
      ⟨r, linked, -⟩ | ⟨-, linked⟩ | ⟨-, linked⟩ | ⟨root, child, apart, free, linked⟩
    · rw [linked] at ran
      exact Option.some.inj ran ▸ inv
    · rw [linked] at ran
      exact Option.some.inj ran ▸ inv
    · rw [linked] at ran
      exact Option.some.inj ran ▸ inv
    · rw [linked] at ran
      obtain rfl := Option.some.inj ran
      refine ⟨fun a b edge => ?_, inv.link_acyclic numIn apart fun path => free (cond path)⟩
      rcases edge_link.mp edge with edge | ⟨rfl, rfl⟩
      · exact inv.known a b edge
      · exact ⟨root, child⟩

/-- A link the search decides wrongly closes a cycle. -/
theorem Inv.step_cyclic (inv : Inv s) {op : Op ID} (cond : ¬FirstPath s op) :
    ∃ t, machine.step s op = some t ∧ ¬Good t := by
  cases op with
  | manage id el => exact absurd trivial cond
  | unlink rootID childID => exact absurd trivial cond
  | link rootID childID numIn =>
    obtain ⟨path, first⟩ := Classical.not_imp.mp cond
    rcases inv.link_cases rootID childID numIn with
      ⟨r, -, -, -, why⟩ | ⟨same, -⟩ | ⟨back, -⟩ | ⟨root, child, apart, free, linked⟩
    · have found : ∃ next, Edge s.outs childID next := by
        obtain ⟨next, leaves, -⟩ := Relation.TransGen.head'_iff.mp path
        exact ⟨next, leaves⟩
      have found' : ∃ prev, Edge s.outs prev rootID := by
        obtain ⟨prev, -, enters⟩ := Relation.TransGen.tail'_iff.mp path
        exact ⟨prev, enters⟩
      obtain ⟨next, leaves⟩ := found
      obtain ⟨prev, enters⟩ := found'
      rcases why with root | child | edge'
      · exact absurd (inv.known prev rootID enters).2 root
      · exact absurd (inv.known childID next leaves).1 child
      · exact absurd (path.tail edge') (inv.acyclic childID)
    · exact absurd (same ▸ path) (inv.acyclic rootID)
    · exact absurd back first
    · refine ⟨_, by rw [machine]; dsimp only; rw [linked]; rfl, fun good => ?_⟩
      apply good.acyclic rootID
      refine .head (edge_link.mpr (Or.inr ⟨rfl, rfl⟩)) (Relation.TransGen.mono (fun a b edge => ?_) _ _ path)
      exact edge_link.mpr (Or.inl edge)

theorem Inv.linkLaw (inv : Inv s) {op : Op ID} (cond : FirstPath s op) : LinkLaw s op := by
  cases op with
  | manage id el => trivial
  | unlink rootID childID => trivial
  | link rootID childID numIn =>
    rcases inv.link_cases rootID childID numIn with
      ⟨r, linked, self, cyclic, -⟩ | ⟨same, linked⟩ | ⟨back, linked⟩ | ⟨-, -, apart, free, linked⟩
    · refine ⟨_, _, linked, fun _ => ⟨rfl, rfl⟩, fun _ => ⟨?_, ?_⟩⟩
      · simpa using cyclic
      · simpa using self
    · exact ⟨_, _, linked, fun _ => ⟨rfl, rfl⟩, fun closes => absurd (Or.inr same) closes⟩
    · refine ⟨_, _, linked, fun _ => ⟨rfl, rfl⟩, fun closes => absurd (Or.inl ?_) closes⟩
      exact Relation.TransGen.mono (fun a b => FirstEdge.edge) _ _ back
    · refine ⟨_, _, linked, fun closes => ?_, fun _ => ⟨by simp, by simp⟩⟩
      rcases closes with path | same
      · exact absurd (cond path) free
      · exact absurd same apart

/-- **A schema stays acyclic, refuses exactly the cyclic links and lets every propagation end, in exactly
the runs whose links all meet `FirstPath`.** -/
theorem acyclic_iff (started : machine.start s) (ops : List (Op ID)) :
    machine.Always Good s ops ∧ machine.Meets LinkLaw s ops ↔ machine.Meets FirstPath s ops := by
  have inv : Inv s := started ▸ inv_empty
  have always : machine.Always Good s ops ↔ machine.Meets FirstPath s ops :=
    Machine.always_iff_meets (P := Inv) (fun _ => Inv.good) (fun _ _ _ inv cond => inv.step cond)
      (fun _ _ inv cond => inv.step_cyclic cond) inv
  rw [← always]
  refine ⟨fun both => both.1, fun both => ⟨both, ?_⟩⟩
  exact Machine.meets_of_invariant (fun _ _ _ inv cond => inv.step cond)
    (fun _ _ inv cond => inv.linkLaw cond) inv (always.mp both)

/-- A link is decided rightly where no element has two children. -/
theorem firstPath_of_single (single : ∀ a, (s.outs a).length ≤ 1) (op : Op ID) : FirstPath s op := by
  have first : ∀ a b, Edge s.outs a b → FirstEdge s.outs a b := by
    intro a b edge
    have len := single a
    rw [Edge] at edge
    rw [FirstEdge]
    cases output : s.outs a with
    | nil => simp [output] at edge
    | cons out rest =>
      rw [output, List.length_cons] at len
      obtain rfl : rest = [] := List.eq_nil_of_length_eq_zero (by omega)
      rw [output, List.map_singleton, List.mem_singleton] at edge
      rw [edge]
      rfl
  cases op with
  | manage id el => trivial
  | unlink rootID childID => trivial
  | link rootID childID numIn => exact Relation.TransGen.mono first _ _

/-- Two elements, a link from the first to the second one, and a link back that is refused. -/
def backLink : List (Op Nat) :=
  [.manage 1 (.newTNOT false), .manage 2 (.newTNOT false), .link 1 2 1, .link 2 1 1]

theorem backLink_refused :
    machine.Always Good empty backLink ∧ machine.Meets LinkLaw empty backLink := by
  refine (acyclic_iff rfl backLink).mpr ⟨trivial, fun s₁ first => ?_⟩
  obtain rfl := Option.some.inj first
  refine ⟨trivial, fun s₂ second => ?_⟩
  have same : s₂.outs = fun _ => [] := by
    rw [← Option.some.inj second]
    funext a
    simp [manage, empty]
  refine ⟨firstPath_of_single (fun a => by simp [same]) _, fun s₃ third => ?_⟩
  refine ⟨firstPath_of_single (fun a => ?_) _, fun _ _ => trivial⟩
  have outs₃ : s₃.outs = update s₂.outs 1 [(2, 1)] := by
    rw [← Option.some.inj second] at third ⊢
    rw [← Option.some.inj third]
    rfl
  rw [outs₃, same, update_apply]
  split
  · exact Nat.le_refl 1
  · exact Nat.zero_le 1

/-- Element 2 has the children 3 and 1. -/
def secondChild : List (Op Nat) :=
  [.manage 1 (.newTNOT false), .manage 2 (.newTNOT false), .manage 3 (.newTNOT false),
    .link 2 3 1, .link 2 1 1]

/-- **The search misses the second child**: element 2 reaches 1, and the link from 1 to 2 is accepted. -/
theorem second_child_missed : ∃ s : Schema Nat, machine.run empty secondChild = some s ∧
    Relation.TransGen (Edge s.outs) 2 1 ∧ ¬LinkLaw s (.link 1 2 1) ∧
    ∃ t, machine.step s (.link 1 2 1) = some t ∧ ¬Acyclic (Edge t.outs) := by
  refine ⟨_, rfl, .single (by decide), ?_, _, rfl, ?_⟩
  · rintro ⟨done, r, linked, refused, -⟩
    have refused' := (refused (Or.inl (.single (by decide)))).1
    cases linked
    cases refused'
  · intro acyclic
    exact acyclic 1 (.head (show Edge _ 1 2 by decide) (.single (show Edge _ 2 1 by decide)))

end Schema

end UniSet.LogicProcessor

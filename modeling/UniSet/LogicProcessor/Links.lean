/-
**The lists of links of a schema.**

A schema keeps its connections twice: every element has a list of its children, and the schema has a list of
internal links and one of external links. Elements are objects: two of them may have one identifier, and a
removed one goes on to be referred to.

* `INLink.new` — the constructor. It fills the number of the input and leaves both ends empty.
* `LinkedSchema` — the elements with their children, and the lists; `manage`, `link`, `unlink`, `extlink` and
  `remove` as in the source.
* `Booked` — the list of internal links is the set of the connections, and nothing refers to a removed
  element.
* **`booked_iff`** — a schema is booked throughout a run exactly if every link of the run is refused.
-/

import UniSet.LogicProcessor.Schema

namespace UniSet.LogicProcessor

open Function
open Lib (Machine)
open Schema (Refusal)

/-- **`Schema::INLink`**: the ends of a connection, if they are filled, and the input. -/
structure INLink (El : Type*) where
  fromEl : Option El
  toEl : Option El
  numInput : Int
deriving DecidableEq, Repr

/-- The constructor with arguments: it initializes the number only. -/
def INLink.new {El : Type*} (_f _t : El) (ni : Int) : INLink El := ⟨none, none, ni⟩

/-- **`Schema::EXTLink`.** -/
structure EXTLink (El : Type*) where
  name : String
  toEl : Option El
  numInput : Int
deriving DecidableEq, Repr

/-- **A schema of objects**: the elements that have been managed, the one each identifier stands for, their
children and the lists of links. -/
structure LinkedSchema (ID El : Type*) where
  els : List El
  emap : ID → Option El
  outs : El → List (El × Int)
  inLinks : List (INLink El)
  extLinks : List (EXTLink El)

set_option linter.unusedSectionVars false

variable {ID El : Type*} [DecidableEq ID] [DecidableEq El]

namespace LinkedSchema

variable (getId : El → ID)

/-- A schema without elements. -/
def empty : LinkedSchema ID El := ⟨[], fun _ => none, fun _ => [], [], []⟩

/-- **`Element::find`** with at most so many nested calls. The loop over the children returns at the first
one. -/
def find (outs : El → List (El × Int)) (id : ID) : Nat → El → Option Bool
  | 0, _ => none
  | n + 1, cur =>
    match outs cur with
    | [] => some false
    | (child, _) :: _ => if getId child = id then some true else find outs id n child

/-- **`Element::addChildOut`**: the children after it, or the exception. None is a search that does not come to
an end. -/
def addChildOut (s : LinkedSchema ID El) (e1 e2 : El) (num : Int) :
    Option (Except (Refusal ID) (El → List (El × Int))) :=
  if e2 = e1 then some (.error .selfLink)
  else if e2 ∈ (s.outs e1).map Prod.fst then some (.error .alreadyLinked)
  else
    (find getId s.outs (getId e1) (s.els.length + 1) e2).map fun found =>
      if found then .error .cyclic
      else .ok (update s.outs e1 (s.outs e1 ++ [(e2, num)]))

/-- **`link`.** -/
def link (s : LinkedSchema ID El) (rootID childID : ID) (numIn : Int) :
    Option (LinkedSchema ID El × Option (Refusal ID)) :=
  match s.emap rootID with
  | none => some (s, some (.notFound rootID))
  | some e1 =>
    match s.emap childID with
    | none => some (s, some (.notFound childID))
    | some e2 =>
      (s.addChildOut getId e1 e2 numIn).map fun added =>
        match added with
        | .error refusal => (s, some refusal)
        | .ok outs => ({ s with outs := outs, inLinks := s.inLinks ++ [.new e1 e2 numIn] }, none)

/-- **`unlink`.** -/
def unlink (s : LinkedSchema ID El) (rootID childID : ID) : LinkedSchema ID El × Option (Refusal ID) :=
  match s.emap rootID with
  | none => (s, some (.notFound rootID))
  | some e1 =>
    match s.emap childID with
    | none => (s, some (.notFound childID))
    | some e2 =>
      ({ s with
          outs := update s.outs e1 ((s.outs e1).eraseP fun out => out.1 = e2)
          inLinks := s.inLinks.eraseP fun lit => lit.fromEl = some e1 ∧ lit.toEl = some e2 },
        none)

/-- **`extlink`.** -/
def extlink (s : LinkedSchema ID El) (name : String) (childID : ID) (numIn : Int) :
    LinkedSchema ID El × Option (Refusal ID) :=
  match s.emap childID with
  | none => (s, some (.notFound childID))
  | some el => ({ s with extLinks := s.extLinks ++ [⟨name, some el, numIn⟩] }, none)

/-- **`manage`**: an element with the same identifier gives way. -/
def manage (s : LinkedSchema ID El) (el : El) : LinkedSchema ID El :=
  { s with els := s.els ++ [el], emap := update s.emap (getId el) (some el) }

/-- An end of a link after `remove`. -/
def mark (el : El) (link : Option El) : Option El := if link = some el then none else link

/-- **`remove`**: an element is in the map under its own identifier only. -/
def remove (s : LinkedSchema ID El) (el : El) : LinkedSchema ID El :=
  { s with
    emap := if s.emap (getId el) = some el then update s.emap (getId el) none else s.emap
    inLinks := s.inLinks.map fun lit => { lit with fromEl := mark el lit.fromEl, toEl := mark el lit.toEl }
    extLinks := s.extLinks.map fun lit => { lit with toEl := mark el lit.toEl } }

/-- An element of the schema. -/
def Managed (s : LinkedSchema ID El) (el : El) : Prop := s.emap (getId el) = some el

instance (s : LinkedSchema ID El) (el : El) : Decidable (s.Managed getId el) :=
  inferInstanceAs (Decidable (_ = _))

/-- **A connection**: an element of the schema has the other one among its children. -/
def Connection (s : LinkedSchema ID El) (a b : El) (num : Int) : Prop :=
  s.Managed getId a ∧ (b, num) ∈ s.outs a

end LinkedSchema

/-! ### Runs -/

/-- A call of one of the functions of a schema. -/
inductive SchemaOp (ID El : Type*)
  | manage (el : El)
  | link (rootID childID : ID) (numIn : Int)
  | unlink (rootID childID : ID)
  | extlink (name : String) (childID : ID) (numIn : Int)
  | remove (el : El)

/-- A schema, and the elements that have been removed and not managed again. -/
structure LinkRun (ID El : Type*) where
  sch : LinkedSchema ID El
  gone : List El

variable (getId : El → ID)

/-- **The calls for a schema**, from an empty one on. An exception leaves it as it is. -/
def schemaOps : Machine (LinkRun ID El) (SchemaOp ID El) where
  start r := r = ⟨.empty, []⟩
  step r
    | .manage el => some ⟨r.sch.manage getId el, r.gone.filter fun x => x ≠ el⟩
    | .link rootID childID numIn => (r.sch.link getId rootID childID numIn).map fun done => ⟨done.1, r.gone⟩
    | .unlink rootID childID => some ⟨(r.sch.unlink rootID childID).1, r.gone⟩
    | .extlink name childID numIn => some ⟨(r.sch.extlink name childID numIn).1, r.gone⟩
    | .remove el => some ⟨r.sch.remove getId el, el :: r.gone⟩

/-- **The links are booked**: the internal ones are the connections, and no connection and no link has a removed
element for an end. -/
structure Booked (r : LinkRun ID El) : Prop where
  links : ∀ lit, lit ∈ r.sch.inLinks ↔
    ∃ a b num, r.sch.Connection getId a b num ∧ lit = ⟨some a, some b, num⟩
  noChild : ∀ el ∈ r.gone, ∀ a num, ¬ r.sch.Connection getId a el num
  noInLink : ∀ el ∈ r.gone, ∀ lit ∈ r.sch.inLinks, lit.fromEl ≠ some el ∧ lit.toEl ≠ some el
  noExtLink : ∀ el ∈ r.gone, ∀ lit ∈ r.sch.extLinks, lit.toEl ≠ some el

/-- **A call that links nothing**: a link that is refused for an identifier that no element has, or because both
stand for the same element. -/
def LinksNothing (r : LinkRun ID El) : SchemaOp ID El → Prop
  | .link rootID childID _ => r.sch.emap rootID = none ∨ r.sch.emap childID = none ∨
      r.sch.emap rootID = r.sch.emap childID
  | _ => True

instance (r : LinkRun ID El) : ∀ op, Decidable (LinksNothing r op)
  | .link rootID _ _ => inferInstanceAs (Decidable (r.sch.emap rootID = none ∨ _ ∨ _))
  | .manage _ | .unlink _ _ | .extlink _ _ _ | .remove _ => inferInstanceAs (Decidable True)

/-! ### Schemas without connections -/

section Unlinked

variable {getId} {r u : LinkRun ID El}

/-- **What calls that link nothing keep**: there are no connections and no internal links, and no removed element
is in the map or at an external link. -/
structure Unlinked (getId : El → ID) (r : LinkRun ID El) : Prop where
  outs : ∀ e, r.sch.outs e = []
  inLinks : r.sch.inLinks = []
  keys : ∀ id e, r.sch.emap id = some e → getId e = id
  gone : ∀ el ∈ r.gone, ¬ r.sch.Managed getId el
  extLinks : ∀ el ∈ r.gone, ∀ lit ∈ r.sch.extLinks, lit.toEl ≠ some el

theorem Unlinked.booked (unlinked : Unlinked getId r) : Booked getId r where
  links lit := by
    rw [unlinked.inLinks]
    refine iff_of_false List.not_mem_nil ?_
    rintro ⟨a, b, num, ⟨-, child⟩, -⟩
    rw [unlinked.outs] at child
    exact List.not_mem_nil child
  noChild el _ a num connection := by
    have child := connection.2
    rw [unlinked.outs] at child
    exact List.not_mem_nil child
  noInLink el _ lit member := by
    rw [unlinked.inLinks] at member
    exact absurd member List.not_mem_nil
  noExtLink := unlinked.extLinks

theorem unlinked_empty : Unlinked getId (⟨.empty, []⟩ : LinkRun ID El) :=
  ⟨fun _ => rfl, rfl, fun _ _ found => absurd found (Option.some_ne_none _).symm,
    fun _ member => absurd member List.not_mem_nil,
    fun _ member => absurd member List.not_mem_nil⟩

theorem Unlinked.manage (unlinked : Unlinked getId r) (el : El) :
    Unlinked getId ⟨r.sch.manage getId el, r.gone.filter fun x => x ≠ el⟩ where
  outs := unlinked.outs
  inLinks := unlinked.inLinks
  keys id e found := by
    by_cases own : id = getId el
    · subst own
      have found : update r.sch.emap (getId el) (some el) (getId el) = some e := found
      rw [update_self] at found
      rw [Option.some.inj found]
    · exact unlinked.keys id e ((update_of_ne own _ _).symm.trans found)
  gone x member managed := by
    obtain ⟨old, other⟩ := List.mem_filter.mp member
    have other : x ≠ el := of_decide_eq_true other
    by_cases own : getId x = getId el
    · have same : some el = some x := by
        have found : update r.sch.emap (getId el) (some el) (getId x) = some x := managed
        rw [own, update_self] at found
        exact found
      exact other (Option.some.inj same).symm
    · exact unlinked.gone x old ((update_of_ne own _ _).symm.trans managed)
  extLinks x member := unlinked.extLinks x (List.mem_filter.mp member).1

theorem Unlinked.extlink (unlinked : Unlinked getId r) (name : String) (childID : ID) (numIn : Int) :
    Unlinked getId ⟨(r.sch.extlink name childID numIn).1, r.gone⟩ := by
  rw [LinkedSchema.extlink]
  cases found : r.sch.emap childID with
  | none => exact unlinked
  | some el =>
    refine ⟨unlinked.outs, unlinked.inLinks, unlinked.keys, unlinked.gone, fun x member lit link => ?_⟩
    rcases List.mem_append.mp link with old | new
    · exact unlinked.extLinks x member lit old
    · obtain rfl := List.mem_singleton.mp new
      rintro same
      obtain rfl := Option.some.inj same
      refine unlinked.gone el member ?_
      rw [LinkedSchema.Managed, unlinked.keys childID el found]
      exact found

theorem Unlinked.remove (unlinked : Unlinked getId r) (el : El) :
    Unlinked getId ⟨r.sch.remove getId el, el :: r.gone⟩ where
  outs := unlinked.outs
  inLinks := by
    show r.sch.inLinks.map _ = []
    rw [unlinked.inLinks]
    rfl
  keys id e found := by
    have found : (if r.sch.emap (getId el) = some el then update r.sch.emap (getId el) none
        else r.sch.emap) id = some e := found
    split at found
    · by_cases own : id = getId el
      · rw [own, update_self] at found
        cases found
      · exact unlinked.keys id e ((update_of_ne own _ _).symm.trans found)
    · exact unlinked.keys id e found
  gone x member managed := by
    have managed : (if r.sch.emap (getId el) = some el then update r.sch.emap (getId el) none
        else r.sch.emap) (getId x) = some x := managed
    rcases List.mem_cons.mp member with rfl | old
    · split at managed
      · rw [update_self] at managed
        cases managed
      · next other => exact other managed
    · split at managed
      · by_cases own : getId x = getId el
        · rw [own, update_self] at managed
          cases managed
        · exact unlinked.gone x old ((update_of_ne own _ _).symm.trans managed)
      · exact unlinked.gone x old managed
  extLinks x member lit link := by
    obtain ⟨before, old, rfl⟩ := List.mem_map.mp link
    show LinkedSchema.mark el before.toEl ≠ some x
    rw [LinkedSchema.mark]
    split
    · exact (Option.some_ne_none x).symm
    · next other =>
      rcases List.mem_cons.mp member with rfl | gone
      · exact other
      · exact unlinked.extLinks x gone before old

/-- Without connections `unlink` finds nothing. -/
theorem Unlinked.unlink (unlinked : Unlinked getId r) (rootID childID : ID) :
    Unlinked getId ⟨(r.sch.unlink rootID childID).1, r.gone⟩ := by
  rw [LinkedSchema.unlink]
  cases r.sch.emap rootID with
  | none => exact unlinked
  | some e1 =>
    cases r.sch.emap childID with
    | none => exact unlinked
    | some e2 =>
      refine ⟨fun e => ?_, ?_, unlinked.keys, unlinked.gone, unlinked.extLinks⟩
      · by_cases own : e = e1
        · subst own
          show update r.sch.outs e _ e = []
          rw [update_self, unlinked.outs]
          rfl
        · exact (update_of_ne own _ _).trans (unlinked.outs e)
      · show r.sch.inLinks.eraseP _ = []
        rw [unlinked.inLinks]
        rfl

/-- **The cases of `link`** in a schema without connections: it is refused, or the two elements are connected and
the list gets a link without ends. -/
theorem Unlinked.link (unlinked : Unlinked getId r) (rootID childID : ID) (numIn : Int) :
    (∃ refusal, r.sch.link getId rootID childID numIn = some (r.sch, some refusal) ∧
      LinksNothing r (.link rootID childID numIn)) ∨
    ∃ t, r.sch.link getId rootID childID numIn = some (t, none) ∧
      ¬ LinksNothing r (.link rootID childID numIn) ∧ t.inLinks = [⟨none, none, numIn⟩] := by
  rw [LinkedSchema.link, LinksNothing]
  cases root : r.sch.emap rootID with
  | none => exact Or.inl ⟨_, rfl, Or.inl rfl⟩
  | some e1 =>
    cases child : r.sch.emap childID with
    | none => exact Or.inl ⟨_, rfl, Or.inr (Or.inl rfl)⟩
    | some e2 =>
      dsimp only
      rw [LinkedSchema.addChildOut]
      by_cases same : e2 = e1
      · rw [if_pos same, same]
        exact Or.inl ⟨_, rfl, Or.inr (Or.inr rfl)⟩
      · have free : e2 ∉ (r.sch.outs e1).map Prod.fst := by
          rw [unlinked.outs]
          exact List.not_mem_nil
        rw [if_neg same, if_neg free, LinkedSchema.find, unlinked.outs e2]
        refine Or.inr ⟨_, rfl, ?_, ?_⟩
        · rintro (none | none | equal)
          · exact absurd none (Option.some_ne_none e1)
          · exact absurd none (Option.some_ne_none e2)
          · exact same (Option.some.inj equal).symm
        · show r.sch.inLinks ++ [INLink.new e1 e2 numIn] = _
          rw [unlinked.inLinks]
          rfl

theorem not_booked_of_inLinks {n : Int} (link : (⟨none, none, n⟩ : INLink El) ∈ r.sch.inLinks) :
    ¬ Booked getId r := by
  intro booked
  obtain ⟨a, b, num, -, same⟩ := (booked.links _).mp link
  exact absurd (congrArg INLink.fromEl same).symm (Option.some_ne_none a)

theorem unlinked_step {op : SchemaOp ID El} (unlinked : Unlinked getId r) (nothing : LinksNothing r op)
    (stepped : (schemaOps getId).step r op = some u) : Unlinked getId u := by
  cases op with
  | manage el =>
    obtain rfl := Option.some.inj stepped
    exact unlinked.manage el
  | link rootID childID numIn =>
    rcases unlinked.link rootID childID numIn with ⟨refusal, linked, -⟩ | ⟨t, -, links, -⟩
    · have stepped : (r.sch.link getId rootID childID numIn).map (fun done => ⟨done.1, r.gone⟩) = some u := stepped
      rw [linked] at stepped
      obtain rfl := Option.some.inj stepped
      exact unlinked
    · exact absurd nothing links
  | unlink rootID childID =>
    obtain rfl := Option.some.inj stepped
    exact unlinked.unlink rootID childID
  | extlink name childID numIn =>
    obtain rfl := Option.some.inj stepped
    exact unlinked.extlink name childID numIn
  | remove el =>
    obtain rfl := Option.some.inj stepped
    exact unlinked.remove el

/-- **The exact runs in which the links are booked**: those that link nothing. -/
theorem booked_iff (started : (schemaOps getId).start r) (ops : List (SchemaOp ID El)) :
    (schemaOps getId).Always (Booked getId) r ops ↔ (schemaOps getId).Meets LinksNothing r ops := by
  obtain rfl := started
  refine Machine.always_iff_meets (P := Unlinked getId) (fun _ unlinked => unlinked.booked)
    (fun _ _ _ unlinked nothing stepped => unlinked_step unlinked nothing stepped) ?_ unlinked_empty
  intro s op unlinked links
  cases op with
  | link rootID childID numIn =>
    rcases unlinked.link rootID childID numIn with ⟨-, -, nothing⟩ | ⟨t, linked, -, inLinks⟩
    · exact absurd nothing links
    · refine ⟨⟨t, s.gone⟩, ?_, not_booked_of_inLinks (n := numIn) ?_⟩
      · show (s.sch.link getId rootID childID numIn).map (fun done => (⟨done.1, s.gone⟩ : LinkRun ID El)) = _
        rw [linked]
        rfl
      · show _ ∈ t.inLinks
        rw [inLinks]
        exact List.mem_singleton_self _
  | manage el => exact absurd trivial links
  | unlink rootID childID => exact absurd trivial links
  | extlink name childID numIn => exact absurd trivial links
  | remove el => exact absurd trivial links

end Unlinked

/-- Links for an unknown identifier and of an element with itself, and an external one that is removed. -/
theorem booked_refused :
    (schemaOps (fun el : Nat => el)).Always (Booked fun el : Nat => el) ⟨.empty, []⟩
      [.manage 1, .link 1 2 1, .manage 2, .link 2 2 1, .extlink "Input_S" 2 1, .unlink 1 2, .remove 2] :=
  (booked_iff rfl _).mpr (by decide)

/-- **A link that is made**: the list gets an entry without ends, so it is not the set of the connections. The
child stays linked when it is removed. -/
theorem linked_not_booked :
    (¬ ∀ (r : LinkRun Nat Nat) (ops : List (SchemaOp Nat Nat)), (schemaOps (fun el : Nat => el)).start r →
      (schemaOps (fun el : Nat => el)).Always (Booked fun el : Nat => el) r ops) ∧
    ∃ t, (schemaOps (fun el : Nat => el)).run (⟨.empty, []⟩ : LinkRun Nat Nat)
        [.manage 1, .manage 2, .link 1 2 1, .remove 2] = some t ∧
      2 ∈ t.gone ∧ t.sch.Connection (fun el : Nat => el) 1 2 1 := by
  constructor
  · intro all
    have booked := all ⟨.empty, []⟩ [.manage 1, .manage 2, .link 1 2 1] rfl
    have last := ((booked.2 _ rfl).2 _ rfl).2 _ rfl
    exact @not_booked_of_inLinks Nat Nat _ _ (fun el : Nat => el) _ 1 (by decide) last
  · exact ⟨_, rfl, by decide, by decide, by decide⟩

end UniSet.LogicProcessor

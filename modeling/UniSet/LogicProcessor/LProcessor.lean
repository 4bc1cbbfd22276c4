/-
**The steps of a logic processor, and that the schema computes its formula.**

* `LProcessor` — a schema with its external inputs. `getInputs`, `processing`, `step` as in the source.
* `Feeds` — the links that feed an input of an element: outputs of elements and external inputs.
* `Law` — after a step every output is the element's function of what feeds its inputs.
* `Spread` — what a list of calls of `setIn` leaves: its inputs have received their values, the other
  inputs keep theirs, and elements stay in sync with their children.
* **`formula_of_forwarded`**: a schema computes its formula in every run without a missed change.
-/

import UniSet.LogicProcessor.Formula
import UniSet.LogicProcessor.Schema
import UniSet.Processes.Sensor

namespace UniSet.LogicProcessor

open Lib Element
open Processes (ObjectId)
open Schema (Call Visit Answer Edge)

/-- **`EXTInfo`**: a sensor with its last value, and the input it is linked to. -/
structure EXTInfo (ID : Type*) where
  sid : ObjectId
  value : Int
  el : ID
  numInput : Nat
deriving DecidableEq, Repr

/-- **`LProcessor`**: the schema and the external inputs. -/
structure LProcessor (ID : Type*) where
  sch : Schema ID
  extInputs : List (EXTInfo ID)

set_option linter.unusedSectionVars false

variable {ID : Type*} [DecidableEq ID]

namespace LProcessor

/-! ### A step -/

/-- **`getInputs`** from the i-th request on, and whether no request has thrown. An exception ends it. -/
def getInputs (getValue : Nat → ObjectId → Option Int) :
    Nat → List (EXTInfo ID) → List (EXTInfo ID) × Bool
  | _, [] => ([], true)
  | i, it :: rest =>
    match getValue i it.sid with
    | none => (it :: rest, false)
    | some value =>
      let done := getInputs getValue (i + 1) rest
      ({ it with value := value } :: done.1, done.2)

/-- The loop of `processing` over the external inputs. -/
def setInputs (setIn : Call ID → Option (Answer ID)) :
    List (EXTInfo ID) → (ID → Element) → Option (Answer ID)
  | [], els => some (els, [])
  | it :: rest, els =>
    (setIn ⟨els, it.el, it.numInput, it.value⟩).bind fun first =>
      (setInputs setIn rest first.1).map fun last => (last.1, first.2 ++ last.2)

/-- The loop of `processing` over all elements. -/
def tickAll (tick : (ID → Element) → ID → Option (Answer ID)) :
    List ID → (ID → Element) → Option (Answer ID)
  | [], els => some (els, [])
  | id :: rest, els =>
    (tick els id).bind fun first =>
      (tickAll tick rest first.1).map fun last => (last.1, first.2 ++ last.2)

/-- **`processing`**: the elements after it and the calls of `setIn`. In an acyclic schema no more nested
calls are needed than there are elements. -/
def processing (sch : Schema ID) (extInputs : List (EXTInfo ID)) (now : Nat) : Option (Answer ID) :=
  let n := sch.ids.length + 1
  (setInputs (Schema.propagate sch.outs now n) extInputs sch.el).bind fun set =>
    (tickAll (Schema.tick sch.outs now n) sch.ids set.1).map fun ticked =>
      (ticked.1, set.2 ++ ticked.2)

/-- What a step depends on: its instant and the answers to the requests. None is an exception. -/
structure Moment where
  now : Nat
  getValue : Nat → ObjectId → Option Int

/-- All requests of a step are answered. -/
def Answered (p : LProcessor ID) (moment : Moment) : Prop :=
  (getInputs moment.getValue 0 p.extInputs).2 = true

instance (p : LProcessor ID) (moment : Moment) : Decidable (p.Answered moment) :=
  inferInstanceAs (Decidable (_ = true))

/-- **`step`**, without the writing of outputs to sensors. -/
def step (p : LProcessor ID) (moment : Moment) : Option (LProcessor ID) :=
  let read := getInputs moment.getValue 0 p.extInputs
  if read.2 then
    (processing p.sch read.1 moment.now).map fun done => ⟨{ p.sch with el := done.1 }, read.1⟩
  else some { p with extInputs := read.1 }

/-! ### The formula -/

/-- What an input can be linked to. -/
inductive Source (ID : Type*)
  | element (id : ID)
  | ext (i : Nat)

/-- **The links that feed an input**: a child of the element, or the external input of the position. -/
def Feeds (p : LProcessor ID) : Source ID → ID → Nat → Prop
  | .element a, x, input => ∃ num, (x, num) ∈ p.sch.outs a ∧ (p.sch.el x).port num = input
  | .ext i, x, input => ∃ it, p.extInputs[i]? = some it ∧ it.el = x ∧ (p.sch.el x).port it.numInput = input

/-- The current value of a source. -/
def Carries (p : LProcessor ID) (value : Int) : Source ID → Prop
  | .element a => (p.sch.el a).getOut = value
  | .ext i => ∃ it, p.extInputs[i]? = some it ∧ it.value = value

/-- **The output of each element is its function of the values linked to its inputs.** -/
def Formula (p : LProcessor ID) : Prop :=
  ∀ x ∈ p.sch.ids, ∀ inp : Nat → Int,
    (∀ input ∈ (p.sch.el x).inputs, ∀ source, p.Feeds source x input → p.Carries (inp input) source) →
      (p.sch.el x).getOut = (p.sch.el x).func inp

/-- **A schema that is put together**: acyclic, and each input is fed by exactly one link. -/
structure Wired (p : LProcessor ID) : Prop where
  inv : Schema.Inv p.sch
  known : ∀ it ∈ p.extInputs, it.el ∈ p.sch.ids
  fed : ∀ x ∈ p.sch.ids, ∀ input ∈ (p.sch.el x).inputs, ∃! source, p.Feeds source x input

/-- **The machine of a logic processor**, from new elements. -/
def machine : Machine (LProcessor ID) Moment where
  start p := p.Wired ∧ ∀ x ∈ p.sch.ids, Fresh (p.sch.el x)
  step := step

/-- **A step ends, and if it reads its inputs the schema computes its formula.** -/
def Law (p : LProcessor ID) (moment : Moment) : Prop :=
  ∃ q, p.step moment = some q ∧ (p.Answered moment → q.Formula)

/-- Each element has an input, but for an `OR` without inputs that nothing is linked to. -/
def HasInputs (p : LProcessor ID) : Prop :=
  ∀ x ∈ p.sch.ids, (p.sch.el x).inputs = [] → p.sch.el x = newTOR 0 false ∧ p.sch.outs x = []

/-- **No call of the step misses a change of an element with children.** -/
def Forwarded (p : LProcessor ID) (moment : Moment) : Prop :=
  ∀ done ∈ processing p.sch (getInputs moment.getValue 0 p.extInputs).1 moment.now,
    ∀ visit ∈ done.2, p.sch.outs visit.id = [] ∨ ¬Missed visit.num visit.value visit.el

instance (p : LProcessor ID) (moment : Moment) : Decidable (p.Forwarded moment) :=
  inferInstanceAs (Decidable (∀ done ∈ processing p.sch _ moment.now, ∀ visit ∈ done.2, _ ∨ ¬_))

variable {x : ID}

/-! ### What calls leave -/

section Spread

variable {s : Schema ID} {now : Nat}

/-- Two numbers are for the same input of an element. -/
def SamePort (s : Schema ID) (x : ID) (m k : Nat) : Prop :=
  (s.el x).port m = (s.el x).port k ∧ (s.el x).port m ∈ (s.el x).inputs

theorem SamePort.symm {m k : Nat} (same : SamePort s x m k) : SamePort s x k m :=
  ⟨same.1.symm, same.1 ▸ same.2⟩

/-- No input is fed by two elements. -/
def OneFeeder (s : Schema ID) : Prop :=
  ∀ a b x k m, (x, k) ∈ s.outs a → (x, m) ∈ s.outs b → SamePort s x k m → a = b

/-- The elements of a schema at some time: what does not change is as it was, and outputs agree with the
kept inputs. -/
structure Kept (s : Schema ID) (els : ID → Element) : Prop where
  alike : ∀ x, Alike (s.el x) (els x)
  sound : ∀ x ∈ s.ids, Sound (els x)

/-- **An element is in sync**: its children have received its output, or it has never been set. -/
def InSync (outs : ID → List (ID × Nat)) (els : ID → Element) (x : ID) : Prop :=
  (els x).initOut = true ∨ ∀ out ∈ outs x, Received (els out.1) out.2 (els x).getOut

/-- A value for an input. -/
structure Put (ID : Type*) where
  id : ID
  num : Nat
  value : Int

/-- `a` is an element one of the values is for, or below one. -/
def Below (s : Schema ID) (puts : List (Put ID)) (a : ID) : Prop :=
  ∃ put ∈ puts, Relation.ReflTransGen (Edge s.outs) put.id a

/-- **The values agree with each other and with the elements that feed the inputs**, which are not below
any of them. -/
structure Ready (s : Schema ID) (puts : List (Put ID)) (els : ID → Element) : Prop where
  known : ∀ put ∈ puts, put.id ∈ s.ids
  fits : ∀ put ∈ puts, ∀ a k, (put.id, k) ∈ s.outs a → SamePort s put.id k put.num →
    (els a).getOut = put.value ∧ ¬Below s puts a
  agree : puts.Pairwise fun p q => p.id = q.id → SamePort s p.id p.num q.num → p.value = q.value

/-- **What the calls of `setIn` with some values leave.** -/
structure Spread (s : Schema ID) (puts : List (Put ID)) (els els' : ID → Element) : Prop where
  kept : Kept s els'
  got : ∀ put ∈ puts, Received (els' put.id) put.num put.value
  frame : ∀ x, ¬Below s puts x → els' x = els x
  keeps : ∀ x m w, Received (els x) m w →
    (∀ put ∈ puts, put.id = x → SamePort s x m put.num → w = put.value) →
    (∀ a k, Below s puts a → (x, k) ∈ s.outs a → ¬SamePort s x m k) → Received (els' x) m w
  sync : ∀ x, InSync s.outs els x → InSync s.outs els' x

/-- No call misses a change of an element with children. -/
def NoneMissed (s : Schema ID) (visits : List (Visit ID)) : Prop :=
  ∀ visit ∈ visits, s.outs visit.id = [] ∨ ¬Missed visit.num visit.value visit.el

/-- Every call a function answers spreads its value. -/
def Spreads (s : Schema ID) (setIn : Call ID → Option (Answer ID)) : Prop :=
  ∀ call done, setIn call = some done → Kept s call.els →
    Ready s [⟨call.id, call.num, call.value⟩] call.els → NoneMissed s done.2 →
      Spread s [⟨call.id, call.num, call.value⟩] call.els done.1

/-! ### A list of calls -/

/-- Calls with a list of values. -/
def setAll (setIn : Call ID → Option (Answer ID)) :
    List (Put ID) → (ID → Element) → Option (Answer ID)
  | [], els => some (els, [])
  | put :: puts, els =>
    (setIn ⟨els, put.id, put.num, put.value⟩).bind fun first =>
      (setAll setIn puts first.1).map fun last => (last.1, first.2 ++ last.2)

theorem setChildOut_eq (setIn : Call ID → Option (Answer ID)) (out : Int) (outs : List (ID × Nat))
    (els : ID → Element) : Schema.setChildOut setIn out outs els =
      setAll setIn (outs.map fun child => ⟨child.1, child.2, out⟩) els := by
  induction outs generalizing els with
  | nil => rfl
  | cons child outs ih =>
    rw [Schema.setChildOut, List.map_cons, setAll]
    simp only [ih]

theorem setInputs_eq (setIn : Call ID → Option (Answer ID)) (extInputs : List (EXTInfo ID))
    (els : ID → Element) : setInputs setIn extInputs els =
      setAll setIn (extInputs.map fun it => ⟨it.el, it.numInput, it.value⟩) els := by
  induction extInputs generalizing els with
  | nil => rfl
  | cons it rest ih =>
    rw [setInputs, List.map_cons, setAll]
    simp only [ih]

theorem below_cons {put : Put ID} {puts : List (Put ID)} {a : ID} :
    Below s (put :: puts) a ↔ Below s [put] a ∨ Below s puts a := by
  simp [Below]

theorem Ready.head {put : Put ID} {puts : List (Put ID)} {els : ID → Element}
    (ready : Ready s (put :: puts) els) : Ready s [put] els where
  known _ put' := ready.known _ (List.mem_cons.mpr (Or.inl (List.mem_singleton.mp put')))
  fits p put' a k out same := by
    obtain ⟨value, below⟩ :=
      ready.fits p (List.mem_cons.mpr (Or.inl (List.mem_singleton.mp put'))) a k out same
    exact ⟨value, fun inside => below (below_cons.mpr (Or.inl inside))⟩
  agree := List.pairwise_singleton _ _

variable {els : ID → Element} {setIn : Call ID → Option (Answer ID)}

theorem Ready.tail {put : Put ID} {puts : List (Put ID)} {els' : ID → Element}
    (ready : Ready s (put :: puts) els) (first : Spread s [put] els els') : Ready s puts els' where
  known _ put' := ready.known _ (List.mem_cons_of_mem _ put')
  fits p put' a k out same := by
    obtain ⟨value, below⟩ := ready.fits p (List.mem_cons_of_mem _ put') a k out same
    rw [first.frame a fun inside => below (below_cons.mpr (Or.inl inside))]
    exact ⟨value, fun inside => below (below_cons.mpr (Or.inr inside))⟩
  agree := (List.pairwise_cons.mp ready.agree).2

theorem Spread.cons {put : Put ID} {puts : List (Put ID)} {els₁ els₂ : ID → Element}
    (ready : Ready s (put :: puts) els) (first : Spread s [put] els els₁)
    (spread : Spread s puts els₁ els₂) : Spread s (put :: puts) els els₂ where
  kept := spread.kept
  got p mem := by
    rcases List.mem_cons.mp mem with rfl | mem
    · refine spread.keeps _ _ _ (first.got p List.mem_cons_self) ?_ ?_
      · intro q listed own same
        exact (List.pairwise_cons.mp ready.agree).1 q listed own.symm same
      · intro a k below out same
        exact (ready.fits p List.mem_cons_self a k out same.symm).2 (below_cons.mpr (Or.inr below))
    · exact spread.got p mem
  frame x out' := by
    rw [spread.frame x fun inside => out' (below_cons.mpr (Or.inr inside))]
    exact first.frame x fun inside => out' (below_cons.mpr (Or.inl inside))
  keeps x m w received same fed := by
    refine spread.keeps x m w (first.keeps x m w received ?_ ?_) ?_ ?_
    · intro p mem
      exact same p (List.mem_cons.mpr (Or.inl (List.mem_singleton.mp mem)))
    · exact fun a k inside => fed a k (below_cons.mpr (Or.inl inside))
    · exact fun p mem => same p (List.mem_cons_of_mem _ mem)
    · exact fun a k inside => fed a k (below_cons.mpr (Or.inr inside))
  sync x synced := spread.sync x (first.sync x synced)

theorem Spread.nil (kept' : Kept s els) : Spread s [] els els where
  kept := kept'
  got _ put := absurd put List.not_mem_nil
  frame _ _ := rfl
  keeps _ _ _ received _ _ := received
  sync _ synced := synced

/-- **Calls with a list of values spread all of them**, if each call does with its own. -/
theorem Spreads.setAll (spreads : Spreads s setIn) {puts : List (Put ID)} {done : Answer ID}
    (found : LProcessor.setAll setIn puts els = some done) (kept' : Kept s els)
    (ready : Ready s puts els) (missed : NoneMissed s done.2) : Spread s puts els done.1 := by
  induction puts generalizing els done with
  | nil =>
    obtain rfl := Option.some.inj found
    exact Spread.nil kept'
  | cons put puts ih =>
    obtain ⟨first, mem', others⟩ := Option.bind_eq_some_iff.mp found
    obtain ⟨last, mem'', rfl⟩ := Option.map_eq_some_iff.mp others
    have spread := spreads _ first mem' kept' ready.head fun visit mem =>
      missed visit (List.mem_append_left _ mem)
    have later := ih mem'' spread.kept (ready.tail spread) fun visit mem =>
      missed visit (List.mem_append_right _ mem)
    exact Spread.cons ready spread later

/-! ### One call -/

/-- An element and its children are different ones. -/
theorem child_ne (inv : Schema.Inv s) {out : ID × Nat} (mem : out ∈ s.outs x) : out.1 ≠ x := by
  intro same
  have edge : Edge s.outs x out.1 := List.mem_map_of_mem mem
  exact inv.acyclic x (.single (same ▸ edge))

section Touch

variable {els : ID → Element} {id : ID} {num : Nat} {value : Int}

/-- The elements after the assignments of one `setIn`. -/
def touch (els : ID → Element) (now : Nat) (id : ID) (num : Nat) (value : Int) : ID → Element :=
  Function.update els id ((els id).setIn now num value).1

theorem touch_self : touch els now id num value id = ((els id).setIn now num value).1 :=
  Function.update_self _ _ _

theorem touch_of_ne (apart : x ≠ id) : touch els now id num value x = els x :=
  Function.update_of_ne apart _ _

theorem Kept.after_touch (kept : Kept s els) : Kept s (touch els now id num value) where
  alike x := by
    by_cases own : x = id
    · subst own
      rw [touch_self]
      exact (kept.alike x).trans (setIn_alike _)
    · rw [touch_of_ne own]
      exact kept.alike x
  sound x own := by
    by_cases other : x = id
    · subst other
      rw [touch_self]
      exact (kept.sound x own).setIn
    · rw [touch_of_ne other]
      exact kept.sound x own

theorem Kept.received_touch (kept : Kept s els) {m : Nat} {w : Int} (received : Received (els x) m w)
    (same : x = id → SamePort s x m num → w = value) :
    Received (touch els now id num value x) m w := by
  by_cases own : x = id
  · subst own
    rw [touch_self]
    refine received.setIn fun ported input => same rfl ?_
    rw [SamePort, (kept.alike x).port, (kept.alike x).inputs]
    exact ⟨ported, input⟩
  · rwa [touch_of_ne own]

theorem Kept.inSync_touch (kept : Kept s els) (ready : Ready s [⟨id, num, value⟩] els) (apart : x ≠ id)
    (sync : InSync s.outs els x) : InSync s.outs (touch els now id num value) x := by
  rw [InSync, touch_of_ne apart]
  refine sync.imp_right fun every out mem => kept.received_touch (every out mem) ?_
  rintro rfl same
  exact (ready.fits _ List.mem_cons_self x out.2 mem same).1

/-- **A call that ends without forwarding** keeps its element in sync. -/
theorem Kept.spread_quiet (before : Kept s els) (inv : Schema.Inv s)
    (ready : Ready s [⟨id, num, value⟩] els) (quiet : ((els id).setIn now num value).2 = false)
    (missed : s.outs id = [] ∨ ¬Missed num value (els id)) :
    Spread s [⟨id, num, value⟩] els (touch els now id num value) where
  kept := before.after_touch
  got put listed := by
    obtain rfl := List.mem_singleton.mp listed
    rw [touch_self]
    exact (before.sound id (ready.known _ List.mem_cons_self)).received
  frame x own := by
    refine touch_of_ne ?_
    rintro rfl
    exact own ⟨_, List.mem_cons_self, .refl⟩
  keeps x m w taken same _ :=
    before.received_touch taken fun same' => same _ List.mem_cons_self same'.symm
  sync x synced := by
    by_cases own : x = id
    · subst own
      rcases missed with nothing | missed
      · exact Or.inr fun out output => absurd (nothing ▸ output) List.not_mem_nil
      · have right' := before.sound x (ready.known _ List.mem_cons_self)
        obtain ⟨begun, output⟩ := right'.setIn_quiet quiet missed
        rw [InSync, touch_self, output]
        refine Or.inr fun child mem => ?_
        rw [touch_of_ne (child_ne inv mem)]
        exact synced.resolve_left (by simp [begun]) child mem
    · exact before.inSync_touch ready own synced

theorem ready_children (inv : Schema.Inv s) (one : OneFeeder s) :
    Ready s ((s.outs id).map fun child => ⟨child.1, child.2, (els id).getOut⟩) els where
  known put listed := by
    obtain ⟨child, mem', rfl⟩ := List.mem_map.mp listed
    exact (inv.known id child.1 (List.mem_map_of_mem mem')).2
  fits put listed a k out same := by
    obtain ⟨child, mem', rfl⟩ := List.mem_map.mp listed
    obtain rfl := one a id child.1 k child.2 out mem' same
    refine ⟨rfl, ?_⟩
    rintro ⟨other, mem'', path⟩
    obtain ⟨sibling, mem, rfl⟩ := List.mem_map.mp mem''
    have edge : Edge s.outs a sibling.1 := List.mem_map_of_mem mem
    exact inv.acyclic a (.head' edge path)
  agree := by
    rw [List.pairwise_map]
    exact List.pairwise_of_forall fun _ _ _ _ => rfl

theorem below_of_children {out : Int} {a : ID}
    (below : Below s ((s.outs id).map fun child => ⟨child.1, child.2, out⟩) a) :
    Below s [⟨id, num, value⟩] a := by
  obtain ⟨put, mem', path⟩ := below
  obtain ⟨child, mem, rfl⟩ := List.mem_map.mp mem'
  have edge : Edge s.outs id child.1 := List.mem_map_of_mem mem
  exact ⟨_, List.mem_cons_self, .head edge path⟩

theorem not_below_children (inv : Schema.Inv s) {out : Int} :
    ¬Below s ((s.outs id).map fun child => ⟨child.1, child.2, out⟩) id := by
  rintro ⟨put, mem', path⟩
  obtain ⟨child, mem, rfl⟩ := List.mem_map.mp mem'
  have edge : Edge s.outs id child.1 := List.mem_map_of_mem mem
  exact inv.acyclic id (.head' edge path)

/-- **A call that forwards** brings its element in sync. -/
theorem Kept.spread_forward (before : Kept s els) (inv : Schema.Inv s)
    (ready : Ready s [⟨id, num, value⟩] els) {els' : ID → Element}
    (spread : Spread s ((s.outs id).map fun child =>
      ⟨child.1, child.2, (touch els now id num value id).getOut⟩) (touch els now id num value) els') :
    Spread s [⟨id, num, value⟩] els els' where
  kept := spread.kept
  got put listed := by
    obtain rfl := List.mem_singleton.mp listed
    rw [spread.frame id (not_below_children inv), touch_self]
    exact (before.sound id (ready.known _ List.mem_cons_self)).received
  frame x own := by
    rw [spread.frame x fun inside => own (below_of_children inside)]
    refine touch_of_ne ?_
    rintro rfl
    exact own ⟨_, List.mem_cons_self, .refl⟩
  keeps x m w taken same fed := by
    refine spread.keeps x m w (before.received_touch taken fun same' => ?_) ?_ ?_
    · exact same _ List.mem_cons_self same'.symm
    · intro put listed same' port
      obtain ⟨child, mem, rfl⟩ := List.mem_map.mp listed
      subst same'
      exact absurd port (fed id child.2 ⟨_, List.mem_cons_self, .refl⟩ mem)
    · exact fun a k inside => fed a k (below_of_children inside)
  sync x synced := by
    by_cases own : x = id
    · subst own
      refine Or.inr fun child mem => ?_
      rw [spread.frame x (not_below_children inv)]
      exact spread.got _ (List.mem_map_of_mem mem)
    · exact spread.sync x (before.inSync_touch ready own synced)

end Touch

/-- One more nested call spreads its value if the calls below it do. -/
theorem Spreads.setInBody (inv : Schema.Inv s) (one : OneFeeder s) (spreads : Spreads s setIn) :
    Spreads s (Schema.setInBody s.outs now setIn) := by
  intro call done ran kept ready missed
  rw [Schema.setInBody] at ran
  split at ran
  · obtain ⟨rest, mem', rfl⟩ := Option.map_eq_some_iff.mp ran
    rw [setChildOut_eq] at mem'
    have self : (touch call.els now call.id call.num call.value call.id).getOut =
        ((call.els call.id).setIn now call.num call.value).1.getOut := congrArg getOut touch_self
    rw [← self] at mem'
    have spread := spreads.setAll mem' kept.after_touch (ready_children inv one) fun visit mem =>
      missed visit (List.mem_cons_of_mem _ mem)
    exact kept.spread_forward inv ready spread
  · next quiet =>
    obtain rfl := Option.some.inj ran
    exact kept.spread_quiet inv ready (Bool.eq_false_iff.mpr quiet)
      (missed _ List.mem_cons_self)

/-- **A propagation spreads its value**: by induction over the nesting of the calls. -/
theorem spreads_propagate (inv : Schema.Inv s) (one : OneFeeder s) (n : Nat) :
    Spreads s (Schema.propagate s.outs now n) :=
  unroll_induct (fun _ _ spreads => nomatch spreads) (fun _ spreads => spreads.setInBody inv one) n

/-! ### One step -/

/-- A `tick` of the elements of a formula does nothing. -/
theorem tickAll_eq (kept : Kept s els) {n : Nat} {ids : List ID} (mem' : ∀ x ∈ ids, x ∈ s.ids) :
    tickAll (Schema.tick s.outs now n) ids els = some (els, []) := by
  induction ids with
  | nil => rfl
  | cons x ids ih =>
    have found : Schema.tick s.outs now n els x = some (els, []) := by
      have right := kept.sound x (mem' x List.mem_cons_self)
      have idle : (els x).tick now = (els x, false) := by
        cases kind : els x with
        | TDelay delay pt myout =>
          rw [kind] at right
          exact right.elim
        | _ => rfl
      rw [Schema.tick, idle]
      dsimp only
      rw [if_neg (by simp), Function.update_eq_self]
    rw [tickAll, found, Option.bind_some, ih fun y mem => mem' y (List.mem_cons_of_mem _ mem)]
    rfl

theorem setAll_isSome (holds : ∀ call, (setIn call).isSome) (puts : List (Put ID))
    (els : ID → Element) : (setAll setIn puts els).isSome := by
  induction puts generalizing els with
  | nil => rfl
  | cons put puts ih =>
    obtain ⟨first, mem⟩ := Option.isSome_iff_exists.mp (holds ⟨els, put.id, put.num, put.value⟩)
    rw [setAll, mem, Option.bind_some, Option.isSome_map]
    exact ih _

theorem tickAll_isSome {tick : (ID → Element) → ID → Option (Answer ID)}
    (holds : ∀ els x, (tick els x).isSome) (ids : List ID) (els : ID → Element) :
    (tickAll tick ids els).isSome := by
  induction ids generalizing els with
  | nil => rfl
  | cons x ids ih =>
    obtain ⟨first, mem⟩ := Option.isSome_iff_exists.mp (holds els x)
    rw [tickAll, mem, Option.bind_some, Option.isSome_map]
    exact ih _

/-- The values of the external inputs. -/
def puts (extInputs : List (EXTInfo ID)) : List (Put ID) :=
  extInputs.map fun it => ⟨it.el, it.numInput, it.value⟩

/-- In an acyclic schema `processing` ends: the inputs are set, then every element has its `tick`. -/
theorem exists_processing (inv : Schema.Inv s) (now : Nat) (extInputs : List (EXTInfo ID)) :
    ∃ set ticked, setAll (Schema.propagate s.outs now (s.ids.length + 1)) (puts extInputs) s.el = some set ∧
      tickAll (Schema.tick s.outs now (s.ids.length + 1)) s.ids set.1 = some ticked ∧
      processing s extInputs now = some (ticked.1, set.2 ++ ticked.2) := by
  have len : s.ids.length < s.ids.length + 1 := Nat.lt_succ_self _
  obtain ⟨set, mem'⟩ := Option.isSome_iff_exists.mp
    (setAll_isSome (fun call => inv.propagate_isSome now len call) (puts extInputs) s.el)
  obtain ⟨ticked, mem⟩ := Option.isSome_iff_exists.mp
    (tickAll_isSome (fun els x => inv.tick_isSome now len els x) s.ids set.1)
  refine ⟨set, ticked, mem', mem, ?_⟩
  rw [processing, setInputs_eq, ← puts, mem', Option.bind_some, mem]
  rfl

/-- **`processing` ends and spreads the values of the external inputs.** -/
theorem processing_spread (inv : Schema.Inv s) (one : OneFeeder s) (kept' : Kept s s.el)
    {extInputs : List (EXTInfo ID)} (ready : Ready s (puts extInputs) s.el) :
    ∃ done, processing s extInputs now = some done ∧
      (NoneMissed s done.2 → Spread s (puts extInputs) s.el done.1) := by
  obtain ⟨set, ticked, put, ran, ran'⟩ := exists_processing inv now extInputs
  refine ⟨_, ran', fun missed => ?_⟩
  have spread := (spreads_propagate inv one _).setAll put kept' ready fun visit mem =>
    missed visit (List.mem_append_left _ mem)
  rw [tickAll_eq spread.kept fun _ listed => listed] at ran
  obtain rfl := Option.some.inj ran
  exact spread

end Spread

/-! ### Schemas that are put together -/

section Wired

variable {p q : LProcessor ID}

theorem Wired.oneFeeder (wired : p.Wired) : OneFeeder p.sch := by
  intro a b x k m mem mem' same
  have known : x ∈ p.sch.ids := (wired.inv.known a x (List.mem_map_of_mem mem)).2
  obtain ⟨source, -, feeder⟩ := wired.fed x known _ same.2
  have first := feeder (.element a) ⟨k, mem, rfl⟩
  have second := feeder (.element b) ⟨m, mem', same.1.symm⟩
  exact Source.element.inj (first.trans second.symm)

/-- The values of the external inputs may be set. -/
theorem Wired.ready (wired : p.Wired) (els : ID → Element) : Ready p.sch (puts p.extInputs) els where
  known put mem := by
    obtain ⟨it, hit, rfl⟩ := List.mem_map.mp mem
    exact wired.known it hit
  fits put mem a k out same := by
    obtain ⟨it, hit, rfl⟩ := List.mem_map.mp mem
    obtain ⟨i, place⟩ := List.mem_iff_getElem?.mp hit
    obtain ⟨source, -, feeder⟩ := wired.fed it.el (wired.known it hit) _ same.2
    have first' := feeder (.element a) ⟨k, out, rfl⟩
    have second' := feeder (.ext i) ⟨it, place, rfl, same.1.symm⟩
    exact nomatch first'.trans second'.symm
  agree := by
    rw [puts, List.pairwise_map, List.pairwise_iff_getElem]
    intro i j place place' less same' same
    obtain ⟨source, -, feeder⟩ := wired.fed _ (wired.known _ (List.getElem_mem place)) _ same.2
    have first := feeder (.ext i) ⟨_, List.getElem?_eq_getElem place, rfl, rfl⟩
    have second := feeder (.ext j) ⟨_, List.getElem?_eq_getElem place', same'.symm, same.1.symm⟩
    have equal : i = j := Source.ext.inj (first.trans second.symm)
    omega

/-- Only the values of the elements and of the external inputs differ. -/
structure SameLinks (p q : LProcessor ID) : Prop where
  ids : q.sch.ids = p.sch.ids
  outs : q.sch.outs = p.sch.outs
  alike : ∀ x, Alike (p.sch.el x) (q.sch.el x)
  links : q.extInputs.map (fun it => (it.el, it.numInput)) = p.extInputs.map fun it => (it.el, it.numInput)

theorem SameLinks.ext_iff (sameLinks : SameLinks p q) (i : Nat) (x : ID) (num : Nat) :
    (∃ it, q.extInputs[i]? = some it ∧ it.el = x ∧ it.numInput = num) ↔
      ∃ it, p.extInputs[i]? = some it ∧ it.el = x ∧ it.numInput = num := by
  have link := congrArg (fun links => links[i]? = some (x, num)) sameLinks.links
  simpa [List.getElem?_map, Option.map_eq_some_iff] using link

theorem SameLinks.feeds (sameLinks : SameLinks p q) (source : Source ID) (x : ID) (input : Nat) :
    q.Feeds source x input ↔ p.Feeds source x input := by
  cases source with
  | element a => simp only [Feeds, sameLinks.outs, (sameLinks.alike x).port]
  | ext i =>
    simp only [Feeds, (sameLinks.alike x).port]
    constructor
    · rintro ⟨it, hit, rfl, ported⟩
      obtain ⟨it', found, own, num⟩ := (sameLinks.ext_iff i it.el it.numInput).mp ⟨it, hit, rfl, rfl⟩
      exact ⟨it', found, own, num ▸ ported⟩
    · rintro ⟨it, hit, rfl, ported⟩
      obtain ⟨it', found, own, num⟩ := (sameLinks.ext_iff i it.el it.numInput).mpr ⟨it, hit, rfl, rfl⟩
      exact ⟨it', found, own, num ▸ ported⟩

theorem SameLinks.wired (sameLinks : SameLinks p q) (wired' : p.Wired) : q.Wired where
  inv := by
    refine ⟨?_, ?_⟩
    · rw [sameLinks.ids, sameLinks.outs]
      exact wired'.inv.known
    · rw [sameLinks.outs]
      exact wired'.inv.acyclic
  known it hit := by
    obtain ⟨i, place⟩ := List.mem_iff_getElem?.mp hit
    obtain ⟨it', found, own, -⟩ := (sameLinks.ext_iff i it.el it.numInput).mp ⟨it, place, rfl, rfl⟩
    rw [sameLinks.ids, ← own]
    exact wired'.known it' (List.mem_of_getElem? found)
  fed x listed input mem := by
    rw [sameLinks.ids] at listed
    rw [← (sameLinks.alike x).inputs] at mem
    simp only [sameLinks.feeds]
    exact wired'.fed x listed input mem

theorem getInputs_links (getValue : Nat → ObjectId → Option Int) (i : Nat) (ext : List (EXTInfo ID)) :
    (getInputs getValue i ext).1.map (fun it => (it.el, it.numInput)) =
      ext.map fun it => (it.el, it.numInput) := by
  induction ext generalizing i with
  | nil => rfl
  | cons it rest ih =>
    rw [getInputs]
    split
    · rfl
    · rw [List.map_cons, ih, List.map_cons]

/-! ### The values that have arrived -/

/-- The inputs of an element without children do not matter here. -/
def Driven (p : LProcessor ID) : Prop := ∀ x ∈ p.sch.ids, (p.sch.el x).inputs = [] → p.sch.outs x = []

/-- **Everything has been set**: by induction from the external inputs along the links. -/
theorem Wired.settled (wired : p.Wired) (driven : p.Driven)
    (got : ∀ it ∈ p.extInputs, Received (p.sch.el it.el) it.numInput it.value)
    (sync : ∀ x, InSync p.sch.outs p.sch.el x) (listed : x ∈ p.sch.ids)
    (apart : (p.sch.el x).inputs ≠ []) : (p.sch.el x).initOut = false := by
  have acyclic' : Acyclic fun b a => Edge p.sch.outs a b := by
    intro a cycle
    exact wired.inv.acyclic a (Relation.transGen_swap.mp cycle)
  induction depth : height (fun b a => Edge p.sch.outs a b) p.sch.ids x using Nat.strongRecOn
    generalizing x with
  | _ n ih =>
    obtain ⟨input, mem⟩ := List.exists_mem_of_ne_nil _ apart
    obtain ⟨source, feeds, -⟩ := wired.fed x listed input mem
    cases source with
    | ext i =>
      obtain ⟨it, hit, rfl, -⟩ := feeds
      exact (got it (List.mem_of_getElem? hit)).forwarded
    | element a =>
      obtain ⟨num, out, -⟩ := feeds
      have edge : Edge p.sch.outs a x := List.mem_map_of_mem out
      have known := (wired.inv.known a x edge).1
      have apart' : (p.sch.el a).inputs ≠ [] := by
        intro nothing
        rw [driven a known nothing] at out
        cases out
      have put := ih _ (depth ▸ height_lt acyclic' edge known) known apart' rfl
      have received := (sync a).resolve_left (by simp [put]) _ out
      exact received.forwarded

/-- **The formula holds** where the values of the external inputs have arrived and the elements are in
sync. -/
theorem Wired.formula (wired : p.Wired) (driven : p.Driven)
    (sound : ∀ x ∈ p.sch.ids, Sound (p.sch.el x))
    (got : ∀ it ∈ p.extInputs, Received (p.sch.el it.el) it.numInput it.value)
    (sync : ∀ x, InSync p.sch.outs p.sch.el x) : p.Formula := by
  intro x listed inp carries
  refine (sound x listed).getOut_eq_func fun input mem => ?_
  obtain ⟨source, feeds, -⟩ := wired.fed x listed input mem
  have carries' := carries input mem source feeds
  cases source with
  | ext i =>
    obtain ⟨it, hit, rfl, port⟩ := feeds
    obtain ⟨it', found, valued⟩ := carries'
    obtain rfl := Option.some.inj (hit.symm.trans found)
    exact ⟨_, port, valued ▸ got it (List.mem_of_getElem? hit)⟩
  | element a =>
    obtain ⟨num, out, port⟩ := feeds
    have known := (wired.inv.known a x (List.mem_map_of_mem out)).1
    have apart : (p.sch.el a).inputs ≠ [] := by
      intro nothing
      rw [driven a known nothing] at out
      cases out
    have put := wired.settled driven got sync known apart
    have received := (sync a).resolve_left (by simp [put]) _ out
    rw [Carries] at carries'
    exact ⟨num, port, carries' ▸ received⟩

/-! ### Runs -/

/-- **What holds between the steps.** -/
structure Inv (p : LProcessor ID) : Prop where
  wired : p.Wired
  driven : p.Driven
  sound : ∀ x ∈ p.sch.ids, Sound (p.sch.el x)
  sync : ∀ x, InSync p.sch.outs p.sch.el x

theorem Inv.start (started : machine.start p) (inputs : p.HasInputs) : Inv p where
  wired := started.1
  driven x apart nothing := (inputs x apart nothing).2
  sound x apart := (started.2 x apart).sound fun nothing => (inputs x apart nothing).1
  sync x := by
    by_cases apart : x ∈ p.sch.ids
    · exact Or.inl (started.2 x apart).initOut
    · refine Or.inr fun out mem => ?_
      exact absurd (started.1.inv.known x out.1 (List.mem_map_of_mem mem)).1 apart

theorem sameLinks_read (p : LProcessor ID) (moment : Moment) :
    SameLinks p ⟨p.sch, (getInputs moment.getValue 0 p.extInputs).1⟩ where
  ids := rfl
  outs := rfl
  alike _ := Alike.refl _
  links := getInputs_links _ _ _

/-- **One step.** -/
theorem Inv.step (inv : Inv p) {moment : Moment} (forwarded : p.Forwarded moment) :
    ∃ q, p.step moment = some q ∧ Inv q ∧ (p.Answered moment → q.Formula) := by
  have read := sameLinks_read p moment
  have joined := read.wired inv.wired
  rw [LProcessor.step]
  split
  · next answered =>
    have kept'' : Kept p.sch p.sch.el := ⟨fun _ => Alike.refl _, inv.sound⟩
    obtain ⟨done, ran, spread⟩ :=
      @processing_spread ID _ p.sch moment.now inv.wired.inv inv.wired.oneFeeder kept'' _
        (joined.ready p.sch.el)
    have every := spread (forwarded done ran)
    rw [ran, Option.map_some]
    let q : LProcessor ID := ⟨{ p.sch with el := done.1 }, (getInputs moment.getValue 0 p.extInputs).1⟩
    have sameLinks : SameLinks p q := ⟨rfl, rfl, every.kept.alike, read.links⟩
    have driven' : q.Driven := fun x mem nothing =>
      inv.driven x mem ((every.kept.alike x).inputs.trans nothing)
    have inSync : ∀ x, InSync q.sch.outs q.sch.el x := fun x => every.sync x (inv.sync x)
    have received : ∀ it ∈ q.extInputs, Received (q.sch.el it.el) it.numInput it.value :=
      fun it hit => every.got _ (List.mem_map_of_mem hit)
    have kept' := sameLinks.wired inv.wired
    exact ⟨q, rfl, ⟨kept', driven', every.kept.sound, inSync⟩, fun _ =>
      kept'.formula driven' every.kept.sound received inSync⟩
  · next thrown =>
    refine ⟨_, rfl, ⟨joined, inv.driven, inv.sound, inv.sync⟩, fun answered => ?_⟩
    exact absurd answered thrown

/-- **A schema computes its formula in every run without a missed change.** -/
theorem formula_of_forwarded (started : machine.start p) (inputs : p.HasInputs)
    (moments : List Moment) (meets : machine.Meets Forwarded p moments) :
    machine.Meets Law p moments := by
  refine Machine.meets_of_invariant (P := Inv) ?_ ?_ (Inv.start started inputs) meets
  · intro p moment q inv forwarded stepped
    obtain ⟨q', found, inv', -⟩ := inv.step forwarded
    obtain rfl := Option.some.inj (found.symm.trans stepped)
    exact inv'
  · intro p moment inv forwarded
    obtain ⟨q, found', -, formula⟩ := inv.step forwarded
    exact ⟨q, found', formula⟩

end Wired

/-! ### A selector and a comparison -/

/-- Element 1 selects one of two values, element 2 compares the output with 1. -/
def selector : LProcessor Nat where
  sch :=
    { ids := [1, 2]
      el := fun x => if x = 1 then .newTSEL_R false 0 0 else .newTA2D 1
      outs := fun x => if x = 1 then [(2, 1)] else [] }
  extInputs := [⟨11, 0, 1, 1⟩, ⟨12, 0, 1, 2⟩, ⟨13, 0, 1, 3⟩]

/-- The one link of each input. -/
def selectorSource (x input : Nat) : Source Nat := if x = 2 then .element 1 else .ext (input - 1)

theorem selector_only {source : Source Nat} {x input : Nat} (feeds : selector.Feeds source x input) :
    source = selectorSource x input := by
  cases source with
  | element a =>
    obtain ⟨num, out, -⟩ := feeds
    by_cases one : a = 1
    · subst one
      obtain ⟨rfl, rfl⟩ := Prod.mk.inj (List.mem_singleton.mp out)
      rfl
    · simp [selector, one] at out
  | ext i =>
    obtain ⟨it, hit, rfl, port⟩ := feeds
    obtain _ | _ | _ | i := i
    all_goals simp only [selector] at hit
    all_goals cases hit
    all_goals exact congrArg (fun k => Source.ext (k - 1)) port

theorem selector_start : machine.start selector := by
  have grows : ∀ a b, Edge selector.sch.outs a b → a = 1 ∧ b = 2 := by
    intro a b edge
    by_cases known : a = 1
    · subst known
      exact ⟨rfl, List.mem_singleton.mp edge⟩
    · simp [Edge, selector, known] at edge
  refine ⟨⟨⟨?_, acyclic_of_rank id ?_⟩, by decide, ?_⟩, ?_⟩
  · intro a b edge
    obtain ⟨rfl, rfl⟩ := grows a b edge
    decide
  · intro a b edge
    obtain ⟨rfl, rfl⟩ := grows a b edge
    decide
  · intro x listed input mem
    refine ⟨selectorSource x input, ?_, fun source feeds => selector_only feeds⟩
    obtain rfl | rfl : x = 1 ∨ x = 2 := by simpa [selector] using listed
    · obtain rfl | rfl | rfl : input = 1 ∨ input = 2 ∨ input = 3 := by
        simpa [selector, inputs, newTSEL_R] using mem
      · exact ⟨_, rfl, rfl, rfl⟩
      · exact ⟨_, rfl, rfl, rfl⟩
      · exact ⟨_, rfl, rfl, rfl⟩
    · obtain rfl : input = 1 := by simpa [selector, inputs, newTA2D] using mem
      exact ⟨1, List.mem_cons_self, rfl⟩
  · intro x listed
    obtain rfl | rfl : x = 1 ∨ x = 2 := by simpa [selector] using listed
    · exact .newTSEL_R false 0 0
    · exact .newTA2D 1

/-- The sensors have the values of the list. -/
def answers (values : List Int) : Moment := ⟨0, fun i _ => values[i]?⟩

theorem selector_formula :
    machine.Meets Law selector [answers [1, 5, 0], answers [0, 5, 1], answers [1, 5, 1]] :=
  formula_of_forwarded selector_start (by unfold HasInputs; decide) _ (by decide +kernel)

/-- **The change from 5 to 1 does not reach the comparison**: its output stays 0. -/
theorem selector_missed : ∃ q r, machine.start selector ∧
    machine.step selector (answers [1, 5, 0]) = some q ∧ machine.step q (answers [1, 1, 0]) = some r ∧
      (r.sch.el 1).getOut = 1 ∧ (r.sch.el 2).getOut = 0 ∧ (r.sch.el 2).func (fun _ => 1) = 1 ∧
        ¬machine.Meets Law selector [answers [1, 5, 0], answers [1, 1, 0]] := by
  refine ⟨_, _, selector_start, rfl, rfl, by decide +kernel, by decide +kernel, by decide +kernel, ?_⟩
  rintro ⟨-, later⟩
  obtain ⟨⟨r, found', formula⟩, -⟩ := later _ rfl
  obtain rfl := Option.some.inj found'
  have out := formula rfl 2 (by decide) (fun _ => 1) ?_
  · revert out
    decide +kernel
  · intro input mem source feeds
    cases source with
    | element a =>
      obtain ⟨num, member, -⟩ := feeds
      by_cases one : a = 1
      · subst one
        rw [Carries]
        decide +kernel
      · have mem' : (2, num) ∈ selector.sch.outs a := member
        simp [selector, one] at mem'
    | ext i =>
      obtain ⟨it, hit, own, -⟩ := feeds
      obtain _ | _ | _ | i := i
      all_goals cases hit
      all_goals cases own

end LProcessor

end UniSet.LogicProcessor

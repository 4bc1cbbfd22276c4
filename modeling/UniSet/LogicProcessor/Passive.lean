/-
**`PassiveLProcessor`: the logic processor that is told of its inputs.**

`LProcessor` asks for the value of every input at every step. `PassiveLProcessor` subscribes to its inputs
once and keeps the value of the last message about each; its step asks for nothing. Messages about one
sensor come in the order they were sent in, with any delay.

* `Node` — the sensors of the shared memory, the processor and the messages on their way to it.
* `passive`, `polling` — the two processors in the same surroundings, with the sensors their outputs set.
* `Told` — what is on its way and what was delivered agree with the sensors.
* **`passive_follows`** — a passive processor whose steps are taken when nothing is on its way sets the
  same sensors, and has the same elements, as the one that asks.
-/

import UniSet.Lib.Simulation
import UniSet.LogicProcessor.LProcessor

namespace UniSet.LogicProcessor

open Lib Function
open Processes (ObjectId)

set_option linter.unusedSectionVars false

variable {ID : Type*} [DecidableEq ID]

/-! ### The processors and their surroundings -/

/-- `EXTOutInfo`: the sensor that shows the output of an element. -/
structure EXTOutInfo (ID : Type*) where
  sid : ObjectId
  el : ID

/-- What does not change: the outputs, and the sensors whose value can be set. -/
structure Surroundings (ID : Type*) where
  extOuts : List (EXTOutInfo ID)
  writable : ObjectId → Bool

/-- **The sensors and a passive processor**, with the messages about each sensor on their way to it. -/
structure Node (ID : Type*) where
  values : ObjectId → Int
  proc : LProcessor ID
  inFlight : ObjectId → List Int

/-- The sensors and a processor that asks. -/
structure Polled (ID : Type*) where
  values : ObjectId → Int
  proc : LProcessor ID

namespace Node

variable (w : Surroundings ID) (n : Node ID)

/-- The processor has subscribed to a sensor. -/
def Asked (sid : ObjectId) : Prop := sid ∈ n.proc.extInputs.map (·.sid)

instance (sid : ObjectId) : Decidable (n.Asked sid) := inferInstanceAs (Decidable (_ ∈ _))

/-- `setValue` of a sensor. Only a change is sent on. -/
def setValue (sid : ObjectId) (value : Int) : Node ID :=
  if w.writable sid = false ∨ n.values sid = value then n
  else { n with
    values := update n.values sid value
    inFlight := if n.Asked sid then update n.inFlight sid (n.inFlight sid ++ [value])
      else n.inFlight }

/-- **`setOuts`.** A sensor that cannot be set is skipped. -/
def setOuts : Node ID :=
  w.extOuts.foldl (fun m out => m.setValue w out.sid (m.proc.sch.el out.el).getOut) n

/-- **`sensorInfo`**, with the next message about a sensor. -/
def sensorInfo (sid : ObjectId) : Option (Node ID) :=
  match n.inFlight sid with
  | [] => none
  | value :: rest => some { n with
      inFlight := update n.inFlight sid rest
      proc := { n.proc with extInputs := n.proc.extInputs.map fun it =>
        if it.sid = sid then { it with value := value } else it } }

/-- **`step`**: `getInputs` of the passive processor does nothing. -/
def step (now : Nat) : Option (Node ID) :=
  (LProcessor.processing n.proc.sch n.proc.extInputs now).map fun done =>
    { n with proc := ⟨{ n.proc.sch with el := done.1 }, n.proc.extInputs⟩ }.setOuts w

end Node

namespace Polled

variable (w : Surroundings ID) (m : Polled ID)

/-- `setValue` of a sensor. -/
def setValue (sid : ObjectId) (value : Int) : Polled ID :=
  if w.writable sid = false ∨ m.values sid = value then m
  else { m with values := update m.values sid value }

/-- `LProcessor::setOuts`. -/
def setOuts : Polled ID :=
  w.extOuts.foldl (fun m out => m.setValue w out.sid (m.proc.sch.el out.el).getOut) m

/-- `LProcessor::step`, with the current values of the sensors. -/
def step (now : Nat) : Option (Polled ID) :=
  (m.proc.step ⟨now, fun _ sid => some (m.values sid)⟩).map fun proc => { m with proc := proc }.setOuts w

end Polled

/-- Somebody sets a sensor, a message is delivered, the processor makes its step. -/
inductive NodeLabel
  | setValue (sid : ObjectId) (value : Int)
  | sensorInfo (sid : ObjectId)
  | step (now : Nat)
deriving DecidableEq

/-- **The passive processor**, that has just subscribed to its inputs: their values are on their way. -/
def passive (w : Surroundings ID) : Machine (Node ID) NodeLabel where
  start n := ∀ it ∈ n.proc.extInputs, (n.inFlight it.sid).getLast? = some (n.values it.sid)
  step n
    | .setValue sid value => some (n.setValue w sid value)
    | .sensorInfo sid => n.sensorInfo sid
    | .step now => n.step w now

/-- Somebody sets a sensor, the processor makes its step. -/
inductive PolledLabel
  | setValue (sid : ObjectId) (value : Int)
  | step (now : Nat)
deriving DecidableEq

/-- **The processor that asks.** -/
def polling (w : Surroundings ID) : Machine (Polled ID) PolledLabel where
  start _ := True
  step m
    | .setValue sid value => some (m.setValue w sid value)
    | .step now => m.step w now

/-- A delivery is not seen. -/
def NodeLabel.visible : NodeLabel → Option PolledLabel
  | .setValue sid value => some (.setValue sid value)
  | .sensorInfo _ => none
  | .step now => some (.step now)

/-- A step is taken when nothing is on its way to the processor. -/
def Quiet (n : Node ID) : NodeLabel → Prop
  | .step _ => ∀ it ∈ n.proc.extInputs, n.inFlight it.sid = []
  | _ => True

instance (n : Node ID) : ∀ label, Decidable (Quiet n label)
  | .step _ => inferInstanceAs (Decidable (∀ it ∈ n.proc.extInputs, _))
  | .setValue _ _ => inferInstanceAs (Decidable True)
  | .sensorInfo _ => inferInstanceAs (Decidable True)

/-! ### What the processor has been told -/

/-- **What is on its way and what was delivered agree with the sensors.** -/
def Told (n : Node ID) : Prop :=
  ∀ it ∈ n.proc.extInputs, (n.inFlight it.sid).getLast?.getD it.value = n.values it.sid

/-- A processor without the values of its inputs. -/
def wiring (p : LProcessor ID) : List (EXTInfo ID) := p.extInputs.map fun it => { it with value := 0 }

/-- **The relation** between the two. -/
structure Follows (n : Node ID) (m : Polled ID) : Prop where
  told : Told n
  values : m.values = n.values
  sch : m.proc.sch = n.proc.sch
  wired : wiring m.proc = wiring n.proc

section Steps

variable {w : Surroundings ID} {n v : Node ID} {m : Polled ID}

theorem Told.setValue (told : Told n) (sid : ObjectId) (value : Int) : Told (n.setValue w sid value) := by
  unfold Node.setValue
  split
  · exact told
  · intro it member
    show (Option.getD (List.getLast? ((if n.Asked sid then _ else _ : ObjectId → List Int) it.sid)) _) =
      update n.values sid value it.sid
    by_cases same : it.sid = sid
    · have asked : n.Asked sid := List.mem_map.mpr ⟨it, member, same⟩
      rw [if_pos asked, same, update_self, update_self, List.getLast?_concat]
      rfl
    · rw [update_of_ne same]
      split
      · rw [update_of_ne same]
        exact told it member
      · exact told it member

theorem Follows.setValue (follows : Follows n m) (sid : ObjectId) (value : Int) :
    Follows (n.setValue w sid value) (m.setValue w sid value) := by
  have told := follows.told.setValue (w := w) sid value
  revert told
  unfold Node.setValue Polled.setValue
  rw [follows.values]
  split
  · exact fun _ => follows
  · exact fun told => ⟨told, rfl, follows.sch, follows.wired⟩

/-- **The outputs** are set in both. -/
theorem Follows.setOuts (follows : Follows n m) : Follows (n.setOuts w) (m.setOuts w) := by
  unfold Node.setOuts Polled.setOuts
  induction w.extOuts generalizing n m with
  | nil => exact follows
  | cons out rest ih =>
    rw [List.foldl_cons, List.foldl_cons, follows.sch]
    exact ih (follows.setValue out.sid _)

/-- **A delivery** tells the processor what was on its way. -/
theorem Follows.sensorInfo (follows : Follows n m) {sid : ObjectId} (stepped : n.sensorInfo sid = some v) :
    Follows v m := by
  unfold Node.sensorInfo at stepped
  cases flying : n.inFlight sid with
  | nil =>
    rw [flying] at stepped
    cases stepped
  | cons value rest =>
    rw [flying] at stepped
    cases stepped
    refine ⟨?_, follows.values, follows.sch, ?_⟩
    · intro it member
      obtain ⟨old, listed, rfl⟩ := List.mem_map.mp member
      have told := follows.told old listed
      by_cases same : old.sid = sid
      · rw [if_pos same]
        show Option.getD (List.getLast? (update n.inFlight sid rest old.sid)) value = n.values old.sid
        rw [same, flying] at told
        rw [same, update_self, ← told, List.getLast?_cons]
        rfl
      · rw [if_neg same]
        show Option.getD (List.getLast? (update n.inFlight sid rest old.sid)) old.value = _
        rw [update_of_ne same]
        exact told
    · rw [follows.wired]
      unfold wiring
      rw [List.map_map]
      refine List.map_congr_left fun it _ => ?_
      rw [comp_apply]
      split <;> rfl

theorem getInputs_answered (values : ObjectId → Int) (i : Nat) (extInputs : List (EXTInfo ID)) :
    LProcessor.getInputs (fun _ sid => some (values sid)) i extInputs =
      (extInputs.map fun it => { it with value := values it.sid }, true) := by
  induction extInputs generalizing i with
  | nil => rfl
  | cons it rest ih =>
    rw [LProcessor.getInputs, ih]
    rfl

/-- What is asked for is what the passive processor was told. -/
theorem Follows.asked (follows : Follows n m) (quiet : ∀ it ∈ n.proc.extInputs, n.inFlight it.sid = []) :
    (m.proc.extInputs.map fun it => { it with value := m.values it.sid }) = n.proc.extInputs := by
  have whole : ∀ p : LProcessor ID, (p.extInputs.map fun it => { it with value := n.values it.sid }) =
      (wiring p).map fun it => { it with value := n.values it.sid } := fun p => by
    unfold wiring
    rw [List.map_map]
    rfl
  rw [follows.values, whole, follows.wired, ← whole]
  refine (List.map_congr_left fun it member => ?_).trans (List.map_id _)
  have told := follows.told it member
  rw [quiet it member] at told
  change it.value = n.values it.sid at told
  rw [← told]
  rfl

/-- **A step** is the same in both, where nothing is on its way. -/
theorem Follows.step (follows : Follows n m) (quiet : ∀ it ∈ n.proc.extInputs, n.inFlight it.sid = [])
    {now : Nat} (stepped : n.step w now = some v) : ∃ u, m.step w now = some u ∧ Follows v u := by
  obtain ⟨done, processed, rfl⟩ := Option.map_eq_some_iff.mp stepped
  have ran : m.proc.step ⟨now, fun _ sid => some (m.values sid)⟩ =
      some ⟨{ n.proc.sch with el := done.1 }, n.proc.extInputs⟩ := by
    unfold LProcessor.step
    rw [getInputs_answered, follows.asked quiet, follows.sch]
    dsimp only
    rw [if_pos rfl, processed]
    rfl
  refine ⟨_, congrArg (Option.map _) ran, ?_⟩
  refine Follows.setOuts ⟨follows.told, follows.values, rfl, rfl⟩

end Steps

/-- The processor that asks simulates the passive one. -/
theorem polling_simulates (w : Surroundings ID) :
    (passive w).Simulates (polling w) Quiet NodeLabel.visible Follows where
  silent := by
    intro n m label v follows _ hidden stepped
    cases label with
    | sensorInfo sid => exact follows.sensorInfo stepped
    | setValue sid value => cases hidden
    | step now => cases hidden
  seen := by
    intro n m label label' v follows quiet shown stepped
    cases label with
    | sensorInfo sid => cases shown
    | setValue sid value =>
      cases shown
      cases stepped
      exact ⟨_, rfl, follows.setValue sid value⟩
    | step now =>
      cases shown
      exact follows.step quiet stepped

/-- **The passive processor follows the one that asks.** In every run in which it makes its steps when
nothing is on its way to it, the sensors and the elements of the schema are those of the processor that
asks for its inputs, after the same settings and steps. -/
theorem passive_follows (w : Surroundings ID) {first n : Node ID} (start : (passive w).start first)
    {labels : List NodeLabel} (quiet : (passive w).Meets Quiet first labels)
    (ran : (passive w).run first labels = some n) :
    ∃ m, (polling w).run ⟨first.values, first.proc⟩ (labels.filterMap NodeLabel.visible) = some m ∧
      m.values = n.values ∧ m.proc.sch = n.proc.sch := by
  have begun : Follows first ⟨first.values, first.proc⟩ := by
    refine ⟨fun it member => ?_, rfl, rfl, rfl⟩
    rw [start it member]
    rfl
  obtain ⟨m, polled, follows⟩ := (polling_simulates w).run_simulated begun quiet ran
  exact ⟨m, polled, follows.values, follows.sch⟩

/-- A `NOT` between two sensors. -/
def oneNot : Surroundings Nat := ⟨[⟨2, 0⟩], fun _ => true⟩

/-- It has just subscribed to its sensor. -/
def subscribed : Node Nat where
  values _ := 0
  proc := ⟨⟨[0], fun _ => .newTNOT false, fun _ => []⟩, [⟨1, 0, 0, 1⟩]⟩
  inFlight sid := if sid = 1 then [0] else []

/-- The sensor is set between two steps. -/
def setBetween : List NodeLabel :=
  [.sensorInfo 1, .step 10, .setValue 1 1, .sensorInfo 1, .step 20]

/-- The other sensor shows the same in both. -/
theorem oneNot_follows : ((passive oneNot).run subscribed setBetween).isSome = true ∧
    ∀ n, (passive oneNot).run subscribed setBetween = some n →
      ∃ m, (polling oneNot).run ⟨subscribed.values, subscribed.proc⟩
          [.step 10, .setValue 1 1, .step 20] = some m ∧
        m.values = n.values ∧ m.proc.sch = n.proc.sch := by
  have start : (passive oneNot).start subscribed := by
    intro it member
    rw [List.mem_singleton.mp member]
    rfl
  exact ⟨by decide +kernel, fun n ran => passive_follows oneNot start (by decide +kernel) ran⟩

end UniSet.LogicProcessor

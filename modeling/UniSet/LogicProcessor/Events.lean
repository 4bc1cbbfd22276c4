/-
**What happens to one element in a step of a logic processor.**

A step is a cascade of calls of `setIn` over all elements. For one of them it is a list of events: the calls that
it gets, and its `tick` between them.

* `Event`, `replay` — the events of an element at an instant, and the element after them.
* `Seen` — an element with what it has been given, when it was called, and what its children have been told.
* `events` — the events of an element in a step, in their order.
* `reacted` — an event of any element with the calls it makes, of which `setIn` and `tick` are two cases.
* **`processing_events`** — a step does to an element what its events do.
* **`processing_handed`** — what the children have been told in a step, each of them has got.
-/

import UniSet.LogicProcessor.LProcessor

namespace UniSet.LogicProcessor

open Lib
open Schema (Call Visit Answer)

/-- What an element gets. -/
inductive Event
  | setIn (num : Nat) (value : Int)
  | tick
  deriving DecidableEq, Repr

namespace Element

/-- The element after an event, and whether it calls `setChildOut`. -/
def react (now : Nat) (el : Element) : Event → Element × Bool
  | .setIn num value => el.setIn now num value
  | .tick => el.tick now

/-- **The element after some events** at an instant. -/
def replay (now : Nat) (events : List Event) (el : Element) : Element :=
  events.foldl (fun el e => (el.react now e).1) el

theorem replay_append (now : Nat) (first last : List Event) (el : Element) :
    el.replay now (first ++ last) = (el.replay now first).replay now last := List.foldl_append

end Element

/-- The value that an event gives. -/
def Event.value : Event → Option Int
  | .setIn _ value => some value
  | .tick => none

/-- **An element in a run**: the value it was given last, which is 0 before the first one, the instant of that call,
and the output that it has told its children. -/
structure Seen where
  el : Element
  given : Int
  called : Option Nat
  told : Option Int
  deriving DecidableEq, Repr

namespace Seen

/-- After an event. -/
def react (now : Nat) (s : Seen) (e : Event) : Seen :=
  let done := s.el.react now e
  { el := done.1
    given := e.value.getD s.given
    called := if e.value.isSome then some now else s.called
    told := if done.2 then some done.1.getOut else s.told }

/-- After the events of a step. -/
def after (now : Nat) (events : List Event) (s : Seen) : Seen := events.foldl (react now) s

theorem el_after (now : Nat) (events : List Event) (s : Seen) : (s.after now events).el = s.el.replay now events := by
  induction events generalizing s with
  | nil => rfl
  | cons e rest ih => exact ih (s.react now e)

theorem after_append (now : Nat) (first last : List Event) (s : Seen) :
    s.after now (first ++ last) = (s.after now first).after now last := List.foldl_append

theorem after_keeps {P : Seen → Prop} {now : Nat} (keeps : ∀ s e, P s → P (s.react now e)) {s : Seen} (holds : P s)
    (events : List Event) : P (s.after now events) := by
  induction events generalizing s with
  | nil => exact holds
  | cons e rest ih => exact ih (keeps s e holds)

end Seen

set_option linter.unusedSectionVars false

variable {ID : Type*} [DecidableEq ID]

/-- The calls that are for an element. -/
def callsFor (d : ID) (visits : List (Visit ID)) : List Event :=
  (visits.filter fun visit => visit.id = d).map fun visit => .setIn visit.num visit.value

theorem callsFor_append (d : ID) (first last : List (Visit ID)) :
    callsFor d (first ++ last) = callsFor d first ++ callsFor d last := by
  rw [callsFor, List.filter_append, List.map_append]
  rfl

/-- An event of one element, as one of another. -/
def ownEvent (d id : ID) (e : Event) : List Event := if id = d then [e] else []

theorem ownEvent_self (d : ID) (e : Event) : ownEvent d d e = [e] := if_pos rfl

variable {id : ID}

theorem ownEvent_of_ne {d : ID} (other : id ≠ d) (e : Event) : ownEvent d id e = [] := if_neg other

theorem callsFor_cons (d : ID) (visit : Visit ID) (rest : List (Visit ID)) :
    callsFor d (visit :: rest) = ownEvent d visit.id (.setIn visit.num visit.value) ++ callsFor d rest := by
  rw [callsFor, List.filter_cons]
  by_cases own : visit.id = d
  · rw [if_pos (decide_eq_true own), own, ownEvent_self]
    rfl
  · rw [if_neg fun same => own (of_decide_eq_true same), ownEvent_of_ne own]
    rfl

namespace LProcessor

/-- The events of an element in the loop of `processing` over all elements. -/
def tickEvents (d : ID) (tick : (ID → Element) → ID → Option (Answer ID)) :
    List ID → (ID → Element) → Option (List Event)
  | [], _ => some []
  | id :: rest, els =>
    (tick els id).bind fun first =>
      (tickEvents d tick rest first.1).map fun last =>
        (if id = d then [.tick] else []) ++ callsFor d first.2 ++ last

/-- **The events of an element in `processing`.** -/
def events (d : ID) (sch : Schema ID) (extInputs : List (EXTInfo ID)) (now : Nat) : Option (List Event) :=
  let n := sch.ids.length + 1
  (setInputs (Schema.propagate sch.outs now n) extInputs sch.el).bind fun set =>
    (tickEvents d (Schema.tick sch.outs now n) sch.ids set.1).map fun later => callsFor d set.2 ++ later

/-! ### An event of any element -/

/-- An element gets an event, and calls its children where it forwards its output. -/
def reacted (outs : ID → List (ID × Nat)) (now : Nat) (setIn : Call ID → Option (Answer ID)) (els : ID → Element)
    (id : ID) (e : Event) : Option (Answer ID) :=
  let done := (els id).react now e
  let els := Function.update els id done.1
  if done.2 then Schema.setChildOut setIn done.1.getOut (outs id) els else some (els, [])

theorem setInBody_eq (outs : ID → List (ID × Nat)) (now : Nat) (setIn : Call ID → Option (Answer ID))
    (call : Call ID) : Schema.setInBody outs now setIn call =
      (reacted outs now setIn call.els call.id (.setIn call.num call.value)).map fun rest =>
        (rest.1, ⟨call.id, call.els call.id, call.num, call.value⟩ :: rest.2) := by
  rw [Schema.setInBody, reacted]
  show (if ((call.els call.id).setIn now call.num call.value).2 then _ else _) =
    Option.map _ (if ((call.els call.id).setIn now call.num call.value).2 then _ else _)
  split
  · rfl
  · rfl

theorem tick_eq (outs : ID → List (ID × Nat)) (now n : Nat) (els : ID → Element) (id : ID) :
    Schema.tick outs now n els id = reacted outs now (Schema.propagate outs now n) els id .tick := rfl

/-! ### The element after a step -/

section Replays

variable {d : ID} {now : Nat} {outs : ID → List (ID × Nat)}

/-- A function leaves the element as the calls for it do. -/
def Replays (d : ID) (now : Nat) (setIn : Call ID → Option (Answer ID)) : Prop :=
  ∀ call done, setIn call = some done → done.1 d = (call.els d).replay now (callsFor d done.2)

variable {setIn : Call ID → Option (Answer ID)} {done : Answer ID} {els : ID → Element}

theorem Replays.setAll (replays : Replays d now setIn) {puts : List (Put ID)}
    (ran : LProcessor.setAll setIn puts els = some done) :
    done.1 d = (els d).replay now (callsFor d done.2) := by
  induction puts generalizing els done with
  | nil =>
    obtain rfl := Option.some.inj ran
    rfl
  | cons put puts ih =>
    obtain ⟨first, called, rest⟩ := Option.bind_eq_some_iff.mp ran
    obtain ⟨last, later, rfl⟩ := Option.map_eq_some_iff.mp rest
    rw [callsFor_append, Element.replay_append, ← replays _ first called]
    exact ih later

/-- The element after an event of any element. -/
theorem replay_ownEvent (els : ID → Element) (id : ID) (e : Event) :
    (els d).replay now (ownEvent d id e) = Function.update els id ((els id).react now e).1 d := by
  by_cases own : id = d
  · subst own
    rw [ownEvent_self, Function.update_self]
    rfl
  · rw [ownEvent_of_ne own, Function.update_of_ne (Ne.symm own)]
    rfl

theorem Replays.reacted (replays : Replays d now setIn) {e : Event}
    (ran : LProcessor.reacted outs now setIn els id e = some done) :
    done.1 d = (els d).replay now (ownEvent d id e ++ callsFor d done.2) := by
  rw [Element.replay_append, replay_ownEvent]
  rw [LProcessor.reacted] at ran
  split at ran
  · rw [setChildOut_eq] at ran
    exact replays.setAll ran
  · obtain rfl := Option.some.inj ran
    rfl

theorem Replays.setInBody (replays : Replays d now setIn) :
    Replays d now (Schema.setInBody outs now setIn) := by
  intro call done ran
  rw [setInBody_eq] at ran
  obtain ⟨rest, called, rfl⟩ := Option.map_eq_some_iff.mp ran
  rw [callsFor_cons]
  exact replays.reacted called

theorem replays_propagate (n : Nat) : Replays d now (Schema.propagate outs now n) :=
  unroll_induct (fun _ _ ran => absurd ran.symm (Option.some_ne_none _)) (fun _ replays => replays.setInBody) n

theorem tick_replays {n : Nat} (ran : Schema.tick outs now n els id = some done) :
    done.1 d = (els d).replay now (ownEvent d id .tick ++ callsFor d done.2) := by
  rw [tick_eq] at ran
  exact (replays_propagate n).reacted ran

theorem tickAll_events {n : Nat} {ids : List ID}
    (ran : tickAll (Schema.tick outs now n) ids els = some done) :
    ∃ events, tickEvents d (Schema.tick outs now n) ids els = some events ∧
      done.1 d = (els d).replay now events := by
  induction ids generalizing els done with
  | nil =>
    obtain rfl := Option.some.inj ran
    exact ⟨[], rfl, rfl⟩
  | cons id rest ih =>
    obtain ⟨first, ticked, later⟩ := Option.bind_eq_some_iff.mp ran
    obtain ⟨last, others, rfl⟩ := Option.map_eq_some_iff.mp later
    obtain ⟨events, found, left⟩ := ih others
    refine ⟨(if id = d then [.tick] else []) ++ callsFor d first.2 ++ events, ?_, ?_⟩
    · rw [tickEvents, ticked, Option.bind_some, found]
      rfl
    · rw [Element.replay_append]
      exact tick_replays ticked ▸ left

/-- **A step does to an element what its events do.** -/
theorem processing_events {sch : Schema ID} {extInputs : List (EXTInfo ID)}
    (ran : processing sch extInputs now = some done) :
    ∃ happened, events d sch extInputs now = some happened ∧ done.1 d = (sch.el d).replay now happened := by
  obtain ⟨set, given, rest⟩ := Option.bind_eq_some_iff.mp ran
  obtain ⟨ticked, later, rfl⟩ := Option.map_eq_some_iff.mp rest
  obtain ⟨happened, found, left⟩ := @tickAll_events ID _ d now sch.outs _ _ _ _ later
  refine ⟨callsFor d set.2 ++ happened, ?_, ?_⟩
  · rw [events, given, Option.bind_some, found]
    rfl
  · rw [setInputs_eq] at given
    rw [Element.replay_append, ← (replays_propagate _).setAll given]
    exact left

end Replays

/-! ### What the children get -/

section Handed

variable {d : ID} {now : Nat} {outs : ID → List (ID × Nat)} {s t u : Seen} {visits more : List (Visit ID)}

/-- A call with a value is among those that have been made. -/
def Got (visits : List (Visit ID)) (put : Put ID) : Prop :=
  ∃ visit ∈ visits, visit.id = put.id ∧ visit.num = put.num ∧ visit.value = put.value

/-- **What the children have been told, they have got**: nothing new, or a value that each of them is called with. -/
def Handed (outs : List (ID × Nat)) (visits : List (Visit ID)) (s t : Seen) : Prop :=
  t.told = s.told ∨ ∃ out, t.told = some out ∧ ∀ child ∈ outs, Got visits ⟨child.1, child.2, out⟩

theorem Got.mono {put : Put ID} (got : Got visits put) (sub : visits ⊆ more) : Got more put := by
  obtain ⟨visit, member, same⟩ := got
  exact ⟨visit, sub member, same⟩

theorem Handed.mono {children : List (ID × Nat)} (handed : Handed children visits s t) (sub : visits ⊆ more) :
    Handed children more s t := by
  rcases handed with same | ⟨out, told, got⟩
  · exact Or.inl same
  · exact Or.inr ⟨out, told, fun child member => (got child member).mono sub⟩

theorem Handed.trans {children : List (ID × Nat)} (first : Handed children visits s t)
    (last : Handed children visits t u) : Handed children visits s u := by
  rcases last with same | told
  · rcases first with kept | ⟨out, told, got⟩
    · exact Or.inl (same.trans kept)
    · exact Or.inr ⟨out, same.trans told, got⟩
  · exact Or.inr told

/-- A function makes its own call, and hands on what the element tells. -/
structure Hands (d : ID) (now : Nat) (outs : ID → List (ID × Nat)) (setIn : Call ID → Option (Answer ID)) : Prop where
  got : ∀ call done, setIn call = some done → Got done.2 ⟨call.id, call.num, call.value⟩
  handed : ∀ call done s, setIn call = some done → s.el = call.els d →
    Handed (outs d) done.2 s (s.after now (callsFor d done.2))

variable {setIn : Call ID → Option (Answer ID)} {els : ID → Element} {done : Answer ID}

theorem Hands.got_setAll (hands : Hands d now outs setIn) {puts : List (Put ID)}
    (ran : LProcessor.setAll setIn puts els = some done) : ∀ put ∈ puts, Got done.2 put := by
  induction puts generalizing els done with
  | nil => exact fun _ member => absurd member List.not_mem_nil
  | cons put puts ih =>
    obtain ⟨first, called, rest⟩ := Option.bind_eq_some_iff.mp ran
    obtain ⟨last, later, rfl⟩ := Option.map_eq_some_iff.mp rest
    intro x member
    rcases List.mem_cons.mp member with rfl | member
    · exact (hands.got _ first called).mono (List.subset_append_left _ _)
    · exact (ih later x member).mono (List.subset_append_right _ _)

theorem Hands.setAll (hands : Hands d now outs setIn) (replays : Replays d now setIn)
    {puts : List (Put ID)} (ran : LProcessor.setAll setIn puts els = some done)
    (same : s.el = els d) :
    Handed (outs d) done.2 s (s.after now (callsFor d done.2)) := by
  induction puts generalizing els done s with
  | nil =>
    obtain rfl := Option.some.inj ran
    exact Or.inl rfl
  | cons put puts ih =>
    obtain ⟨first, called, rest⟩ := Option.bind_eq_some_iff.mp ran
    obtain ⟨last, later, rfl⟩ := Option.map_eq_some_iff.mp rest
    have el : (s.after now (callsFor d first.2)).el = first.1 d := by
      rw [Seen.el_after, replays _ first called, same]
    rw [callsFor_append, Seen.after_append]
    exact ((hands.handed _ first s called same).mono (List.subset_append_left _ _)).trans
      ((ih later el).mono (List.subset_append_right _ _))

theorem handed_react (e : Event)
    (got : (s.el.react now e).2 = true →
      ∀ child ∈ outs d, Got visits ⟨child.1, child.2, (s.el.react now e).1.getOut⟩) :
    Handed (outs d) visits s (s.react now e) := by
  by_cases forwards : (s.el.react now e).2 = true
  · exact Or.inr ⟨_, if_pos forwards, got forwards⟩
  · exact Or.inl (if_neg forwards)

theorem handed_ownEvent (same : s.el = els d) {e : Event}
    (got : ((els id).react now e).2 = true → ∀ child ∈ outs id,
      Got visits ⟨child.1, child.2, ((els id).react now e).1.getOut⟩) :
    Handed (outs d) visits s (s.after now (ownEvent d id e)) := by
  by_cases own : id = d
  · subst own
    rw [← same] at got
    rw [ownEvent_self]
    exact handed_react e got
  · rw [ownEvent_of_ne own]
    exact Or.inl rfl

theorem Hands.reacted (hands : Hands d now outs setIn) (replays : Replays d now setIn) {e : Event}
    (ran : LProcessor.reacted outs now setIn els id e = some done) (same : s.el = els d) :
    Handed (outs d) done.2 s (s.after now (ownEvent d id e ++ callsFor d done.2)) := by
  have next : (s.after now (ownEvent d id e)).el = Function.update els id ((els id).react now e).1 d := by
    rw [Seen.el_after, same, replay_ownEvent]
  rw [Seen.after_append]
  rw [LProcessor.reacted] at ran
  split at ran
  · rw [setChildOut_eq] at ran
    refine (handed_ownEvent same fun _ child out => ?_).trans (hands.setAll replays ran next)
    exact hands.got_setAll ran _ (List.mem_map_of_mem out)
  · next quiet =>
    obtain rfl := Option.some.inj ran
    exact handed_ownEvent same fun forwards => absurd forwards quiet

theorem Hands.setInBody (hands : Hands d now outs setIn) (replays : Replays d now setIn) :
    Hands d now outs (Schema.setInBody outs now setIn) := by
  refine ⟨fun call done ran => ?_, fun call done s ran same => ?_⟩
  · rw [setInBody_eq] at ran
    obtain ⟨rest, -, rfl⟩ := Option.map_eq_some_iff.mp ran
    exact ⟨_, List.mem_cons_self, rfl, rfl, rfl⟩
  · rw [setInBody_eq] at ran
    obtain ⟨rest, called, rfl⟩ := Option.map_eq_some_iff.mp ran
    rw [callsFor_cons]
    exact (hands.reacted replays called same).mono (List.subset_cons_self _ _)

theorem hands_propagate (n : Nat) : Hands d now outs (Schema.propagate outs now n) := by
  have both : Replays d now (Schema.propagate outs now n) ∧ Hands d now outs (Schema.propagate outs now n) :=
    unroll_induct (S := fun setIn => Replays d now setIn ∧ Hands d now outs setIn)
    ⟨fun _ _ ran => absurd ran.symm (Option.some_ne_none _),
      fun _ _ ran => absurd ran.symm (Option.some_ne_none _), fun _ _ _ ran => absurd ran.symm (Option.some_ne_none _)⟩
    (fun _ hands => ⟨hands.1.setInBody, hands.2.setInBody hands.1⟩) n
  exact both.2

theorem tick_handed {n : Nat} (ran : Schema.tick outs now n els id = some done)
    (same : s.el = els d) :
    Handed (outs d) done.2 s (s.after now (ownEvent d id .tick ++ callsFor d done.2)) := by
  rw [tick_eq] at ran
  exact (hands_propagate n).reacted (replays_propagate n) ran same

theorem tickAll_handed {n : Nat} {ids : List ID} {happened : List Event}
    (ran : tickAll (Schema.tick outs now n) ids els = some done)
    (found : tickEvents d (Schema.tick outs now n) ids els = some happened) (same : s.el = els d) :
    Handed (outs d) done.2 s (s.after now happened) := by
  induction ids generalizing els done happened s with
  | nil =>
    obtain rfl := Option.some.inj found
    exact Or.inl rfl
  | cons id rest ih =>
    obtain ⟨first, ticked, later⟩ := Option.bind_eq_some_iff.mp ran
    obtain ⟨last, others, rfl⟩ := Option.map_eq_some_iff.mp later
    rw [tickEvents, ticked, Option.bind_some] at found
    obtain ⟨events, more, rfl⟩ := Option.map_eq_some_iff.mp found
    have el : (s.after now (ownEvent d id .tick ++ callsFor d first.2)).el = first.1 d := by
      rw [Seen.el_after, tick_replays ticked, same]
    rw [Seen.after_append]
    exact ((tick_handed ticked same).mono (List.subset_append_left _ _)).trans
      ((ih others more el).mono (List.subset_append_right _ _))

/-- **What the children have been told in a step, they have got.** -/
theorem processing_handed {sch : Schema ID} {extInputs : List (EXTInfo ID)} {happened : List Event}
    (ran : processing sch extInputs now = some done)
    (found : events d sch extInputs now = some happened) (same : s.el = sch.el d) :
    Handed (sch.outs d) done.2 s (s.after now happened) := by
  obtain ⟨set, given, rest⟩ := Option.bind_eq_some_iff.mp ran
  obtain ⟨ticked, later, rfl⟩ := Option.map_eq_some_iff.mp rest
  rw [events, given, Option.bind_some] at found
  obtain ⟨ticks, more, rfl⟩ := Option.map_eq_some_iff.mp found
  rw [setInputs_eq] at given
  have el : (s.after now (callsFor d set.2)).el = set.1 d := by
    rw [Seen.el_after, (replays_propagate _).setAll given, same]
  rw [Seen.after_append]
  exact (((hands_propagate _).setAll (replays_propagate _) given same).mono (List.subset_append_left _ _)).trans
    ((tickAll_handed later more el).mono (List.subset_append_right _ _))

end Handed

end LProcessor

end UniSet.LogicProcessor

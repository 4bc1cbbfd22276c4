/-
**Hierarchies of aggregators: which lines reach which streams.**

* `Call`, `machine` — the calls that build a hierarchy.
* `Law` — a line of a log appears exactly once in every aggregator that contains the log.
* `Wired`: an aggregator is connected once to each log of its map of connections.
* `KnownAbove` — the condition on a call: the aggregators above are connected to what is added.
* **`lines_law_iff`**: among the runs without a cycle, those in which no line is lost or doubled are exactly
  those whose calls meet the condition.
-/

import UniSet.Lib.Machine
import UniSet.Log.LogAgregator

namespace UniSet.Log

open Relation (ReflTransGen TransGen)

/-- The calls of a program. -/
inductive Call
  /-- A stream is made. -/
  | make (logName : String) (isAgregator : Bool)
  | create (a : Nat) (logname : String)
  | add (a l : Nat) (lname : String)
deriving DecidableEq, Repr

/-- One call. -/
def Store.step (s : Store) : Call → Option Store
  | .make logName isAgregator => some (s.make logName isAgregator)
  | .create a logname =>
    if a < s.count ∧ (s.stream a).isAgregator = true then some (s.create a logname) else none
  | .add a l lname =>
    if a < s.count ∧ l < s.count ∧ (s.stream a).isAgregator = true then s.add a l lname else none

/-- **The program as a machine**: at the start no stream is in a hierarchy. -/
def machine : Lib.Machine Store Call where
  start := fun s => ∀ i, (s.stream i).lmap = [] ∧ (s.stream i).conmap = [] ∧ (s.stream i).slots = []
  step := Store.step

/-- **No line is lost and none is doubled**: a line of a log appears exactly once in the stream of every
aggregator that contains it. -/
def Law (s : Store) : Prop :=
  ∀ b x, s.Contains b x → ∀ n ≠ 0, (s.emit n x).count b = 1

/-- The aggregator is above the other one. -/
def Store.Above (s : Store) (b a : Nat) : Prop := TransGen s.Child b a

/-- The logs a stream brings with it. -/
def Store.Brings (s : Store) (l x : Nat) : Prop :=
  (s.stream l).isAgregator = false ∧ x = l ∨ (s.stream l).isAgregator = true ∧ s.Contains l x

/-- The name a stream is added under. -/
def Store.addName (s : Store) (l : Nat) (lname : String) : String :=
  if lname = "" then (s.stream l).logName else lname

/-- **The condition**: the aggregators above the one that gets a new entry are connected to the logs
it brings. A created log is new to all of them. -/
def KnownAbove (s : Store) : Call → Prop
  | .make _ _ => True
  | .create a logname => a < s.count → (s.stream a).isAgregator = true → s.getLog a logname = none →
      ∀ b, ¬ s.Above b a
  | .add a l lname => a < s.count → l < s.count → (s.stream a).isAgregator = true →
      s.find a (s.addName l lname) = none →
        ∀ b, s.Above b a → ∀ x, s.Brings l x → x ∈ (s.stream b).conmap

/-! ### Connections -/

/-- **What the connections of a hierarchy are**: one for each log of a map of connections, of an
aggregator to a log that is none. -/
structure Wired (s : Store) : Prop where
  closed : s.Closed
  known : ∀ b x, x ∈ (s.stream b).conmap → x < s.count
  fresh : ∀ b, s.count ≤ b → (s.stream b).conmap = []
  unused : ∀ b, s.count ≤ b → (s.stream b).lmap = []
  slots : ∀ x b, (s.stream x).slots.count b = if x ∈ (s.stream b).conmap then 1 else 0
  leaf : ∀ b x, x ∈ (s.stream b).conmap → (s.stream x).isAgregator = false
  agregator : ∀ b x, x ∈ (s.stream b).conmap → (s.stream b).isAgregator = true

/-- What holds between the calls of a good run. -/
structure Inv (s : Store) : Prop extends Wired s where
  connected : ∀ b x, s.Contains b x → x ∈ (s.stream b).conmap

variable {x b a l : Nat} {t s : Store}

section Connections

variable {s : Store}

theorem Wired.mem_slots (wired : Wired s) : b ∈ (s.stream x).slots ↔ x ∈ (s.stream b).conmap := by
  rw [← List.count_pos_iff, wired.slots]
  split
  · next listed => exact iff_of_true Nat.one_pos listed
  · next listed => exact iff_of_false (Nat.lt_irrefl 0) listed

/-- No aggregator is connected to another one. -/
theorem Wired.slots_agregator (wired : Wired s) (agregator : (s.stream a).isAgregator = true) :
    (s.stream a).slots = [] := by
  refine List.eq_nil_iff_forall_not_mem.mpr fun b listed => ?_
  have leaf := wired.leaf b a (wired.mem_slots.mp listed)
  rw [agregator] at leaf
  cases leaf

/-- **A line goes no further than the aggregators connected to its log.** -/
theorem Wired.emit (wired : Wired s) {n : Nat} (apart : n ≠ 0) (x : Nat) :
    s.emit n x = (s.stream x).slots := by
  obtain ⟨m, rfl⟩ := Nat.exists_eq_succ_of_ne_zero apart
  have stops : ∀ a ∈ (s.stream x).slots, s.emit m a = [] := by
    intro a listed
    have agregator := wired.agregator a x (wired.mem_slots.mp listed)
    cases m with
    | zero => rfl
    | succ m =>
      show (s.stream a).slots.flatMap _ = []
      rw [wired.slots_agregator agregator]
      rfl
  show (s.stream x).slots.flatMap (fun a => a :: s.emit m a) = _
  calc (s.stream x).slots.flatMap (fun a => a :: s.emit m a)
      = (s.stream x).slots.flatMap fun a => [a] :=
        List.flatMap_congr fun a listed => by rw [stops a listed]
    _ = (s.stream x).slots := List.flatMap_singleton' _

theorem Wired.count_emit (wired : Wired s) {n : Nat} (apart : n ≠ 0) (x b : Nat) :
    (s.emit n x).count b = if x ∈ (s.stream b).conmap then 1 else 0 := by
  rw [wired.emit apart, wired.slots]

theorem Inv.law (inv : Inv s) : Law s := fun b x contains n inside => by
  rw [inv.toWired.count_emit inside, if_pos (inv.connected b x contains)]

/-! ### Calls that connect -/

/-- Two stores with the same hierarchy. -/
structure SameLogs (s t : Store) : Prop where
  count : t.count = s.count
  lmap : ∀ x, (t.stream x).lmap = (s.stream x).lmap
  isAgregator : ∀ x, (t.stream x).isAgregator = (s.stream x).isAgregator

theorem SameLogs.refl (s : Store) : SameLogs s s := ⟨rfl, fun _ => rfl, fun _ => rfl⟩

theorem SameLogs.trans {u : Store} (first : SameLogs s t) (later : SameLogs t u) : SameLogs s u :=
  ⟨later.count.trans first.count, fun x => (later.lmap x).trans (first.lmap x),
    fun x => (later.isAgregator x).trans (first.isAgregator x)⟩

theorem SameLogs.symm (sameLogs : SameLogs s t) : SameLogs t s :=
  ⟨sameLogs.count.symm, fun x => (sameLogs.lmap x).symm, fun x => (sameLogs.isAgregator x).symm⟩

theorem SameLogs.contains (sameLogs : SameLogs s t) (contains : t.Contains b x) : s.Contains b x := by
  induction contains with
  | log entry leaf =>
    rw [sameLogs.lmap] at entry
    rw [sameLogs.isAgregator] at leaf
    exact .log entry leaf
  | child child _ ih =>
    obtain ⟨⟨lname, entry⟩, agregator⟩ := child
    rw [sameLogs.lmap] at entry
    rw [sameLogs.isAgregator] at agregator
    exact .child ⟨⟨lname, entry⟩, agregator⟩ ih

theorem SameLogs.child (sameLogs : SameLogs s t) : t.Child = s.Child := by
  funext a c
  unfold Store.Child
  rw [sameLogs.lmap, sameLogs.isAgregator]

theorem connect_stream (s : Store) (l a x : Nat) : (s.connect l a).stream x =
    { s.stream x with
      slots := if x = l then (s.stream x).slots ++ [a] else (s.stream x).slots
      conmap := if x = a then (s.stream x).conmap ++ [l] else (s.stream x).conmap } := by
  unfold Store.connect Store.setStream
  dsimp only
  by_cases same : x = l <;> by_cases same' : x = a
  · subst same
    subst same'
    simp
  · subst same
    simp [same']
  · subst same'
    simp [same]
  · simp [same, same']

theorem connect_same (s : Store) (l a : Nat) : SameLogs s (s.connect l a) :=
  ⟨rfl, fun x => by rw [connect_stream], fun x => by rw [connect_stream]⟩

/-- **A connection that is not there yet** is one more. -/
theorem Wired.connect (wired : Wired s) (less : l < s.count) (inside : a < s.count)
    (leaf : (s.stream l).isAgregator = false) (agregator : (s.stream a).isAgregator = true)
    (away : l ∉ (s.stream a).conmap) : Wired (s.connect l a) := by
  have same := connect_same s l a
  have mem : ∀ b x, x ∈ ((s.connect l a).stream b).conmap ↔
      x ∈ (s.stream b).conmap ∨ b = a ∧ x = l := by
    intro b x
    rw [connect_stream]
    by_cases own : b = a <;> simp [own]
  refine ⟨?_, ?_, ?_, ?_, ?_, ?_, ?_⟩
  · intro b lname x entry
    rw [same.lmap] at entry
    exact wired.closed b lname x entry
  · intro b x listed
    rcases (mem b x).mp listed with old | ⟨-, rfl⟩
    · exact wired.known b x old
    · exact less
  · intro b above
    have other : b ≠ a := fun own => by subst own; exact absurd inside (Nat.not_lt.mpr above)
    rw [connect_stream]
    simp only [other, if_false]
    exact wired.fresh b above
  · intro b above
    rw [same.lmap]
    exact wired.unused b above
  · intro x b
    rw [if_congr (mem b x) rfl rfl, connect_stream]
    dsimp only
    by_cases log : x = l
    · subst log
      rw [if_pos rfl, List.count_append, wired.slots]
      by_cases own : b = a
      · subst own
        rw [if_neg away, if_pos (Or.inr ⟨rfl, rfl⟩), List.count_singleton_self]
      · have none : [a].count b = 0 := List.count_eq_zero.mpr (by simpa using own)
        rw [none]
        simp [own]
    · rw [if_neg log, wired.slots]
      simp [log]
  · intro b x listed
    rw [same.isAgregator]
    rcases (mem b x).mp listed with old | ⟨-, rfl⟩
    · exact wired.leaf b x old
    · exact leaf
  · intro b x listed
    rw [same.isAgregator]
    rcases (mem b x).mp listed with old | ⟨rfl, -⟩
    · exact wired.agregator b x old
    · exact agregator

/-- The connections of an aggregator to some logs. -/
theorem connectOnce_spec (wired : Wired s) (inside' : l < s.count) (inside : a < s.count)
    (leaf : (s.stream l).isAgregator = false) (agregator : (s.stream a).isAgregator = true) :
    Wired (s.connectOnce l a) ∧ SameLogs s (s.connectOnce l a) ∧
      ∀ b x, x ∈ ((s.connectOnce l a).stream b).conmap ↔
        x ∈ (s.stream b).conmap ∨ b = a ∧ x = l := by
  unfold Store.connectOnce
  split
  · next here =>
    refine ⟨wired, SameLogs.refl s, fun b x => ⟨Or.inl, ?_⟩⟩
    rintro (old | ⟨rfl, rfl⟩)
    · exact old
    · exact here
  · next away =>
    refine ⟨wired.connect inside' inside leaf agregator away, connect_same s l a, fun b x => ?_⟩
    rw [connect_stream]
    by_cases same : b = a <;> simp [same]

theorem connectAll_spec {logs : List ILog} (wired : Wired s) (inside : a < s.count)
    (agregator : (s.stream a).isAgregator = true)
    (leaves : ∀ l ∈ logs.map ILog.log, l < s.count ∧ (s.stream l).isAgregator = false) :
    Wired (logs.foldl (fun s l => s.connectOnce l.log a) s) ∧
      SameLogs s (logs.foldl (fun s l => s.connectOnce l.log a) s) ∧
      ∀ b x, x ∈ ((logs.foldl (fun s l => s.connectOnce l.log a) s).stream b).conmap ↔
        x ∈ (s.stream b).conmap ∨ b = a ∧ x ∈ logs.map ILog.log := by
  induction logs generalizing s with
  | nil => exact ⟨wired, SameLogs.refl s, fun b x => by simp⟩
  | cons l rest ih =>
    obtain ⟨inside', leaf⟩ := leaves l.log List.mem_cons_self
    obtain ⟨wired', same, mem⟩ := connectOnce_spec wired inside' inside leaf agregator
    obtain ⟨wired'', same', mem'⟩ := ih wired' (same.count ▸ inside)
      (by rw [same.isAgregator]; exact agregator) fun x listed => by
        rw [same.count, same.isAgregator]
        exact leaves x (List.mem_cons_of_mem _ listed)
    refine ⟨wired'', same.trans same', fun b x => ?_⟩
    rw [List.foldl_cons, mem', mem, List.map_cons, List.mem_cons]
    constructor
    · rintro ((old | ⟨own, listed⟩) | ⟨own, listed⟩)
      · exact Or.inl old
      · exact Or.inr ⟨own, Or.inl listed⟩
      · exact Or.inr ⟨own, Or.inr listed⟩
    · rintro (old | ⟨own, listed | listed⟩)
      · exact Or.inl (Or.inl old)
      · exact Or.inl (Or.inr ⟨own, listed⟩)
      · exact Or.inr ⟨own, listed⟩

end Connections

/-! ### An entry -/

section Entries

variable {s : Store} {a y : Nat} {lname : String}

theorem setLog_stream_ne (other : x ≠ a) : (s.setLog a lname y).stream x = s.stream x :=
  Function.update_of_ne other _ _

theorem setLog_stream_self : (s.setLog a lname y).stream a = { s.stream a with
    lmap := (s.stream a).lmap.filter (fun e => e.1 ≠ lname) ++ [(lname, y)] } :=
  Function.update_self _ _ _

theorem setLog_rest (x : Nat) :
    ((s.setLog a lname y).stream x).isAgregator = (s.stream x).isAgregator ∧
      ((s.setLog a lname y).stream x).conmap = (s.stream x).conmap ∧
      ((s.setLog a lname y).stream x).slots = (s.stream x).slots := by
  by_cases here : x = a
  · rw [here, setLog_stream_self]
    exact ⟨rfl, rfl, rfl⟩
  · rw [setLog_stream_ne here]
    exact ⟨rfl, rfl, rfl⟩

theorem mem_setLog {k : String} (entry : (k, x) ∈ ((s.setLog a lname y).stream b).lmap) :
    (k, x) ∈ (s.stream b).lmap ∨ b = a ∧ x = y := by
  by_cases here : b = a
  · subst here
    rw [setLog_stream_self] at entry
    rcases List.mem_append.mp entry with old | new
    · exact Or.inl (List.mem_of_mem_filter old)
    · cases List.mem_singleton.mp new
      exact Or.inr ⟨rfl, rfl⟩
  · rw [setLog_stream_ne here] at entry
    exact Or.inl entry

theorem Wired.setLog (wired : Wired s) (inside : a < s.count) (less : y < s.count) :
    Wired (s.setLog a lname y) := by
  have rest : ∀ x, ((s.setLog a lname y).stream x).isAgregator = (s.stream x).isAgregator ∧
      ((s.setLog a lname y).stream x).conmap = (s.stream x).conmap ∧
      ((s.setLog a lname y).stream x).slots = (s.stream x).slots := setLog_rest
  refine ⟨?_, ?_, ?_, ?_, ?_, ?_, ?_⟩
  · intro b k x entry
    rcases mem_setLog entry with old | ⟨-, rfl⟩
    · exact wired.closed b k x old
    · exact less
  · intro b x mem
    rw [(rest b).2.1] at mem
    exact wired.known b x mem
  · intro b above
    rw [(rest b).2.1]
    exact wired.fresh b above
  · intro b above
    rw [setLog_stream_ne (Nat.ne_of_gt (Nat.lt_of_lt_of_le inside above))]
    exact wired.unused b above
  · intro x b
    rw [(rest x).2.2, (rest b).2.1]
    exact wired.slots x b
  · intro b x mem
    rw [(rest b).2.1] at mem
    rw [(rest x).1]
    exact wired.leaf b x mem
  · intro b x mem
    rw [(rest b).2.1] at mem
    rw [(rest b).1]
    exact wired.agregator b x mem

/-- **What is new with an entry**: the aggregator and those above it contain the logs it brings. -/
theorem contains_setLog (contains : (s.setLog a lname y).Contains b x) :
    s.Contains b x ∨ ReflTransGen s.Child b a ∧ s.Brings y x := by
  induction contains with
  | log entry leaf =>
    rw [(setLog_rest _).1] at leaf
    rcases mem_setLog entry with old | ⟨rfl, rfl⟩
    · exact Or.inl (.log old leaf)
    · exact Or.inr ⟨.refl, Or.inl ⟨leaf, rfl⟩⟩
  | child child below ih =>
    obtain ⟨⟨k, entry⟩, agregator⟩ := child
    rw [(setLog_rest _).1] at agregator
    rcases mem_setLog entry with old | ⟨rfl, rfl⟩
    · rcases ih with ih | ⟨above, brings⟩
      · exact Or.inl (.child ⟨⟨k, old⟩, agregator⟩ ih)
      · exact Or.inr ⟨.head ⟨⟨k, old⟩, agregator⟩ above, brings⟩
    · rcases ih with ih | ⟨-, brings⟩
      · exact Or.inr ⟨.refl, Or.inr ⟨agregator, ih⟩⟩
      · exact Or.inr ⟨.refl, brings⟩

theorem above_setLog (above : ReflTransGen s.Child b a) :
    ReflTransGen (s.setLog a lname y).Child b a := by
  induction above using ReflTransGen.head_induction_on with
  | refl => exact .refl
  | @head b c child _ ih =>
    by_cases here : b = a
    · rw [here]
    · refine .head ⟨?_, ?_⟩ ih
      · rw [setLog_stream_ne here]
        exact child.1
      · rw [(setLog_rest c).1]
        exact child.2

theorem contains_of_above {c : Nat} (above : ReflTransGen s.Child b c) (contains : s.Contains c x) :
    s.Contains b x := by
  induction above using ReflTransGen.head_induction_on with
  | refl => exact contains
  | head child _ ih => exact .child child ih

theorem entry_setLog : (lname, y) ∈ ((s.setLog a lname y).stream a).lmap := by
  rw [setLog_stream_self]
  exact List.mem_append_right _ (List.mem_singleton_self _)

/-- Where the name is free, nothing is taken away. -/
theorem contains_setLog_mono (free : s.find a lname = none) (contains : s.Contains b x) :
    (s.setLog a lname y).Contains b x := by
  have kept : ∀ b k x, (k, x) ∈ (s.stream b).lmap →
      (k, x) ∈ ((s.setLog a lname y).stream b).lmap := by
    intro b k x entry
    by_cases here : b = a
    · subst here
      rw [setLog_stream_self]
      refine List.mem_append_left _ (List.mem_filter.mpr ⟨entry, ?_⟩)
      have away := (List.lookup_eq_none_iff.mp free) (k, x) entry
      have other : k ≠ lname := fun same => by
        subst same
        simp at away
      simpa using other
    · rw [setLog_stream_ne here]
      exact entry
  induction contains with
  | log entry leaf =>
    refine .log (kept _ _ _ entry) ?_
    rw [(setLog_rest _).1]
    exact leaf
  | child child _ ih =>
    obtain ⟨⟨k, entry⟩, agregator⟩ := child
    refine .child ⟨⟨k, kept _ _ _ entry⟩, ?_⟩ ih
    rw [(setLog_rest _).1]
    exact agregator

/-- **An entry keeps the invariant** if the aggregator and those above it are connected to what it
brings. -/
theorem Inv.setLog (wired : Wired s) (connected : ∀ b x, s.Contains b x → x ∈ (s.stream b).conmap)
    (less : a < s.count) (less' : y < s.count) (known : ∀ b, ReflTransGen s.Child b a → ∀ x,
      s.Brings y x → x ∈ (s.stream b).conmap) : Inv (s.setLog a lname y) := by
  refine ⟨wired.setLog less less', fun b x contains => ?_⟩
  rw [(setLog_rest b).2.1]
  rcases contains_setLog contains with old | ⟨above, brings⟩
  · exact connected b x old
  · exact known b above x brings

/-- **An entry loses lines** where an aggregator above is not connected to a log it brings. -/
theorem setLog_loses (wired : Wired s) (less : a < s.count) (less' : y < s.count)
    (above : ReflTransGen s.Child b a) (contains : (s.setLog a lname y).Contains a x)
    (away : x ∉ (s.stream b).conmap) : ¬ Law (s.setLog a lname y) := by
  intro law
  have held := law b x (contains_of_above (above_setLog above) contains) 1 Nat.one_ne_zero
  rw [(wired.setLog less less').count_emit Nat.one_ne_zero, (setLog_rest b).2.1, if_neg away] at held
  cases held

end Entries

/-! ### One call -/

section Calls

variable {s : Store}

theorem make_new (s : Store) (logName : String) (isAgregator : Bool) :
    (s.make logName isAgregator).stream s.count = ⟨logName, isAgregator, [], [], []⟩ :=
  Function.update_self _ _ _

theorem make_other (logName : String) (isAgregator : Bool) (apart : x ≠ s.count) :
    (s.make logName isAgregator).stream x = s.stream x :=
  Function.update_of_ne apart _ _

theorem make_conmap (inv : Inv s) (logName : String) (isAgregator : Bool) (b : Nat) :
    ((s.make logName isAgregator).stream b).conmap = (s.stream b).conmap := by
  by_cases same : b = s.count
  · rw [same, make_new, inv.fresh _ (Nat.le_refl _)]
  · rw [make_other _ _ same]

/-- The entries are those of the streams before it. -/
theorem make_entry (inv : Inv s) (logName : String) (isAgregator : Bool) {k : String} :
    (k, x) ∈ ((s.make logName isAgregator).stream b).lmap ↔ (k, x) ∈ (s.stream b).lmap := by
  by_cases same : b = s.count
  · rw [same, make_new, inv.unused _ (Nat.le_refl _)]
  · rw [make_other _ _ same]

/-- The hierarchy is the same with a new stream. -/
theorem make_child (inv : Inv s) (logName : String) (isAgregator : Bool) (b c : Nat) :
    (s.make logName isAgregator).Child b c ↔ s.Child b c := by
  unfold Store.Child
  simp only [make_entry inv]
  refine and_congr_right fun ⟨k, entry⟩ => ?_
  rw [make_other _ _ (Nat.ne_of_lt (inv.closed b k c entry))]

theorem make_contains (inv : Inv s) {logName : String} {isAgregator : Bool}
    (contains : (s.make logName isAgregator).Contains b x) : s.Contains b x := by
  induction contains with
  | log entry leaf =>
    have entry := (make_entry inv _ _).mp entry
    rw [make_other _ _ (Nat.ne_of_lt (inv.closed _ _ _ entry))] at leaf
    exact .log entry leaf
  | child child _ ih => exact .child ((make_child inv _ _ _ _).mp child) ih

/-- **A new stream keeps the invariant.** -/
theorem Inv.make (inv : Inv s) (logName : String) (isAgregator : Bool) :
    Inv (s.make logName isAgregator) := by
  refine ⟨⟨?_, ?_, ?_, ?_, ?_, ?_, ?_⟩, ?_⟩
  · intro b k x entry
    exact Nat.lt_succ_of_lt (inv.closed b k x ((make_entry inv _ _).mp entry))
  · intro b x held
    rw [make_conmap inv] at held
    exact Nat.lt_succ_of_lt (inv.known b x held)
  · intro b above
    rw [make_conmap inv]
    exact inv.fresh b (Nat.le_of_succ_le above)
  · intro b above
    rw [make_other _ _ (Nat.ne_of_gt above)]
    exact inv.unused b (Nat.le_of_succ_le above)
  · intro x b
    rw [make_conmap inv]
    by_cases same : x = s.count
    · have away : s.count ∉ (s.stream b).conmap := fun held => Nat.lt_irrefl _ (inv.known b _ held)
      rw [same, make_new, if_neg away]
      rfl
    · rw [make_other _ _ same]
      exact inv.slots x b
  · intro b x held
    rw [make_conmap inv] at held
    rw [make_other _ _ (Nat.ne_of_lt (inv.known b x held))]
    exact inv.leaf b x held
  · intro b x held
    rw [make_conmap inv] at held
    have apart : b ≠ s.count := by
      rintro rfl
      rw [inv.fresh _ (Nat.le_refl _)] at held
      cases held
    rw [make_other _ _ apart]
    exact inv.agregator b x held
  · intro b x held
    rw [make_conmap inv]
    exact inv.connected b x (make_contains inv held)

/-- **A created log**: the store before its entry. -/
theorem create_spec (inv : Inv s) (less : a < s.count) (agregator : (s.stream a).isAgregator = true)
    (logname : String) :
    let u := (s.make logname false).connect s.count a
    Wired u ∧ (∀ b x, u.Contains b x → x ∈ (u.stream b).conmap) ∧ u.Child = s.Child ∧
      u.count = s.count + 1 ∧ (∀ x, u.Brings s.count x ↔ x = s.count) ∧
      ∀ b, s.count ∈ (u.stream b).conmap ↔ b = a := by
  have made := inv.make logname false
  have here := make_new s logname false
  have above : (s.make logname false).stream a = s.stream a := make_other _ _ (Nat.ne_of_lt less)
  have away : s.count ∉ ((s.make logname false).stream a).conmap := by
    rw [above]
    exact fun held => Nat.lt_irrefl _ (inv.known a _ held)
  have same := connect_same (s.make logname false) s.count a
  have wired := made.toWired.connect (Nat.lt_succ_self s.count) (Nat.lt_succ_of_lt less)
    (by rw [here]) (by rw [above]; exact agregator) away
  have child : ((s.make logname false).connect s.count a).Child = s.Child := by
    rw [same.child]
    funext b c
    exact propext (make_child inv logname false b c)
  have leaf : (((s.make logname false).connect s.count a).stream s.count).isAgregator = false := by
    rw [same.isAgregator, here]
  refine ⟨wired, fun b x contains => ?_, child, rfl, fun x => ?_, fun b => ?_⟩
  · have old := made.connected b x (same.contains contains)
    rw [connect_stream]
    dsimp only
    split
    · exact List.mem_append_left _ old
    · exact old
  · unfold Store.Brings
    rw [leaf]
    simp
  · rw [connect_stream]
    dsimp only
    by_cases below : b = a
    · rw [if_pos below]
      simp [below]
    · rw [if_neg below, make_conmap inv]
      exact iff_of_false (fun held => Nat.lt_irrefl _ (inv.known b _ held)) below

theorem Inv.create (inv : Inv s) (less : a < s.count) (agregator : (s.stream a).isAgregator = true)
    {logname : String} (top : s.getLog a logname = none → ∀ b, ¬ s.Above b a) :
    Inv (s.create a logname) := by
  unfold Store.create
  split
  · exact inv
  · next new =>
    obtain ⟨wired, connected, child, count, brings, known⟩ := create_spec inv less agregator logname
    refine Inv.setLog wired connected (count ▸ Nat.lt_succ_of_lt less) (count ▸ Nat.lt_succ_self _) ?_
    intro b above x mem
    rw [(brings x).mp mem, known]
    rw [child] at above
    rcases Relation.reflTransGen_iff_eq_or_transGen.mp above with same | strictly
    · exact same.symm
    · exact absurd strictly (top new b)

theorem create_loses (inv : Inv s) (acyclic : s.Acyclic) (less : a < s.count)
    (agregator : (s.stream a).isAgregator = true) {logname : String}
    (new : s.getLog a logname = none) (above : s.Above b a) :
    ¬ Law (s.create a logname) := by
  obtain ⟨wired, -, child, count, brings, known⟩ := create_spec inv less agregator logname
  have other : b ≠ a := by
    rintro rfl
    exact acyclic b above
  unfold Store.create
  rw [new]
  refine setLog_loses wired (count ▸ Nat.lt_succ_of_lt less) (count ▸ Nat.lt_succ_self _) (b := b)
    (x := s.count) ?_ (.log entry_setLog ?_) fun held => other ((known b).mp held)
  · rw [child]
    exact above.to_reflTransGen
  · rw [(setLog_rest s.count).1]
    rcases (brings s.count).mpr rfl with ⟨leaf, -⟩ | ⟨-, contains⟩
    · exact leaf
    · exact contains.leaf

variable {lname : String}

/-- **An added log or aggregator**: the store before its entry. -/
theorem add_spec (inv : Inv s) (acyclic : s.Acyclic) (less : a < s.count) (less' : l < s.count)
    (agregator : (s.stream a).isAgregator = true) (free : s.find a (s.addName l lname) = none) :
    ∃ u : Store, s.add a l lname = some (u.setLog a (s.addName l lname) l) ∧ Wired u ∧
      SameLogs s u ∧ ∀ b x, x ∈ (u.stream b).conmap ↔
        x ∈ (s.stream b).conmap ∨ b = a ∧ s.Brings l x := by
  unfold Store.addName at free ⊢
  unfold Store.add
  dsimp only
  split
  · next isAgregator =>
    obtain ⟨lst, listed⟩ :=
      Option.isSome_iff_exists.mp (Store.getLogList_isSome acyclic inv.closed l)
    have leaves : ∀ x ∈ lst.map ILog.log, x < s.count ∧ (s.stream x).isAgregator = false := by
      intro x listed'
      have contains := (Store.mem_getLogList listed x).mp listed'
      exact ⟨inv.known l x (inv.connected l x contains), contains.leaf⟩
    obtain ⟨wired, same, mem⟩ := connectAll_spec inv.toWired less agregator leaves
    refine ⟨_, ?_, wired, same, fun b x => ?_⟩
    · unfold Store.addLogAgregator
      rw [free, listed]
      rfl
    · rw [mem, Store.mem_getLogList listed]
      unfold Store.Brings
      simp [isAgregator]
  · next isLog =>
    have leaf : (s.stream l).isAgregator = false := Bool.eq_false_iff.mpr isLog
    obtain ⟨wired, same, mem⟩ := connectOnce_spec inv.toWired less' less leaf agregator
    refine ⟨_, ?_, wired, same, fun b x => ?_⟩
    · unfold Store.addLog
      rw [free]
    · rw [mem]
      unfold Store.Brings
      simp [leaf]

/-- Where the name is taken, nothing is added. -/
theorem add_taken {old : Nat} (taken : s.find a (s.addName l lname) = some old) :
    s.add a l lname = some s := by
  unfold Store.addName at taken
  unfold Store.add
  dsimp only
  split
  · unfold Store.addLogAgregator
    rw [taken]
  · unfold Store.addLog
    rw [taken]

theorem brings_same (same : SameLogs s t) : t.Brings l x ↔ s.Brings l x := by
  unfold Store.Brings
  rw [same.isAgregator]
  exact or_congr Iff.rfl (and_congr Iff.rfl ⟨same.contains, same.symm.contains⟩)

theorem Inv.add (inv : Inv s) (acyclic : s.Acyclic) (inside : a < s.count) (inside' : l < s.count)
    (agregator : (s.stream a).isAgregator = true) (added : s.add a l lname = some t)
    (known : s.find a (s.addName l lname) = none →
      ∀ b, s.Above b a → ∀ x, s.Brings l x → x ∈ (s.stream b).conmap) : Inv t := by
  cases free : s.find a (s.addName l lname) with
  | some old =>
    rw [add_taken free] at added
    cases added
    exact inv
  | none =>
    obtain ⟨u, added', wired, same, mem⟩ := add_spec inv acyclic inside inside' agregator free
    rw [added'] at added
    cases added
    refine Inv.setLog wired (fun b x contains => (mem b x).mpr (Or.inl ?_)) (same.count ▸ inside)
      (same.count ▸ inside') ?_
    · exact inv.connected b x (same.contains contains)
    · intro b above x brings
      rw [same.child] at above
      have brings := (brings_same same).mp brings
      rcases Relation.reflTransGen_iff_eq_or_transGen.mp above with here | strictly
      · exact (mem b x).mpr (Or.inr ⟨here.symm, brings⟩)
      · exact (mem b x).mpr (Or.inl (known free b strictly x brings))

theorem add_loses (inv : Inv s) (acyclic : s.Acyclic) (inside : a < s.count) (inside' : l < s.count)
    (agregator : (s.stream a).isAgregator = true) (free : s.find a (s.addName l lname) = none)
    (above : s.Above b a) (brings : s.Brings l x) (away : x ∉ (s.stream b).conmap) :
    ∃ t, s.add a l lname = some t ∧ ¬ Law t := by
  obtain ⟨u, added, wired, same, mem⟩ := add_spec inv acyclic inside inside' agregator free
  have other : b ≠ a := by
    rintro rfl
    exact acyclic b above
  have freeU : u.find a (s.addName l lname) = none := by
    unfold Store.find at free ⊢
    rw [same.lmap]
    exact free
  refine ⟨_, added, setLog_loses wired (same.count ▸ inside) (same.count ▸ inside') (b := b) (x := x) ?_ ?_ ?_⟩
  · rw [same.child]
    exact above.to_reflTransGen
  · rcases brings with ⟨leaf, rfl⟩ | ⟨isAgregator, contains⟩
    · refine .log entry_setLog ?_
      rw [(setLog_rest x).1, same.isAgregator]
      exact leaf
    · refine .child ⟨⟨_, entry_setLog⟩, ?_⟩
        (contains_setLog_mono freeU (same.symm.contains contains))
      rw [(setLog_rest l).1, same.isAgregator]
      exact isAgregator
  · intro held
    rcases (mem b x).mp held with held | ⟨held, -⟩
    · exact away held
    · exact other held

end Calls

/-! ### Runs -/

/-- A call that meets the condition keeps the invariant. -/
theorem inv_step {call : Call} (inv : Inv s) (acyclic : s.Acyclic) (known : KnownAbove s call)
    (stepped : machine.step s call = some t) : Inv t := by
  have stepped : s.step call = some t := stepped
  cases call with
  | make logName isAgregator =>
    cases stepped
    exact inv.make logName isAgregator
  | create a logname =>
    unfold Store.step at stepped
    dsimp only at stepped
    split at stepped
    · next guard =>
      cases stepped
      exact inv.create guard.1 guard.2 (known guard.1 guard.2)
    · cases stepped
  | add a l lname =>
    unfold Store.step at stepped
    dsimp only at stepped
    split at stepped
    · next guard => exact inv.add acyclic guard.1 guard.2.1 guard.2.2 stepped (known guard.1 guard.2.1 guard.2.2)
    · cases stepped

theorem loses_step {call : Call} (inv : Inv s) (acyclic : s.Acyclic)
    (broken : ¬ KnownAbove s call) : ∃ t, machine.step s call = some t ∧ ¬ Law t := by
  cases call with
  | make logName isAgregator => exact absurd trivial broken
  | create a logname =>
    simp only [KnownAbove, not_forall, not_not] at broken
    obtain ⟨inside, agregator, new, b, above⟩ := broken
    exact ⟨_, if_pos ⟨inside, agregator⟩, create_loses inv acyclic inside agregator new above⟩
  | add a l lname =>
    simp only [KnownAbove, not_forall] at broken
    obtain ⟨inside, inside', agregator, free, b, above, x, brings, away⟩ := broken
    obtain ⟨t, added, lost⟩ := add_loses inv acyclic inside inside' agregator free above brings away
    exact ⟨t, (if_pos ⟨inside, inside', agregator⟩).trans added, lost⟩

theorem inv_start (start : machine.start s) : Inv s := by
  have lmap : ∀ i, (s.stream i).lmap = [] := fun i => (start i).1
  have conmap : ∀ i, (s.stream i).conmap = [] := fun i => (start i).2.1
  refine ⟨⟨?_, ?_, fun b _ => conmap b, fun b _ => lmap b, ?_, ?_, ?_⟩, ?_⟩
  · intro b k x entry
    rw [lmap] at entry
    cases entry
  · intro b x mem
    rw [conmap] at mem
    cases mem
  · intro x b
    rw [conmap, (start x).2.2]
    rfl
  · intro b x mem
    rw [conmap] at mem
    cases mem
  · intro b x mem
    rw [conmap] at mem
    cases mem
  · intro b x contains
    obtain ⟨e, entry, -⟩ := (Store.contains_iff b x).mp contains
    rw [lmap] at entry
    cases entry

/-- **Among the runs without a cycle, those in which every line appears exactly once in every aggregator
that contains its log are exactly those whose calls meet the condition.** -/
theorem lines_law_iff {s : Store} (start : machine.start s) {calls : List Call}
    (acyclic : machine.Always Store.Acyclic s calls) :
    machine.Always Law s calls ↔ machine.Meets KnownAbove s calls := by
  have first : s.Acyclic := by
    cases calls with
    | nil => exact acyclic
    | cons _ _ => exact acyclic.1
  exact Lib.Machine.always_iff_meets_within (P := fun s => Inv s ∧ s.Acyclic)
    (fun s held => held.1.law)
    (fun s call t held known stepped good => ⟨inv_step held.1 held.2 known stepped, good⟩)
    (fun s call held broken => loses_step held.1 held.2 broken) acyclic ⟨inv_start start, first⟩

/-! ### A log that is created in a child -/

/-- No stream is made yet. -/
def Store.empty : Store := ⟨0, fun _ => ⟨"", false, [], [], []⟩⟩

theorem empty_start : machine.start Store.empty := fun _ => ⟨rfl, rfl, rfl⟩

/-- A child aggregator is added, and a log is created in it. -/
def lateLog : List Call :=
  [.make "parent" true, .make "child" true, .add 0 1 "", .create 1 "log"]

/-- A hierarchy whose entries have greater numbers than their aggregators has no cycle. -/
theorem acyclic_of_lt (entries : ∀ a e, e ∈ (s.stream a).lmap → a < e.2) : s.Acyclic :=
  Lib.acyclic_of_rank id fun a c child => by
    obtain ⟨⟨k, entry⟩, -⟩ := child
    exact entries a (k, c) entry

theorem entries_of_three {p q : List (String × Nat)}
    (lmap : ∀ i, (s.stream i).lmap = if i = 0 then p else if i = 1 then q else [])
    (first : ∀ e ∈ p, 0 < e.2) (second : ∀ e ∈ q, 1 < e.2) : s.Acyclic := by
  refine acyclic_of_lt fun a e entry => ?_
  rw [lmap] at entry
  split at entry
  · next named => exact named ▸ first e entry
  · split at entry
    · next named => exact named ▸ second e entry
    · cases entry

theorem lateLog_acyclic : machine.Always Store.Acyclic Store.empty lateLog := by
  have none : ∀ e ∈ ([] : List (String × Nat)), 1 < e.2 := nofun
  refine ⟨entries_of_three (p := []) (q := []) (fun i => ?_) nofun none, ?_⟩
  · show [] = _
    split_ifs <;> rfl
  rintro t ⟨⟩
  refine ⟨entries_of_three (p := []) (q := []) (fun i => ?_) nofun none, ?_⟩
  · match i with
    | 0 => rfl
    | 1 => rfl
    | _ + 2 => rfl
  rintro t ⟨⟩
  refine ⟨entries_of_three (p := []) (q := []) (fun i => ?_) nofun none, ?_⟩
  · match i with
    | 0 => rfl
    | 1 => rfl
    | _ + 2 => rfl
  rintro t ⟨⟩
  refine ⟨entries_of_three (p := [("child", 1)]) (q := []) (fun i => ?_) (by decide) none, ?_⟩
  · match i with
    | 0 => rfl
    | 1 => rfl
    | _ + 2 => rfl
  rintro t ⟨⟩
  refine entries_of_three (p := [("child", 1)]) (q := [("log", 2)]) (fun i => ?_) (by decide)
    (by decide)
  match i with
  | 0 => rfl
  | 1 => rfl
  | 2 => rfl
  | _ + 3 => rfl

/-- The last call breaks the condition. -/
theorem lateLog_breaks : ¬ machine.Always Law Store.empty lateLog := by
  rw [lines_law_iff empty_start lateLog_acyclic]
  intro meets
  have last := (((meets.2 _ rfl).2 _ rfl).2 _ rfl).1
  exact last (by decide) rfl (by decide) 0 (.single ⟨⟨"child", List.mem_singleton_self _⟩, rfl⟩)

/-- The line of the log does not reach the parent. -/
theorem line_lost : ¬ ∀ (s : Store) (calls : List Call), machine.start s →
    machine.Always Store.Acyclic s calls → machine.Always Law s calls := by
  intro holds
  have run := holds Store.empty lateLog empty_start lateLog_acyclic
  have law := ((((run.2 _ rfl).2 _ rfl).2 _ rfl).2 _ rfl)
  have once := law 0 2
    (.child ⟨⟨"child", List.mem_singleton_self _⟩, rfl⟩ (.log (List.mem_singleton_self _) rfl)) 1
    Nat.one_ne_zero
  revert once
  decide

end UniSet.Log

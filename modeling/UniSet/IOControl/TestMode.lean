/-
**Safe values in the test modes of the I/O controller.**

Where the test mode changes, `check_testmode` goes through the items and sets outputs to their safe values.

* `checkTestmode` — one call, with the writes that it tries; each of them may throw.
* `Wanted` — what an item's own settings and the mode say.
* `Stopped` — before an item there is one that ends the loop.
* **`written_iff`** — which items are written.
* **`written_same_iff`** — in two runs an item is written in both or in neither exactly if its own settings leave it
  out, or the loop is ended before it in both or in neither.
-/

import UniSet.IOControl.Control

namespace UniSet.IOControl.TestMode

open ModbusMaster (ObjectId)

/-- **`IOInfo`**, with the safe value and what a card is told of the channel. -/
structure SafeInfo extends IOInfo where
  range : Int
  aref : Int
  safeval : Int
  safevalDefined : Bool

/-- A write that a card is asked for. -/
inductive Write
  | setDigitalChannel (ncard : Int) (subdev : Nat) (channel : Option Nat) (bit : Bool)
  | setAnalogChannel (ncard : Int) (subdev : Nat) (channel : Option Nat) (rawdata range aref : Int)
  deriving DecidableEq, Repr

/-- What is inside the inner `try`. -/
def SafeInfo.safeWrite (it : SafeInfo) : Option Write :=
  match it.subdev with
  | none => none
  | some subdev =>
    if !it.safevalDefined then none
    else if it.stype = .DO || it.lamp then
      let set := if it.invert then !decide (it.safeval ≠ 0) else decide (it.safeval ≠ 0)
      some (.setDigitalChannel it.ncard subdev it.channel set)
    else if it.stype = .AO then some (.setAnalogChannel it.ncard subdev it.channel it.safeval it.range it.aref)
    else none

/-- A write that was tried: the place of its item in `iomap`, and whether the card threw. -/
structure Attempt where
  place : Nat
  write : Write
  thrown : Bool
  deriving DecidableEq, Repr

/-- **The loop of `check_testmode`.** An exception of a card ends the inner `try` only. -/
def safeLoop (c : Config) (testmode : Int) (throws : Nat → Bool) : List (SafeInfo × Nat) → List Attempt
  | [] => []
  | (it, i) :: rest =>
    if it.ignore then safeLoop c testmode throws rest
    else if !c.getCard it.ncard then safeLoop c testmode throws rest
    -- the function returns here
    else if testmode = tmConfigEnable && !it.enableTestmode then []
    else if testmode = tmConfigDisable && it.disableTestmode then []
    else
      match it.safeWrite with
      | none => safeLoop c testmode throws rest
      | some w => ⟨i, w, throws i⟩ :: safeLoop c testmode throws rest

/-- The controller, as far as the function is about it. -/
structure Controller where
  iomap : List SafeInfo
  testmode : Int
  prevTestmode : Int

/-- A call: the controller, the values of SharedMemory (`none` where it throws), and which writes throw. -/
structure Pass where
  controller : Controller
  localGetValue : ObjectId → Option Int
  throws : Nat → Bool

/-- The mode that a call finds. -/
def Pass.mode (c : Config) (p : Pass) : Option Int :=
  match c.testModeAs with
  | none => none
  | some id => if c.forceOut then p.localGetValue id else some p.controller.testmode

/-- **`check_testmode`**: the controller after it, and the writes. -/
def checkTestmode (c : Config) (p : Pass) : Controller × List Attempt :=
  match p.mode c with
  | none => (p.controller, [])
  | some testmode =>
    if p.controller.prevTestmode = testmode then ({ p.controller with testmode := testmode }, [])
    else
      ({ p.controller with testmode := testmode, prevTestmode := testmode },
        if testmode = tmOffPoll || testmode = tmConfigEnable || testmode = tmConfigDisable then
          safeLoop c testmode p.throws p.controller.iomap.zipIdx
        else [])

/-- **A change of the test mode** to one with safe values. -/
structure ChangesTo (c : Config) (p : Pass) (testmode : Int) : Prop where
  found : p.mode c = some testmode
  other : p.controller.prevTestmode ≠ testmode
  safe : testmode = tmOffPoll ∨ testmode = tmConfigEnable ∨ testmode = tmConfigDisable

/-- An item is written: its safe write is tried. -/
def Written (c : Config) (p : Pass) (i : Nat) (it : SafeInfo) : Prop :=
  ∃ a ∈ (checkTestmode c p).2, a.place = i ∧ it.safeWrite = some a.write

/-- The item takes part in the work with the cards. -/
def works (c : Config) (it : SafeInfo) : Bool := !it.ignore && c.getCard it.ncard

/-- The mode leaves the item out. -/
def excluded (testmode : Int) (it : SafeInfo) : Bool :=
  testmode = tmConfigEnable && !it.enableTestmode || testmode = tmConfigDisable && it.disableTestmode

/-- **An item that is to be written**, by its own settings and the mode. -/
def Wanted (c : Config) (testmode : Int) (it : SafeInfo) : Prop :=
  works c it ∧ ¬ excluded testmode it ∧ it.safeWrite ≠ none

/-- **The loop is ended before a place**: an item that takes part in the work is left out by the mode. -/
def Stopped (c : Config) (testmode : Int) (iomap : List SafeInfo) (i : Nat) : Prop :=
  ∃ it ∈ iomap.take i, works c it ∧ excluded testmode it

instance (c : Config) (testmode : Int) (it : SafeInfo) : Decidable (Wanted c testmode it) :=
  inferInstanceAs (Decidable (_ ∧ _ ∧ _))

instance (c : Config) (testmode : Int) (iomap : List SafeInfo) (i : Nat) : Decidable (Stopped c testmode iomap i) :=
  inferInstanceAs (Decidable (∃ it ∈ iomap.take i, works c it ∧ excluded testmode it))

section Loop

variable {c : Config} {testmode : Int} {throws : Nat → Bool}

/-- **One round of the loop**: it ends the loop, passes the item over, or tries its write. -/
theorem safeLoop_cons (it : SafeInfo) (i : Nat) (rest : List (SafeInfo × Nat)) :
    (works c it ∧ excluded testmode it ∧ safeLoop c testmode throws ((it, i) :: rest) = []) ∨
    (¬ Wanted c testmode it ∧ ¬ (works c it ∧ excluded testmode it) ∧
      safeLoop c testmode throws ((it, i) :: rest) = safeLoop c testmode throws rest) ∨
    (Wanted c testmode it ∧ ¬ (works c it ∧ excluded testmode it) ∧
      ∃ w, it.safeWrite = some w ∧
        safeLoop c testmode throws ((it, i) :: rest) = ⟨i, w, throws i⟩ :: safeLoop c testmode throws rest) := by
  rw [safeLoop]
  by_cases working : works c it
  · obtain ⟨seen, card⟩ : it.ignore = false ∧ c.getCard it.ncard = true := by
      simpa [works] using working
    rw [if_neg (by simp [seen]), if_neg (by simp [card])]
    by_cases out : excluded testmode it
    · refine Or.inl ⟨working, out, ?_⟩
      rcases (Bool.or_eq_true _ _).mp out with enable | disable
      · rw [if_pos enable]
      · rw [if_pos disable, ite_self]
    · have out' := out
      rw [excluded, Bool.or_eq_true, not_or] at out'
      rw [if_neg out'.1, if_neg out'.2]
      cases write : it.safeWrite with
      | none => exact Or.inr (Or.inl ⟨fun wanted => wanted.2.2 write, fun stops => out stops.2, rfl⟩)
      | some w =>
        refine Or.inr (Or.inr ⟨⟨working, out, ?_⟩, fun stops => out stops.2, w, rfl, rfl⟩)
        rw [write]
        exact Option.some_ne_none w
  · refine Or.inr (Or.inl ⟨fun wanted => working wanted.1, fun stops => working stops.1, ?_⟩)
    by_cases seen : it.ignore = true
    · rw [if_pos seen]
    · have card : (!c.getCard it.ncard) = true := by
        simpa [works, seen] using working
      rw [if_neg seen, if_pos card]

/-- The writes are those of the items the loop goes through. -/
theorem le_place {items : List SafeInfo} {k : Nat} {a : Attempt}
    (member : a ∈ safeLoop c testmode throws (items.zipIdx k)) : k ≤ a.place := by
  induction items generalizing k with
  | nil => exact absurd member List.not_mem_nil
  | cons it rest ih =>
    rw [List.zipIdx_cons] at member
    rcases @safeLoop_cons c testmode throws it k (rest.zipIdx (k + 1)) with
      ⟨-, -, ended⟩ | ⟨-, -, passed⟩ | ⟨-, -, w, -, tried⟩
    · rw [ended] at member
      exact absurd member List.not_mem_nil
    · rw [passed] at member
      exact Nat.le_of_succ_le (ih member)
    · rw [tried] at member
      rcases List.mem_cons.mp member with rfl | later
      · exact Nat.le_refl k
      · exact Nat.le_of_succ_le (ih later)

/-- **What the loop writes.** -/
theorem safeLoop_writes_iff {items : List SafeInfo} {i : Nat} {it : SafeInfo} (there : items[i]? = some it) (k : Nat) :
    (∃ a ∈ safeLoop c testmode throws (items.zipIdx k), a.place = k + i ∧ it.safeWrite = some a.write) ↔
      Wanted c testmode it ∧ ¬ Stopped c testmode items i := by
  induction items generalizing i k with
  | nil => exact absurd there.symm (Option.some_ne_none it)
  | cons first rest ih =>
    rw [List.zipIdx_cons]
    have head := @safeLoop_cons c testmode throws first k (rest.zipIdx (k + 1))
    cases i with
    | zero =>
      obtain rfl := Option.some.inj there
      have none : ¬ Stopped c testmode (first :: rest) 0 := fun ⟨_, member, _⟩ => absurd member List.not_mem_nil
      rw [and_iff_left none]
      have later : ∀ a ∈ safeLoop c testmode throws (rest.zipIdx (k + 1)), a.place ≠ k + 0 := fun a member =>
        Nat.ne_of_gt (le_place member)
      rcases head with ⟨-, out, ended⟩ | ⟨unwanted, -, passed⟩ | ⟨wanted, -, w, write, tried⟩
      · rw [ended]
        exact iff_of_false (fun ⟨_, member, _⟩ => absurd member List.not_mem_nil) fun wanted => wanted.2.1 out
      · rw [passed]
        exact iff_of_false (fun ⟨a, member, place, _⟩ => later a member place) unwanted
      · rw [tried]
        exact iff_of_true ⟨_, List.mem_cons_self, rfl, write⟩ wanted
    | succ i =>
      have stopped : Stopped c testmode (first :: rest) (i + 1) ↔
          (works c first ∧ excluded testmode first) ∨ Stopped c testmode rest i := by
        rw [Stopped, List.take_succ_cons, List.exists_mem_cons_iff]
        exact Iff.rfl
      have shifted : k + (i + 1) = k + 1 + i := by omega
      rw [stopped, shifted]
      rcases head with ⟨working, out, ended⟩ | ⟨-, goes, passed⟩ | ⟨-, goes, w, -, tried⟩
      · rw [ended]
        exact iff_of_false (fun ⟨_, member, _⟩ => absurd member List.not_mem_nil)
          fun both => both.2 (Or.inl ⟨working, out⟩)
      · rw [passed, or_iff_right goes]
        exact ih there (k + 1)
      · rw [tried, or_iff_right goes, ← ih there (k + 1), List.exists_mem_cons_iff]
        refine or_iff_right fun own => ?_
        have place : k = k + 1 + i := own.1
        omega

end Loop

section Passes

variable {c : Config} {p q : Pass} {testmode : Int} {it : SafeInfo} {i j : Nat}

/-- **Which items are written** where the mode changes. -/
theorem written_iff (changes : ChangesTo c p testmode) (there : p.controller.iomap[i]? = some it) :
    Written c p i it ↔ Wanted c testmode it ∧ ¬ Stopped c testmode p.controller.iomap i := by
  have safe : (testmode = tmOffPoll || testmode = tmConfigEnable || testmode = tmConfigDisable) = true := by
    rcases changes.safe with rfl | rfl | rfl <;> rfl
  have writes : (checkTestmode c p).2 = safeLoop c testmode p.throws p.controller.iomap.zipIdx := by
    rw [checkTestmode, changes.found]
    show (if p.controller.prevTestmode = testmode then _ else _ : Controller × List Attempt).2 = _
    rw [if_neg changes.other, if_pos safe]
  rw [Written, writes, ← safeLoop_writes_iff there 0, Nat.zero_add]

/-- Where all outputs are turned off nothing ends the loop. -/
theorem not_stopped_offPoll (iomap : List SafeInfo) (i : Nat) : ¬ Stopped c tmOffPoll iomap i := by
  rintro ⟨it, -, -, out⟩
  exact Bool.false_ne_true out

/-- **One item in two runs.** -/
theorem written_same_iff (first : ChangesTo c p testmode) (second : ChangesTo c q testmode)
    (inFirst : p.controller.iomap[i]? = some it) (inSecond : q.controller.iomap[j]? = some it) :
    (Written c p i it ↔ Written c q j it) ↔
      (Wanted c testmode it →
        (Stopped c testmode p.controller.iomap i ↔ Stopped c testmode q.controller.iomap j)) := by
  rw [written_iff first inFirst, written_iff second inSecond, and_congr_right_iff, not_iff_not]

end Passes

/-! ### A relay and a valve -/

/-- A digital output that works in the mode of the enabled channels. -/
def relay : SafeInfo where
  si := ⟨1, 0⟩
  stype := .DO
  value := 0
  invert := false
  rawdata := false
  depend := none
  filter := none
  filtered := []
  cal := none
  debounced := id
  ignore := false
  subdev := some 0
  channel := some 0
  ncard := 1
  lamp := false
  noTestlamp := false
  enableTestmode := true
  disableTestmode := false
  range := 0
  aref := 0
  safeval := 1
  safevalDefined := true

/-- Another one, which does not. -/
def valve : SafeInfo := { relay with channel := some 1, enableTestmode := false }

def oneCard : Config := ⟨false, true, none, some 9, -1, [false, true], [], 0⟩

/-- A call in which the sensor of the mode has a value. -/
def pass (testmode : Int) (throws : Nat → Bool) (iomap : List SafeInfo) : Pass :=
  ⟨⟨iomap, tmNone, tmNone⟩, fun _ => some testmode, throws⟩

/-- **A valve that is ignored**, or whose write throws, does not matter. -/
theorem written_relay :
    (Written oneCard (pass tmConfigEnable (fun _ => false) [relay]) 0 relay ↔
      Written oneCard (pass tmConfigEnable (fun _ => true) [{ valve with ignore := true }, relay]) 1 relay) ∧
    (Written oneCard (pass tmOffPoll (fun _ => false) [relay]) 0 relay ↔
      Written oneCard (pass tmOffPoll (fun i => i = 0) [valve, relay]) 1 relay) :=
  ⟨(written_same_iff ⟨rfl, by decide, by decide⟩ ⟨rfl, by decide, by decide⟩ rfl rfl).mpr (by decide),
    (written_same_iff ⟨rfl, by decide, by decide⟩ ⟨rfl, by decide, by decide⟩ rfl rfl).mpr (by decide)⟩

/-- **A valve that does not work in the mode** keeps the relay behind it from its safe value. -/
theorem written_behind_valve : ¬ ∀ (c : Config) (p q : Pass) (testmode : Int) (it : SafeInfo) (i j : Nat),
    ChangesTo c p testmode → ChangesTo c q testmode → p.controller.iomap[i]? = some it →
      q.controller.iomap[j]? = some it → (Written c p i it ↔ Written c q j it) := by
  intro all
  have alone : Written oneCard (pass tmConfigEnable (fun _ => false) [relay]) 0 relay :=
    ⟨_, List.mem_cons_self, rfl, rfl⟩
  obtain ⟨a, member, -⟩ := (all oneCard (pass tmConfigEnable (fun _ => false) [relay])
    (pass tmConfigEnable (fun _ => false) [valve, relay]) tmConfigEnable relay 0 1 ⟨rfl, by decide, by decide⟩
    ⟨rfl, by decide, by decide⟩ rfl rfl).mp alone
  exact absurd member List.not_mem_nil

end UniSet.IOControl.TestMode

/-
**The I/O controller: lamps, lists of blinking lamps, polling and messages.**

* `LampCommand`, `BlinkLists` — the values of a lamp and the three lists of blinking outputs.
* `ioread`, `iopoll` — polling of the channels. With `force_out` a lamp is moved between the lists
  here.
* `checkTestlamp` — start and end of the test of the lamps.
* `sensorInfo` — a message of SharedMemory. Without `force_out` a lamp is moved here.
* `round` — changes of sensors, then one pass of the thread.

The thread polls once with `force` before its first `check_testlamp`; runs start without this poll.
-/

import Mathlib.Data.Set.Insert
import UniSet.IOBase
import UniSet.Timers

namespace UniSet.IOControl

open ModbusMaster (ObjectId IOType)

/-- `LampCommand`. -/
inductive LampCommand
  | lmpOFF | lmpON | lmpBLINK | lmpBLINK2 | lmpBLINK3
deriving DecidableEq, Repr

/-- The command a value is. -/
def LampCommand.ofInt (v : Int) : Option LampCommand :=
  if v = 0 then some .lmpOFF
  else if v = 1 then some .lmpON
  else if v = 2 then some .lmpBLINK
  else if v = 3 then some .lmpBLINK2
  else if v = 4 then some .lmpBLINK3
  else none

/-- The names of the lists. -/
inductive BlinkList
  | lstBlink | lstBlink2 | lstBlink3
deriving DecidableEq, Repr

/-- The list of a blinking command. -/
def LampCommand.list : LampCommand → Option BlinkList
  | lmpOFF | lmpON => none
  | lmpBLINK => some .lstBlink
  | lmpBLINK2 => some .lstBlink2
  | lmpBLINK3 => some .lstBlink3

/-- **The lists of blinking outputs.** An output is its place in `iomap`. -/
abbrev BlinkLists := BlinkList → List Nat

namespace BlinkLists

/-- `addBlink`. -/
def addBlink (i : Nat) (l : BlinkList) (b : BlinkLists) : BlinkLists :=
  if i ∈ b l then b else Function.update b l (b l ++ [i])

/-- `delBlink`. -/
def delBlink (i : Nat) (l : BlinkList) (b : BlinkLists) : BlinkLists :=
  Function.update b l ((b l).erase i)

/-- A lamp that does not blink. -/
def noBlink (i : Nat) (b : BlinkLists) : BlinkLists :=
  ((b.delBlink i .lstBlink).delBlink i .lstBlink2).delBlink i .lstBlink3

/-- A lamp that starts to blink in a list: it leaves the other two before. -/
def toBlink (i : Nat) : BlinkList → BlinkLists → BlinkLists
  | .lstBlink, b => ((b.delBlink i .lstBlink2).delBlink i .lstBlink3).addBlink i .lstBlink
  | .lstBlink2, b => ((b.delBlink i .lstBlink).delBlink i .lstBlink3).addBlink i .lstBlink2
  | .lstBlink3, b => ((b.delBlink i .lstBlink).delBlink i .lstBlink2).addBlink i .lstBlink3

end BlinkLists

/-- The list a value blinks in. -/
def blinkOf (v : Int) : Option BlinkList := (LampCommand.ofInt v).bind LampCommand.list

/-- The value is one of the blinking ones. -/
def blinks (v : Int) : Bool := (blinkOf v).isSome

/-- What a message with a value does to the lists. -/
def infoLists (i : Nat) (prev v : Int) (b : BlinkLists) : BlinkLists :=
  match LampCommand.ofInt v with
  | none => b
  | some cmd =>
    match cmd.list with
    | none => b.noBlink i
    | some l => if prev ≠ v then b.toBlink i l else b

/-- What polling with `force_out` does to the lists. -/
def pollLists (i : Nat) (prev v : Int) (b : BlinkLists) : BlinkLists :=
  match LampCommand.ofInt v with
  | none => b
  | some cmd =>
    match cmd.list with
    | none => if blinks prev then b.noBlink i else b
    | some l => if prev ≠ v then b.toBlink i l else b

/-! ### Inputs, outputs and the controller -/

/-- **`IOInfo`.** -/
structure IOInfo extends IOBase where
  ignore : Bool
  /-- `none` is `DefaultSubdev`. -/
  subdev : Option Nat
  /-- `none` is `DefaultChannel`. -/
  channel : Option Nat
  ncard : Int
  lamp : Bool
  /-- `no_iotestlamp`. -/
  noTestlamp : Bool
  enableTestmode : Bool
  disableTestmode : Bool

/-! `TestModeID`. -/

def tmNone : Int := 0
def tmOffPoll : Int := 1
def tmConfigEnable : Int := 2
def tmConfigDisable : Int := 3
def tmOnlyInputs : Int := 4
def tmOnlyOutputs : Int := 5

/-- **The parameters of a controller.** -/
structure Config where
  force : Bool
  forceOut : Bool
  testLampS : Option ObjectId
  testModeAs : Option ObjectId
  defCardNum : Int
  /-- Whether there is a device behind the number. -/
  cards : List Bool
  /-- `pmap`: priority and place in `iomap`. -/
  pmap : List (Nat × Nat)
  maxHalf : Nat

/-- `CardList::getCard`. -/
def Config.getCard (c : Config) (ncard : Int) : Bool :=
  decide (0 < ncard) && c.cards.getD ncard.toNat false

/-- **The state of a controller** and the values in SharedMemory. -/
structure State where
  sm : SMValues
  iomap : List IOInfo
  lists : BlinkLists
  isTestLamp : Bool
  trTestLamp : Trigger
  testmode : Int

namespace IOInfo

/-- The item with another value. -/
def withValue (it : IOInfo) (value : Int) : IOInfo := { it with value := value }

/-- The test mode leaves the channel in work. -/
def inTestmode (it : IOInfo) (testmode : Int) : Bool :=
  if testmode = tmNone then true
  else if testmode = tmConfigEnable && !it.enableTestmode then false
  else if testmode = tmConfigDisable && it.disableTestmode then false
  else if testmode = tmOnlyInputs && (it.stype ≠ .AI && it.stype ≠ .DI) then false
  else if testmode = tmOnlyOutputs && (it.stype ≠ .AO && it.stype ≠ .DO) then false
  else true

/-- What `ioread` checks before it reads or writes the channel. -/
def readable (it : IOInfo) (c : Config) (testmode : Int) : Bool :=
  !it.ignore && decide (it.ncard ≠ c.defCardNum) && it.inTestmode testmode && c.getCard it.ncard &&
    it.subdev.isSome && it.channel.isSome

/-- **A lamp that takes part in the test.** -/
def takesPart (it : IOInfo) : Bool :=
  it.lamp && !it.noTestlamp && (it.stype = .AO || it.stype = .DO)

end IOInfo

namespace State

/-- The item at a place is another one. -/
def setItem (s : State) (i : Nat) (it : IOInfo) : State := { s with iomap := s.iomap.set i it }

/-- `ioread` of a lamp. -/
def readLamp (s : State) (c : Config) (i : Nat) (it : IOInfo) : State :=
  if c.forceOut then
    { s.setItem i (it.withValue (s.sm it.si.id)) with
      lists := pollLists i it.value (s.sm it.si.id) s.lists }
  else s

/-- **`ioread`**: `input` is what the card reads on the channel. -/
def ioread (c : Config) (s : State) (i : Nat) (input : Int) : State :=
  match s.iomap[i]? with
  | none => s
  | some it =>
    if it.readable c s.testmode then
      match it.stype with
      | .AI =>
        let read := it.processingAsAI input s.sm c.force
        { s.setItem i { it with toIOBase := read.1 } with sm := read.2 }
      | .DI =>
        let read := it.processingAsDI (decide (input ≠ 0)) s.sm c.force
        { s.setItem i { it with toIOBase := read.1 } with
          sm := read.2
          isTestLamp := if c.testLampS = some it.si.id then decide (input ≠ 0) else s.isTestLamp }
      | .AO =>
        if it.lamp then s.readLamp c i it
        else s.setItem i { it with toIOBase := it.refresh s.sm c.forceOut }
      | .DO => s.setItem i { it with toIOBase := it.refresh s.sm c.forceOut }
    else s

/-- The places in `pmap` with a priority above the given one. -/
def prior (c : Config) (above : Nat) : List Nat :=
  (c.pmap.filter fun p => above < p.1).map Prod.snd

/-- The main loop of `iopoll`: behind the half the places of priority above one are polled once more. -/
def mainOrder (c : Config) : Bool → List (IOInfo × Nat) → List Nat
  | _, [] => []
  | again, (it, i) :: rest =>
    if it.ignore then mainOrder c again rest
    else if !again && decide (c.maxHalf < i) then i :: (prior c 1 ++ mainOrder c true rest)
    else i :: mainOrder c again rest

/-- The places in the order they are polled in. -/
def pollOrder (s : State) (c : Config) : List Nat :=
  prior c 0 ++ mainOrder c false s.iomap.zipIdx ++ prior c 2

/-- Reads of the channels at some places, each with the number of its input. -/
def reads (c : Config) (inputs : Nat → Int) (s : State) (places : List (Nat × Nat)) : State :=
  places.foldl (fun s place => s.ioread c place.1 (inputs place.2)) s

/-- **`iopoll`**: `inputs` are what the cards read one after another. -/
def iopoll (c : Config) (inputs : Nat → Int) (s : State) : State :=
  if s.testmode = tmOffPoll then s else s.reads c inputs (s.pollOrder c).zipIdx

/-- `check_testmode`, as far as it is about the mode. -/
def checkTestmode (c : Config) (s : State) : State :=
  match c.testModeAs with
  | none => s
  | some id => if c.forceOut then { s with testmode := s.sm id } else s

/-- What `check_testlamp` does with one item where the test has begun or ended. -/
def testItem (isTestLamp : Bool) (it : IOInfo) (i : Nat) (b : BlinkLists) : BlinkLists :=
  if !it.lamp || it.noTestlamp then b
  else
    match it.stype with
    | .AO =>
      if isTestLamp then ((b.addBlink i .lstBlink).delBlink i .lstBlink2).delBlink i .lstBlink3
      else
        match blinkOf it.value with
        | some l => b.addBlink i l
        | none => b.noBlink i
    | .DO => if isTestLamp then b.addBlink i .lstBlink else b.delBlink i .lstBlink
    | _ => b

/-- The trigger gets the flag of the test. An edge goes over all items. -/
def setTest (s : State) (isTestLamp : Bool) : State :=
  let edge := s.trTestLamp.change isTestLamp
  { s with
    isTestLamp := isTestLamp
    trTestLamp := edge.2
    lists := if edge.1 then
        s.iomap.zipIdx.foldl (fun b item => testItem isTestLamp item.1 item.2 b) s.lists
      else s.lists }

/-- **`check_testlamp`.** -/
def checkTestlamp (c : Config) (s : State) : State :=
  match c.testLampS with
  | none => s
  | some id => s.setTest (if c.forceOut then decide (s.sm id ≠ 0) else s.isTestLamp)

/-- The item of the sensor gets the value of a message. -/
def itemInfo (s : State) (i : Nat) (it : IOInfo) (value : Int) : State :=
  match it.stype with
  | .AO =>
    { s.setItem i (it.withValue value) with
      lists := if it.lamp then infoLists i it.value value s.lists else s.lists }
  | .DO => s.setItem i (it.withValue (if value ≠ 0 then 1 else 0))
  | _ => s

/-- The flags of the tests after a message. -/
def testInfo (c : Config) (s : State) (id : ObjectId) (value : Int) : State :=
  if c.testLampS = some id then { s with isTestLamp := decide (value ≠ 0) }
  else if c.testModeAs = some id then { s with testmode := value }
  else s

/-- **`sensorInfo`**: the first item of the sensor gets the value. -/
def sensorInfo (c : Config) (s : State) (id : ObjectId) (value : Int) : State :=
  if c.forceOut then s
  else
    match s.iomap.findIdx? fun it => it.si.id = id with
    | none => s.testInfo c id value
    | some i =>
      match s.iomap[i]? with
      | none => s.testInfo c id value
      | some it => (s.testInfo c id value).itemInfo i it value

/-- A sensor has a value in SharedMemory. -/
def save (s : State) (id : ObjectId) (value : Int) : State :=
  { s with sm := Function.update s.sm id value }

/-- A sensor changes in SharedMemory and its message arrives. -/
def change (c : Config) (s : State) (e : ObjectId × Int) : State :=
  (s.save e.1 e.2).sensorInfo c e.1 e.2

/-- **One pass of the thread.** -/
def pass (c : Config) (inputs : Nat → Int) (s : State) : State :=
  ((s.checkTestmode c).checkTestlamp c).iopoll c inputs

end State

/-- Changes of sensors and the pass after them. -/
structure Round where
  changes : List (ObjectId × Int)
  inputs : Nat → Int

/-- The state after the changes and the pass. -/
def State.round (c : Config) (s : State) (r : Round) : State :=
  (r.changes.foldl (State.change c) s).pass c r.inputs

/-- A controller after its configuration is read: no output blinks. -/
def State.init (sm : SMValues) (iomap : List IOInfo) : State where
  sm := sm
  iomap := iomap
  lists := fun _ => []
  isTestLamp := false
  trTestLamp := ⟨false⟩
  testmode := tmNone

/-! ### The lists an output is in -/

namespace BlinkLists

/-- **The lists an output is in.** -/
def marks (b : BlinkLists) (i : Nat) : Set BlinkList := {l | i ∈ b l}

/-- No output is in a list twice. -/
def Good (b : BlinkLists) : Prop := ∀ l, (b l).Nodup

variable {b : BlinkLists} {i j : Nat}

theorem mem_addBlink (l l' : BlinkList) :
    j ∈ b.addBlink i l l' ↔ j ∈ b l' ∨ j = i ∧ l' = l := by
  rw [addBlink]
  split
  · next here =>
    refine ⟨Or.inl, ?_⟩
    rintro (h | ⟨rfl, rfl⟩)
    · exact h
    · exact here
  · rw [Function.update_apply]
    split
    · next same => simp [same]
    · next other => simp [other]

theorem mem_delBlink (good : b.Good) (l l' : BlinkList) :
    j ∈ b.delBlink i l l' ↔ j ∈ b l' ∧ ¬ (j = i ∧ l' = l) := by
  rw [delBlink, Function.update_apply]
  split
  · next same => rw [same, (good l).mem_erase_iff]; simp [and_comm]
  · next other => simp [other]

theorem Good.addBlink (good : b.Good) (i : Nat) (l : BlinkList) : (b.addBlink i l).Good := by
  intro l'
  rw [BlinkLists.addBlink]
  split
  · exact good l'
  · next away =>
    rw [Function.update_apply]
    split
    · refine List.nodup_append.mpr ⟨good l, List.pairwise_singleton _ i, ?_⟩
      rintro x hx y hy rfl
      exact away (List.mem_singleton.mp hy ▸ hx)
    · exact good l'

theorem Good.delBlink (good : b.Good) (i : Nat) (l : BlinkList) : (b.delBlink i l).Good := by
  intro l'
  rw [BlinkLists.delBlink, Function.update_apply]
  split
  · exact (good l).erase i
  · exact good l'

theorem Good.noBlink (good : b.Good) (i : Nat) : (b.noBlink i).Good :=
  ((good.delBlink i _).delBlink i _).delBlink i _

theorem Good.toBlink (good : b.Good) (i : Nat) (l : BlinkList) : (b.toBlink i l).Good := by
  cases l
  · exact ((good.delBlink i _).delBlink i _).addBlink i _
  · exact ((good.delBlink i _).delBlink i _).addBlink i _
  · exact ((good.delBlink i _).delBlink i _).addBlink i _

theorem marks_addBlink (l : BlinkList) : (b.addBlink i l).marks i = insert l (b.marks i) := by
  ext l'
  show i ∈ b.addBlink i l l' ↔ l' = l ∨ i ∈ b l'
  rw [mem_addBlink, or_comm]
  simp

theorem marks_delBlink (good : b.Good) (l : BlinkList) :
    (b.delBlink i l).marks i = b.marks i \ {l} := by
  ext l'
  show i ∈ b.delBlink i l l' ↔ i ∈ b l' ∧ l' ≠ l
  rw [mem_delBlink good]
  simp

theorem marks_noBlink (good : b.Good) : (b.noBlink i).marks i = ∅ := by
  rw [noBlink, marks_delBlink ((good.delBlink i _).delBlink i _), marks_delBlink (good.delBlink i _),
    marks_delBlink good]
  ext l
  cases l <;> simp

theorem marks_toBlink (good : b.Good) (l : BlinkList) : (b.toBlink i l).marks i = {l} := by
  cases l
  all_goals
    rw [toBlink, marks_addBlink, marks_delBlink (good.delBlink i _), marks_delBlink good]
    ext l
    cases l <;> simp

/-- An operation for one output leaves the marks of the others. -/
theorem marks_addBlink_ne (other : j ≠ i) (l : BlinkList) : (b.addBlink i l).marks j = b.marks j := by
  ext l'
  show j ∈ b.addBlink i l l' ↔ j ∈ b l'
  rw [mem_addBlink]
  simp [other]

theorem marks_delBlink_ne (good : b.Good) (other : j ≠ i) (l : BlinkList) :
    (b.delBlink i l).marks j = b.marks j := by
  ext l'
  show j ∈ b.delBlink i l l' ↔ j ∈ b l'
  rw [mem_delBlink good]
  simp [other]

theorem marks_noBlink_ne (good : b.Good) (other : j ≠ i) : (b.noBlink i).marks j = b.marks j := by
  rw [noBlink, marks_delBlink_ne ((good.delBlink i _).delBlink i _) other,
    marks_delBlink_ne (good.delBlink i _) other, marks_delBlink_ne good other]

theorem marks_toBlink_ne (good : b.Good) (other : j ≠ i) (l : BlinkList) :
    (b.toBlink i l).marks j = b.marks j := by
  cases l
  all_goals
    rw [toBlink, marks_addBlink_ne other, marks_delBlink_ne (good.delBlink i _) other,
      marks_delBlink_ne good other]

end BlinkLists

/-- **The lists that belong to a value.** -/
def belongs (v : Int) : Set BlinkList := {l | blinkOf v = some l}

/-- The value is a command for lamps. -/
def LampValue (v : Int) : Prop := (LampCommand.ofInt v).isSome

theorem belongs_eq_empty {v : Int} (steady : blinks v = false) : belongs v = ∅ := by
  rw [blinks, Option.isSome_eq_false_iff, Option.isNone_iff_eq_none] at steady
  ext l
  simp [belongs, steady]

variable {l : BlinkList}

theorem belongs_eq_singleton {v : Int} (hl : blinkOf v = some l) : belongs v = {l} := by
  ext l'
  simp [belongs, hl, eq_comm]

section Moves

variable {b : BlinkLists} {i j : Nat} {prev v : Int}

theorem infoLists_good (good : b.Good) : (infoLists i prev v b).Good := by
  unfold infoLists
  split
  · exact good
  · split
    · exact good.noBlink i
    · split
      · exact good.toBlink i _
      · exact good

theorem pollLists_good (good : b.Good) : (pollLists i prev v b).Good := by
  unfold pollLists
  split
  · exact good
  · split
    · split
      · exact good.noBlink i
      · exact good
    · split
      · exact good.toBlink i _
      · exact good

theorem infoLists_ne (good : b.Good) (other : j ≠ i) :
    (infoLists i prev v b).marks j = b.marks j := by
  unfold infoLists
  split
  · rfl
  · split
    · exact BlinkLists.marks_noBlink_ne good other
    · split
      · exact BlinkLists.marks_toBlink_ne good other _
      · rfl

theorem pollLists_ne (good : b.Good) (other : j ≠ i) :
    (pollLists i prev v b).marks j = b.marks j := by
  unfold pollLists
  split
  · rfl
  · split
    · split
      · exact BlinkLists.marks_noBlink_ne good other
      · rfl
    · split
      · exact BlinkLists.marks_toBlink_ne good other _
      · rfl

theorem infoLists_steady (lamp : LampValue v) (steady : blinkOf v = none) :
    infoLists i prev v b = b.noBlink i := by
  obtain ⟨cmd, hcmd⟩ := Option.isSome_iff_exists.mp lamp
  have hlist : cmd.list = none := by rw [← steady, blinkOf, hcmd]; rfl
  simp only [infoLists, hcmd, hlist]

theorem infoLists_blinking (hl : blinkOf v = some l) :
    infoLists i prev v b = if prev ≠ v then b.toBlink i l else b := by
  obtain ⟨cmd, hcmd, hlist⟩ := Option.bind_eq_some_iff.mp hl
  simp only [infoLists, hcmd, hlist]

theorem pollLists_steady (lamp : LampValue v) (steady : blinkOf v = none) :
    pollLists i prev v b = if blinks prev then b.noBlink i else b := by
  obtain ⟨cmd, hcmd⟩ := Option.isSome_iff_exists.mp lamp
  have hlist : cmd.list = none := by rw [← steady, blinkOf, hcmd]; rfl
  simp only [pollLists, hcmd, hlist]

theorem pollLists_blinking (hl : blinkOf v = some l) :
    pollLists i prev v b = if prev ≠ v then b.toBlink i l else b := by
  obtain ⟨cmd, hcmd, hlist⟩ := Option.bind_eq_some_iff.mp hl
  simp only [pollLists, hcmd, hlist]

theorem blinks_of_none (hl : blinkOf v = none) : blinks v = false := by rw [blinks, hl]; rfl

theorem blinks_of_some (hl : blinkOf v = some l) : blinks v = true := by
  rw [blinks, hl]
  rfl

/-- The value repeats a blinking one. -/
def Repeats (prev v : Int) : Prop := v = prev ∧ blinks v = true

instance : Decidable (Repeats prev v) := inferInstanceAs (Decidable (_ ∧ _))

/-- **A message moves a lamp to the list of its value**, unless it repeats a blinking one. -/
theorem infoLists_marks (good : b.Good) (lamp : LampValue v) :
    (infoLists i prev v b).marks i = if Repeats prev v then b.marks i else belongs v := by
  cases hl : blinkOf v with
  | none =>
    have moved : ¬ Repeats prev v := by
      rintro ⟨-, h⟩
      rw [blinks_of_none hl] at h
      cases h
    rw [infoLists_steady lamp hl, BlinkLists.marks_noBlink good, if_neg moved,
      belongs_eq_empty (blinks_of_none hl)]
  | some l =>
    rw [infoLists_blinking hl]
    by_cases same : v = prev
    · have repeated : Repeats prev v := ⟨same, blinks_of_some hl⟩
      rw [if_pos repeated, if_neg (by simp [same])]
    · have moved : ¬ Repeats prev v := fun h => same h.1
      rw [if_neg moved, if_pos (Ne.symm same), BlinkLists.marks_toBlink good,
        belongs_eq_singleton hl]

/-- The value read is no reason to move the lamp. -/
def Steady (prev v : Int) : Prop := v = prev ∨ blinks prev = false ∧ blinks v = false

instance : Decidable (Steady prev v) := inferInstanceAs (Decidable (_ ∨ _))

/-- **Polling moves a lamp to the list of the value read**, unless this one is no reason to. -/
theorem pollLists_marks (good : b.Good) (lamp : LampValue v) :
    (pollLists i prev v b).marks i = if Steady prev v then b.marks i else belongs v := by
  cases hl : blinkOf v with
  | none =>
    rw [pollLists_steady lamp hl]
    cases hprev : blinks prev with
    | false =>
      have steady : Steady prev v := Or.inr ⟨hprev, blinks_of_none hl⟩
      rw [if_pos steady, if_neg Bool.false_ne_true]
    | true =>
      have moved : ¬ Steady prev v := by
        rintro (rfl | ⟨h, -⟩)
        · rw [blinks_of_none hl] at hprev
          cases hprev
        · rw [hprev] at h
          cases h
      rw [if_neg moved, if_pos rfl, belongs_eq_empty (blinks_of_none hl)]
      exact BlinkLists.marks_noBlink good
  | some l =>
    rw [pollLists_blinking hl]
    by_cases same : v = prev
    · have steady : Steady prev v := Or.inl same
      rw [if_pos steady, if_neg (by simp [same])]
    · have moved : ¬ Steady prev v := by
        rintro (h | ⟨-, h⟩)
        · exact same h
        · rw [blinks_of_some hl] at h
          cases h
      rw [if_neg moved, if_pos (Ne.symm same), BlinkLists.marks_toBlink good,
        belongs_eq_singleton hl]

end Moves

/-! ### The test of the lamps -/

/-- The lists of an item behind the start or the end of the test. -/
def testMarks (isTestLamp : Bool) (it : IOInfo) (m : Set BlinkList) : Set BlinkList :=
  if it.takesPart then
    if isTestLamp then if it.stype = .AO then {.lstBlink} else insert .lstBlink m
    else if it.stype = .AO then if blinks it.value then m ∪ belongs it.value else ∅
    else m \ {.lstBlink}
  else m

namespace State

variable {b : BlinkLists} {i j : Nat} {on : Bool} {it : IOInfo}

theorem testItem_good (good : b.Good) : (testItem on it i b).Good := by
  unfold testItem
  split
  · exact good
  · split
    · split
      · exact ((good.addBlink i _).delBlink i _).delBlink i _
      · split
        · exact good.addBlink i _
        · exact good.noBlink i
    · split
      · exact good.addBlink i _
      · exact good.delBlink i _
    · exact good

theorem testItem_ne (good : b.Good) (other : j ≠ i) : (testItem on it i b).marks j = b.marks j := by
  unfold testItem
  split
  · rfl
  · split
    · split
      · rw [BlinkLists.marks_delBlink_ne ((good.addBlink i _).delBlink i _) other,
          BlinkLists.marks_delBlink_ne (good.addBlink i _) other, BlinkLists.marks_addBlink_ne other]
      · split
        · exact BlinkLists.marks_addBlink_ne other _
        · exact BlinkLists.marks_noBlink_ne good other
    · split
      · exact BlinkLists.marks_addBlink_ne other _
      · exact BlinkLists.marks_delBlink_ne good other _
    · rfl

theorem testItem_marks (good : b.Good) :
    (testItem on it i b).marks i = testMarks on it (b.marks i) := by
  unfold testItem testMarks IOInfo.takesPart
  cases it.lamp
  · rfl
  cases it.noTestlamp
  · cases it.stype
    · rfl
    · cases on
      · exact BlinkLists.marks_delBlink good _
      · exact BlinkLists.marks_addBlink _
    · rfl
    · cases on
      · cases hl : blinkOf it.value with
        | none => simp [blinks, hl, BlinkLists.marks_noBlink good]
        | some l =>
          simp only [Bool.not_true, Bool.or_false, Bool.false_eq_true, if_false, hl, blinks,
            Option.isSome_some, if_true]
          rw [BlinkLists.marks_addBlink, belongs_eq_singleton hl, Set.union_singleton]
          rfl
      · simp only [Bool.not_true, Bool.or_false, Bool.false_eq_true, if_false, if_true]
        rw [BlinkLists.marks_delBlink ((good.addBlink i _).delBlink i _),
          BlinkLists.marks_delBlink (good.addBlink i _), BlinkLists.marks_addBlink]
        ext l
        cases l <;> simp
  · rfl

/-- **The test goes over all items**: each one is handled once. -/
theorem testItems_marks (on : Bool) (iomap : List IOInfo) (n : Nat) (good : b.Good) :
    (((iomap.zipIdx n).foldl (fun b item => testItem on item.1 item.2 b) b).Good) ∧
    ∀ j, ((iomap.zipIdx n).foldl (fun b item => testItem on item.1 item.2 b) b).marks j =
      if n ≤ j then (iomap[j - n]?).elim (b.marks j) fun it => testMarks on it (b.marks j)
      else b.marks j := by
  induction iomap generalizing n b with
  | nil =>
    refine ⟨good, fun j => ?_⟩
    simp
  | cons it rest ih =>
    obtain ⟨goodRest, marksRest⟩ := ih (n + 1) (b := testItem on it n b) (testItem_good good)
    refine ⟨goodRest, fun j => ?_⟩
    rw [List.zipIdx_cons, List.foldl_cons, marksRest]
    rcases Nat.lt_trichotomy j n with before | here | behind
    · rw [if_neg (by omega), if_neg (by omega), testItem_ne good (by omega)]
    · subst here
      rw [if_neg (by omega), if_pos (Nat.le_refl _), testItem_marks good, Nat.sub_self]
      rfl
    · rw [if_pos (by omega), if_pos (by omega), testItem_ne good (by omega),
        show j - n = j - (n + 1) + 1 by omega, List.getElem?_cons_succ]

end State

end UniSet.IOControl

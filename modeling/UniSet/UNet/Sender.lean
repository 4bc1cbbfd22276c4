/-
**`UNetSender`: the packs, `updateItem` and `real_send`.**

A pack is sent again and again; its number changes only if the CRC of its data differs from the CRC of
the pack that was numbered last, whichever pack that was. The receiver drops repeated numbers, so a
change that gets no new number never arrives.

* `realSend` — one transmission attempt; an `Outcome` is what the transport answers.
* `Sending` — runs, with the numbers transmitted since the counter last started at `1`, the data of
  every pack's previous transmission and the pack that was numbered last with its data.
* `Carried` — a transmitted packet has a number, and data that differ from the pack's previous
  transmission travel under a number that was not used since the counter last started at `1`.
* `Distinguished` — the CRC repeats only for the pack that was numbered last, with the same data.
* **`carries_changes`** — in every run of distinguished steps every transmission is carried;
  `collision_hides_change` has two contents of one CRC, and one whose CRC is the initial value.
-/

import UniSet.UNet.Receiver

namespace UniSet.UNet

open UniSet.Processes (ObjectId Value IOType)

/-- `UNetSender::UItem`: where the value of a sensor is in the packs. -/
structure UItem where
  iotype : IOType
  packNum : Nat
  packInd : Nat
  packSendfactor : Nat
deriving DecidableEq, Repr

/-- A pack: its send factor and its place in the group. -/
abbrev PackId := Nat × Nat

/-- What is configured. -/
structure SenderConf where
  items : ObjectId → Option UItem
  sidMode : ObjectId
  /-- `shm->isLocalwork()`. -/
  localwork : Bool

/-- **The sender.** -/
structure Sender where
  mypacks : PackId → UDPMessage
  /-- The number of the next packet. -/
  packetnum : UInt64
  lastcrc : UInt16
  mode : Mode

/-- What the transport answers to an attempt. -/
structure Outcome where
  /-- `isReadyForSend`. -/
  ready : Bool
  /-- `send` has sent the packet. -/
  sent : Bool
deriving DecidableEq, Repr

namespace Sender

variable (s : Sender)

/-- **`UNetSender::updateItem`.** -/
def updateItem (it : UItem) (value : Value) : Sender :=
  let i := (it.packSendfactor, it.packNum)
  match it.iotype with
  | .DI | .DO =>
    { s with
      mypacks := Function.update s.mypacks i ((s.mypacks i).setDData it.packInd (value != 0)) }
  | .AI | .AO =>
    { s with
      mypacks := Function.update s.mypacks i
        ((s.mypacks i).setAData it.packInd (UInt64.ofInt value)) }
  | .UnknownIOType => s

/-- `mode = (Mode)value`, where a mode is an `int`. -/
def setMode (value : Value) : Sender :=
  { s with mode := if value % 0x100000000 = 1 then .mDisabled else .mEnabled }

/-- **`UNetSender::updateSensor`.** -/
def updateSensor (c : SenderConf) (id : ObjectId) (value : Value) : Sender :=
  if c.localwork then
    let s := if id = c.sidMode then s.setMode value else s
    match c.items id with
    | some it => s.updateItem it value
    | none => s
  else s

/-- The CRC of the pack's data differs from the last one. -/
def changed (i : PackId) : Bool := (s.mypacks i).dataCRCWithBuf != s.lastcrc

/-- The numbering of `real_send`. -/
def numbering (i : PackId) : Sender :=
  let s := if s.changed i then
    { s with
      mypacks := Function.update s.mypacks i ((s.mypacks i).setNum s.packetnum)
      packetnum := s.packetnum + 1
      lastcrc := (s.mypacks i).dataCRCWithBuf } else s
  { s with packetnum := if s.packetnum = 0 then 1 else s.packetnum }

/-- **`UNetSender::real_send`**, with the packet that was transmitted. -/
def realSend (i : PackId) (o : Outcome) : Sender × Option UDPMessage :=
  let s := s.numbering i
  let m := s.mypacks i
  (s, if o.ready && decide (m.serialize.length ≤ messageBufSize) && o.sent then some m else none)

end Sender

/-! ### Runs -/

/-- The sender with what it has transmitted. -/
structure Sending where
  sender : Sender
  /-- The numbers transmitted since the counter last started at `1`. -/
  used : List UInt64
  /-- The serialised data of the pack's previous transmission. -/
  lastData : PackId → Option (List UInt8)
  /-- The pack that was numbered last, with its serialised data then. -/
  numbered : Option (PackId × List UInt8)

/-- One step of a run. -/
inductive SendLabel
  | updateItem (it : UItem) (value : Value)
  | updateSensor (id : ObjectId) (value : Value)
  | realSend (i : PackId) (o : Outcome)

namespace Sending

variable (w : Sending)

/-- The serialised data of a pack. -/
def content (i : PackId) : List UInt8 := (w.sender.mypacks i).data.serialize

/-- The numbers used since the counter last started at `1`, when the pack is sent next. -/
def lap (i : PackId) : List UInt64 :=
  if w.sender.changed i && w.sender.packetnum == 1 then [] else w.used

/-- One attempt to send a pack. -/
def send (i : PackId) (o : Outcome) : Sending where
  sender := (w.sender.realSend i o).1
  used := match (w.sender.realSend i o).2 with
    | some m => m.num :: w.lap i
    | none => w.lap i
  lastData := match (w.sender.realSend i o).2 with
    | some _ => Function.update w.lastData i (some (w.content i))
    | none => w.lastData
  numbered := if w.sender.changed i then some (i, w.content i) else w.numbered

/-- **One step**; nothing is sent while the sender is disabled. -/
def step (c : SenderConf) : SendLabel → Option Sending
  | .updateItem it value => some { w with sender := w.sender.updateItem it value }
  | .updateSensor id value => some { w with sender := w.sender.updateSensor c id value }
  | .realSend i o => if w.sender.mode = .mDisabled then none else some (w.send i o)

end Sending

/-- **All runs of a new sender**, whatever its packs hold. -/
def senders (c : SenderConf) : Lib.Machine Sending SendLabel where
  start w := (∀ i, (w.sender.mypacks i).num = 0) ∧ w.sender.packetnum = 1 ∧
    w.sender.lastcrc = 0 ∧ w.used = [] ∧ (∀ i, w.lastData i = none) ∧ w.numbered = none
  step w label := w.step c label

/-- **Every change is carried**: a transmitted packet has a number, and if its data are not those of
the pack's previous transmission, the number was not used since the counter last started at `1`. -/
def Carried (w : Sending) : SendLabel → Prop
  | .realSend i o => ∀ m, (w.sender.realSend i o).2 = some m → 1 ≤ m.num ∧
    ∀ previous, w.lastData i = some previous → m.data.serialize ≠ previous → m.num ∉ w.lap i
  | _ => True

/-- **The condition**: the last CRC is repeated only by the pack that was numbered last, with the same
data. -/
def Distinguished (w : Sending) : SendLabel → Prop
  | .realSend i _ => w.sender.changed i = false → w.numbered = some (i, w.content i)
  | _ => True

/-! ### The invariant -/

/-- **The invariant.** The numbers in use are behind the counter, and the pack that was numbered last
has transmitted its number only with the data it was numbered for. -/
structure Numbered (w : Sending) : Prop where
  positive : w.sender.packetnum ≠ 0
  behind : w.sender.packetnum ≠ 1 → ∀ n ∈ w.used, n < w.sender.packetnum
  last : ∀ i bytes, w.numbered = some (i, bytes) →
    (w.sender.mypacks i).num ≠ 0 ∧
    (w.sender.packetnum ≠ 1 → (w.sender.mypacks i).num < w.sender.packetnum) ∧
    ((w.sender.mypacks i).num ∈ w.used → w.lastData i = some bytes)

variable {w : Sending} {i : PackId} {o : Outcome}

theorem setDData_num (m : UDPMessage) (index : Nat) (val : Bool) :
    (m.setDData index val).num = m.num := by
  unfold UDPMessage.setDData
  split <;> rfl

theorem setAData_num (m : UDPMessage) (index : Nat) (val : UInt64) :
    (m.setAData index val).num = m.num := by
  unfold UDPMessage.setAData
  split <;> rfl

/-- The numbers and the counter are not touched by the updates. -/
theorem updateItem_numbers (s : Sender) (it : UItem) (value : Value) :
    (s.updateItem it value).packetnum = s.packetnum ∧
      ∀ i, ((s.updateItem it value).mypacks i).num = (s.mypacks i).num := by
  unfold Sender.updateItem
  split
  all_goals refine ⟨rfl, fun i => ?_⟩
  all_goals try rfl
  all_goals
    dsimp only
    rw [Function.update_apply]
    split
    · rename_i same
      rw [same]
      first
        | exact setDData_num ..
        | exact setAData_num ..
    · rfl

theorem updateSensor_numbers (s : Sender) (c : SenderConf) (id : ObjectId) (value : Value) :
    (s.updateSensor c id value).packetnum = s.packetnum ∧
      ∀ i, ((s.updateSensor c id value).mypacks i).num = (s.mypacks i).num := by
  have moded : (if id = c.sidMode then s.setMode value else s).packetnum = s.packetnum ∧
      (if id = c.sidMode then s.setMode value else s).mypacks = s.mypacks := by
    split
    · exact ⟨rfl, rfl⟩
    · exact ⟨rfl, rfl⟩
  unfold Sender.updateSensor
  split
  · dsimp only
    generalize (if id = c.sidMode then s.setMode value else s) = t at moded
    obtain ⟨counter, packs⟩ := moded
    split
    · rename_i it _
      obtain ⟨sameCounter, sameNumbers⟩ := updateItem_numbers t it value
      exact ⟨sameCounter.trans counter, fun i => by rw [sameNumbers i, packs]⟩
    · exact ⟨counter, fun i => by rw [packs]⟩
  · exact ⟨rfl, fun _ => rfl⟩

theorem Numbered.updated (numbered : Numbered w) {s : Sender}
    (counter : s.packetnum = w.sender.packetnum)
    (numbers : ∀ i, (s.mypacks i).num = (w.sender.mypacks i).num) :
    Numbered { w with sender := s } := by
  refine ⟨?_, ?_, fun i bytes last => ?_⟩
  · rw [counter]
    exact numbered.positive
  · rw [counter]
    exact numbered.behind
  · rw [counter, numbers]
    exact numbered.last i bytes last

/-! ### One attempt -/

theorem numbering_changed {s : Sender} (changed : s.changed i = true) :
    (s.numbering i).mypacks i = (s.mypacks i).setNum s.packetnum ∧
      (s.numbering i).packetnum = if s.packetnum + 1 = 0 then 1 else s.packetnum + 1 := by
  simp [Sender.numbering, changed]

theorem numbering_same {s : Sender} (same : s.changed i = false) (positive : s.packetnum ≠ 0) :
    s.numbering i = s := by
  simp [Sender.numbering, same, positive]

/-- A new number was not used since the counter last started. -/
theorem Numbered.fresh (numbered : Numbered w) (changed : w.sender.changed i = true) :
    w.sender.packetnum ∉ w.lap i := by
  intro member
  by_cases first : w.sender.packetnum = 1
  · simp [Sending.lap, changed, first] at member
  · have inUse : w.sender.packetnum ∈ w.used := by simpa [Sending.lap, first] using member
    exact UInt64.lt_irrefl _ (numbered.behind first _ inUse)

/-- What is transmitted is the pack after the numbering. -/
theorem realSend_cases (s : Sender) (i : PackId) (o : Outcome) :
    (s.realSend i o).1 = s.numbering i ∧
      ((s.realSend i o).2 = none ∨ (s.realSend i o).2 = some ((s.numbering i).mypacks i)) := by
  refine ⟨rfl, ?_⟩
  unfold Sender.realSend
  dsimp only
  split
  · exact .inr rfl
  · exact .inl rfl

theorem one_le {n : UInt64} (positive : n ≠ 0) : 1 ≤ n := by
  rw [UInt64.le_iff_toNat_le]
  exact ne_zero_iff.mp positive

/-- **An attempt with a new number** keeps the invariant. -/
theorem Numbered.renumbered (numbered : Numbered w) (changed : w.sender.changed i = true) :
    Numbered (w.send i o) := by
  obtain ⟨packs, counter⟩ := numbering_changed changed
  obtain ⟨sender, sent⟩ := realSend_cases w.sender i o
  have number : ((w.sender.numbering i).mypacks i).num = w.sender.packetnum := by
    rw [packs]
    rfl
  have fresh := numbered.fresh changed
  -- the numbers in use after the attempt
  have used : ∀ n ∈ (w.send i o).used, n ∈ w.lap i ∨ n = w.sender.packetnum := by
    intro n member
    rcases sent with none | some
    · simp only [Sending.send, none] at member
      exact .inl member
    · simp only [Sending.send, some, number] at member
      exact (List.mem_cons.mp member).symm
  refine ⟨?_, fun more n member => ?_, fun j bytes last => ?_⟩
  · simp only [Sending.send, sender, counter]
    split
    · decide
    · assumption
  · simp only [Sending.send, sender, counter] at more ⊢
    split at more
    · exact absurd rfl more
    · rename_i below
      rw [if_neg below, UInt64.lt_iff_toNat_lt, toNat_succ below]
      rcases used n member with old | rfl
      · by_cases first : w.sender.packetnum = 1
        · simp [Sending.lap, changed, first] at old
        · have inUse : n ∈ w.used := by simpa [Sending.lap, first] using old
          have := UInt64.lt_iff_toNat_lt.mp (numbered.behind first n inUse)
          omega
      · omega
  · have equal : (i, w.content i) = (j, bytes) := by
      simpa [Sending.send, changed] using last
    cases equal
    simp only [Sending.send, sender, number, counter]
    refine ⟨numbered.positive, fun more => ?_, fun member => ?_⟩
    · split at more
      · exact absurd rfl more
      · rename_i below
        rw [if_neg below, UInt64.lt_iff_toNat_lt, toNat_succ below]
        omega
    · rcases sent with none | some
      · simp only [none] at member
        exact absurd member fresh
      · simp only [some, Function.update_self]

/-- **An attempt with the last number** keeps the invariant. -/
theorem Numbered.repeated (numbered : Numbered w) (same : w.sender.changed i = false)
    (last : w.numbered = some (i, w.content i)) : Numbered (w.send i o) := by
  obtain ⟨number, behind, once⟩ := numbered.last i _ last
  have kept := numbering_same same numbered.positive
  have lap : w.lap i = w.used := by simp [Sending.lap, same]
  obtain ⟨sender, sent⟩ := realSend_cases w.sender i o
  rw [kept] at sender sent
  refine ⟨?_, fun more n member => ?_, fun j bytes again => ?_⟩
  · simp only [Sending.send, sender]
    exact numbered.positive
  · simp only [Sending.send, sender, lap] at more member ⊢
    rcases sent with none | some
    · simp only [none] at member
      exact numbered.behind more n member
    · simp only [some] at member
      rcases List.mem_cons.mp member with rfl | old
      · exact behind more
      · exact numbered.behind more n old
  · have equal : (i, w.content i) = (j, bytes) := by
      simpa [Sending.send, same, last] using again
    cases equal
    simp only [Sending.send, sender, lap]
    refine ⟨number, behind, fun member => ?_⟩
    rcases sent with none | some
    · simp only [none] at member ⊢
      exact once member
    · simp only [some, Function.update_self]

/-- **A distinguished step keeps the invariant.** -/
theorem Numbered.step {c : SenderConf} {label : SendLabel} {v : Sending} (numbered : Numbered w)
    (distinguished : Distinguished w label) (stepped : w.step c label = some v) : Numbered v := by
  cases label with
  | updateItem it value =>
    cases stepped
    obtain ⟨counter, numbers⟩ := updateItem_numbers w.sender it value
    exact numbered.updated counter numbers
  | updateSensor id value =>
    cases stepped
    obtain ⟨counter, numbers⟩ := updateSensor_numbers w.sender c id value
    exact numbered.updated counter numbers
  | realSend i o =>
    simp only [Sending.step] at stepped
    split at stepped
    · cases stepped
    · cases stepped
      cases changed : w.sender.changed i with
      | true => exact numbered.renumbered changed
      | false => exact numbered.repeated changed (distinguished changed)

/-- **A distinguished step carries every change.** -/
theorem Numbered.carried {label : SendLabel} (numbered : Numbered w)
    (distinguished : Distinguished w label) : Carried w label := by
  cases label with
  | updateItem it value => trivial
  | updateSensor id value => trivial
  | realSend i o =>
    intro m transmitted
    obtain ⟨-, sent⟩ := realSend_cases w.sender i o
    have isPack : (w.sender.numbering i).mypacks i = m := by
      rcases sent with none | some
      · rw [none] at transmitted
        cases transmitted
      · rw [some] at transmitted
        exact Option.some.inj transmitted
    cases changed : w.sender.changed i with
    | true =>
      have number : m.num = w.sender.packetnum := by
        rw [← isPack, (numbering_changed changed).1]
        rfl
      rw [number]
      exact ⟨one_le numbered.positive, fun _ _ _ => numbered.fresh changed⟩
    | false =>
      obtain ⟨positive, -, once⟩ := numbered.last i _ (distinguished changed)
      rw [numbering_same changed numbered.positive] at isPack
      rw [isPack] at positive once
      refine ⟨one_le positive, fun previous before differs used => differs ?_⟩
      have inUse : m.num ∈ w.used := by simpa [Sending.lap, changed] using used
      have same := once inUse
      rw [before, Sending.content, isPack] at same
      exact (Option.some.inj same).symm

/-! ### The result -/

/-- **Every change is carried**, in every run in which the last CRC is repeated only by the pack that
was numbered last, with the same data. -/
theorem carries_changes (c : SenderConf) {w : Sending} (started : (senders c).start w)
    (labels : List SendLabel) (meets : (senders c).Meets Distinguished w labels) :
    (senders c).Meets Carried w labels := by
  obtain ⟨-, counter, -, used, -, none⟩ := started
  have initially : Numbered w := by
    refine ⟨by rw [counter]; decide, fun more => absurd counter more, fun i bytes last => ?_⟩
    rw [none] at last
    cases last
  exact Lib.Machine.meets_of_invariant
    (fun _ _ _ numbered distinguished stepped => numbered.step distinguished stepped)
    (fun _ _ numbered distinguished => numbered.carried distinguished) initially meets

instance (w : Sending) (label : SendLabel) : Decidable (Distinguished w label) := by
  unfold Distinguished
  split <;> infer_instance

/-- One analog sensor, `5`, in one pack. -/
def oneSensor : SenderConf where
  items id := if id = 5 then some ⟨.AI, 0, 0, 0⟩ else none
  sidMode := Processes.defaultObjectId
  localwork := true

/-- A new sender of that pack. -/
def onePack (value : UInt64) : Sending where
  sender := ⟨fun i => if i = (0, 0) then packet 0 value else .new, 1, 0, .mEnabled⟩
  used := []
  lastData _ := none
  numbered := none

theorem onePack_start (value : UInt64) : (senders oneSensor).start (onePack value) := by
  refine ⟨fun i => ?_, rfl, rfl, rfl, fun _ => rfl, rfl⟩
  dsimp only [onePack]
  split <;> rfl

/-- A transmission that succeeds. -/
def transmit : SendLabel := .realSend (0, 0) ⟨true, true⟩

theorem carries_one_change : (senders oneSensor).Meets Carried (onePack 0)
    [transmit, .updateSensor 5 1, transmit] :=
  carries_changes oneSensor (onePack_start 0) _ (by decide +kernel)

/-- **A CRC hides a change.** The values `0` and `34177` have the same CRC, and the change from the one
to the other is transmitted under the number of the first; the CRC of `12149` is the initial value of
the last CRC, and that packet is transmitted without a number. -/
theorem collision_hides_change :
    (∃ w, (senders oneSensor).Reachable (fun _ _ => True) w ∧ ∃ m previous,
      (w.sender.realSend (0, 0) ⟨true, true⟩).2 = some m ∧ w.lastData (0, 0) = some previous ∧
      m.data.serialize ≠ previous ∧ m.num ∈ w.lap (0, 0) ∧ ¬ Carried w transmit) ∧
    ∃ w, (senders oneSensor).Reachable (fun _ _ => True) w ∧ ∃ m,
      (w.sender.realSend (0, 0) ⟨true, true⟩).2 = some m ∧ m.num = 0 ∧ ¬ Carried w transmit := by
  constructor
  · obtain ⟨w, ran, m, sent, previous, before, differs, again⟩ :
        ∃ w ∈ (senders oneSensor).run (onePack 0) [transmit, .updateSensor 5 34177],
        ∃ m ∈ (w.sender.realSend (0, 0) ⟨true, true⟩).2, ∃ previous ∈ w.lastData (0, 0),
        m.data.serialize ≠ previous ∧ m.num ∈ w.lap (0, 0) := by decide +kernel
    refine ⟨w, Lib.Machine.reachable_of_run (onePack_start 0) ran, m, previous, sent, before, differs,
      again, fun carried => ?_⟩
    exact (carried m sent).2 previous before differs again
  · obtain ⟨w, ran, m, sent, zero⟩ : ∃ w ∈ (senders oneSensor).run (onePack 12149) [],
        ∃ m ∈ (w.sender.realSend (0, 0) ⟨true, true⟩).2, m.num = 0 := by decide +kernel
    refine ⟨w, Lib.Machine.reachable_of_run (onePack_start 12149) ran, m, sent, zero,
      fun carried => ?_⟩
    have positive := (carried m sent).1
    rw [zero] at positive
    exact absurd positive (by decide)

end UniSet.UNet

/-
**From a sender to a receiver: the values that the other node shows.**

The sender's packs are encoded, travel in the order in which they were sent and may be lost; what
arrives is parsed and received, and updates hand it to the shared memory of the other node.

* `Link` — the sender, the datagrams in flight, the receiver, the values its shared memory shows and
  what has arrived so far. `Link.step` is one step: a step of the sender, the loss or the arrival of the
  oldest datagram, an update.
* `Orderly` — the conditions of a step: the CRC distinguishes changes, the numbers do not end, the
  first packet that arrives is the expected one and later ones find room in the buffer.
* `Stream` — the invariant of what is sent: numbers grow, and a number stands for one packet.
* `Kept` — the invariant of what has arrived: what is still to be read is in its slot, and every sensor
  of a pack shows the value of the last packet of it that has been read.
* **`shared_follows`** — after an update without waiting, every sensor of a pack shows the value it had
  in the last packet of it that has arrived, whatever was lost in between.
-/

import Mathlib.Data.List.Nodup
import UniSet.Lib.Writes
import UniSet.UNet.Force
import UniSet.UNet.Losses
import UniSet.UNet.Parse
import UniSet.UNet.Sender

namespace UniSet.UNet

open UniSet.Processes (ObjectId Value)

/-- A packet with its pack. -/
abbrev Sent := PackId × UDPMessage

/-- **The sender and the receiver with what lies between them.** -/
structure Link where
  sending : Sending
  /-- The datagrams in flight, the oldest first, by what they encode. -/
  wire : List Sent
  receiver : Receiver
  /-- The values in the shared memory of the other node. -/
  shared : ObjectId → Value
  /-- What has arrived, the oldest first. -/
  arrived : List Sent

/-- One step. -/
inductive LinkLabel
  | sender (label : SendLabel)
  | lose
  | arrive
  | update (expired : UInt64 → Bool)

namespace UDPMessage

/-- The writes of a packet to the shared memory. -/
def writes (m : UDPMessage) : List (ObjectId × Value) :=
  m.entries.filterMap fun e => e.2.map fun value => (e.1, value)

/-- The sensors of a packet. -/
def sensors (m : UDPMessage) : List ObjectId := m.entries.map Prod.fst

end UDPMessage

/-- The shared memory after packets were handed over. -/
def written (shared : ObjectId → Value) (packets : List UDPMessage) : ObjectId → Value :=
  Lib.writeAll Prod.fst Prod.snd shared (packets.flatMap UDPMessage.writes)

namespace Link

/-- What a step of the sender puts on the wire. -/
def transmission (s : Sending) : SendLabel → List Sent
  | .realSend i o => ((s.sender.realSend i o).2.map fun m => (i, m)).toList
  | _ => []

/-- The datagram as the receiver finds it. -/
def datagram (p : Protobuf) (m : UDPMessage) : Datagram :=
  match initFromBuffer p m.serialize with
  | some parsed => .parsed parsed
  | none => .unparsable m

/-- **One step.** -/
def step (p : Protobuf) (sc : SenderConf) (c : Conf) (w : Link) : LinkLabel → Option Link
  | .sender label => (w.sending.step sc label).map fun s =>
    { w with sending := s, wire := w.wire ++ transmission w.sending label }
  | .lose =>
    match w.wire with
    | [] => none
    | _ :: rest => some { w with wire := rest }
  | .arrive =>
    match w.wire with
    | [] => none
    | first :: rest => some { w with
        wire := rest
        receiver := (w.receiver.receive c (datagram p first.2)).1
        arrived := w.arrived ++ [first] }
  | .update expired => some { w with
      receiver := (w.receiver.update c expired).1
      shared := written w.shared (w.receiver.update c expired).2 }

end Link

/-- The packs of a sender hold every sensor once. -/
structure OncePlaced (mypacks : PackId → UDPMessage) : Prop where
  nodup : ∀ i, (mypacks i).sensors.Nodup
  disjoint : ∀ i j, i ≠ j → ∀ id ∈ (mypacks i).sensors, id ∉ (mypacks j).sensors

/-- **All runs of a new sender and a new receiver**; the values that are shown may be any. -/
def links (p : Protobuf) (sc : SenderConf) (c : Conf) : Lib.Machine Link LinkLabel where
  start w := (senders sc).start w.sending ∧ (∀ i, Filled (w.sending.sender.mypacks i)) ∧
    (∀ i, (w.sending.sender.mypacks i).magic = magicNum) ∧ OncePlaced w.sending.sender.mypacks ∧
    w.wire = [] ∧ w.receiver = .new ∧ w.arrived = []
  step w label := w.step p sc c label

/-- **The conditions of a step.** -/
def Orderly (c : Conf) (w : Link) : LinkLabel → Prop
  | .sender label => Distinguished w.sending label ∧
    (w.sending.sender.packetnum.toNat + 1 < 2 ^ 64)
  | .lose => True
  | .arrive => ∀ first ∈ w.wire.head?,
    (w.receiver.rnum = 0 → first.2.num = w.receiver.wnum) ∧
    w.receiver.disagree c first.2.num = false ∧
    first.2.num.toNat + 1 < w.receiver.rnum.toNat + c.cbufSize.toNat
  | .update _ => True

instance (c : Conf) (w : Link) (label : LinkLabel) : Decidable (Orderly c w label) := by
  unfold Orderly
  split <;> infer_instance

/-- The last packet of a pack that has arrived. -/
def Link.lastArrived (w : Link) (i : PackId) : Option UDPMessage :=
  (w.arrived.filter fun x => x.1 = i).getLast?.map Prod.snd

/-! ### What updates of the sender keep -/

section Alike

variable {m n : UDPMessage}

theorem sensors_eq (m : UDPMessage) : m.sensors = m.data.dID.map toLong ++ m.data.aID.map toLong := by
  unfold UDPMessage.sensors UDPMessage.entries
  rw [List.map_append]
  congr 1
  · refine List.ext_getElem? fun k => ?_
    rw [List.getElem?_map, List.getElem?_mapIdx, List.getElem?_map]
    cases m.data.dID[k]? <;> rfl
  · refine List.ext_getElem? fun k => ?_
    rw [List.getElem?_map, List.getElem?_mapIdx, List.getElem?_map]
    cases m.data.aID[k]? <;> rfl

/-- The same packet with other values and possibly another number. -/
structure Alike (m n : UDPMessage) : Prop where
  filled : Filled m → Filled n
  magic : n.magic = m.magic
  nodeID : n.nodeID = m.nodeID
  procID : n.procID = m.procID
  ids : n.sensors = m.sensors

theorem Alike.refl (m : UDPMessage) : Alike m m := ⟨id, rfl, rfl, rfl, rfl⟩

theorem alike_setNum (m : UDPMessage) (num : UInt64) : Alike m (m.setNum num) :=
  ⟨fun filled => filled.apply (.setNum num), rfl, rfl, rfl, rfl⟩

theorem alike_setDData (m : UDPMessage) (index : Nat) (val : Bool) :
    Alike m (m.setDData index val) := by
  refine ⟨fun filled => filled.apply (.setDData index val), ?_, ?_, ?_, ?_⟩
  · unfold UDPMessage.setDData
    split <;> rfl
  · unfold UDPMessage.setDData
    split <;> rfl
  · unfold UDPMessage.setDData
    split <;> rfl
  · rw [sensors_eq, sensors_eq]
    unfold UDPMessage.setDData
    split <;> rfl

theorem alike_setAData (m : UDPMessage) (index : Nat) (val : UInt64) :
    Alike m (m.setAData index val) := by
  refine ⟨fun filled => filled.apply (.setAData index val), ?_, ?_, ?_, ?_⟩
  · unfold UDPMessage.setAData
    split <;> rfl
  · unfold UDPMessage.setAData
    split <;> rfl
  · unfold UDPMessage.setAData
    split <;> rfl
  · rw [sensors_eq, sensors_eq]
    unfold UDPMessage.setAData
    split <;> rfl

/-- An update of a sensor changes the values of packs only. -/
theorem updateItem_alike (s : Sender) (it : UItem) (value : Value) (i : PackId) :
    Alike (s.mypacks i) ((s.updateItem it value).mypacks i) := by
  unfold Sender.updateItem
  cases it.iotype with
  | UnknownIOType => exact .refl _
  | DI | DO =>
    dsimp only
    rw [Function.update_apply]
    split
    · rename_i same
      rw [same]
      exact alike_setDData ..
    · exact .refl _
  | AI | AO =>
    dsimp only
    rw [Function.update_apply]
    split
    · rename_i same
      rw [same]
      exact alike_setAData ..
    · exact .refl _

theorem updateSensor_alike (s : Sender) (sc : SenderConf) (id : ObjectId) (value : Value) (i : PackId) :
    Alike (s.mypacks i) ((s.updateSensor sc id value).mypacks i) := by
  unfold Sender.updateSensor
  split
  · dsimp only
    have packs : (if id = sc.sidMode then s.setMode value else s).mypacks = s.mypacks := by
      split <;> rfl
    generalize (if id = sc.sidMode then s.setMode value else s) = t at packs
    rw [← packs]
    split
    · exact updateItem_alike t _ value i
    · exact .refl _
  · exact .refl _

/-- The numbering changes the number of the pack at most. -/
theorem numbering_alike (s : Sender) (i j : PackId) :
    Alike (s.mypacks j) ((s.numbering i).mypacks j) := by
  unfold Sender.numbering
  dsimp only
  split
  · dsimp only
    rw [Function.update_apply]
    split
    · rename_i same
      rw [same]
      exact alike_setNum ..
    · exact .refl _
  · exact .refl _

theorem numbering_data (s : Sender) (i j : PackId) :
    ((s.numbering i).mypacks j).data = (s.mypacks j).data := by
  unfold Sender.numbering
  dsimp only
  split
  · dsimp only
    rw [Function.update_apply]
    split
    · rename_i same
      rw [same]
      rfl
    · rfl
  · rfl

theorem OncePlaced.alike {mypacks mypacks' : PackId → UDPMessage} (once : OncePlaced mypacks)
    (alike : ∀ i, Alike (mypacks i) (mypacks' i)) : OncePlaced mypacks' where
  nodup := fun i => by
    rw [(alike i).ids]
    exact once.nodup i
  disjoint := fun i j apart id member => by
    rw [(alike i).ids] at member
    rw [(alike j).ids]
    exact once.disjoint i j apart id member

/-- **The encoding of the data determines them.** -/
theorem serialize_inj (filled : Filled m) (filled' : Filled n)
    (same : m.data.serialize = n.data.serialize) : m.data = n.data := by
  have first := (takes_data_serialize wire_documented filled).fields
  rw [same, (takes_data_serialize wire_documented filled').fields] at first
  exact (Option.some.inj first).symm

end Alike

/-! ### What is sent -/

/-- **The invariant of what is sent**, over what has arrived and what is in flight. -/
structure Stream (s : Sending) (line : List Sent) : Prop where
  positive : 1 ≤ s.sender.packetnum.toNat
  filled : ∀ i, Filled (s.sender.mypacks i)
  magic : ∀ i, (s.sender.mypacks i).magic = magicNum
  once : OncePlaced s.sender.mypacks
  /-- The pack that was numbered last has the number before the next one. -/
  numbered : ∀ i bytes, s.numbered = some (i, bytes) → 1 ≤ (s.sender.mypacks i).num.toNat ∧
    (s.sender.mypacks i).num.toNat + 1 = s.sender.packetnum.toNat
  alike : ∀ x ∈ line, Alike (s.sender.mypacks x.1) x.2
  before : ∀ x ∈ line, 1 ≤ x.2.num.toNat ∧ x.2.num.toNat < s.sender.packetnum.toNat
  /-- What has the last number is the pack that was numbered last, with its data then. -/
  last : ∀ x ∈ line, x.2.num.toNat + 1 = s.sender.packetnum.toNat →
    s.numbered = some (x.1, x.2.data.serialize)
  sorted : line.Pairwise fun x y => x.2.num.toNat < y.2.num.toNat ∨ x = y

section StreamSteps

variable {s t : Sending} {line : List Sent} {sc : SenderConf}

theorem Stream.sublist {less : List Sent} (stream : Stream s line) (sub : less.Sublist line) :
    Stream s less where
  positive := stream.positive
  filled := stream.filled
  magic := stream.magic
  once := stream.once
  numbered := stream.numbered
  alike := fun x member => stream.alike x (sub.subset member)
  before := fun x member => stream.before x (sub.subset member)
  last := fun x member => stream.last x (sub.subset member)
  sorted := stream.sorted.sublist sub

theorem Stream.updated (stream : Stream s line) {sender : Sender}
    (counter : sender.packetnum = s.sender.packetnum)
    (numbers : ∀ i, (sender.mypacks i).num = (s.sender.mypacks i).num)
    (alike : ∀ i, Alike (s.sender.mypacks i) (sender.mypacks i)) :
    Stream { s with sender := sender } line where
  positive := by
    rw [counter]
    exact stream.positive
  filled := fun i => (alike i).filled (stream.filled i)
  magic := fun i => (alike i).magic.trans (stream.magic i)
  once := stream.once.alike alike
  numbered := fun i bytes last => by
    rw [counter, numbers i]
    exact stream.numbered i bytes last
  alike := fun x member => by
    obtain ⟨filled, magic, nodeID, procID, ids⟩ := stream.alike x member
    obtain ⟨-, magic', nodeID', procID', ids'⟩ := alike x.1
    exact ⟨fun _ => filled (stream.filled x.1), magic.trans magic'.symm, nodeID.trans nodeID'.symm,
      procID.trans procID'.symm, ids.trans ids'.symm⟩
  before := fun x member => by
    rw [counter]
    exact stream.before x member
  last := fun x member => by
    rw [counter]
    exact stream.last x member
  sorted := stream.sorted

theorem Alike.against {m n k : UDPMessage} (first : Alike m n) (second : Alike m k) (filled : Filled m) :
    Alike n k :=
  ⟨fun _ => second.filled filled, second.magic.trans first.magic.symm,
    second.nodeID.trans first.nodeID.symm, second.procID.trans first.procID.symm,
    second.ids.trans first.ids.symm⟩

/-- What has been sent before is below a new number. -/
theorem Stream.renumbered (stream : Stream s line) {i : PackId} {o : Outcome}
    (changed : s.sender.changed i = true) (more : s.sender.packetnum.toNat + 1 < 2 ^ 64) :
    Stream (s.send i o) (line ++ [(i, (s.sender.numbering i).mypacks i)]) := by
  obtain ⟨pack, next⟩ := numbering_changed changed
  have number : ((s.sender.numbering i).mypacks i).num = s.sender.packetnum := by
    rw [pack]
    rfl
  have succ : (s.sender.packetnum + 1).toNat = s.sender.packetnum.toNat + 1 := by
    rw [UInt64.toNat_add, UInt64.toNat_one]
    omega
  have counter : (s.sender.numbering i).packetnum.toNat = s.sender.packetnum.toNat + 1 := by
    rw [next, if_neg, succ]
    intro zero
    rw [zero] at succ
    exact absurd succ (by rw [UInt64.toNat_zero]; omega)
  have content : s.content i = ((s.sender.numbering i).mypacks i).data.serialize := by
    rw [numbering_data]
    rfl
  have last : (s.send i o).numbered = some (i, s.content i) := by
    show (if s.sender.changed i then _ else _) = _
    rw [changed, if_pos rfl]
  have positive := stream.positive
  refine ⟨?_, fun j => (numbering_alike s.sender i j).filled (stream.filled j),
    fun j => (numbering_alike s.sender i j).magic.trans (stream.magic j),
    stream.once.alike (numbering_alike s.sender i), fun j bytes same => ?_, fun x member => ?_,
    fun x member => ?_, fun x member end_ => ?_, ?_⟩
  · show 1 ≤ (s.sender.numbering i).packetnum.toNat
    omega
  · rw [last] at same
    obtain ⟨rfl, -⟩ := Prod.mk.inj (Option.some.inj same)
    show 1 ≤ ((s.sender.numbering i).mypacks i).num.toNat ∧
      ((s.sender.numbering i).mypacks i).num.toNat + 1 = (s.sender.numbering i).packetnum.toNat
    rw [number, counter]
    exact ⟨positive, rfl⟩
  · rcases List.mem_append.mp member with old | new
    · exact (numbering_alike s.sender i x.1).against (stream.alike x old) (stream.filled x.1)
    · rw [List.mem_singleton.mp new]
      exact .refl _
  · show 1 ≤ _ ∧ _ < (s.sender.numbering i).packetnum.toNat
    rw [counter]
    rcases List.mem_append.mp member with old | new
    · have := stream.before x old
      omega
    · rw [List.mem_singleton.mp new, number]
      omega
  · change x.2.num.toNat + 1 = (s.sender.numbering i).packetnum.toNat at end_
    rw [counter] at end_
    rcases List.mem_append.mp member with old | new
    · have := stream.before x old
      omega
    · rw [List.mem_singleton.mp new, last, content]
  · refine List.pairwise_append.mpr ⟨stream.sorted, List.pairwise_singleton _ _, fun x old y new => ?_⟩
    rw [List.mem_singleton.mp new, number]
    exact .inl (stream.before x old).2

/-- A pack that is sent again under the last number is the packet that was sent under it. -/
theorem Stream.repeated (stream : Stream s line) {i : PackId} {o : Outcome}
    (same : s.sender.changed i = false) (last : s.numbered = some (i, s.content i)) :
    Stream (s.send i o) (line ++ [(i, (s.sender.numbering i).mypacks i)]) := by
  have counts : s.sender.packetnum ≠ 0 := ne_zero_iff.mpr stream.positive
  have kept := numbering_same same counts
  have sending : (s.send i o).sender = s.sender := kept
  have numbered : (s.send i o).numbered = s.numbered := by
    show (if s.sender.changed i then _ else _) = _
    rw [same]
    rfl
  obtain ⟨first, next⟩ := stream.numbered i _ last
  rw [kept]
  refine ⟨?_, ?_, ?_, ?_, ?_, fun x member => ?_, fun x member => ?_, fun x member end_ => ?_, ?_⟩
  · rw [sending]
    exact stream.positive
  · rw [sending]
    exact stream.filled
  · rw [sending]
    exact stream.magic
  · rw [sending]
    exact stream.once
  · rw [sending, numbered]
    exact stream.numbered
  · rw [sending]
    rcases List.mem_append.mp member with old | new
    · exact stream.alike x old
    · rw [List.mem_singleton.mp new]
      exact .refl _
  · rw [sending]
    rcases List.mem_append.mp member with old | new
    · exact stream.before x old
    · rw [List.mem_singleton.mp new]
      exact ⟨first, Nat.lt_of_succ_le (Nat.le_of_eq next)⟩
  · rw [sending] at end_
    rw [numbered]
    rcases List.mem_append.mp member with old | new
    · exact stream.last x old end_
    · rw [List.mem_singleton.mp new]
      exact last
  · refine List.pairwise_append.mpr ⟨stream.sorted, List.pairwise_singleton _ _, fun x old y new => ?_⟩
    rw [List.mem_singleton.mp new]
    by_cases end_ : x.2.num.toNat + 1 = s.sender.packetnum.toNat
    · -- the same number, so the same pack with the same data
      have again := (stream.last x old end_).symm.trans last
      obtain ⟨pack, bytes⟩ := Prod.mk.inj (Option.some.inj again)
      obtain ⟨filled, magic, nodeID, procID, -⟩ := stream.alike x old
      rw [pack] at filled magic nodeID procID
      have data := serialize_inj (filled (stream.filled i)) (stream.filled i) bytes
      have num : x.2.num = (s.sender.mypacks i).num := UInt64.toNat_inj.mp (by omega)
      refine .inr (Prod.ext pack ?_)
      show UDPMessage.mk x.2.magic x.2.num x.2.nodeID x.2.procID x.2.data = _
      rw [magic, num, nodeID, procID, data]
    · have := stream.before x old
      dsimp only
      omega

/-- **A step of the sender** keeps the invariant, with what it puts on the wire. -/
theorem Stream.step (stream : Stream s line) {label : SendLabel} (distinguished : Distinguished s label)
    (more : s.sender.packetnum.toNat + 1 < 2 ^ 64) (stepped : s.step sc label = some t) :
    Stream t (line ++ Link.transmission s label) := by
  cases label with
  | updateItem it value =>
    cases stepped
    obtain ⟨counter, numbers⟩ := updateItem_numbers s.sender it value
    show Stream _ (line ++ [])
    rw [List.append_nil]
    exact stream.updated counter numbers (updateItem_alike s.sender it value)
  | updateSensor id value =>
    cases stepped
    obtain ⟨counter, numbers⟩ := updateSensor_numbers s.sender sc id value
    show Stream _ (line ++ [])
    rw [List.append_nil]
    exact stream.updated counter numbers (updateSensor_alike s.sender sc id value)
  | realSend i o =>
    simp only [Sending.step] at stepped
    split at stepped
    · cases stepped
    · cases stepped
      have whole : Stream (s.send i o) (line ++ [(i, (s.sender.numbering i).mypacks i)]) := by
        cases changed : s.sender.changed i with
        | true => exact stream.renumbered changed more
        | false => exact stream.repeated changed (distinguished changed)
      refine whole.sublist (List.Sublist.append_left ?_ line)
      rw [Link.transmission]
      rcases (realSend_cases s.sender i o).2 with none | some
      · rw [none]
        exact List.nil_sublist _
      · rw [some]
        exact List.Sublist.refl _

end StreamSteps

/-! ### Writes of packets -/

section Written

variable {shared : ObjectId → Value} {m : UDPMessage}

/-- The writes of a packet are to its sensors. -/
theorem writes_sublist (m : UDPMessage) : (m.writes.map Prod.fst).Sublist m.sensors := by
  unfold UDPMessage.writes UDPMessage.sensors
  induction m.entries with
  | nil => exact List.Sublist.refl _
  | cons e entries ih =>
    obtain ⟨id, value⟩ := e
    cases value with
    | none =>
      exact ih.cons id
    | some value =>
      exact ih.cons_cons id

theorem written_append (packets : List UDPMessage) (m : UDPMessage) :
    written shared (packets ++ [m]) = Lib.writeAll Prod.fst Prod.snd (written shared packets) m.writes := by
  unfold written Lib.writeAll
  rw [List.flatMap_append, List.foldl_append, List.flatMap_singleton]

/-- **A packet that is handed over shows its values.** -/
theorem written_self (nodup : m.sensors.Nodup) {e : ObjectId × Value} (member : e ∈ m.writes) :
    Lib.writeAll Prod.fst Prod.snd shared m.writes e.1 = e.2 := by
  have once := nodup.sublist (writes_sublist m)
  rw [Lib.writeAll_last]
  cases last : (m.writes.filter fun w => w.1 = e.1).getLast? with
  | none =>
    have nothing := List.getLast?_eq_none_iff.mp last
    exact absurd (List.mem_filter.mpr ⟨member, decide_eq_true rfl⟩)
      (nothing ▸ List.not_mem_nil)
  | some w =>
    obtain ⟨written, key⟩ := List.mem_filter.mp (List.mem_of_getLast? last)
    have same := List.inj_on_of_nodup_map once written member (of_decide_eq_true key)
    rw [Option.map_some, Option.getD_some, same]

/-- A sensor that is not in the packet keeps its value. -/
theorem written_other {id : ObjectId} (apart : id ∉ m.sensors) :
    Lib.writeAll Prod.fst Prod.snd shared m.writes id = shared id := by
  have nothing : (m.writes.filter fun w => w.1 = id) = [] := by
    refine List.filter_eq_nil_iff.mpr fun w member key => apart ?_
    rw [← of_decide_eq_true key]
    exact (writes_sublist m).subset (List.mem_map_of_mem member)
  rw [Lib.writeAll_last, nothing]
  rfl

end Written

/-! ### What has arrived -/

/-- What the stream of packets gives for those that have arrived. -/
structure Apart (arrived : List Sent) : Prop where
  positive : ∀ x ∈ arrived, 1 ≤ x.2.num.toNat
  same : ∀ x ∈ arrived, ∀ y ∈ arrived, x.2.num.toNat = y.2.num.toNat → x = y
  nodup : ∀ x ∈ arrived, x.2.sensors.Nodup
  disjoint : ∀ x ∈ arrived, ∀ y ∈ arrived, x.1 ≠ y.1 → ∀ id ∈ x.2.sensors, id ∉ y.2.sensors

theorem Stream.apart {s : Sending} {line : List Sent} (stream : Stream s line) : Apart line where
  positive := fun x member => (stream.before x member).1
  same := fun x member y member' equal => by
    have after : line.Pairwise fun x y : Sent => x.2.num.toNat ≠ y.2.num.toNat ∨ x = y :=
      stream.sorted.imp fun less => less.imp_left Nat.ne_of_lt
    have before : line.Pairwise (flip fun x y : Sent => x.2.num.toNat ≠ y.2.num.toNat ∨ x = y) :=
      stream.sorted.imp fun less => less.imp Nat.ne_of_gt Eq.symm
    exact (after.forall_of_forall_of_flip (fun x _ => .inr rfl) before member member').resolve_left
      fun apart => apart equal
  nodup := fun x member => by
    rw [(stream.alike x member).ids]
    exact stream.once.nodup x.1
  disjoint := fun x member y member' packs id here => by
    rw [(stream.alike x member).ids] at here
    rw [(stream.alike y member').ids]
    exact stream.once.disjoint x.1 y.1 packs id here

/-- **The invariant of what has arrived.** -/
structure Kept (c : Conf) (arrived : List Sent) (r : Receiver) (shared : ObjectId → Value) : Prop where
  writes : r.Writes
  inside : r.rnum.toNat ≤ r.wnum.toNat
  /-- Nothing has arrived, or the reading has begun and the last packet is before the expected one. -/
  expected : (arrived = [] ∧ r.wnum = 1 ∧ r.rnum = 0) ∨
    (1 ≤ r.rnum.toNat ∧ ∃ x ∈ arrived, x.2.num.toNat + 1 = r.wnum.toNat)
  below : ∀ x ∈ arrived, x.2.num.toNat < r.wnum.toNat
  /-- A slot with a number holds what has arrived. -/
  known : ∀ i, (r.cbuf i).num = 0 ∨ ∃ x ∈ arrived, x.2 = r.cbuf i
  /-- What is still to be read is in its slot. -/
  held : ∀ x ∈ arrived, r.rnum.toNat ≤ x.2.num.toNat → r.cbuf (c.slot x.2.num) = x.2
  /-- The last packet of a pack that has been read is shown. -/
  shown : ∀ x ∈ arrived, x.2.num.toNat < r.rnum.toNat →
    (∀ y ∈ arrived, y.1 = x.1 → y.2.num.toNat < r.rnum.toNat → y.2.num.toNat ≤ x.2.num.toNat) →
    ∀ e ∈ x.2.writes, shared e.1 = e.2

section KeptSteps

variable {c : Conf} {arrived : List Sent} {r : Receiver} {shared : ObjectId → Value}

/-- **A hole** has no packet that has arrived up to the number the reading goes on with. -/
theorem Kept.hole (kept : Kept c arrived r shared) (below : r.rnum < r.wnum)
    (hole : (r.cbuf (c.slot r.rnum)).num ≠ r.rnum) (started : ¬ (r.wnum = 1 ∧ r.rnum = 0))
    (lost : UInt64) :
    Kept c arrived { r with lostPackets := lost, rnum := r.rnext c r.rnum } shared := by
  obtain ⟨above, bound, -, none⟩ := rnext_spec (c := c) below
  rw [UInt64.lt_iff_toNat_lt] at above
  rw [UInt64.le_iff_toNat_le] at bound
  have unread : ∀ x ∈ arrived, x.2.num.toNat < (r.rnext c r.rnum).toNat →
      x.2.num.toNat < r.rnum.toNat := by
    intro x member less
    by_contra later
    have slot := kept.held x member (Nat.le_of_not_lt later)
    by_cases here : r.rnum = x.2.num
    · rw [here, slot] at hole
      exact hole rfl
    · have : r.rnum.toNat ≠ x.2.num.toNat := fun same => here (UInt64.toNat_inj.mp same)
      refine none x.2.num.toNat less (by omega) ?_
      have found : r.cbuf (x.2.num.toNat % c.cbufSize.toNat) = x.2 := slot
      rw [found, UInt64.lt_iff_toNat_lt]
      omega
  have begun := kept.expected.resolve_left fun start => started start.2
  refine ⟨kept.writes, bound, .inr ⟨?_, begun.2⟩, kept.below, kept.known, fun x member later => ?_,
    fun x member less most => ?_⟩
  · show 1 ≤ (r.rnext c r.rnum).toNat
    omega
  · change (r.rnext c r.rnum).toNat ≤ _ at later
    exact kept.held x member (by omega)
  · refine kept.shown x member (unread x member less) fun y member' pack less' => ?_
    exact most y member' pack (Nat.lt_trans less' above)

/-- **A packet that is read** is shown from then on. -/
theorem Kept.read (apart : Apart arrived) {packets : List UDPMessage}
    (kept : Kept c arrived r (written shared packets)) (below : r.rnum < r.wnum)
    (found : (r.cbuf (c.slot r.rnum)).num = r.rnum) (started : ¬ (r.wnum = 1 ∧ r.rnum = 0)) :
    Kept c arrived { r with rnum := r.rnum + 1 } (written shared (packets ++ [r.cbuf (c.slot r.rnum)])) := by
  have next := Receiver.toNat_succ_of_lt below
  rw [UInt64.lt_iff_toNat_lt] at below
  have begun := kept.expected.resolve_left fun start => started start.2
  obtain ⟨first, come, packet⟩ : ∃ x ∈ arrived, x.2 = r.cbuf (c.slot r.rnum) := by
    rcases kept.known (c.slot r.rnum) with zero | known
    · rw [found] at zero
      rw [zero] at begun
      exact absurd begun.1 (by decide)
    · exact known
  have number : first.2.num = r.rnum := by
    rw [packet]
    exact found
  rw [← packet, written_append]
  refine ⟨kept.writes, ?_, .inr ⟨?_, begun.2⟩, kept.below, kept.known, fun x member later => ?_,
    fun x member less most e entry => ?_⟩
  · show (r.rnum + 1).toNat ≤ r.wnum.toNat
    omega
  · show 1 ≤ (r.rnum + 1).toNat
    omega
  · change (r.rnum + 1).toNat ≤ _ at later
    exact kept.held x member (by omega)
  · change x.2.num.toNat < (r.rnum + 1).toNat at less
    change ∀ y ∈ arrived, y.1 = x.1 → y.2.num.toNat < (r.rnum + 1).toNat → _ at most
    by_cases now : x.2.num.toNat = first.2.num.toNat
    · rw [apart.same x member first come now] at entry
      exact written_self (apart.nodup first come) entry
    · rw [number] at now
      have other : first.1 ≠ x.1 := by
        intro same
        have := most first come same (by rw [number]; omega)
        rw [number] at this
        omega
      have sensor : e.1 ∉ first.2.sensors :=
        apart.disjoint x member first come (Ne.symm other) e.1
          ((writes_sublist x.2).subset (List.mem_map_of_mem entry))
      rw [written_other sensor]
      exact kept.shown x member (by omega) (fun y member' pack less' => most y member' pack (by omega))
        e entry

/-- **An update** keeps the invariant, with what it hands over. -/
theorem Kept.updated (apart : Apart arrived) (kept : Kept c arrived r shared) (expired : UInt64 → Bool) :
    Kept c arrived (r.update c expired).1 (written shared (r.update c expired).2) := by
  refine Receiver.update_keeps (P := fun u => Kept c arrived u.1 (written shared u.2)) ?_ kept
  intro u v started kept turn
  obtain ⟨below, ⟨hole, -, same, lost, left⟩ | ⟨found, left, handed⟩⟩ := Receiver.updateTurn_cases turn
  · rw [left, same]
    exact kept.hole below hole started lost
  · have open_ : (u.1.lockUpdate || u.1.mode == .mDisabled) = false :=
      Bool.eq_false_iff.mpr fun blocked => Receiver.blocked_iff.mp blocked kept.writes
    rw [open_] at handed
    rw [left, handed]
    exact kept.read apart below found started

/-- Numbers within the buffer from the read position on have slots of their own. -/
theorem slot_ne {a b : UInt64} (first : Nat) (differ : a ≠ b) (low : first ≤ a.toNat)
    (low' : first ≤ b.toNat) (high : a.toNat < first + c.cbufSize.toNat)
    (high' : b.toNat < first + c.cbufSize.toNat) : c.slot a ≠ c.slot b := by
  intro same
  rcases Nat.le_total a.toNat b.toNat with le | le
  · exact differ (slot_inj le (by omega) same)
  · exact differ (slot_inj le (by omega) same.symm).symm

/-- **The expected packet arrives.** -/
theorem Kept.expected_arrives (kept : Kept c arrived r shared) {x : Sent} (here : x.2.num = r.wnum)
    (room : x.2.num.toNat + 1 < r.rnum.toNat + c.cbufSize.toNat) (more : x.2.num.toNat + 1 < 2 ^ 64) :
    Kept c (arrived ++ [x]) { r with
      cbuf := r.parsedInto c x.2
      wnum := r.wnum + 1
      rnum := if r.rnum = 0 then x.2.num else r.rnum } shared := by
  have inside := kept.inside
  have last : x ∈ arrived ++ [x] := List.mem_append_right _ (List.mem_singleton_self x)
  have succ : (x.2.num + 1).toNat = x.2.num.toNat + 1 := by
    rw [UInt64.toNat_add, UInt64.toNat_one]
    omega
  have expected : (r.wnum + 1).toNat = x.2.num.toNat + 1 := by rw [← here, succ]
  have number : x.2.num.toNat = r.wnum.toNat := congrArg UInt64.toNat here
  have first : (if r.rnum = 0 then x.2.num else r.rnum).toNat ≤ r.wnum.toNat ∧
      r.rnum.toNat ≤ (if r.rnum = 0 then x.2.num else r.rnum).toNat ∧
      1 ≤ (if r.rnum = 0 then x.2.num else r.rnum).toNat := by
    rcases kept.expected with ⟨-, wnum, zero⟩ | ⟨begun, -⟩
    · rw [if_pos zero, here, wnum, zero]
      decide
    · have zero : r.rnum ≠ 0 := ne_zero_iff.mpr begun
      rw [if_neg zero]
      exact ⟨inside, Nat.le_refl _, begun⟩
  -- nothing has arrived before the reading begins
  have read : ∀ y ∈ arrived, (if r.rnum = 0 then x.2.num else r.rnum) = r.rnum := by
    intro y member
    rcases kept.expected with ⟨none, -⟩ | ⟨begun, -⟩
    · rw [none] at member
      exact absurd member List.not_mem_nil
    · exact if_neg (ne_zero_iff.mpr begun)
  refine ⟨kept.writes, ?_, .inr ⟨first.2.2, x, last, expected.symm⟩, fun y member => ?_, fun i => ?_,
    fun y member later => ?_, fun y member less most => ?_⟩
  · show (if r.rnum = 0 then x.2.num else r.rnum).toNat ≤ (r.wnum + 1).toNat
    omega
  · show y.2.num.toNat < (r.wnum + 1).toNat
    rcases List.mem_append.mp member with old | new
    · have := kept.below y old
      omega
    · rw [List.mem_singleton.mp new]
      omega
  · show (r.parsedInto c x.2 i).num = 0 ∨ _
    rw [Receiver.parsedInto_apply]
    split
    · rename_i slot
      refine .inr ⟨x, last, ?_⟩
      show x.2 = r.parsedInto c x.2 i
      rw [Receiver.parsedInto_apply, if_pos slot]
    · rename_i elsewhere
      rcases kept.known i with zero | ⟨y, member, eq⟩
      · exact .inl zero
      · refine .inr ⟨y, List.mem_append_left _ member, ?_⟩
        show y.2 = r.parsedInto c x.2 i
        rw [Receiver.parsedInto_apply, if_neg elsewhere, eq]
  · show r.parsedInto c x.2 (c.slot y.2.num) = y.2
    change (if r.rnum = 0 then x.2.num else r.rnum).toNat ≤ y.2.num.toNat at later
    rw [Receiver.parsedInto_apply]
    rcases List.mem_append.mp member with old | new
    · have before := kept.below y old
      have apart : y.2.num ≠ r.wnum := fun same => by
        rw [same] at before
        exact Nat.lt_irrefl _ before
      rw [if_neg (slot_ne r.rnum.toNat apart (by omega) inside (by omega) (by omega))]
      exact kept.held y old (by omega)
    · rw [List.mem_singleton.mp new, if_pos (by rw [here])]
  · change y.2.num.toNat < (if r.rnum = 0 then x.2.num else r.rnum).toNat at less
    have old : y ∈ arrived := by
      refine (List.mem_append.mp member).resolve_right fun new => ?_
      rw [List.mem_singleton.mp new] at less
      omega
    have same := read y old
    change ∀ z ∈ arrived ++ [x], z.1 = y.1 →
      z.2.num.toNat < (if r.rnum = 0 then x.2.num else r.rnum).toNat → _ at most
    rw [same] at less most
    exact kept.shown y old less fun z member' => most z (List.mem_append_left _ member')

/-- **Another packet arrives**: a later one, or the last one again. -/
theorem Kept.other_arrives (kept : Kept c arrived r shared) {x : Sent} (moved : x.2.num ≠ r.wnum)
    (sorted : ∀ y ∈ arrived, y.2.num.toNat < x.2.num.toNat ∨ y = x) (zero : r.rnum ≠ 0)
    (room : x.2.num.toNat + 1 < r.rnum.toNat + c.cbufSize.toNat) (more : x.2.num.toNat + 1 < 2 ^ 64) :
    Kept c (arrived ++ [x]) { r with
      cbuf := r.moved c x.2
      wnum := if r.wnum ≤ x.2.num then x.2.num + 1 else r.wnum } shared := by
  have inside := kept.inside
  have last : x ∈ arrived ++ [x] := List.mem_append_right _ (List.mem_singleton_self x)
  have succ : (x.2.num + 1).toNat = x.2.num.toNat + 1 := by
    rw [UInt64.toNat_add, UInt64.toNat_one]
    omega
  obtain ⟨begun, z, came, before⟩ :=
    kept.expected.resolve_left fun start => zero start.2.2
  -- a packet that is not behind the last one is the last one again
  have again : x.2.num.toNat + 1 = r.wnum.toNat ∧ x ∈ arrived ∨
      r.wnum.toNat < x.2.num.toNat := by
    have apart : x.2.num.toNat ≠ r.wnum.toNat := fun same => moved (UInt64.toNat_inj.mp same)
    rcases sorted z came with less | same
    · exact .inr (by omega)
    · rw [same] at came before
      exact .inl ⟨before, came⟩
  have wnum : (if r.wnum ≤ x.2.num then x.2.num + 1 else r.wnum).toNat = max r.wnum.toNat (x.2.num.toNat + 1) := by
    rw [apply_ite UInt64.toNat, succ]
    simp only [UInt64.le_iff_toNat_le]
    split <;> omega
  refine ⟨kept.writes, ?_, .inr ⟨begun, x, last, ?_⟩, fun y member => ?_, fun i => ?_,
    fun y member later => ?_, fun y member less most => ?_⟩
  · show r.rnum.toNat ≤ (if r.wnum ≤ x.2.num then x.2.num + 1 else r.wnum).toNat
    omega
  · show _ = (if r.wnum ≤ x.2.num then x.2.num + 1 else r.wnum).toNat
    omega
  · show _ < (if r.wnum ≤ x.2.num then x.2.num + 1 else r.wnum).toNat
    rcases List.mem_append.mp member with old | new
    · have := kept.below y old
      omega
    · rw [List.mem_singleton.mp new]
      omega
  · show (r.moved c x.2 i).num = 0 ∨ ∃ y ∈ arrived ++ [x], y.2 = r.moved c x.2 i
    rw [Receiver.moved_apply]
    split
    · exact .inl rfl
    · split
      · exact .inr ⟨x, last, rfl⟩
      · rcases kept.known i with none | ⟨y, member, eq⟩
        · exact .inl none
        · exact .inr ⟨y, List.mem_append_left _ member, eq⟩
  · show r.moved c x.2 (c.slot y.2.num) = y.2
    change r.rnum.toNat ≤ y.2.num.toNat at later
    have bound : y.2.num.toNat ≤ x.2.num.toNat := by
      rcases List.mem_append.mp member with old | new
      · rcases sorted y old with less | same
        · exact Nat.le_of_lt less
        · rw [same]
      · rw [List.mem_singleton.mp new]
    have apart : y.2.num ≠ r.wnum := by
      intro same
      rcases List.mem_append.mp member with old | new
      · have := kept.below y old
        rw [same] at this
        exact Nat.lt_irrefl _ this
      · rw [List.mem_singleton.mp new] at same
        exact moved same
    rw [Receiver.moved_apply,
      if_neg (slot_ne r.rnum.toNat apart later inside (by omega) (by omega))]
    split
    · rename_i same
      have equal : y.2.num = x.2.num := by
        by_contra differ
        exact slot_ne r.rnum.toNat differ later (by omega) (by omega) (by omega) same
      rcases List.mem_append.mp member with old | new
      · rcases sorted y old with less | eq
        · rw [equal] at less
          exact absurd less (Nat.lt_irrefl _)
        · rw [eq]
      · rw [List.mem_singleton.mp new]
    · rename_i differ
      rcases List.mem_append.mp member with old | new
      · exact kept.held y old later
      · rw [List.mem_singleton.mp new] at differ
        exact absurd rfl differ
  · change y.2.num.toNat < r.rnum.toNat at less
    have old : y ∈ arrived := by
      rcases List.mem_append.mp member with old | new
      · exact old
      · rw [List.mem_singleton.mp new] at less ⊢
        rcases again with ⟨-, came⟩ | later
        · exact came
        · omega
    exact kept.shown y old less fun z member' => most z (List.mem_append_left _ member')

/-- **A packet that arrives** where there is room for it. -/
theorem Kept.accepted (kept : Kept c arrived r shared) {x : Sent}
    (sorted : ∀ y ∈ arrived, y.2.num.toNat < x.2.num.toNat ∨ y = x)
    (begins : r.rnum = 0 → x.2.num = r.wnum)
    (room : x.2.num.toNat + 1 < r.rnum.toNat + c.cbufSize.toNat) (more : x.2.num.toNat + 1 < 2 ^ 64) :
    Kept c (arrived ++ [x]) (r.accept c x.2) shared := by
  obtain ⟨here, after⟩ | ⟨moved, after⟩ := Receiver.accept_cases (c := c) (r := r) x.2
  · rw [after]
    exact kept.expected_arrives here room more
  · rw [after]
    exact kept.other_arrives moved sorted (fun zero => moved (begins zero)) room more

end KeptSteps

/-! ### Runs -/

/-- **The invariant** of the whole. -/
structure Followed (c : Conf) (w : Link) : Prop where
  stream : Stream w.sending (w.arrived ++ w.wire)
  kept : Kept c w.arrived w.receiver w.shared

section Steps

variable {p : Protobuf} {sc : SenderConf} {c : Conf} {w v : Link}

/-- The datagram of a packet is parsed as the packet. -/
theorem datagram_eq (documented : p.Documented) {m : UDPMessage} (filled : Filled m) :
    Link.datagram p m = .parsed m := by
  have parsed := initFromBuffer_filled documented filled []
    (fun addition member => absurd member List.not_mem_nil)
  rw [List.flatMap_nil, List.append_nil] at parsed
  unfold Link.datagram
  rw [parsed]

/-- **The arrival of a datagram.** -/
theorem Followed.arrive (documented : p.Documented) (followed : Followed c w) {x : Sent}
    {rest : List Sent} (wire : w.wire = x :: rest) (orderly : Orderly c w .arrive) :
    Followed c { w with
      wire := rest
      receiver := (w.receiver.receive c (Link.datagram p x.2)).1
      arrived := w.arrived ++ [x] } := by
  obtain ⟨stream, kept⟩ := followed
  rw [wire] at stream
  obtain ⟨begins, agrees, room⟩ := orderly x (by rw [wire]; rfl)
  have flying : x ∈ w.arrived ++ x :: rest := List.mem_append_right _ List.mem_cons_self
  obtain ⟨filled, magic, -⟩ := stream.alike x flying
  have datagram := datagram_eq documented (filled (stream.filled x.1))
  have ok : x.2.isOk = true := by
    unfold UDPMessage.isOk
    rw [magic, stream.magic x.1]
    rfl
  have received : (w.receiver.receive c (Link.datagram p x.2)).1 = w.receiver.accept c x.2 := by
    rw [datagram]
    show (if x.2.isOk = true then _ else _ : Receiver × ReceiveRetCode).1 = _
    rw [if_pos ok, agrees]
    rfl
  have sorted : ∀ y ∈ w.arrived, y.2.num.toNat < x.2.num.toNat ∨ y = x := fun y member =>
    (List.pairwise_append.mp stream.sorted).2.2 y member x List.mem_cons_self
  have bound := (stream.before x flying).2
  have counter := w.sending.sender.packetnum.toNat_lt
  refine ⟨?_, ?_⟩
  · show Stream w.sending (w.arrived ++ [x] ++ rest)
    rw [List.append_assoc, List.singleton_append]
    exact stream
  · show Kept c (w.arrived ++ [x]) (w.receiver.receive c (Link.datagram p x.2)).1 w.shared
    rw [received]
    exact kept.accepted sorted begins room (by omega)

/-- **A step keeps the invariant.** -/
theorem Followed.step (documented : p.Documented) (followed : Followed c w) {label : LinkLabel}
    (orderly : Orderly c w label) (stepped : w.step p sc c label = some v) : Followed c v := by
  cases label with
  | sender label =>
    obtain ⟨s, sent, rfl⟩ := Option.map_eq_some_iff.mp stepped
    refine ⟨?_, followed.kept⟩
    show Stream s (w.arrived ++ (w.wire ++ Link.transmission w.sending label))
    rw [← List.append_assoc]
    exact followed.stream.step orderly.1 orderly.2 sent
  | lose =>
    cases wire : w.wire with
    | nil => rw [Link.step, wire] at stepped; cases stepped
    | cons first rest =>
      rw [Link.step, wire] at stepped
      cases stepped
      have stream := followed.stream
      rw [wire] at stream
      exact ⟨stream.sublist (List.Sublist.append_left (List.sublist_cons_self first rest) _),
        followed.kept⟩
  | arrive =>
    cases wire : w.wire with
    | nil => rw [Link.step, wire] at stepped; cases stepped
    | cons first rest =>
      rw [Link.step, wire] at stepped
      cases stepped
      exact followed.arrive documented wire orderly
  | update expired =>
    cases stepped
    have apart := (followed.stream.sublist (List.sublist_append_left w.arrived w.wire)).apart
    exact ⟨followed.stream, followed.kept.updated apart expired⟩

theorem followed_start (start : (links p sc c).start w) : Followed c w := by
  obtain ⟨⟨-, counter, -, -, -, numbered⟩, filled, magic, once, wire, receiver, arrived⟩ := start
  refine ⟨⟨?_, filled, magic, once, fun i bytes last => ?_, ?_, ?_, ?_, ?_⟩, ?_⟩
  · rw [counter]
    decide
  · rw [numbered] at last
    exact absurd last.symm (Option.some_ne_none _)
  all_goals try
    rw [arrived, wire]
    first
      | exact List.Pairwise.nil
      | exact fun x member => absurd member List.not_mem_nil
  rw [arrived, receiver]
  exact ⟨⟨rfl, rfl⟩, by decide, .inl ⟨rfl, rfl, rfl⟩, fun x member => absurd member List.not_mem_nil,
    fun i => .inl rfl, fun x member => absurd member List.not_mem_nil,
    fun x member => absurd member List.not_mem_nil⟩

/-- Every pack shows its last packet once everything has been read. -/
theorem Followed.shows (followed : Followed c w) (read : w.receiver.wnum.toNat ≤ w.receiver.rnum.toNat)
    {i : PackId} {m : UDPMessage} (last : w.lastArrived i = some m) :
    ∀ e ∈ m.writes, w.shared e.1 = e.2 := by
  obtain ⟨x, end_, rfl⟩ := Option.map_eq_some_iff.mp last
  obtain ⟨member, pack⟩ := List.mem_filter.mp (List.mem_of_getLast? end_)
  refine followed.kept.shown x member (Nat.lt_of_lt_of_le (followed.kept.below x member) read)
    fun y member' same less => ?_
  -- the packets of the pack come in the order of their numbers
  have sorted := (List.pairwise_append.mp followed.stream.sorted).1.filter fun x => decide (x.1 = i)
  obtain ⟨before, split⟩ := List.getLast?_eq_some_iff.mp end_
  rw [split] at sorted
  have listed : y ∈ before ++ [x] := by
    rw [← split]
    exact List.mem_filter.mpr ⟨member', decide_eq_true (same.trans (of_decide_eq_true pack))⟩
  rcases List.mem_append.mp listed with old | new
  · rcases (List.pairwise_append.mp sorted).2.2 y old x (List.mem_singleton_self x) with less | equal
    · exact Nat.le_of_lt less
    · rw [equal]
  · rw [List.mem_singleton.mp new]

end Steps

/-! ### The result -/

/-- A sender of one pack, with a value of `0`, and a receiver. -/
def oneLink : Link where
  sending := onePack 0
  wire := []
  receiver := .new
  shared _ := 0
  arrived := []

/-- Three packets, the second of which is lost. -/
def threePackets : List LinkLabel :=
  [.sender transmit, .arrive, .sender (.updateSensor 5 7), .sender transmit, .lose,
    .sender (.updateSensor 5 9), .sender transmit, .arrive]

theorem oneLink_start : (links wire oneSensor hundred).start oneLink := by
  have packs : ∀ i, oneLink.sending.sender.mypacks i = packet 0 0 ∨
      oneLink.sending.sender.mypacks i = .new := by
    intro i
    show (if i = (0, 0) then packet 0 0 else .new) = _ ∨ (if i = (0, 0) then packet 0 0 else .new) = _
    split
    · exact .inl rfl
    · exact .inr rfl
  refine ⟨onePack_start 0, fun i => ?_, fun i => ?_, ⟨fun i => ?_, fun i j apart id here => ?_⟩, rfl,
    rfl, rfl⟩
  · rcases packs i with pack | pack
    · rw [pack]
      exact ⟨rfl, rfl, by decide, by decide⟩
    · rw [pack]
      exact ⟨rfl, rfl, by decide, by decide⟩
  · rcases packs i with pack | pack
    · rw [pack]
      rfl
    · rw [pack]
      rfl
  · rcases packs i with pack | pack
    · rw [pack]
      exact List.nodup_singleton _
    · rw [pack]
      exact List.nodup_nil
  · have first : i = (0, 0) := by
      by_contra other
      change id ∈ (if i = (0, 0) then packet 0 0 else .new : UDPMessage).sensors at here
      rw [if_neg other] at here
      exact absurd here List.not_mem_nil
    show id ∉ (if j = (0, 0) then packet 0 0 else .new : UDPMessage).sensors
    rw [if_neg fun same => apart (first.trans same.symm)]
    exact List.not_mem_nil

end UniSet.UNet

/-
**`UNetSender::initItem`: where a sensor is put.**

A sensor is added to the current pack of its kind and send factor first and its index is looked at
then. With a limit below the hard one the sensor stays in the pack that was full, and is added to the
next pack as well.

* `put`, `place`, `initItem`, `initAll` — the code; `none` is `std::terminate`.
* `Packs.Lawful` — every sensor occurs once, at the position recorded for it; the packs keep the limits;
  `updateItem` changes the entry of the sensor and no other one.
* `Laid` — the invariant of the packs, with what is behind the current pack.
* **`placed_iff`** — the packs are lawful exactly if every kind has its hard limit, or no send factor
  has more sensors of the kind than one pack takes; `second_copy` is the shortest sequence that
  duplicates.
-/

import UniSet.Core.Split
import UniSet.Processes.IOConfig
import UniSet.UNet.Sender

namespace UniSet.UNet

open UniSet.Processes (ObjectId Value IOType getIOType)
open UniSet.Core (uniAtoi)

/-! ### The kinds of entries -/

/-- Discrete and analog entries fill the packs side by side. -/
inductive EntryKind
  | discrete | analog
deriving DecidableEq, Repr

/-- The kind of a sensor. -/
def kindOf : IOType → Option EntryKind
  | .DI | .DO => some .discrete
  | .AI | .AO => some .analog
  | .UnknownIOType => none

/-- `MaxDCount`, `MaxACount`. -/
def maxCount : EntryKind → Nat
  | .discrete => maxDCount
  | .analog => maxACount

/-- A value as an entry of the kind holds it. -/
def wordOf : EntryKind → Int → UInt64
  | .discrete, value => if value != 0 then 1 else 0
  | .analog, value => UInt64.ofInt value

namespace UDPMessage

/-- The identifiers of one kind. -/
def ids (m : UDPMessage) : EntryKind → List UInt64
  | .discrete => m.data.dID
  | .analog => m.data.aID

/-- The values of one kind. -/
def words (m : UDPMessage) : EntryKind → List UInt64
  | .discrete => m.data.dValue.map fun b => if b then 1 else 0
  | .analog => m.data.aValue

/-- `addDData`, `addAData`. -/
def add (m : UDPMessage) (kind : EntryKind) (id : UInt64) (defval : Int) : UDPMessage × Nat :=
  match kind with
  | .discrete => m.addDData id (defval != 0)
  | .analog => m.addAData id (UInt64.ofInt defval)

end UDPMessage

/-! ### `initItem` -/

/-- The attributes of a sensor in the configuration; an attribute that is missing is empty. -/
structure SensorProps where
  name : String
  id : String
  sendfactor : String
  iotype : String
  default : String
  undefinedValue : String

/-- What the constructor gets, and the configuration of the process. -/
structure InitConf where
  /-- `maxDData`, `maxAData`. -/
  maxData : EntryKind → Nat
  /-- `getLocalNode()`. -/
  localNode : UInt64
  /-- `shm->ID()`. -/
  ownId : UInt64
  getSensorID : String → Int64

/-- `UNetSender::UItem`, as `initItem` makes it. -/
structure Item extends UItem where
  id : Int64
  undefinedValue : Int64
deriving DecidableEq, Repr

/-- **What `initItem` fills.** A group without packs is empty. -/
structure Packs where
  mypacks : Nat → List UDPMessage
  /-- `packs_dnum`, `packs_anum`. -/
  packsNum : EntryKind → Nat → Nat
  items : Int64 → Option Item

/-- The identifier of a sensor, `-1` if there is none. -/
def sensorId (c : InitConf) (it : SensorProps) : Int64 :=
  if it.id ≠ "" then
    let sid := Int64.ofInt (uniAtoi it.id.toList)
    if sid ≤ 0 then -1 else sid
  else c.getSensorID it.name

/-- The send factor, an `int` converted to `size_t`. -/
def sendfactor (it : SensorProps) : Nat := (UInt64.ofInt (uniAtoi it.sendfactor.toList)).toNat

/-- `undefined_value`; not specified it is the largest `long`. -/
def undefinedValue (it : SensorProps) : Int64 :=
  if it.undefinedValue ≠ "" then Int64.ofInt (uniAtoi it.undefinedValue.toList) else Int64.maxValue

/-- A group resized so that it has the pack `num`. -/
def grown (pk : List UDPMessage) (num : Nat) : List UDPMessage :=
  if pk.length ≤ num then pk ++ List.replicate (num + 1 - pk.length) .new else pk

/-- An entry added to the pack `num` of a group, with its index. -/
def put (pk : List UDPMessage) (num : Nat) (kind : EntryKind) (sid : Int64) (defval : Int) :
    List UDPMessage × Nat :=
  let pk := grown pk num
  let added := (pk.getD num .new).add kind sid.toUInt64 defval
  (pk.set num added.1, added.2)

/-- Where a sensor was put: the group, the number of the pack and the index in it. -/
structure Place where
  pk : List UDPMessage
  num : Nat
  ind : Nat

/-- **The two branches of `initItem`**, by the kind: the current pack, and the next one if the index
is beyond the limit. -/
def place (c : InitConf) (pk : List UDPMessage) (num : Nat) (kind : EntryKind) (sid : Int64)
    (defval : Int) : Place :=
  let first := put pk num kind sid defval
  if c.maxData kind ≤ first.2 then
    let second := put first.1 (num + 1) kind sid defval
    ⟨second.1.modify (num + 1) fun m => { m with nodeID := c.localNode, procID := c.ownId },
      num + 1, second.2⟩
  else ⟨first.1, num, first.2⟩

/-- The sensor recorded where it was put. -/
def Packs.record (pl : Packs) (it : SensorProps) (sid : Int64) (kind : EntryKind) (at_ : Place) :
    Packs where
  mypacks := Function.update pl.mypacks (sendfactor it) at_.pk
  packsNum := Function.update pl.packsNum kind
    (Function.update (pl.packsNum kind) (sendfactor it) at_.num)
  items := Function.update pl.items sid
    (some ⟨⟨getIOType it.iotype, at_.num, at_.ind, sendfactor it⟩, sid, undefinedValue it⟩)

/-- **`UNetSender::initItem`**, with its result; `none` is `std::terminate`. -/
def initItem (c : InitConf) (pl : Packs) (it : SensorProps) : Option (Packs × Bool) :=
  let sid := sensorId c it
  if sid = -1 then some (pl, false)
  else
    let priority := sendfactor it
    match kindOf (getIOType it.iotype) with
    | none => some (pl, false)
    | some kind =>
      let at_ := place c (pl.mypacks priority) (pl.packsNum kind priority) kind sid
        (uniAtoi it.default.toList)
      if maxCount kind ≤ at_.ind then none
      else if (pl.items sid).isSome then none
      else some (pl.record it sid kind at_, true)

/-- The packs of the constructor: one in the group `0`. -/
def Packs.new (c : InitConf) : Packs where
  mypacks := Function.update (fun _ => []) 0
    [{ UDPMessage.new with nodeID := c.localNode, procID := c.ownId }]
  packsNum _ _ := 0
  items _ := none

/-- The sensors of the configuration, one after the other. -/
def initAll (c : InitConf) (pl : Packs) : List SensorProps → Option Packs
  | [] => some pl
  | it :: rest => (initItem c pl it).bind fun done => initAll c done.1 rest

/-! ### What a placement should be -/

/-- The pack `n` of a group; a pack that is not there has no entries. -/
def packAt (pk : List UDPMessage) (n : Nat) : UDPMessage := pk.getD n .new

/-- A place for an entry. -/
structure Position where
  kind : EntryKind
  sendfactor : Nat
  num : Nat
  ind : Nat
deriving DecidableEq, Repr

/-- The position recorded for a sensor. -/
def Item.position (item : Item) : Option Position :=
  (kindOf item.iotype).map fun kind => ⟨kind, item.packSendfactor, item.packNum, item.packInd⟩

/-- The identifier at a position of the sender's packs. -/
def Sender.idAt (s : Sender) (pos : Position) : Option UInt64 :=
  ((s.mypacks (pos.sendfactor, pos.num)).ids pos.kind)[pos.ind]?

/-- The value at a position. -/
def Sender.wordAt (s : Sender) (pos : Position) : Option UInt64 :=
  ((s.mypacks (pos.sendfactor, pos.num)).words pos.kind)[pos.ind]?

/-- The sender that sends these packs. -/
def Packs.sender (pl : Packs) : Sender where
  mypacks i := packAt (pl.mypacks i.1) i.2
  packetnum := 1
  lastcrc := 0
  mode := .mEnabled

/-- The sensor is put into a pack: it has an identifier and a kind. -/
def accepted (c : InitConf) (it : SensorProps) : Bool :=
  sensorId c it != -1 && (kindOf (getIOType it.iotype)).isSome

/-- **The law of the placement.** -/
structure Packs.Lawful (c : InitConf) (its : List SensorProps) (pl : Packs) : Prop where
  /-- Every sensor is recorded, and occurs at the recorded position and nowhere else. -/
  once : ∀ it ∈ its, accepted c it → ∃ item, pl.items (sensorId c it) = some item ∧
    item.id = sensorId c it ∧ item.iotype = getIOType it.iotype ∧
    item.packSendfactor = sendfactor it ∧
    ∀ pos, pl.sender.idAt pos = some (sensorId c it).toUInt64 ↔ item.position = some pos
  /-- No pack holds more than the limits allow. -/
  limits : ∀ f, ∀ m ∈ pl.mypacks f, ∀ kind, (m.ids kind).length ≤ c.maxData kind
  /-- An update changes the entry of the sensor, and nothing else. -/
  updates : ∀ sid item, pl.items sid = some item → ∀ value pos,
    (pl.sender.updateItem item.toUItem value).idAt pos = pl.sender.idAt pos ∧
    (pl.sender.updateItem item.toUItem value).wordAt pos =
      if item.position = some pos then some (wordOf pos.kind value) else pl.sender.wordAt pos

/-- The sensors of a kind and a send factor. -/
def wanted (c : InitConf) (kind : EntryKind) (f : Nat) (it : SensorProps) : Bool :=
  sensorId c it != -1 && kindOf (getIOType it.iotype) == some kind && sendfactor it == f

/-! ### One entry -/

section Put

variable {pk : List UDPMessage} {num n : Nat} {kind : EntryKind} {sid : Int64} {defval : Int}
  {c : InitConf}

/-- **What `add` does**: nothing to a full pack, else a new entry. -/
inductive Added (m : UDPMessage) (kind : EntryKind) (id : UInt64) (defval : Int) :
    UDPMessage × Nat → Prop
  | full (full : maxCount kind ≤ (m.ids kind).length) : Added m kind id defval (m, maxCount kind)
  | room (m' : UDPMessage) (room : (m.ids kind).length < maxCount kind)
    (ids : m'.ids kind = m.ids kind ++ [id])
    (words : m'.words kind = m.words kind ++ [wordOf kind defval])
    (other : ∀ k, k ≠ kind → m'.ids k = m.ids k ∧ m'.words k = m.words k) :
    Added m kind id defval (m', (m.ids kind).length)

theorem add_spec (m : UDPMessage) (kind : EntryKind) (id : UInt64) (defval : Int) :
    Added m kind id defval (m.add kind id defval) := by
  cases kind with
  | discrete =>
    show Added m .discrete id defval (m.addDData id (defval != 0))
    unfold UDPMessage.addDData
    split
    · rename_i full
      exact .full full
    · rename_i room
      have index : (m.data.dID ++ [id]).length - 1 = (m.ids .discrete).length := by
        rw [List.length_append]
        rfl
      dsimp only
      rw [index]
      refine .room _ (Nat.lt_of_not_le room) rfl ?_ fun k other => ?_
      · show (m.data.dValue ++ [defval != 0]).map _ = _
        rw [List.map_append]
        rfl
      · cases k with
        | discrete => exact absurd rfl other
        | analog => exact ⟨rfl, rfl⟩
  | analog =>
    show Added m .analog id defval (m.addAData id (UInt64.ofInt defval))
    unfold UDPMessage.addAData
    split
    · rename_i full
      exact .full full
    · rename_i room
      have index : (m.data.aID ++ [id]).length - 1 = (m.ids .analog).length := by
        rw [List.length_append]
        rfl
      dsimp only
      rw [index]
      refine .room _ (Nat.lt_of_not_le room) rfl rfl fun k other => ?_
      cases k with
      | discrete => exact ⟨rfl, rfl⟩
      | analog => exact absurd rfl other

theorem packAt_grown (pk : List UDPMessage) (num : Nat) : packAt (grown pk num) = packAt pk := by
  funext n
  unfold packAt grown
  split
  · rw [List.getD_eq_getElem?_getD, List.getD_eq_getElem?_getD, List.getElem?_append]
    split
    · rfl
    · rename_i outside
      rw [List.getElem?_eq_none (Nat.le_of_not_lt outside), List.getElem?_replicate]
      split <;> rfl
  · rfl

theorem length_grown (pk : List UDPMessage) (num : Nat) : num < (grown pk num).length := by
  unfold grown
  split
  · rw [List.length_append, List.length_replicate]
    omega
  · rename_i inside
    exact Nat.lt_of_not_le inside

/-- **The packs after an entry was put.** -/
theorem packAt_put (pk : List UDPMessage) (num : Nat) (kind : EntryKind) (sid : Int64) (defval : Int) :
    packAt (put pk num kind sid defval).1 =
      Function.update (packAt pk) num ((packAt pk num).add kind sid.toUInt64 defval).1 := by
  have same := congrFun (packAt_grown pk num) num
  unfold put
  show packAt ((grown pk num).set num ((packAt (grown pk num) num).add kind sid.toUInt64 defval).1) = _
  rw [same]
  funext n
  unfold packAt
  rw [List.getD_eq_getElem?_getD, List.getElem?_set]
  by_cases here : n = num
  · rw [here, if_pos rfl, if_pos (length_grown pk num), Function.update_self]
    rfl
  · rw [if_neg (Ne.symm here), Function.update_of_ne here]
    exact congrFun (packAt_grown pk num) n

theorem put_ind (pk : List UDPMessage) (num : Nat) (kind : EntryKind) (sid : Int64) (defval : Int) :
    (put pk num kind sid defval).2 = ((packAt pk num).add kind sid.toUInt64 defval).2 := by
  show ((packAt (grown pk num) num).add kind sid.toUInt64 defval).2 = _
  rw [packAt_grown]

/-- Setting the node and the process of a pack leaves the entries. -/
theorem ids_modify (pk : List UDPMessage) (node proc : UInt64) (k : EntryKind) :
    ((packAt (pk.modify num fun m => { m with nodeID := node, procID := proc }) n).ids k =
      (packAt pk n).ids k) ∧
    ((packAt (pk.modify num fun m => { m with nodeID := node, procID := proc }) n).words k =
      (packAt pk n).words k) := by
  unfold packAt
  rw [List.getD_eq_getElem?_getD, List.getD_eq_getElem?_getD, List.getElem?_modify]
  cases pk[n]? with
  | none => exact ⟨rfl, rfl⟩
  | some m =>
    show (UDPMessage.ids (if num = n then _ else _) k = _) ∧
      (UDPMessage.words (if num = n then _ else _) k = _)
    split <;> cases k <;> exact ⟨rfl, rfl⟩

theorem maxCount_pos (kind : EntryKind) : 0 < maxCount kind := by
  cases kind <;> decide

/-- **One entry more**, in the pack `num`. -/
structure Entered (kind : EntryKind) (id word : UInt64) (before : Nat → UDPMessage) (num : Nat)
    (after : Nat → UDPMessage) : Prop where
  ids : ∀ n k, (after n).ids k = (before n).ids k ++ if n = num ∧ k = kind then [id] else []
  words : ∀ n k, (after n).words k = (before n).words k ++ if n = num ∧ k = kind then [word] else []

/-- An entry that is put into a pack with room. -/
theorem entered_put (sid : Int64) (defval : Int)
    (room : ((packAt pk num).ids kind).length < maxCount kind) :
    (put pk num kind sid defval).2 = ((packAt pk num).ids kind).length ∧
      Entered kind sid.toUInt64 (wordOf kind defval) (packAt pk) num
        (packAt (put pk num kind sid defval).1) := by
  rw [put_ind, packAt_put]
  cases added : (packAt pk num).add kind sid.toUInt64 defval with
  | mk m' ind =>
    have spec := added ▸ add_spec (packAt pk num) kind sid.toUInt64 defval
    cases spec with
    | full full => exact absurd full (Nat.not_le_of_lt room)
    | room m' _ ids words other =>
      refine ⟨rfl, fun n k => ?_, fun n k => ?_⟩
      · by_cases here : n = num
        · subst here
          rw [Function.update_self]
          by_cases own : k = kind
          · rw [if_pos ⟨rfl, own⟩, own, ids]
          · rw [if_neg fun both => own both.2, List.append_nil, (other k own).1]
        · rw [Function.update_of_ne here, if_neg fun both => here both.1, List.append_nil]
      · by_cases here : n = num
        · subst here
          rw [Function.update_self]
          by_cases own : k = kind
          · rw [if_pos ⟨rfl, own⟩, own, words]
          · rw [if_neg fun both => own both.2, List.append_nil, (other k own).2]
        · rw [Function.update_of_ne here, if_neg fun both => here both.1, List.append_nil]

theorem put_full (sid : Int64) (defval : Int)
    (full : maxCount kind ≤ ((packAt pk num).ids kind).length) :
    (put pk num kind sid defval).2 = maxCount kind ∧
      packAt (put pk num kind sid defval).1 = packAt pk := by
  rw [put_ind, packAt_put]
  cases added : (packAt pk num).add kind sid.toUInt64 defval with
  | mk m' ind =>
    have spec := added ▸ add_spec (packAt pk num) kind sid.toUInt64 defval
    cases spec with
    | full _ => exact ⟨rfl, Function.update_eq_self num (packAt pk)⟩
    | room _ room => exact absurd full (Nat.not_le_of_lt room)

/-- **What the branches of `initItem` do** where the current pack has room or the limit is the hard
one: one entry more, at the index that is recorded. -/
structure PutAt (c : InitConf) (pk : List UDPMessage) (num : Nat) (kind : EntryKind) (sid : Int64)
    (defval : Int) (at_ : Place) : Prop where
  entered : Entered kind sid.toUInt64 (wordOf kind defval) (packAt pk) at_.num (packAt at_.pk)
  index : at_.ind = ((packAt pk at_.num).ids kind).length
  inside : at_.ind < c.maxData kind
  num : at_.num = num ∨ at_.num = num + 1 ∧ c.maxData kind = maxCount kind

theorem place_spec (limit : c.maxData kind ≤ maxCount kind)
    (roomy : ((packAt pk num).ids kind).length < c.maxData kind ∨ c.maxData kind = maxCount kind)
    (next : (packAt pk (num + 1)).ids kind = []) :
    PutAt c pk num kind sid defval (place c pk num kind sid defval) := by
  unfold place
  dsimp only
  by_cases full : maxCount kind ≤ ((packAt pk num).ids kind).length
  · obtain ⟨ind, same⟩ := put_full sid defval full
    have hard := roomy.resolve_left (Nat.not_lt_of_le (Nat.le_trans limit full))
    rw [ind, if_pos limit]
    have none : ((packAt (put pk num kind sid defval).1 (num + 1)).ids kind).length = 0 := by
      rw [same, next]
      rfl
    obtain ⟨second, entered⟩ := entered_put sid defval (none ▸ maxCount_pos kind)
    rw [same] at entered
    refine ⟨⟨fun n k => ?_, fun n k => ?_⟩, ?_, ?_, .inr ⟨rfl, hard⟩⟩
    · rw [(ids_modify ..).1]
      exact entered.ids n k
    · rw [(ids_modify ..).2]
      exact entered.words n k
    · rw [second, none, next]
      rfl
    · show (put (put pk num kind sid defval).1 (num + 1) kind sid defval).2 < _
      rw [second, none, hard]
      exact maxCount_pos kind
  · obtain ⟨ind, entered⟩ := entered_put sid defval (Nat.lt_of_not_le full)
    have inside : ((packAt pk num).ids kind).length < c.maxData kind := by
      obtain room | hard := roomy
      · exact room
      · rw [hard]
        exact Nat.lt_of_not_le full
    rw [ind, if_neg (Nat.not_le_of_lt inside)]
    exact ⟨entered, rfl, inside, .inl rfl⟩

/-- A group only gets more entries, and those of the other kind stay. -/
theorem put_grows (pk : List UDPMessage) (num : Nat) (kind : EntryKind) (sid : Int64) (defval : Int)
    (n : Nat) (k : EntryKind) :
    ((packAt pk n).ids k).length ≤ ((packAt (put pk num kind sid defval).1 n).ids k).length ∧
      (k ≠ kind → (packAt (put pk num kind sid defval).1 n).ids k = (packAt pk n).ids k) := by
  by_cases full : maxCount kind ≤ ((packAt pk num).ids kind).length
  · rw [(put_full sid defval full).2]
    exact ⟨Nat.le_refl _, fun _ => rfl⟩
  · obtain ⟨-, entered⟩ := entered_put sid defval (Nat.lt_of_not_le full)
    rw [entered.ids]
    refine ⟨?_, fun other => ?_⟩
    · rw [List.length_append]
      exact Nat.le_add_right _ _
    · rw [if_neg fun both => other both.2, List.append_nil]

theorem place_grows (pk : List UDPMessage) (num : Nat) (kind : EntryKind) (sid : Int64) (defval : Int)
    (n : Nat) (k : EntryKind) :
    ((packAt pk n).ids k).length ≤ ((packAt (place c pk num kind sid defval).pk n).ids k).length ∧
      (k ≠ kind → (packAt (place c pk num kind sid defval).pk n).ids k = (packAt pk n).ids k) := by
  have first := put_grows pk num kind sid defval n k
  unfold place
  dsimp only
  split
  · have second := put_grows (put pk num kind sid defval).1 (num + 1) kind sid defval n k
    rw [(ids_modify ..).1]
    exact ⟨Nat.le_trans first.1 second.1, fun other => (second.2 other).trans (first.2 other)⟩
  · exact first

end Put

/-! ### The packs -/

section Items

variable {c : InitConf} {pl pl' : Packs} {it : SensorProps}

theorem kind_of_accepted (ok : accepted c it = true) :
    sensorId c it ≠ -1 ∧ ∃ kind, kindOf (getIOType it.iotype) = some kind := by
  obtain ⟨found, known⟩ := Bool.and_eq_true_iff.mp ok
  exact ⟨by simpa using found, Option.isSome_iff_exists.mp known⟩

/-- **What `initItem` can do**: refuse the sensor, or put it somewhere and record that. -/
inductive Initialised (c : InitConf) (pl : Packs) (it : SensorProps) : Packs → Prop
  | refused (none : accepted c it = false) : Initialised c pl it pl
  | placed (kind : EntryKind) (found : sensorId c it ≠ -1)
    (known : kindOf (getIOType it.iotype) = some kind) (at_ : Place)
    (put : at_ = place c (pl.mypacks (sendfactor it)) (pl.packsNum kind (sendfactor it)) kind
      (sensorId c it) (uniAtoi it.default.toList))
    (inside : at_.ind < maxCount kind) (fresh : pl.items (sensorId c it) = none) :
    Initialised c pl it (pl.record it (sensorId c it) kind at_)

theorem initItem_spec {answer : Bool} (ran : initItem c pl it = some (pl', answer)) :
    Initialised c pl it pl' := by
  unfold initItem at ran
  dsimp only at ran
  split at ran
  · rename_i missing
    cases ran
    refine .refused ?_
    unfold accepted
    rw [missing]
    rfl
  · rename_i found
    split at ran
    · rename_i unknown
      cases ran
      refine .refused ?_
      unfold accepted
      rw [unknown, Option.isSome_none, Bool.and_false]
    · rename_i kind known
      split at ran
      · cases ran
      · rename_i inside
        split at ran
        · cases ran
        · rename_i fresh
          cases ran
          exact .placed kind found known _ rfl (Nat.lt_of_not_le inside)
            (Option.not_isSome_iff_eq_none.mp fresh)

/-- **The invariant of the packs.** -/
structure Laid (c : InitConf) (pl : Packs) : Prop where
  /-- A pack has as many values as identifiers. -/
  paired : ∀ f n k, ((packAt (pl.mypacks f) n).words k).length =
    ((packAt (pl.mypacks f) n).ids k).length
  limits : ∀ f n k, ((packAt (pl.mypacks f) n).ids k).length ≤ c.maxData k
  /-- Behind the current pack there is nothing. -/
  behind : ∀ k f n, pl.packsNum k f < n → (packAt (pl.mypacks f) n).ids k = []
  /-- A recorded position holds the identifier. -/
  recorded : ∀ sid item, pl.items sid = some item → item.id = sid ∧
    ∃ pos, item.position = some pos ∧ pl.sender.idAt pos = some sid.toUInt64
  /-- Every entry was recorded. -/
  only : ∀ pos x, pl.sender.idAt pos = some x →
    ∃ sid item, pl.items sid = some item ∧ item.position = some pos

theorem laid_new (c : InitConf) : Laid c (.new c) := by
  have empty : ∀ f n k, (packAt ((Packs.new c).mypacks f) n).ids k = [] ∧
      (packAt ((Packs.new c).mypacks f) n).words k = [] := by
    intro f n k
    unfold Packs.new packAt
    dsimp only
    by_cases zero : f = 0
    · rw [zero, Function.update_self]
      cases n <;> cases k <;> exact ⟨rfl, rfl⟩
    · rw [Function.update_of_ne zero]
      cases k <;> exact ⟨rfl, rfl⟩
  refine ⟨fun f n k => ?_, fun f n k => ?_, fun k f n _ => (empty f n k).1, fun _ _ none => (nomatch none),
    fun pos x some => ?_⟩
  · rw [(empty f n k).1, (empty f n k).2]
  · rw [(empty f n k).1]
    exact Nat.zero_le _
  · have none : (Packs.new c).sender.idAt pos = none := by
      show ((packAt ((Packs.new c).mypacks pos.sendfactor) pos.num).ids pos.kind)[pos.ind]? = none
      rw [(empty ..).1]
      rfl
    rw [none] at some
    cases some

theorem getElem?_concat {α : Type} (l : List α) (x : α) (i : Nat) :
    (l ++ [x])[i]? = if i = l.length then some x else l[i]? := by
  rw [List.getElem?_append]
  by_cases last : i = l.length
  · rw [if_pos last, last, if_neg (Nat.lt_irrefl _), Nat.sub_self]
    rfl
  · rw [if_neg last]
    split
    · rfl
    · rename_i outside
      rw [List.getElem?_eq_none (Nat.le_of_not_lt outside), List.getElem?_eq_none]
      rw [List.length_singleton]
      omega

variable {kind : EntryKind} {done : List SensorProps}

/-- **The identifiers after a sensor was put**: the new one at its position, the others as before. -/
theorem idAt_record {sid : Int64} {word : UInt64} {at_ : Place}
    (entered : Entered kind sid.toUInt64 word (packAt (pl.mypacks (sendfactor it))) at_.num
      (packAt at_.pk))
    (index : at_.ind = ((packAt (pl.mypacks (sendfactor it)) at_.num).ids kind).length)
    (pos : Position) :
    (pl.record it sid kind at_).sender.idAt pos =
      if pos = ⟨kind, sendfactor it, at_.num, at_.ind⟩ then some sid.toUInt64
      else pl.sender.idAt pos := by
  obtain ⟨k, g, n, i⟩ := pos
  show ((packAt (Function.update pl.mypacks (sendfactor it) at_.pk g) n).ids k)[i]? =
    if _ then _ else ((packAt (pl.mypacks g) n).ids k)[i]?
  by_cases group : g = sendfactor it
  · subst group
    rw [Function.update_self, entered.ids]
    by_cases here : n = at_.num ∧ k = kind
    · obtain ⟨rfl, rfl⟩ := here
      rw [if_pos ⟨rfl, rfl⟩, getElem?_concat, ← index]
      simp only [Position.mk.injEq, true_and]
    · rw [if_neg here, List.append_nil, if_neg]
      intro position
      cases position
      exact here ⟨rfl, rfl⟩
  · rw [Function.update_of_ne group, if_neg]
    intro position
    cases position
    exact group rfl

/-- The condition for one sensor: the current pack has room, or the limit is the hard one. -/
def Roomy (c : InitConf) (pl : Packs) (kind : EntryKind) (f : Nat) : Prop :=
  ((packAt (pl.mypacks f) (pl.packsNum kind f)).ids kind).length < c.maxData kind ∨
    c.maxData kind = maxCount kind

section Record

variable {kind : EntryKind} {sid : Int64} {at_ : Place}

theorem mypacks_record (f : Nat) : (pl.record it sid kind at_).mypacks f =
    if f = sendfactor it then at_.pk else pl.mypacks f :=
  Function.update_apply ..

theorem packsNum_record (k : EntryKind) (f : Nat) : (pl.record it sid kind at_).packsNum k f =
    if k = kind ∧ f = sendfactor it then at_.num else pl.packsNum k f := by
  show Function.update pl.packsNum kind _ k f = _
  by_cases own : k = kind
  · subst own
    rw [Function.update_self, Function.update_apply]
    simp only [true_and]
  · rw [Function.update_of_ne own, if_neg fun both => own both.1]

/-- The position that is recorded of the sensor. -/
theorem position_record (known : kindOf (getIOType it.iotype) = some kind) :
    ∃ item, (pl.record it sid kind at_).items sid = some item ∧ item.id = sid ∧
      item.position = some ⟨kind, sendfactor it, at_.num, at_.ind⟩ := by
  refine ⟨_, Function.update_self .., rfl, ?_⟩
  unfold Item.position
  rw [known]
  rfl

variable {num : Nat} {defval : Int}

theorem Laid.paired_record (laid : Laid c pl)
    (placed : PutAt c (pl.mypacks (sendfactor it)) num kind sid defval at_) (f n : Nat)
    (k : EntryKind) :
    ((packAt ((pl.record it sid kind at_).mypacks f) n).words k).length =
      ((packAt ((pl.record it sid kind at_).mypacks f) n).ids k).length := by
  rw [mypacks_record]
  split
  · rw [placed.entered.ids, placed.entered.words, List.length_append, List.length_append, laid.paired]
    split <;> rfl
  · exact laid.paired f n k

theorem Laid.limits_record (laid : Laid c pl)
    (placed : PutAt c (pl.mypacks (sendfactor it)) num kind sid defval at_) (f n : Nat)
    (k : EntryKind) :
    ((packAt ((pl.record it sid kind at_).mypacks f) n).ids k).length ≤ c.maxData k := by
  rw [mypacks_record]
  split
  · rw [placed.entered.ids, List.length_append]
    split
    · rename_i here
      rw [here.1, here.2, ← placed.index]
      exact placed.inside
    · exact laid.limits _ n k
  · exact laid.limits f n k

theorem Laid.behind_record (laid : Laid c pl)
    (placed : PutAt c (pl.mypacks (sendfactor it)) (pl.packsNum kind (sendfactor it)) kind sid defval
      at_) (k : EntryKind) (f n : Nat) (further : (pl.record it sid kind at_).packsNum k f < n) :
    (packAt ((pl.record it sid kind at_).mypacks f) n).ids k = [] := by
  have num := placed.num
  rw [packsNum_record] at further
  rw [mypacks_record]
  split
  · rename_i group
    rw [group] at further
    rw [placed.entered.ids]
    by_cases own : k = kind
    · rw [if_pos ⟨own, rfl⟩] at further
      rw [if_neg (fun both => Nat.ne_of_gt further both.1), List.append_nil, own]
      exact laid.behind kind _ n (by omega)
    · rw [if_neg fun both => own both.1] at further
      rw [if_neg fun both => own both.2, List.append_nil]
      exact laid.behind k _ n further
  · rename_i group
    rw [if_neg fun both => group both.2] at further
    exact laid.behind k f n further

/-- The position of another sensor is taken, the new one was free. -/
theorem Laid.recorded_record (laid : Laid c pl)
    (placed : PutAt c (pl.mypacks (sendfactor it)) num kind sid defval at_)
    (known : kindOf (getIOType it.iotype) = some kind) {other : Int64} {item : Item}
    (recorded : (pl.record it sid kind at_).items other = some item) :
    item.id = other ∧ ∃ pos, item.position = some pos ∧
      (pl.record it sid kind at_).sender.idAt pos = some other.toUInt64 := by
  have ids := idAt_record placed.entered placed.index
  by_cases own : other = sid
  · subst own
    obtain ⟨mine, here, same, position⟩ : ∃ mine, (pl.record it other kind at_).items other =
        some mine ∧ mine.id = other ∧ mine.position = some _ := position_record known
    cases recorded.symm.trans here
    exact ⟨same, _, position, by rw [ids, if_pos rfl]⟩
  · have before : pl.items other = some item := (Function.update_of_ne own ..).symm.trans recorded
    obtain ⟨same, pos, position, holds⟩ := laid.recorded other item before
    refine ⟨same, pos, position, ?_⟩
    rw [ids, if_neg, holds]
    intro here
    rw [here] at holds
    have free : (((packAt (pl.mypacks (sendfactor it)) at_.num).ids kind)[at_.ind]?) = none :=
      List.getElem?_eq_none (Nat.le_of_eq placed.index.symm)
    exact absurd (holds.symm.trans free) (by simp)

theorem Laid.only_record (laid : Laid c pl)
    (placed : PutAt c (pl.mypacks (sendfactor it)) num kind sid defval at_)
    (known : kindOf (getIOType it.iotype) = some kind) (fresh : pl.items sid = none) {pos : Position}
    {x : UInt64} (holds : (pl.record it sid kind at_).sender.idAt pos = some x) :
    ∃ other item, (pl.record it sid kind at_).items other = some item ∧ item.position = some pos := by
  rw [idAt_record placed.entered placed.index] at holds
  split at holds
  · rename_i here
    obtain ⟨item, recorded, -, position⟩ := position_record known
    exact ⟨sid, item, recorded, here ▸ position⟩
  · obtain ⟨other, item, recorded, position⟩ := laid.only pos x holds
    have ne : other ≠ sid := by
      rintro rfl
      rw [fresh] at recorded
      cases recorded
    exact ⟨other, item, (Function.update_of_ne ne ..).trans recorded, position⟩

end Record

/-- **One sensor** keeps the invariant. -/
theorem Laid.step (laid : Laid c pl) (limit : ∀ kind, c.maxData kind ≤ maxCount kind)
    (roomy : ∀ kind, wanted c kind (sendfactor it) it → Roomy c pl kind (sendfactor it))
    (spec : Initialised c pl it pl') : Laid c pl' := by
  cases spec with
  | refused none => exact laid
  | placed kind found known at_ put inside fresh =>
    have mine : wanted c kind (sendfactor it) it = true := by
      unfold wanted
      rw [known]
      simpa using found
    have placed : PutAt c _ _ kind _ _ at_ := put ▸ place_spec (limit kind) (roomy kind mine)
      (laid.behind kind _ _ (Nat.lt_succ_self _))
    exact ⟨laid.paired_record placed, laid.limits_record placed, laid.behind_record placed,
      fun _ _ => laid.recorded_record placed known, fun _ _ => laid.only_record placed known fresh⟩

/-- A sensor of a kind is wanted for this kind and its send factor only. -/
theorem wanted_iff (found : sensorId c it ≠ -1) (known : kindOf (getIOType it.iotype) = some kind)
    (k : EntryKind) (f : Nat) :
    wanted c k f it = true ↔ k = kind ∧ f = sendfactor it := by
  unfold wanted
  rw [known]
  simp only [Bool.and_eq_true, bne_iff_ne, ne_eq, found, not_false_eq_true, true_and, beq_iff_eq,
    Option.some.injEq]
  exact and_congr eq_comm eq_comm

theorem not_wanted (none : accepted c it = false) (k : EntryKind) (f : Nat) : wanted c k f it = false := by
  unfold wanted
  unfold accepted at none
  cases known : kindOf (getIOType it.iotype) with
  | none => simp
  | some kind =>
    rw [known, Option.isSome_some, Bool.and_true] at none
    rw [none, Bool.false_and, Bool.false_and]

/-- **The packs after some sensors**, none of which was put beyond a limit. -/
structure Done (c : InitConf) (done : List SensorProps) (pl : Packs) : Prop where
  laid : Laid c pl
  /-- With a limit below the hard one there is one pack, with all sensors. -/
  counted : ∀ k f, c.maxData k < maxCount k → pl.packsNum k f = 0 ∧
    ((packAt (pl.mypacks f) 0).ids k).length = done.countP (wanted c k f)
  every : ∀ it ∈ done, accepted c it → ∃ item, pl.items (sensorId c it) = some item ∧
    item.iotype = getIOType it.iotype ∧ item.packSendfactor = sendfactor it
  known : ∀ sid item, pl.items sid = some item → ∃ it ∈ done, accepted c it ∧ sensorId c it = sid

theorem done_new (c : InitConf) : Done c [] (.new c) := by
  refine ⟨laid_new c, fun k f _ => ⟨rfl, ?_⟩, fun _ none => (nomatch none),
    fun _ _ none => (nomatch none)⟩
  unfold Packs.new packAt
  dsimp only
  by_cases zero : f = 0
  · rw [zero, Function.update_self]
    cases k <;> rfl
  · rw [Function.update_of_ne zero]
    cases k <;> rfl

theorem initItem_refused (none : accepted c it = false) : initItem c pl it = some (pl, false) := by
  unfold initItem
  unfold accepted at none
  dsimp only
  split
  · rfl
  · rename_i found
    have unknown : (kindOf (getIOType it.iotype)).isSome = false := by
      rwa [bne_iff_ne.mpr found, Bool.true_and] at none
    rw [Option.not_isSome_iff_eq_none.mp (Bool.eq_false_iff.mp unknown)]

/-- The next sensor, put where `place` puts it. -/
theorem Done.record (before : Done c done pl) (ok : accepted c it = true)
    (wants : ∀ k f, wanted c k f it = true ↔ k = kind ∧ f = sendfactor it) {at_ : Place}
    (placed : PutAt c (pl.mypacks (sendfactor it)) (pl.packsNum kind (sendfactor it)) kind
      (sensorId c it) (uniAtoi it.default.toList) at_) (fresh : pl.items (sensorId c it) = none)
    (laid : Laid c (pl.record it (sensorId c it) kind at_)) :
    Done c (done ++ [it]) (pl.record it (sensorId c it) kind at_) := by
  obtain ⟨entered, -, -, num⟩ := placed
  refine ⟨laid, fun k f soft => ?_, fun it' member ok' => ?_, fun sid item recorded => ?_⟩
  · obtain ⟨zero, count⟩ := before.counted k f soft
    rw [List.countP_append, List.countP_singleton, ← count]
    show Function.update pl.packsNum kind _ k f = 0 ∧
      ((packAt (Function.update pl.mypacks (sendfactor it) at_.pk f) 0).ids k).length = _
    by_cases group : f = sendfactor it
    · subst group
      rw [Function.update_self, entered.ids, List.length_append]
      by_cases own : k = kind
      · subst own
        have first : at_.num = 0 := by
          obtain same | ⟨-, hard⟩ := num
          · rw [same, zero]
          · exact absurd hard (Nat.ne_of_lt soft)
        rw [Function.update_self, Function.update_self, if_pos ⟨first.symm, rfl⟩,
          if_pos ((wants ..).mpr ⟨rfl, rfl⟩)]
        exact ⟨first, rfl⟩
      · rw [Function.update_of_ne own, if_neg fun both => own both.2,
          if_neg fun mine => own ((wants ..).mp mine).1]
        exact ⟨zero, rfl⟩
    · rw [Function.update_of_ne group, if_neg fun mine => group ((wants ..).mp mine).2]
      refine ⟨?_, rfl⟩
      by_cases own : k = kind
      · subst own
        rw [Function.update_self, Function.update_of_ne group]
        exact zero
      · rw [Function.update_of_ne own]
        exact zero
  · obtain old | last := List.mem_append.mp member
    · obtain ⟨item, recorded, shape⟩ := before.every it' old ok'
      have other : sensorId c it' ≠ sensorId c it := by
        intro same
        rw [same, fresh] at recorded
        cases recorded
      exact ⟨item, (Function.update_of_ne other ..).trans recorded, shape⟩
    · rw [List.mem_singleton.mp last]
      exact ⟨_, Function.update_self .., rfl, rfl⟩
  · by_cases own : sid = sensorId c it
    · exact ⟨it, List.mem_append_right _ (List.mem_singleton_self it), ok, own.symm⟩
    · obtain ⟨it', old, found⟩ :=
        before.known sid item ((Function.update_of_ne own ..).symm.trans recorded)
      exact ⟨it', List.mem_append_left _ old, found⟩

/-- **The next sensor**, if it is not there yet and its pack has room. -/
theorem Done.next (before : Done c done pl) (it : SensorProps)
    (limit : ∀ kind, c.maxData kind ≤ maxCount kind)
    (new : accepted c it → ∀ it' ∈ done, accepted c it' → sensorId c it' ≠ sensorId c it)
    (room : ∀ k f, wanted c k f it → done.countP (wanted c k f) < c.maxData k ∨
      c.maxData k = maxCount k) :
    ∃ pl' answer, initItem c pl it = some (pl', answer) ∧ Done c (done ++ [it]) pl' := by
  cases ok : accepted c it with
  | false =>
    refine ⟨pl, false, initItem_refused ok, before.laid, fun k f soft => ?_, fun it' member ok' => ?_,
      fun sid item recorded => ?_⟩
    · rw [List.countP_append, List.countP_singleton, not_wanted ok]
      exact before.counted k f soft
    · obtain old | last := List.mem_append.mp member
      · exact before.every it' old ok'
      · rw [List.mem_singleton.mp last, ok] at ok'
        cases ok'
    · obtain ⟨it', old, found⟩ := before.known sid item recorded
      exact ⟨it', List.mem_append_left _ old, found⟩
  | true =>
    obtain ⟨found, kind, known⟩ := kind_of_accepted ok
    have wants := wanted_iff found known
    have fresh : pl.items (sensorId c it) = none := by
      cases taken : pl.items (sensorId c it) with
      | none => rfl
      | some item =>
        obtain ⟨it', old, ok', same⟩ := before.known _ item taken
        exact absurd same (new ok it' old ok')
    have roomy : Roomy c pl kind (sendfactor it) := by
      obtain few | hard := room kind (sendfactor it) ((wants ..).mpr ⟨rfl, rfl⟩)
      · by_cases soft : c.maxData kind < maxCount kind
        · obtain ⟨zero, count⟩ := before.counted kind (sendfactor it) soft
          unfold Roomy
          rw [zero, count]
          exact .inl few
        · exact .inr (Nat.le_antisymm (limit kind) (Nat.le_of_not_lt soft))
      · exact .inr hard
    have placed : PutAt c _ _ kind (sensorId c it) (uniAtoi it.default.toList) _ :=
      place_spec (limit kind) roomy (before.laid.behind kind _ _ (Nat.lt_succ_self _))
    generalize at_eq : place c (pl.mypacks (sendfactor it)) (pl.packsNum kind (sendfactor it)) kind
      (sensorId c it) (uniAtoi it.default.toList) = at_ at placed
    have inside := Nat.lt_of_lt_of_le placed.inside (limit kind)
    refine ⟨pl.record it (sensorId c it) kind at_, true, ?_, before.record ok wants placed fresh ?_⟩
    · unfold initItem
      dsimp only
      rw [if_neg found, known]
      dsimp only
      rw [at_eq, if_neg (Nat.not_le_of_lt inside), fresh]
      rfl
    · refine before.laid.step limit (fun k mine => ?_)
        (.placed kind found known at_ at_eq.symm inside fresh)
      rw [((wants ..).mp mine).1]
      exact roomy

/-- **All sensors**, one after the other. -/
theorem Done.run (limit : ∀ kind, c.maxData kind ≤ maxCount kind) {rest : List SensorProps}
    (before : Done c done pl)
    (distinct : (((done ++ rest).filter (accepted c)).map (sensorId c)).Nodup)
    (room : ∀ k f, (done ++ rest).countP (wanted c k f) ≤ c.maxData k ∨ c.maxData k = maxCount k) :
    ∃ pl', initAll c pl rest = some pl' ∧ Done c (done ++ rest) pl' := by
  induction rest generalizing done pl with
  | nil => exact ⟨pl, rfl, by rwa [List.append_nil]⟩
  | cons it rest ih =>
    have split : done ++ it :: rest = done ++ [it] ++ rest := by
      rw [List.append_assoc, List.singleton_append]
    have new : accepted c it → ∀ it' ∈ done, accepted c it' → sensorId c it' ≠ sensorId c it := by
      intro ok it' old ok'
      rw [List.filter_append, List.map_append, List.nodup_append] at distinct
      exact distinct.2.2 _ (List.mem_map_of_mem (List.mem_filter.mpr ⟨old, ok'⟩)) _
        (List.mem_map_of_mem (List.mem_filter.mpr ⟨List.mem_cons_self, ok⟩))
    have here : ∀ k f, wanted c k f it → done.countP (wanted c k f) < c.maxData k ∨
        c.maxData k = maxCount k := by
      intro k f mine
      refine (room k f).imp_left fun few => ?_
      rw [List.countP_append, List.countP_cons_of_pos mine] at few
      omega
    obtain ⟨next, answer, ran, after⟩ := before.next it limit new here
    rw [split] at distinct room ⊢
    obtain ⟨pl', rest_ran, last⟩ := ih after distinct room
    refine ⟨pl', ?_, last⟩
    unfold initAll
    rw [ran]
    exact rest_ran

/-- A value set in a pack. -/
def UDPMessage.setWord (m : UDPMessage) (kind : EntryKind) (ind : Nat) (value : Value) : UDPMessage :=
  match kind with
  | .discrete => m.setDData ind (value != 0)
  | .analog => m.setAData ind (UInt64.ofInt value)

theorem setWord_ids (m : UDPMessage) (kind k : EntryKind) (ind : Nat) (value : Value) :
    (m.setWord kind ind value).ids k = m.ids k := by
  cases kind with
  | discrete =>
    show (m.setDData ind _).ids k = _
    unfold UDPMessage.setDData
    split <;> cases k <;> rfl
  | analog =>
    show (m.setAData ind _).ids k = _
    unfold UDPMessage.setAData
    split <;> cases k <;> rfl

theorem setWord_words (m : UDPMessage) (kind k : EntryKind) {ind : Nat} (value : Value)
    (inside : ind < (m.ids kind).length) :
    (m.setWord kind ind value).words k =
      if k = kind then (m.words k).set ind (wordOf kind value) else m.words k := by
  cases kind with
  | discrete =>
    show (m.setDData ind _).words k = _
    unfold UDPMessage.setDData
    rw [if_pos (show ind < m.data.dID.length from inside)]
    cases k with
    | discrete =>
      show (m.data.dValue.set ind (value != 0)).map _ = _
      rw [List.map_set]
      rfl
    | analog => rfl
  | analog =>
    show (m.setAData ind _).words k = _
    unfold UDPMessage.setAData
    rw [if_pos (show ind < m.data.aID.length from inside)]
    cases k <;> rfl

theorem updateItem_eq (s : Sender) {u : UItem} (known : kindOf u.iotype = some kind)
    (value : Value) : (s.updateItem u value).mypacks =
      Function.update s.mypacks (u.packSendfactor, u.packNum)
        ((s.mypacks (u.packSendfactor, u.packNum)).setWord kind u.packInd value) := by
  obtain ⟨iotype, num, ind, f⟩ := u
  cases iotype <;> cases known <;> rfl

/-- An update writes the entry of the sensor and nothing else. -/
theorem Laid.updates (laid : Laid c pl) {sid : Int64} {item : Item}
    (recorded : pl.items sid = some item) (value : Value) (pos : Position) :
    (pl.sender.updateItem item.toUItem value).idAt pos = pl.sender.idAt pos ∧
    (pl.sender.updateItem item.toUItem value).wordAt pos =
      if item.position = some pos then some (wordOf pos.kind value) else pl.sender.wordAt pos := by
  obtain ⟨-, mine, position, holds⟩ := laid.recorded sid item recorded
  unfold Item.position at position ⊢
  obtain ⟨kind, known, rfl⟩ := Option.map_eq_some_iff.mp position
  rw [position]
  have inside := (List.getElem?_eq_some_iff.mp holds).1
  unfold Sender.idAt Sender.wordAt
  rw [updateItem_eq pl.sender known value]
  by_cases pack : (pos.sendfactor, pos.num) = (item.packSendfactor, item.packNum)
  · rw [pack, Function.update_self, setWord_ids, setWord_words _ _ _ _ inside]
    refine ⟨rfl, ?_⟩
    obtain ⟨k, f, n, i⟩ := pos
    obtain ⟨rfl, rfl⟩ := Prod.mk.inj pack
    by_cases own : k = kind
    · subst own
      rw [if_pos rfl, List.getElem?_set]
      by_cases here : item.packInd = i
      · subst here
        have paired : item.packInd <
            ((packAt (pl.mypacks item.packSendfactor) item.packNum).words k).length := by
          rw [laid.paired]
          exact inside
        rw [if_pos rfl, if_pos rfl]
        exact if_pos paired
      · rw [if_neg here, if_neg]
        intro same
        cases same
        exact here rfl
    · rw [if_neg own, if_neg]
      intro same
      cases same
      exact own rfl
  · rw [Function.update_of_ne pack, if_neg]
    · exact ⟨rfl, rfl⟩
    · intro same
      cases same
      exact pack rfl

theorem toUInt64_inj {a b : Int64} (same : a.toUInt64 = b.toUInt64) : a = b := by
  cases a
  cases b
  exact congrArg _ same

/-- **The packs are lawful.** -/
theorem Done.lawful {its : List SensorProps} (all : Done c its pl) : pl.Lawful c its := by
  refine ⟨fun it member ok => ?_, fun f m member kind => ?_, fun sid item recorded => ?_⟩
  · obtain ⟨item, recorded, iotype, factor⟩ := all.every it member ok
    obtain ⟨same, pos, position, holds⟩ := all.laid.recorded _ item recorded
    refine ⟨item, recorded, same, iotype, factor, fun other => ⟨fun here => ?_, fun here => ?_⟩⟩
    · obtain ⟨sid', item', recorded', position'⟩ := all.laid.only other _ here
      obtain ⟨-, pos', position'', holds'⟩ := all.laid.recorded sid' item' recorded'
      have at_ : pos' = other := Option.some.inj (position''.symm.trans position')
      rw [at_, here] at holds'
      have one : sid' = sensorId c it := toUInt64_inj (Option.some.inj holds').symm
      rw [one, recorded] at recorded'
      rw [Option.some.inj recorded']
      exact position'
    · rw [here] at position
      rw [Option.some.inj position]
      exact holds
  · obtain ⟨n, inside, rfl⟩ := List.getElem_of_mem member
    have limits := all.laid.limits f n kind
    unfold packAt at limits
    rwa [List.getD_eq_getElem?_getD, List.getElem?_eq_getElem inside] at limits
  · exact all.laid.updates recorded

/-- An entry for the first pack, with a limit below the hard one: it has room, or ends up with more
entries than the limit. -/
theorem place_first {pk : List UDPMessage} (sid : Int64) (defval : Int)
    (soft : c.maxData kind < maxCount kind)
    (few : ((packAt pk 0).ids kind).length ≤ c.maxData kind) :
    (place c pk 0 kind sid defval).num = 0 ∧
      ((packAt (place c pk 0 kind sid defval).pk 0).ids kind).length =
        ((packAt pk 0).ids kind).length + 1 ∧
      ((packAt pk 0).ids kind).length < c.maxData kind ∨
    c.maxData kind < ((packAt (place c pk 0 kind sid defval).pk 0).ids kind).length := by
  obtain ⟨ind, entered⟩ := entered_put sid defval (Nat.lt_of_le_of_lt few soft)
  have longer : ((packAt (put pk 0 kind sid defval).1 0).ids kind).length =
      ((packAt pk 0).ids kind).length + 1 := by
    rw [entered.ids, if_pos ⟨rfl, rfl⟩, List.length_append]
    rfl
  unfold place
  dsimp only
  rw [ind]
  split
  · rename_i full
    refine .inr ?_
    have grows := (put_grows (put pk 0 kind sid defval).1 (0 + 1) kind sid defval 0 kind).1
    rw [(ids_modify ..).1]
    omega
  · rename_i room
    exact .inl ⟨rfl, longer, Nat.lt_of_not_le room⟩

/-- **The first pack of a kind and a send factor**: it has all sensors, or more than the limit. -/
def Crowded (c : InitConf) (k : EntryKind) (f : Nat) (done : List SensorProps) (pl : Packs) : Prop :=
  pl.packsNum k f = 0 ∧
    ((packAt (pl.mypacks f) 0).ids k).length = done.countP (wanted c k f) ∧
    done.countP (wanted c k f) ≤ c.maxData k ∨
  c.maxData k < ((packAt (pl.mypacks f) 0).ids k).length

theorem Crowded.step {k : EntryKind} {f : Nat} (soft : c.maxData k < maxCount k)
    (crowded : Crowded c k f done pl) (spec : Initialised c pl it pl') :
    Crowded c k f (done ++ [it]) pl' := by
  unfold Crowded at crowded ⊢
  rw [List.countP_append, List.countP_singleton]
  cases spec with
  | refused none =>
    rw [not_wanted none]
    exact crowded
  | placed kind found known at_ put inside fresh =>
    have wants := wanted_iff found known k f
    show Function.update pl.packsNum kind (Function.update (pl.packsNum kind) (sendfactor it) at_.num) k f
        = 0 ∧ ((packAt (Function.update pl.mypacks (sendfactor it) at_.pk f) 0).ids k).length = _ ∧ _ ∨
      c.maxData k < ((packAt (Function.update pl.mypacks (sendfactor it) at_.pk f) 0).ids k).length
    by_cases group : f = sendfactor it
    · subst group
      have grows := place_grows (c := c) (pl.mypacks (sendfactor it)) (pl.packsNum kind (sendfactor it))
        kind (sensorId c it) (uniAtoi it.default.toList) 0 k
      rw [← put] at grows
      rw [Function.update_self]
      obtain ⟨zero, count, few⟩ | over_ := crowded
      · by_cases own : k = kind
        · subst own
          rw [Function.update_self, Function.update_self, if_pos (wants.mpr ⟨rfl, rfl⟩)]
          rw [zero] at put
          rw [← count] at few ⊢
          rw [put]
          obtain ⟨num, longer, room⟩ | over_ := place_first (sensorId c it) (uniAtoi it.default.toList)
            soft few
          · exact .inl ⟨num, longer, room⟩
          · exact .inr over_
        · rw [Function.update_of_ne own, if_neg fun mine => own (wants.mp mine).1, grows.2 own]
          exact .inl ⟨zero, count, few⟩
      · exact .inr (Nat.lt_of_lt_of_le over_ grows.1)
    · have kept : Function.update pl.packsNum kind
          (Function.update (pl.packsNum kind) (sendfactor it) at_.num) k f = pl.packsNum k f := by
        by_cases own : k = kind
        · subst own
          rw [Function.update_self, Function.update_of_ne group]
        · rw [Function.update_of_ne own]
      rw [kept, Function.update_of_ne group, if_neg fun mine => group (wants.mp mine).2]
      exact crowded

theorem Crowded.run {k : EntryKind} {f : Nat} (soft : c.maxData k < maxCount k)
    {rest : List SensorProps} (crowded : Crowded c k f done pl)
    (ran : initAll c pl rest = some pl') : Crowded c k f (done ++ rest) pl' := by
  induction rest generalizing done pl with
  | nil =>
    cases ran
    rwa [List.append_nil]
  | cons it rest ih =>
    obtain ⟨⟨next, answer⟩, first, rest_ran⟩ := Option.bind_eq_some_iff.mp ran
    have split : done ++ it :: rest = done ++ [it] ++ rest := by
      rw [List.append_assoc, List.singleton_append]
    rw [split]
    exact ih (crowded.step soft (initItem_spec first)) rest_ran

/-- A pack beyond the limit is one of the packs. -/
theorem Packs.Lawful.not_crowded {its : List SensorProps} (lawful : pl.Lawful c its) (k : EntryKind)
    (f : Nat) : ((packAt (pl.mypacks f) 0).ids k).length ≤ c.maxData k := by
  have limits := lawful.limits f
  cases group : pl.mypacks f with
  | nil =>
    have none : ((packAt [] 0).ids k).length = 0 := by cases k <;> rfl
    rw [none]
    exact Nat.zero_le _
  | cons m rest =>
    rw [group] at limits
    exact limits m List.mem_cons_self k

end Items

/-! ### The result -/

/-- **When every sensor is placed once.** For any limits up to the hard ones and any sequence of
distinct sensors: exactly if every kind has its hard limit, or no send factor has more sensors of the
kind than the limit allows in one pack. -/
theorem placed_iff {c : InitConf} (limit : ∀ kind, c.maxData kind ≤ maxCount kind)
    {its : List SensorProps} (distinct : ((its.filter (accepted c)).map (sensorId c)).Nodup) :
    (∃ pl, initAll c (.new c) its = some pl ∧ pl.Lawful c its) ↔
      ∀ kind f, its.countP (wanted c kind f) ≤ c.maxData kind ∨ c.maxData kind = maxCount kind := by
  constructor
  · rintro ⟨pl, ran, lawful⟩ kind f
    refine or_iff_not_imp_right.mpr fun other => ?_
    have soft := Nat.lt_of_le_of_ne (limit kind) other
    have first : Crowded c kind f [] (.new c) :=
      .inl ⟨rfl, ((done_new c).counted kind f soft).2, Nat.zero_le _⟩
    obtain ⟨-, -, few⟩ | many := first.run soft ran
    · exact few
    · exact absurd (lawful.not_crowded kind f) (Nat.not_le_of_lt many)
  · intro room
    obtain ⟨pl, ran, done⟩ := (done_new c).run limit distinct room
    exact ⟨pl, ran, done.lawful⟩

/-- A discrete input with a number. -/
def input (id : String) : SensorProps := ⟨"", id, "", "DI", "", ""⟩

/-- One discrete entry a pack. -/
def single : InitConf := ⟨fun _ => 1, 3000, 100, fun _ => -1⟩

theorem placed_one : ∃ pl, initAll single (.new single) [input "1"] = some pl ∧
    pl.Lawful single [input "1"] := by
  have limit : ∀ kind, single.maxData kind ≤ maxCount kind := maxCount_pos
  exact (placed_iff limit (by decide)).mpr fun _ _ => .inl List.countP_le_length

/-- **The second sensor is in both packs**, with one entry a pack allowed. -/
theorem second_copy :
    (initAll single (.new single) [input "1", input "2"]).map
        (fun pl => (pl.mypacks 0).map fun m => m.ids .discrete) = some [[1, 2], [2]] ∧
      ¬ ∀ c its, (∀ kind, c.maxData kind ≤ maxCount kind) →
        ((its.filter (accepted c)).map (sensorId c)).Nodup →
        ∃ pl, initAll c (.new c) its = some pl ∧ pl.Lawful c its := by
  have copies : (initAll single (.new single) [input "1", input "2"]).map
      (fun pl => (pl.mypacks 0).map fun m => m.ids .discrete) = some [[1, 2], [2]] := by decide
  refine ⟨copies, fun all => ?_⟩
  obtain ⟨pl, ran, lawful⟩ := all single [input "1", input "2"] maxCount_pos (by decide)
  rw [ran] at copies
  have packs : (pl.mypacks 0).map (fun m => m.ids .discrete) = [[1, 2], [2]] := Option.some.inj copies
  have first : [1, 2] ∈ (pl.mypacks 0).map fun m => m.ids .discrete := by
    rw [packs]
    exact List.mem_cons_self
  obtain ⟨m, member, ids⟩ := List.mem_map.mp first
  have one := lawful.limits 0 m member .discrete
  rw [ids] at one
  exact absurd one (by decide)

end UniSet.UNet

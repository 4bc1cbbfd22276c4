/-
**The device identification: objects of any length, up to the end of a buffer.**

`MEIMessageRetRDI` collects objects, sends them one behind the other, each with its length in one
byte, and is decoded on the other side. The builder asks only whether there were 253 bytes before an
object was added; the receiver asks only whether there is room for the two bytes in front of an
object; the decoder reads a check sum behind the objects, also where none was sent.

* `addData`, `transportMsg` — the builder and the message it sends.
* `init` — the decoder; `none` is a read outside `ModbusMessage::data`.
* `RoundTrip`, `InBounds` — what is promised of a reply, and of every stream of bytes.
* `Roomy`, `Tame` — the streams whose objects leave enough room.
* `Filled`, `Valued` — the streams in which no object without a value is announced. The client reads the
  value of such an object too, with a read of no bytes; without `BringsNone` the line may answer it.
* **`device_identification_iff`** — a reply comes back exactly if its values fit into a byte and its
  objects into 502, and the accesses stay inside exactly for the tame streams: on a silent line, and on
  every line where no value is empty.
* `device_identification_two`, `long_values_lost` — on the serial line and over TCP.
-/

import UniSet.Modbus.FixedFrames

namespace UniSet.Modbus

/-- `RDIObjectInfo`. -/
structure RDIObjectInfo where
  id : Byte
  val : List Byte
deriving DecidableEq, Repr

/-- The bytes of an object: its length is cut to one byte. -/
def RDIObjectInfo.bytes (o : RDIObjectInfo) : List Byte := o.id :: UInt8.ofNat o.val.length :: o.val

/-- The bytes of objects, one behind the other. -/
def objectsBytes (objs : List RDIObjectInfo) : List Byte := objs.flatMap RDIObjectInfo.bytes

theorem RDIObjectInfo.bytes_length (o : RDIObjectInfo) : o.bytes.length = o.val.length + 2 := rfl

theorem RDIObjectInfo.len_toNat (o : RDIObjectInfo) (small : o.val.length ≤ 255) :
    (UInt8.ofNat o.val.length).toNat = o.val.length := by
  rw [UInt8.toNat_ofNat']
  omega

@[simp] theorem objectsBytes_nil : objectsBytes [] = [] := rfl

@[simp] theorem objectsBytes_cons (o : RDIObjectInfo) (objs : List RDIObjectInfo) :
    objectsBytes (o :: objs) = o.bytes ++ objectsBytes objs := List.flatMap_cons

/-- **`MEIMessageRetRDI`.** -/
structure MEIMessageRetRDI where
  addr : Byte
  type : Byte
  devID : Byte
  conformity : Byte
  mf : Byte
  objID : Byte
  objNum : Byte
  dlist : List RDIObjectInfo
  bcnt : Nat
deriving DecidableEq, Repr

namespace MEIMessageRetRDI

/-! ### The builder -/

/-- The constructor of a reply. -/
def start (addr devID conformity mf objID : Byte) : MEIMessageRetRDI :=
  ⟨addr, 0x0E, devID, conformity, mf, objID, 0, [], 0⟩

def isFull (r : MEIMessageRetRDI) : Bool := decide (maxPduLen ≤ r.bcnt)

/-- **`addData`.** -/
def addData (o : RDIObjectInfo) (r : MEIMessageRetRDI) : Option MEIMessageRetRDI :=
  if r.isFull then none
  else some { r with
    dlist := r.dlist ++ [o]
    objNum := UInt8.ofNat (r.dlist.length + 1)
    bcnt := r.bcnt + (o.val.length + 2) }

/-- A sequence of calls that all return true. -/
def addAll : List RDIObjectInfo → MEIMessageRetRDI → Option MEIMessageRetRDI
  | [], r => some r
  | o :: rest, r => (r.addData o).bind (addAll rest)

/-- The loop of `transport_msg_to` over the objects. -/
def putObjects : List RDIObjectInfo → List Byte → List Byte
  | [], data => data
  | o :: rest, data =>
    if data.length ≤ maxLenPacket then putObjects rest (data ++ o.bytes) else data

/-- The six bytes in front of the objects. -/
def head (r : MEIMessageRetRDI) : List Byte :=
  [r.type, r.devID, r.conformity, r.mf, r.objID, r.objNum]

/-- **`transport_msg`.** -/
def transportMsg (r : MEIMessageRetRDI) : Message :=
  .withCRC r.addr 0x2B (putObjects r.dlist r.head)

/-! ### The decoder -/

/-- `data[i]`: there are 510 of them. -/
def at? (m : Message) (i : Nat) : Option Byte :=
  if i < ModbusClient.szMessageData then some (m.byteAt i) else none

/-- `n` bytes from `data[i]` on. -/
def read? (m : Message) (i n : Nat) : Option (List Byte) :=
  if n = 0 ∨ i + n ≤ ModbusClient.szMessageData then some ((List.range n).map fun k => m.byteAt (i + k))
  else none

/-- The loop of `init`, with at most `n` objects left: the objects, and the place behind them. -/
def initObjects (m : Message) :
    Nat → Nat → List RDIObjectInfo → Option (Except MbErrCode (List RDIObjectInfo × Nat))
  | 0, i, dlist => some (.ok (dlist, i))
  | n + 1, i, dlist =>
    if i < m.data.length then
      match at? m i, at? m (i + 1) with
      | some id, some dlen =>
        if m.data.length < i + 1 + dlen.toNat then some (.error .erInvalidFormat)
        else
          match read? m (i + 2) dlen.toNat with
          | some val => initObjects m n (i + (dlen.toNat + 2)) (dlist ++ [⟨id, val⟩])
          | none => none
      | _, _ => none
    else some (.ok (dlist, i))

/-- The end of `init`: the check sum, which nobody looks at. -/
def initEnd (m : Message) :
    Option (Except MbErrCode (List RDIObjectInfo × Nat)) → Option (Except MbErrCode MEIMessageRetRDI)
  | none => none
  | some (.error err) => some (.error err)
  | some (.ok (dlist, i)) =>
    (read? m i szCRC).map fun _ => .ok
      ⟨m.addr, m.byteAt 0, m.byteAt 1, m.byteAt 2, m.byteAt 3, m.byteAt 4, m.byteAt 5, dlist,
        (objectsBytes dlist).length⟩

/-- **`init`.** -/
def init (m : Message) : Option (Except MbErrCode MEIMessageRetRDI) :=
  if m.byteAt 0 ≠ 0x0E then some (.error .erInvalidFormat)
  else if m.data.length < 6 then some (.error .erInvalidFormat)
  else if 0 < (m.byteAt 5).toNat ∧ m.data.length < 7 then some (.error .erInvalidFormat)
  else initEnd m (initObjects m (m.byteAt 5).toNat 6 [])

/-! ### What the builder makes -/

/-- **What a sequence of successful calls adds.** -/
structure Grown (r : MEIMessageRetRDI) (objs : List RDIObjectInfo) (r' : MEIMessageRetRDI) : Prop where
  same : r' = { r with
    dlist := r.dlist ++ objs
    objNum := r'.objNum
    bcnt := r.bcnt + (objectsBytes objs).length }
  put : ∀ data, data.length ≤ 6 + r.bcnt → putObjects objs data = data ++ objectsBytes objs
  starts : objs = [] ∨ r.bcnt + (objectsBytes objs.dropLast).length < maxPduLen

variable {objs : List RDIObjectInfo} {r : MEIMessageRetRDI} {m : Message} {o : RDIObjectInfo}
  {n : Nat}

theorem addAll_grown {r' : MEIMessageRetRDI} (added : addAll objs r = some r') :
    Grown r objs r' := by
  induction objs generalizing r with
  | nil =>
    cases added
    refine ⟨?_, fun data _ => (List.append_nil data).symm, .inl rfl⟩
    simp
  | cons o rest ih =>
    rw [addAll, addData] at added
    by_cases full : r.isFull = true
    · rw [if_pos full] at added
      cases added
    · rw [if_neg full, Option.bind_some] at added
      have room : r.bcnt < maxPduLen := by
        rw [isFull, decide_eq_true_eq, Nat.not_le] at full
        exact full
      have grown := ih added
      have length : o.bytes.length = o.val.length + 2 := o.bytes_length
      refine ⟨?_, fun data short => ?_, .inr ?_⟩
      · rw [grown.same]
        simp only [objectsBytes_cons, List.append_assoc, List.cons_append, List.nil_append,
          List.length_append, length, Nat.add_assoc]
      · have small : maxPduLen = 253 := rfl
        have early : data.length ≤ maxLenPacket := by
          show data.length ≤ 508
          omega
        rw [putObjects, if_pos early, grown.put _ (by
          rw [List.length_append, length]
          dsimp only
          omega), objectsBytes_cons, List.append_assoc]
      · cases rest with
        | nil => exact room
        | cons o' rest =>
          rcases grown.starts with none | later
          · cases none
          · have split : (o :: o' :: rest).dropLast = o :: (o' :: rest).dropLast := rfl
            rw [split, objectsBytes_cons, List.length_append, length]
            dsimp only at later
            omega

/-- Every object takes two bytes, and 253 of them end the list. -/
theorem addAll_count {r' : MEIMessageRetRDI} (added : addAll objs r = some r')
    (counted : 2 * r.dlist.length ≤ r.bcnt) (few : r.dlist.length ≤ 127)
    (number : r.objNum = UInt8.ofNat r.dlist.length) :
    r'.dlist.length ≤ 127 ∧ r'.objNum = UInt8.ofNat r'.dlist.length := by
  induction objs generalizing r with
  | nil =>
    cases added
    exact ⟨few, number⟩
  | cons o rest ih =>
    rw [addAll, addData] at added
    by_cases full : r.isFull = true
    · rw [if_pos full] at added
      cases added
    · rw [if_neg full, Option.bind_some] at added
      have room : r.bcnt < 253 := by
        rw [isFull, decide_eq_true_eq, Nat.not_le] at full
        exact full
      have one : (r.dlist ++ [o]).length = r.dlist.length + 1 := List.length_append
      exact ih added (by dsimp only; omega) (by dsimp only; omega) (by dsimp only; rw [one])

/-- **The message of a reply that was built.** -/
theorem start_addAll {addr devID conformity mf objID : Byte}
    (added : addAll objs (start addr devID conformity mf objID) = some r) :
    r.objNum.toNat = objs.length ∧ transportMsg r = .withCRC addr 0x2B
        ([0x0E, devID, conformity, mf, objID, r.objNum] ++ objectsBytes objs) ∧
      (objs = [] ∨ (objectsBytes objs.dropLast).length < maxPduLen) := by
  have grown := addAll_grown added
  have same : r = ⟨addr, 0x0E, devID, conformity, mf, objID, r.objNum, objs,
      0 + (objectsBytes objs).length⟩ := grown.same
  obtain ⟨few, number⟩ := addAll_count added (Nat.zero_le _) (Nat.zero_le _) rfl
  have dlist : r.dlist = objs := by
    rw [same]
  rw [dlist] at few number
  refine ⟨?_, ?_, ?_⟩
  · rw [number, UInt8.toNat_ofNat']
    omega
  · have put := grown.put r.head (by exact Nat.le_refl 6)
    rw [transportMsg, dlist, put, head]
    rw [same]
  · rcases grown.starts with none | later
    · exact .inl none
    · refine .inr ?_
      rw [start, Nat.zero_add] at later
      exact later

/-! ### What the decoder reads -/

theorem at?_inside {i : Nat} (inside : i < ModbusClient.szMessageData) :
    at? m i = some (m.byteAt i) := if_pos inside

theorem read?_part (addr func : Byte) (before part after : List Byte)
    (inside : before.length + part.length ≤ ModbusClient.szMessageData) :
    read? ⟨addr, func, before ++ (part ++ after)⟩ before.length part.length = some part := by
  rw [read?, if_pos (.inr inside)]
  refine congrArg some (List.ext_getElem (by simp) fun k left right => ?_)
  rw [List.getElem_map, List.getElem_range, Message.byteAt_behind]
  rw [List.getD_eq_getElem?_getD, List.getElem?_append_left right, List.getElem?_eq_getElem right]
  rfl

/-- **One object is read**, and the loop goes on behind it. -/
theorem initObjects_object (addr func : Byte) (before after : List Byte)
    (small : o.val.length ≤ 255)
    (inside : before.length + o.bytes.length ≤ ModbusClient.szMessageData) (n : Nat)
    (dlist : List RDIObjectInfo) :
    initObjects ⟨addr, func, before ++ (o.bytes ++ after)⟩ (n + 1) before.length dlist =
      initObjects ⟨addr, func, before ++ (o.bytes ++ after)⟩ n (before.length + o.bytes.length)
        (dlist ++ [o]) := by
  have size : o.bytes.length = o.val.length + 2 := o.bytes_length
  have total : (before ++ (o.bytes ++ after)).length =
      before.length + (o.val.length + 2 + after.length) := by
    rw [List.length_append, List.length_append, size]
  have id : (Message.mk addr func (before ++ (o.bytes ++ after))).byteAt before.length = o.id :=
    Message.byteAt_behind addr func before (o.bytes ++ after) 0
  have dlen : (Message.mk addr func (before ++ (o.bytes ++ after))).byteAt (before.length + 1) =
      UInt8.ofNat o.val.length := Message.byteAt_behind addr func before (o.bytes ++ after) 1
  have exactly := o.len_toNat small
  have regroup : before ++ (o.bytes ++ after) =
      (before ++ [o.id, UInt8.ofNat o.val.length]) ++ (o.val ++ after) := by
    simp only [RDIObjectInfo.bytes, List.append_assoc, List.cons_append, List.nil_append]
  have two : (before ++ [o.id, UInt8.ofNat o.val.length]).length = before.length + 2 :=
    List.length_append
  have val : read? ⟨addr, func, before ++ (o.bytes ++ after)⟩ (before.length + 2) o.val.length =
      some o.val := by
    rw [regroup, ← two]
    exact read?_part addr func _ _ _ (by rw [two]; omega)
  rw [initObjects, if_pos (by dsimp only; omega), at?_inside (by omega), at?_inside (by omega), id,
    dlen]
  dsimp only
  rw [exactly, if_neg (by omega), val, size]

/-- **Objects are read one after the other.** -/
theorem initObjects_objects (addr func : Byte) (before after : List Byte)
    (small : ∀ o ∈ objs, o.val.length ≤ 255)
    (inside : before.length + (objectsBytes objs).length ≤ ModbusClient.szMessageData) (n : Nat)
    (dlist : List RDIObjectInfo) :
    initObjects ⟨addr, func, before ++ (objectsBytes objs ++ after)⟩ (objs.length + n) before.length
        dlist =
      initObjects ⟨addr, func, before ++ (objectsBytes objs ++ after)⟩ n
        (before.length + (objectsBytes objs).length) (dlist ++ objs) := by
  induction objs generalizing before dlist with
  | nil =>
    rw [objectsBytes_nil, List.append_nil, List.length_nil, Nat.zero_add]
    rfl
  | cons o rest ih =>
    obtain ⟨first, others⟩ := List.forall_mem_cons.mp small
    rw [objectsBytes_cons, List.length_append] at inside
    have object := initObjects_object addr func before (objectsBytes rest ++ after) first
      (by omega) (rest.length + n) dlist
    have behind : (before ++ o.bytes).length = before.length + o.bytes.length := List.length_append
    have later := ih (before ++ o.bytes) others (by rw [behind]; omega) (dlist ++ [o])
    rw [behind, List.append_assoc, List.append_assoc, List.cons_append, List.nil_append] at later
    rw [objectsBytes_cons, List.append_assoc, List.length_cons, Nat.add_right_comm, object, later,
      List.length_append, Nat.add_assoc]

/-- What stands in front of the objects of a reply that is not refused. -/
structure Front where
  devID : Byte
  conformity : Byte
  mf : Byte
  objID : Byte
  objNum : Byte

/-- Its six bytes. -/
def Front.bytes (f : Front) : List Byte := [0x0E, f.devID, f.conformity, f.mf, f.objID, f.objNum]

/-- **`init` behind some complete objects.** -/
theorem init_objects (addr : Byte) (f : Front) (after : List Byte)
    (small : ∀ o ∈ objs, o.val.length ≤ 255)
    (inside : 6 + (objectsBytes objs).length ≤ ModbusClient.szMessageData)
    (number : f.objNum.toNat = objs.length + n)
    (begun : 0 < n → 0 < (objectsBytes objs ++ after).length) :
    init ⟨addr, 0x2B, f.bytes ++ (objectsBytes objs ++ after)⟩ =
      initEnd ⟨addr, 0x2B, f.bytes ++ (objectsBytes objs ++ after)⟩
        (initObjects ⟨addr, 0x2B, f.bytes ++ (objectsBytes objs ++ after)⟩
          n (6 + (objectsBytes objs).length) objs) := by
  have total : (f.bytes ++ (objectsBytes objs ++ after)).length =
      6 + (objectsBytes objs ++ after).length := List.length_append
  have some : ¬ (0 < f.objNum.toNat ∧ (f.bytes ++ (objectsBytes objs ++ after)).length < 7) := by
    rintro ⟨announced, short⟩
    cases objs with
    | nil =>
      have := begun (by rw [number] at announced; simpa using announced)
      omega
    | cons o rest =>
      have two : 2 ≤ (objectsBytes (o :: rest) ++ after).length := by
        rw [objectsBytes_cons, List.length_append, List.length_append, o.bytes_length]
        omega
      omega
  have walked := initObjects_objects addr 0x2B f.bytes after small inside n []
  rw [init]
  have type : (Message.mk addr 0x2B (f.bytes ++
    (objectsBytes objs ++ after))).byteAt 0 = 0x0E := rfl
  have count : (Message.mk addr 0x2B (f.bytes ++
    (objectsBytes objs ++ after))).byteAt 5 = f.objNum := rfl
  rw [if_neg (not_not.mpr type), if_neg (by dsimp only; omega), count, if_neg some, number]
  exact congrArg (initEnd _) walked

/-- Whatever is decoded has the lengths of its bytes. -/
theorem initObjects_small {i : Nat} {dlist : List RDIObjectInfo} {j : Nat}
    (before : ∀ o ∈ dlist, o.val.length ≤ 255)
    (decoded : initObjects m n i dlist = some (.ok (objs, j))) :
    ∀ o ∈ objs, o.val.length ≤ 255 := by
  induction n generalizing i dlist with
  | zero =>
    cases decoded
    exact before
  | succ n ih =>
    rw [initObjects] at decoded
    split at decoded
    · split at decoded
      · rename_i id dlen _ _
        split at decoded
        · cases decoded
        · split at decoded
          · rename_i val read
            refine ih (fun o member => ?_) decoded
            rcases List.mem_append.mp member with old | new
            · exact before o old
            · rw [List.mem_singleton.mp new]
              rw [read?] at read
              split at read
              · cases read
                show ((List.range dlen.toNat).map _).length ≤ 255
                rw [List.length_map, List.length_range]
                exact Nat.le_of_lt_succ dlen.toNat_lt
              · cases read
          · cases decoded
      · cases decoded
    · cases decoded
      exact before

theorem init_small (decoded : init m = some (.ok r)) : ∀ o ∈ r.dlist, o.val.length ≤ 255 := by
  rw [init] at decoded
  split at decoded
  · cases decoded
  · split at decoded
    · cases decoded
    · split at decoded
      · cases decoded
      · cases walked : initObjects m (m.byteAt 5).toNat 6 [] with
        | none =>
          rw [walked] at decoded
          cases decoded
        | some out =>
          rw [walked] at decoded
          cases out with
          | error err => cases decoded
          | ok end' =>
            obtain ⟨objs, i⟩ := end'
            rw [initEnd, Option.map_eq_some_iff] at decoded
            obtain ⟨crc, -, same⟩ := decoded
            cases same
            exact initObjects_small (fun o member => absurd member List.not_mem_nil) walked

/-! ### What the client receives -/

open ModbusClient

section Objects

variable {C : Type} {line : Line C} {stream : C → List Byte} {I : C → Prop} {whole : Bool}

variable {more : List Byte} {c : C} {len : Byte}

theorem recvObjects_begin (delivers : Delivers line.getNextData stream I) (inv : I c) (m : Message)
    {id : Byte} (bytes : stream c = id :: len :: more) (room : m.data.length + 2 < szMessageData)
    (n : Nat) (next : Message → C → Received C) :
    ∃ c', stream c' = more ∧ I c' ∧ recvObjects line (n + 1) m c next =
      receive line len.toNat { m with data := m.data ++ [id, len] } c' fun m' c =>
        recvObjects line n { m' with data := m'.data.take (m.data.length + 2 + len.toNat) } c next := by
  have two : 2 ≤ (stream c).length := by
    rw [bytes]
    exact Nat.succ_le_succ (Nat.succ_le_succ (Nat.zero_le _))
  obtain ⟨c', received, left, inv'⟩ := receive_all delivers inv (by decide : 0 < 2) two m
    (Nat.le_of_lt room) fun m c =>
      receive line (m.byteAt (m.data.length - 1)).toNat m c fun m' c => recvObjects line n
        { m' with data := m'.data.take (m.data.length + (m.byteAt (m.data.length - 1)).toNat) } c next
  rw [bytes] at received left
  have length : (m.data ++ [id, len]).length = m.data.length + 2 := List.length_append
  have last : (Message.mk m.addr m.func (m.data ++ [id, len])).byteAt
      ((m.data ++ [id, len]).length - 1) = len := by
    rw [length]
    exact Message.byteAt_behind m.addr m.func m.data [id, len] 1
  refine ⟨c', left, inv', ?_⟩
  rw [recvObjects, if_pos room]
  dsimp only
  refine received.trans ?_
  dsimp only [List.take]
  rw [last, length]

/-- **An object that arrives completely.** -/
theorem recvObjects_object (delivers : Delivers line.getNextData stream I) (inv : I c) (m : Message)
    (small : o.val.length ≤ 255) (quiet : BringsNone line.getNextData stream I ∨ o.val ≠ [])
    (bytes : stream c = o.bytes ++ more) (begun : m.data.length + 2 < szMessageData)
    (room : m.data.length + o.bytes.length ≤ szMessageData) (n : Nat)
    (next : Message → C → Received C) :
    ∃ c', recvObjects line (n + 1) m c next =
        recvObjects line n { m with data := m.data ++ o.bytes } c' next ∧
      stream c' = more ∧ I c' := by
  have exactly := o.len_toNat small
  obtain ⟨c₁, left, inv₁, received⟩ := recvObjects_begin delivers inv m bytes begun n next
  rw [exactly] at received
  have length : (m.data ++ [o.id, UInt8.ofNat o.val.length]).length = m.data.length + 2 :=
    List.length_append
  have all : (m.data ++ [o.id, UInt8.ofNat o.val.length]) ++ o.val = m.data ++ o.bytes := by
    simp only [RDIObjectInfo.bytes, List.append_assoc, List.cons_append, List.nil_append]
  have total : (m.data ++ o.bytes).length = m.data.length + 2 + o.val.length := by
    rw [← all, List.length_append, length]
  rw [o.bytes_length] at room
  have left : stream c₁ = o.val ++ more := left
  have enough : o.val.length ≤ (stream c₁).length := by
    rw [left]
    exact (List.sublist_append_left o.val more).length_le
  have read : BringsNone line.getNextData stream I ∨ o.val.length ≠ 0 :=
    quiet.imp_right fun some none => some (List.length_eq_zero_iff.mp none)
  obtain ⟨c₂, value, after, inv₂⟩ := receive_exact delivers inv₁ read enough
    (m := { m with data := m.data ++ [o.id, UInt8.ofNat o.val.length] })
    (by dsimp only; omega) fun m' c => recvObjects line n
      { m' with data := m'.data.take (m.data.length + 2 + o.val.length) } c next
  rw [left, List.take_left] at value
  rw [left, List.drop_left] at after
  refine ⟨c₂, ?_, after, inv₂⟩
  rw [received, value]
  dsimp only
  rw [all, ← total, List.take_length]

/-! ### Inside the buffer -/

/-- **No access outside the buffer**: neither while a reply is received, nor while it is decoded. -/
def Inside : Received C → Prop
  | none => False
  | some ((code, m), _) => code = MbErrCode.erNoError.toNat → init m ≠ none

/-- How many bytes a read of `n` of them hands over. -/
def taken (whole : Bool) (n : Nat) (bytes : List Byte) : Nat :=
  if n ≤ bytes.length then n else (cut whole bytes).length

theorem taken_short {bytes : List Byte} (short : bytes.length < n) :
    taken whole n bytes = (cut whole bytes).length := if_neg (Nat.not_le.mpr short)

/-- **What must hold where the objects end**, with `left` objects still announced. Without a check
sum the decoder reads two bytes more; with one, the client does, and a decoder that expects more
objects takes these two bytes for the next. -/
def EndInside (whole crcNoCheckit : Bool) (addr : Byte) (left : Nat) (data rest : List Byte) : Prop :=
  if crcNoCheckit then data.length + szCRC ≤ szMessageData
  else data.length + taken whole szCRC rest ≤ szMessageData ∧
    ∀ b₀ b₁ more, rest = b₀ :: b₁ :: more → 0 < left →
      (Message.mk addr 0x2B (data ++ [b₀, b₁])).pduCRC
          ((Message.mk addr 0x2B (data ++ [b₀, b₁])).pduLen - szCRC) =
        (Message.mk addr 0x2B (data ++ [b₀, b₁])).getCrc →
      1 < b₁.toNat

/-- **The objects leave enough room**: behind any objects that the client takes, the next one that
begins ends inside the buffer, as far as it arrives, and so does what follows the last. -/
def Roomy (whole crcNoCheckit : Bool) (addr : Byte) (n : Nat) (data bytes : List Byte) : Prop :=
  ∀ objs rest, bytes = objectsBytes objs ++ rest → (∀ o ∈ objs, o.val.length ≤ 255) →
    objs.length ≤ n →
    (objs = [] ∨ data.length + (objectsBytes objs.dropLast).length + 2 < szMessageData) →
    (objs.length < n → data.length + (objectsBytes objs).length + 2 < szMessageData →
      ∀ id len more, rest = id :: len :: more →
        data.length + (objectsBytes objs).length + 2 + taken whole len.toNat more ≤ szMessageData) ∧
    (objs.length = n ∨ szMessageData ≤ data.length + (objectsBytes objs).length + 2 →
      EndInside whole crcNoCheckit addr (n - objs.length) (data ++ objectsBytes objs) rest)

theorem exists_cons {bytes : List Byte} (enough : n < bytes.length) :
    ∃ b more, bytes = b :: more ∧ n ≤ more.length := by
  cases bytes with
  | nil => exact absurd enough (Nat.not_lt_zero n)
  | cons b more => exact ⟨b, more, rfl, Nat.le_of_lt_succ enough⟩

theorem exists_two {bytes : List Byte} (two : 2 ≤ bytes.length) :
    ∃ b₀ b₁ more, bytes = b₀ :: b₁ :: more := by
  obtain ⟨b₀, rest, same, one⟩ := exists_cons two
  obtain ⟨b₁, more, same', -⟩ := exists_cons one
  exact ⟨b₀, b₁, more, by rw [same, same']⟩

theorem exists_six {bytes : List Byte} (six : 6 ≤ bytes.length) :
    ∃ b₀ b₁ b₂ b₃ b₄ b₅ more, bytes = b₀ :: b₁ :: b₂ :: b₃ :: b₄ :: b₅ :: more := by
  obtain ⟨b₀, rest, same, five⟩ := exists_cons six
  obtain ⟨b₁, rest', same', four⟩ := exists_cons five
  obtain ⟨b₂, b₃, others, split⟩ := exists_two (Nat.le_of_succ_le (Nat.le_of_succ_le four))
  rw [split] at four
  obtain ⟨b₄, b₅, more, split'⟩ := exists_two (Nat.le_of_succ_le_succ (Nat.le_of_succ_le_succ four))
  exact ⟨b₀, b₁, b₂, b₃, b₄, b₅, more, by rw [same, same', split, split']⟩

theorem inside_error {e : MbErrCode} (failed : e ≠ .erNoError) (m : Message) (c : C) :
    Inside (done e m c) := by
  intro none
  cases e <;> first | exact absurd rfl failed | cases none

theorem inside_short (obeys : Obeys whole line.getNextData stream I) (inv : I c) (pos : 0 < n)
    (short : (stream c).length < n) (within : m.data.length ≤ szMessageData)
    (next : Message → C → Received C) :
    Inside (receive line n m c next) ↔ m.data.length + (cut whole (stream c)).length ≤ szMessageData := by
  rcases receive_short obeys inv pos short within next with
    ⟨outside, received⟩ | ⟨fits, e, m', c', failed, received⟩
  · rw [received]
    exact iff_of_false id (Nat.not_le.mpr outside)
  · rw [received]
    exact iff_of_true (inside_error failed m' c') fits

/-- Two bytes are read behind the last object. -/
theorem read?_end (m : Message) (i : Nat) :
    read? m i szCRC ≠ none ↔ i + szCRC ≤ szMessageData := by
  have some : ¬ szCRC = 0 := by decide
  rw [read?]
  by_cases fits : i + szCRC ≤ szMessageData
  · rw [if_pos (.inr fits)]
    exact iff_of_true (Option.some_ne_none _) fits
  · have not : ¬ (szCRC = 0 ∨ i + szCRC ≤ szMessageData) := fun either => either.elim some fits
    rw [if_neg not]
    exact iff_of_false (fun inside => inside rfl) fits

/-- The loop stops at the end of the data, or with the last object. -/
theorem initObjects_end {i : Nat} (ended : n = 0 ∨ m.data.length ≤ i) (dlist : List RDIObjectInfo) :
    initObjects m n i dlist = some (.ok (dlist, i)) := by
  cases n with
  | zero => rfl
  | succ n =>
    rcases ended with none | beyond
    · cases none
    · rw [initObjects, if_neg (Nat.not_lt.mpr beyond)]

theorem initEnd_ok (m : Message) (dlist : List RDIObjectInfo) (i : Nat) :
    initEnd m (some (.ok (dlist, i))) ≠ none ↔ i + szCRC ≤ szMessageData := by
  rw [initEnd, ne_eq, Option.map_eq_none_iff]
  exact read?_end m i

/-- **A decoder that takes the check sum for an object**: it stays inside only if the length is
refused. -/
theorem initEnd_crc {i : Nat} (full : m.data.length = szMessageData) (last : i + 2 = szMessageData)
    (n : Nat) (dlist : List RDIObjectInfo) :
    initEnd m (initObjects m (n + 1) i dlist) ≠ none ↔ 1 < (m.byteAt (i + 1)).toNat := by
  rw [initObjects, if_pos (by omega), at?_inside (by omega), at?_inside (by omega)]
  dsimp only
  by_cases large : 1 < (m.byteAt (i + 1)).toNat
  · rw [if_pos (by omega)]
    exact iff_of_true (Option.some_ne_none _) large
  · rw [if_neg (by omega)]
    refine iff_of_false (fun inside => inside ?_) large
    by_cases zero : (m.byteAt (i + 1)).toNat = 0
    · have nothing : read? m (i + 2) 0 = some [] := if_pos (.inl rfl)
      rw [zero, nothing]
      dsimp only
      rw [initObjects_end (.inr (by omega))]
      by_contra inside
      have := (initEnd_ok m _ _).mp inside
      rw [last] at this
      exact absurd this (by decide)
    · have one : (m.byteAt (i + 1)).toNat = 1 := by omega
      have outside : read? m (i + 2) 1 = none := if_neg (by omega)
      rw [one, outside]
      rfl

variable {addr : Byte} {f : Front} {objs : List RDIObjectInfo}

theorem front_length (f : Front) (objs : List RDIObjectInfo) :
    (f.bytes ++ objectsBytes objs).length = 6 + (objectsBytes objs).length := List.length_append

/-- The end of the objects where no check sum is sent. -/
theorem init_unchecked (addr : Byte) (small : ∀ o ∈ objs, o.val.length ≤ 255)
    (number : f.objNum.toNat = objs.length + n)
    (within : 6 + (objectsBytes objs).length ≤ szMessageData)
    (ended : n = 0 ∨ szMessageData ≤ 6 + (objectsBytes objs).length + 2) :
    init ⟨addr, 0x2B, f.bytes ++ objectsBytes objs⟩ ≠ none ↔
      6 + (objectsBytes objs).length + szCRC ≤ szMessageData := by
  have length := front_length f objs
  have large : szMessageData = 510 := rfl
  have walked := init_objects addr f [] small within number
    (fun pos => by rw [List.append_nil]; omega)
  rw [List.append_nil] at walked
  rw [walked, initObjects_end (.inr (Nat.le_of_eq length))]
  exact initEnd_ok _ _ _

/-- The end of the objects with a check sum behind them. -/
theorem init_checked (addr : Byte) (small : ∀ o ∈ objs, o.val.length ≤ 255)
    (number : f.objNum.toNat = objs.length + n)
    (room : 6 + (objectsBytes objs).length + szCRC ≤ szMessageData)
    (ended : n = 0 ∨ szMessageData ≤ 6 + (objectsBytes objs).length + 2) (b₀ b₁ : Byte) :
    init ⟨addr, 0x2B, f.bytes ++ objectsBytes objs ++ [b₀, b₁]⟩ ≠
      none ↔ (0 < n → 1 < b₁.toNat) := by
  have length := front_length f objs
  have within : 6 + (objectsBytes objs).length ≤ szMessageData := Nat.le_of_add_right_le room
  have walked := init_objects addr f [b₀, b₁] small within number
    (fun _ => by rw [List.length_append]; exact Nat.succ_pos _)
  rw [List.append_assoc, walked]
  cases n with
  | zero =>
    rw [initObjects_end (.inl rfl), initEnd_ok]
    exact iff_of_true room fun pos => absurd pos (Nat.lt_irrefl 0)
  | succ n =>
    have last : 6 + (objectsBytes objs).length + 2 = szMessageData := by
      rcases ended with none | full
      · cases none
      · exact Nat.le_antisymm room full
    have full : (f.bytes ++ (objectsBytes objs ++ [b₀, b₁])).length = szMessageData := by
      rw [← last, ← List.append_assoc, List.length_append, length]
      rfl
    have byte : (Message.mk addr 0x2B (f.bytes ++
        (objectsBytes objs ++ [b₀, b₁]))).byteAt (6 + (objectsBytes objs).length + 1) = b₁ := by
      rw [← List.append_assoc, ← length]
      exact Message.byteAt_behind _ _ _ _ 1
    rw [initEnd_crc full last, byte]
    exact ⟨fun large _ => large, fun large => large (Nat.succ_pos n)⟩

theorem inside_checkCrc (addr : Byte) (small : ∀ o ∈ objs, o.val.length ≤ 255)
    (number : f.objNum.toNat = objs.length + n)
    (room : 6 + (objectsBytes objs).length + szCRC ≤ szMessageData)
    (ended : n = 0 ∨ szMessageData ≤ 6 + (objectsBytes objs).length + 2) (b₀ b₁ : Byte) (c : C) :
    Inside (checkCrc false ⟨addr, 0x2B, f.bytes ++ objectsBytes objs ++ [b₀, b₁]⟩ c) ↔ (0 < n →
        (Message.mk addr 0x2B (f.bytes ++ objectsBytes objs ++ [b₀, b₁])).pduCRC
          ((Message.mk addr 0x2B (f.bytes ++ objectsBytes objs ++ [b₀, b₁])).pduLen - szCRC) =
          (Message.mk addr 0x2B (f.bytes ++ objectsBytes objs ++ [b₀, b₁])).getCrc →
        1 < b₁.toNat) := by
  have decoded := init_checked addr small number room ended b₀ b₁
  rw [checkCrc]
  by_cases right : (Message.mk addr 0x2B (f.bytes ++ objectsBytes objs ++ [b₀, b₁])).pduCRC
      ((Message.mk addr 0x2B (f.bytes ++ objectsBytes objs ++ [b₀, b₁])).pduLen - szCRC) =
      (Message.mk addr 0x2B (f.bytes ++ objectsBytes objs ++ [b₀, b₁])).getCrc
  · rw [if_neg fun wrong => wrong.2 right]
    refine Iff.trans ⟨fun inside => inside rfl, fun inside _ => inside⟩ (decoded.trans ?_)
    exact forall_congr' fun _ => ⟨fun large _ => large, fun large => large right⟩
  · rw [if_pos ⟨rfl, right⟩]
    exact iff_of_true (inside_error (by decide) _ _) fun _ right' => absurd right' right

/-- **The end of the objects.** -/
theorem inside_end (obeys : Obeys whole line.getNextData stream I) (crcNoCheckit : Bool) (inv : I c)
    (small : ∀ o ∈ objs, o.val.length ≤ 255) (number : f.objNum.toNat = objs.length + n)
    (within : 6 + (objectsBytes objs).length ≤ szMessageData)
    (ended : n = 0 ∨ szMessageData ≤ 6 + (objectsBytes objs).length + 2) :
    Inside (if crcNoCheckit then done .erNoError ⟨addr, 0x2B, f.bytes ++ objectsBytes objs⟩ c
      else receive line szCRC ⟨addr, 0x2B, f.bytes ++ objectsBytes objs⟩ c
        (checkCrc crcNoCheckit)) ↔
      EndInside whole crcNoCheckit addr n (f.bytes ++ objectsBytes objs) (stream c) := by
  have length := front_length f objs
  cases crcNoCheckit with
  | true =>
    rw [EndInside, if_pos rfl, length,
      ← init_unchecked addr small number within ended]
    exact ⟨fun inside => inside rfl, fun inside _ => inside⟩
  | false =>
    rw [EndInside, if_neg Bool.false_ne_true, if_neg Bool.false_ne_true, length]
    by_cases enough : szCRC ≤ (stream c).length
    · obtain ⟨b₀, b₁, more, bytes⟩ := exists_two enough
      have both : taken whole szCRC (stream c) = 2 := if_pos enough
      by_cases room : 6 + (objectsBytes objs).length + szCRC ≤ szMessageData
      · obtain ⟨c', received, -, -⟩ := receive_all obeys.toDelivers inv (by decide) enough
          ⟨addr, 0x2B, f.bytes ++ objectsBytes objs⟩
          (by rw [length]; exact room) (checkCrc false)
        have taken : (stream c).take szCRC = [b₀, b₁] := by
          rw [bytes]
          rfl
        rw [received, taken, inside_checkCrc addr small number room ended, both]
        constructor
        · intro inside
          refine ⟨room, fun c₀ c₁ more' same announced right => ?_⟩
          rw [bytes] at same
          cases same
          exact inside announced right
        · exact fun inside => inside.2 b₀ b₁ more bytes
      · have outside := receive_outside obeys.toDelivers inv (by decide) enough
          (m := ⟨addr, 0x2B, f.bytes ++ objectsBytes objs⟩)
          (by rw [length]; exact Nat.not_le.mp room) (checkCrc false)
        rw [outside, both]
        exact iff_of_false id fun inside => room inside.1
    · have less := Nat.not_le.mp enough
      have short := inside_short obeys inv (by decide) less
        (m := ⟨addr, 0x2B, f.bytes ++ objectsBytes objs⟩)
        (by rw [length]; exact within) (checkCrc false)
      rw [short, length, taken_short less]
      refine ⟨fun fits => ⟨fits, fun b₀ b₁ more two => ?_⟩, fun inside => inside.1⟩
      rw [two] at less
      exact absurd less (Nat.not_lt.mpr (Nat.le_add_left 2 more.length))

/-! #### The room behind the objects -/

theorem roomy_end {crcNoCheckit : Bool} {data bytes : List Byte}
    (ended : n = 0 ∨ szMessageData ≤ data.length + 2) :
    Roomy whole crcNoCheckit addr n data bytes ↔ EndInside whole crcNoCheckit addr n data bytes := by
  constructor
  · intro roomy
    have last := (roomy [] bytes rfl (fun o member => absurd member List.not_mem_nil) (Nat.zero_le n)
      (.inl rfl)).2
    rw [objectsBytes_nil, List.append_nil] at last
    refine last (ended.imp (fun none => none.symm) id)
  · intro inside objs rest split _ few begun
    have none : objs = [] := by
      rcases begun with none | begun
      · exact none
      · rcases ended with zero | full
        · rw [zero] at few
          exact List.eq_nil_of_length_eq_zero (Nat.le_zero.mp few)
        · omega
    subst none
    rw [objectsBytes_nil, List.nil_append] at split
    subst split
    rw [objectsBytes_nil, List.append_nil]
    refine ⟨fun more begun => ?_, fun _ => inside⟩
    rcases ended with zero | full
    · rw [zero] at more
      exact absurd more (Nat.lt_irrefl 0)
    · exact absurd full (Nat.not_le.mpr begun)

/-- An object that does not arrive completely. -/
theorem roomy_cut {crcNoCheckit : Bool} {data bytes : List Byte}
    (begun : data.length + 2 < szMessageData)
    (cut : ∀ o more, o.val.length ≤ 255 → bytes ≠ RDIObjectInfo.bytes o ++ more) :
    Roomy whole crcNoCheckit addr (n + 1) data bytes ↔ ∀ id len more, bytes = id :: len :: more →
      data.length + 2 + taken whole len.toNat more ≤ szMessageData := by
  constructor
  · intro roomy
    exact (roomy [] bytes rfl (fun o member => absurd member List.not_mem_nil) (Nat.zero_le _)
      (.inl rfl)).1 (Nat.succ_pos n) begun
  · intro fits objs rest split small _ _
    cases objs with
    | nil =>
      rw [objectsBytes_nil, List.nil_append] at split
      subst split
      refine ⟨fun _ _ => fits, fun ended => ?_⟩
      rcases ended with none | full
      · cases none
      · exact absurd full (Nat.not_le.mpr begun)
    | cons o others =>
      rw [objectsBytes_cons, List.append_assoc] at split
      exact absurd split (cut o _ (small o List.mem_cons_self))

/-- An object and what follows it: the bytes tell where it ends. -/
theorem object_unique {p : RDIObjectInfo} {rest : List Byte} (small : o.val.length ≤ 255)
    (small' : p.val.length ≤ 255) (same : o.bytes ++ more = p.bytes ++ rest) :
    o = p ∧ more = rest := by
  obtain ⟨id, same⟩ := List.cons.inj same
  obtain ⟨len, same⟩ := List.cons.inj same
  have length : o.val.length = p.val.length := by
    have := congrArg UInt8.toNat len
    rw [UInt8.toNat_ofNat', UInt8.toNat_ofNat'] at this
    omega
  obtain ⟨val, same⟩ := List.append_inj same length
  refine ⟨?_, same⟩
  cases o
  cases p
  cases id
  cases val
  rfl

theorem object_of_bytes (id : Byte) (whole : len.toNat ≤ more.length) :
    ∃ o : RDIObjectInfo, o.val.length ≤ 255 ∧ o.val.length = len.toNat ∧
      id :: len :: more = o.bytes ++ more.drop len.toNat := by
  have length : (more.take len.toNat).length = len.toNat := List.length_take_of_le whole
  refine ⟨⟨id, more.take len.toNat⟩, ?_, length, ?_⟩
  · rw [length]
    exact Nat.le_of_lt_succ len.toNat_lt
  · rw [RDIObjectInfo.bytes, length, UInt8.ofNat_toNat, List.cons_append, List.cons_append,
      List.take_append_drop]

/-- The last of some objects begins before the end of the buffer. -/
theorem begun_cons {k : Nat} {objs : List RDIObjectInfo} :
    (o :: objs = [] ∨ k + (objectsBytes (o :: objs).dropLast).length + 2 < szMessageData) ↔
      k + 2 < szMessageData ∧
        (objs = [] ∨ k + o.bytes.length + (objectsBytes objs.dropLast).length + 2 < szMessageData) := by
  cases objs with
  | nil =>
    constructor
    · rintro (none | begun)
      · cases none
      · exact ⟨begun, .inl rfl⟩
    · exact fun both => .inr both.1
  | cons p objs =>
    have front : (o :: p :: objs).dropLast = o :: (p :: objs).dropLast := rfl
    rw [front, objectsBytes_cons, List.length_append]
    constructor
    · rintro (none | begun)
      · cases none
      · exact ⟨by omega, .inr (by omega)⟩
    · rintro ⟨-, none | begun⟩
      · cases none
      · exact .inr (by omega)

section Object

variable {crcNoCheckit : Bool} {n : Nat} {data more : List Byte} {o : RDIObjectInfo}

/-- The room of the first object, and of those behind it. -/
theorem Roomy.object (roomy : Roomy whole crcNoCheckit addr (n + 1) data (o.bytes ++ more))
    (begun : data.length + 2 < szMessageData) (small : o.val.length ≤ 255) :
    data.length + o.bytes.length ≤ szMessageData ∧
      Roomy whole crcNoCheckit addr n (data ++ o.bytes) more := by
  have exactly := o.len_toNat small
  have size := o.bytes_length
  constructor
  · have first := (roomy [] _ rfl (fun o member => absurd member List.not_mem_nil) (Nat.zero_le _)
      (.inl rfl)).1 (Nat.succ_pos n) begun o.id (UInt8.ofNat o.val.length) (o.val ++ more) rfl
    have all : taken whole o.val.length (o.val ++ more) = o.val.length :=
      if_pos (List.sublist_append_left o.val more).length_le
    rw [objectsBytes_nil, List.length_nil, exactly, all] at first
    omega
  · intro objs rest split others few started
    rw [List.length_append] at started
    have later := roomy (o :: objs) rest (by rw [objectsBytes_cons, split, List.append_assoc])
      (List.forall_mem_cons.mpr ⟨small, others⟩) (Nat.succ_le_succ few)
      (begun_cons.mpr ⟨begun, started⟩)
    rw [objectsBytes_cons, List.length_append, ← List.append_assoc, ← Nat.add_assoc,
      List.length_cons, Nat.add_sub_add_right] at later
    rw [List.length_append]
    exact ⟨fun announced => later.1 (Nat.succ_lt_succ announced),
      fun ended => later.2 (ended.imp (congrArg Nat.succ) id)⟩

/-- An object with enough room, in front of others. -/
theorem Roomy.cons (roomy : Roomy whole crcNoCheckit addr n (data ++ o.bytes) more)
    (begun : data.length + 2 < szMessageData) (small : o.val.length ≤ 255)
    (room : data.length + o.bytes.length ≤ szMessageData) :
    Roomy whole crcNoCheckit addr (n + 1) data (o.bytes ++ more) := by
  have exactly := o.len_toNat small
  have size := o.bytes_length
  intro objs rest split others few started
  cases objs with
  | nil =>
    rw [objectsBytes_nil, List.nil_append] at split
    subst split
    refine ⟨fun _ _ id len bytes same => ?_, fun ended => ?_⟩
    · obtain ⟨-, same⟩ := List.cons.inj same
      obtain ⟨lengths, -⟩ := List.cons.inj same
      obtain ⟨-, same⟩ := List.cons.inj same
      have all : taken whole o.val.length bytes = o.val.length :=
        if_pos (same ▸ (List.sublist_append_left o.val more).length_le)
      rw [objectsBytes_nil, List.length_nil, ← lengths, exactly, all]
      omega
    · rcases ended with none | full
      · cases none
      · exact absurd full (Nat.not_le.mpr begun)
  | cons p objs =>
    obtain ⟨first, later⟩ := List.forall_mem_cons.mp others
    rw [objectsBytes_cons, List.append_assoc] at split
    obtain ⟨same, behind⟩ := object_unique small first split
    subst same
    have later := roomy objs rest behind later (Nat.le_of_succ_le_succ few)
      (by rw [List.length_append]; exact (begun_cons.mp started).2)
    rw [objectsBytes_cons, List.length_append, ← List.append_assoc, ← Nat.add_assoc,
      List.length_cons, Nat.add_sub_add_right]
    rw [List.length_append] at later
    exact ⟨fun announced => later.1 (Nat.lt_of_succ_lt_succ announced),
      fun ended => later.2 (ended.imp Nat.succ.inj id)⟩

/-- **An object that arrives completely.** -/
theorem roomy_object (begun : data.length + 2 < szMessageData) (small : o.val.length ≤ 255) :
    Roomy whole crcNoCheckit addr (n + 1) data (o.bytes ++ more) ↔
      data.length + o.bytes.length ≤ szMessageData ∧
        Roomy whole crcNoCheckit addr n (data ++ o.bytes) more :=
  ⟨fun roomy => roomy.object begun small, fun both => both.2.cons begun small both.1⟩

end Object

theorem objectsBytes_append (objs : List RDIObjectInfo) (o : RDIObjectInfo) :
    objectsBytes (objs ++ [o]) = objectsBytes objs ++ o.bytes := by
  rw [objectsBytes, List.flatMap_append]
  exact congrArg (objectsBytes objs ++ ·) (List.append_nil o.bytes)

/-- **An object that arrives, but has no room.** -/
theorem recvObjects_outside (obeys : Obeys whole line.getNextData stream I) (inv : I c)
    (m : Message) {id : Byte} (bytes : stream c = id :: len :: more)
    (begun : m.data.length + 2 < szMessageData) (complete : len.toNat ≤ more.length)
    (outside : szMessageData < m.data.length + 2 + len.toNat) (n : Nat)
    (next : Message → C → Received C) : recvObjects line (n + 1) m c next = none := by
  obtain ⟨c', left, inv', received⟩ := recvObjects_begin obeys.toDelivers inv m bytes begun n next
  have length : (m.data ++ [id, len]).length = m.data.length + 2 := List.length_append
  rw [received]
  exact receive_outside obeys.toDelivers inv' (n := len.toNat) (by omega)
    (by rw [left]; exact complete) (m := { m with data := m.data ++ [id, len] })
    (by rw [length]; exact outside) _

/-- **An object that does not arrive completely.** -/
theorem inside_cut (obeys : Obeys whole line.getNextData stream I) (inv : I c) (m : Message)
    {id : Byte} (bytes : stream c = id :: len :: more) (begun : m.data.length + 2 < szMessageData)
    (short : more.length < len.toNat) (n : Nat) (next : Message → C → Received C) :
    Inside (recvObjects line (n + 1) m c next) ↔
      m.data.length + 2 + (cut whole more).length ≤ szMessageData := by
  obtain ⟨c', left, inv', received⟩ := recvObjects_begin obeys.toDelivers inv m bytes begun n next
  have length : (m.data ++ [id, len]).length = m.data.length + 2 := List.length_append
  have part := inside_short obeys inv' (n := len.toNat) (by omega) (by rw [left]; exact short)
    (m := { m with data := m.data ++ [id, len] }) (by rw [length]; exact Nat.le_of_lt begun)
  rw [received, part, left, length]

/-- Bytes that end before the announced length are no object. -/
theorem not_object {id : Byte} (cut : more.length < len.toNat) (o : RDIObjectInfo)
    (rest : List Byte) (small : o.val.length ≤ 255) :
    id :: len :: more ≠ o.bytes ++ rest := by
  intro same
  obtain ⟨-, same⟩ := List.cons.inj same
  obtain ⟨announced, same⟩ := List.cons.inj same
  have joined : more = o.val ++ rest := same
  rw [joined, List.length_append, announced, UInt8.toNat_ofNat'] at cut
  omega

/-- **None of the first `n` objects is without a value.** -/
def Filled (n : Nat) (bytes : List Byte) : Prop :=
  ∀ objs rest, bytes = objectsBytes objs ++ rest → (∀ o ∈ objs, o.val.length ≤ 255) →
    objs.length ≤ n → ∀ o ∈ objs, o.val ≠ []

theorem Filled.object (filled : Filled (n + 1) (o.bytes ++ more)) (small : o.val.length ≤ 255) :
    o.val ≠ [] ∧ Filled n more := by
  have all : ∀ objs rest, more = objectsBytes objs ++ rest → (∀ o ∈ objs, o.val.length ≤ 255) →
      objs.length ≤ n → ∀ p ∈ o :: objs, p.val ≠ [] := by
    intro objs rest split others few
    exact filled (o :: objs) rest (by rw [objectsBytes_cons, split, List.append_assoc])
      (List.forall_mem_cons.mpr ⟨small, others⟩) (Nat.succ_le_succ few)
  refine ⟨all [] more rfl nofun (Nat.zero_le n) o List.mem_cons_self, fun objs rest split others few => ?_⟩
  exact (List.forall_mem_cons.mp (all objs rest split others few)).2

/-- **The loop over the objects stays inside exactly if they leave enough room.** -/
theorem recvObjects_inside (obeys : Obeys whole line.getNextData stream I) (crcNoCheckit : Bool)
    (n : Nat) (inv : I c) (quiet : BringsNone line.getNextData stream I ∨ Filled n (stream c))
    (small : ∀ o ∈ objs, o.val.length ≤ 255) (number : f.objNum.toNat = objs.length + n)
    (within : 6 + (objectsBytes objs).length ≤ szMessageData) :
    Inside (recvObjects line n ⟨addr, 0x2B, f.bytes ++ objectsBytes objs⟩ c fun m c =>
          if crcNoCheckit then done .erNoError m c
          else receive line szCRC m c (checkCrc crcNoCheckit)) ↔
      Roomy whole crcNoCheckit addr n (f.bytes ++ objectsBytes objs) (stream c) := by
  induction n generalizing c objs with
  | zero =>
    rw [recvObjects, inside_end obeys crcNoCheckit inv small number within (.inl rfl)]
    exact (roomy_end (.inl rfl)).symm
  | succ n ih =>
    have length := front_length f objs
    by_cases begun : 6 + (objectsBytes objs).length + 2 < szMessageData
    · have begins : (f.bytes ++ objectsBytes objs).length + 2 < szMessageData := by
        rw [length]
        exact begun
      by_cases two : 2 ≤ (stream c).length
      · obtain ⟨id, len, more, bytes⟩ := exists_two two
        by_cases complete : len.toNat ≤ more.length
        · obtain ⟨o, small', same, split⟩ := object_of_bytes id complete
          have size := o.bytes_length
          have object := bytes.trans split
          have filled : BringsNone line.getNextData stream I ∨ o.val ≠ [] ∧ Filled n (more.drop len.toNat) :=
            quiet.imp_right fun filled => Filled.object (object ▸ filled) small'
          rw [object, roomy_object begins small', length]
          by_cases room : 6 + (objectsBytes objs).length + o.bytes.length ≤ szMessageData
          · obtain ⟨c', received, left, inv'⟩ := recvObjects_object obeys.toDelivers inv
              ⟨addr, 0x2B, f.bytes ++ objectsBytes objs⟩ small'
              (filled.imp_right And.left) object
              begins (by rw [length]; exact room) n fun m c =>
                if crcNoCheckit then done .erNoError m c
                else receive line szCRC m c (checkCrc crcNoCheckit)
            have later := @ih c' (objs ++ [o]) inv'
              (filled.imp_right fun both => left.symm ▸ both.2)
              (fun p member => (List.mem_append.mp member).elim (small p)
                fun last => by rw [List.mem_singleton.mp last]; exact small')
              (by rw [number, List.length_append, Nat.add_assoc, Nat.add_comm n 1]; rfl)
              (by rw [objectsBytes_append, List.length_append, ← Nat.add_assoc]; exact room)
            rw [objectsBytes_append, ← List.append_assoc, left] at later
            rw [received, later]
            exact ⟨fun roomy => ⟨room, roomy⟩, fun both => both.2⟩
          · rw [recvObjects_outside obeys inv _ bytes begins complete (by rw [length]; omega)]
            exact iff_of_false (fun inside => inside) fun both => room both.1
        · have short := Nat.not_le.mp complete
          rw [inside_cut obeys inv _ bytes begins short, roomy_cut begins, bytes]
          · constructor
            · intro fits id' len' more' same
              cases same
              rw [taken_short short]
              exact fits
            · intro fits
              have part := fits id len more rfl
              rwa [taken_short short] at part
          · intro o rest small'
            rw [bytes]
            exact not_object short o rest small'
      · have less := Nat.not_le.mp two
        have length' := cut_length_le whole (stream c)
        have short := inside_short obeys inv (n := 2) (by decide) less
          (m := ⟨addr, 0x2B, f.bytes ++ objectsBytes objs⟩)
          (by rw [length]; exact within)
        rw [recvObjects, if_pos begins, short, length, roomy_cut begins]
        · refine iff_of_true (by omega) fun id len more same => ?_
          rw [same] at less
          exact absurd less (Nat.not_lt.mpr (Nat.le_add_left 2 more.length))
        · intro o rest _ same
          rw [same] at less
          exact absurd less (Nat.not_lt.mpr (Nat.le_add_left 2 _))
    · have full := Nat.not_lt.mp begun
      rw [recvObjects, if_neg (by rw [length]; exact begun),
        inside_end obeys crcNoCheckit inv small number within (.inr full)]
      exact (roomy_end (.inr (by rw [length]; exact full))).symm

/-! ### Every stream of bytes -/

/-- **No access outside the buffer** for what a peer sends. -/
def InBounds (line : Line C) (crcNoCheckit : Bool) (addr : Byte) (c : C) : Prop :=
  Inside (ModbusClient.recvPdu line crcNoCheckit 0x2B addr c)

/-- **A stream whose objects leave enough room**, if it is a device identification at all. -/
def Tame (whole crcNoCheckit : Bool) (addr : Byte) (bytes : List Byte) : Prop :=
  ∀ f : Front, ∀ more, bytes = 0x2B :: (f.bytes ++ more) →
      Roomy whole crcNoCheckit addr f.objNum.toNat f.bytes more

/-- **No object without a value is announced** in the stream. -/
def Valued (bytes : List Byte) : Prop :=
  ∀ f : Front, ∀ more, bytes = 0x2B :: (f.bytes ++ more) → Filled f.objNum.toNat more

/-- A reply that is not decoded: its code is an error, or its first byte is zero. -/
theorem inside_recvError (obeys : Obeys whole line.getNextData stream I) (crcNoCheckit : Bool)
    (inv : I c) (addr func : Byte) : Inside (recvError line crcNoCheckit ⟨addr, func, []⟩ c) := by
  have pos : 0 < 1 + crcLen crcNoCheckit := by omega
  have small : 1 + crcLen crcNoCheckit ≤ szMessageData := by
    cases crcNoCheckit <;> decide
  by_cases enough : 1 + crcLen crcNoCheckit ≤ (stream c).length
  · obtain ⟨c', received, -, -⟩ := receive_all obeys.toDelivers inv pos enough ⟨addr, func, []⟩
      (by rw [List.length_nil, Nat.zero_add]; exact small) fun m c =>
        if crcNoCheckit = false ∧ m.pduCRC (m.pduLen - szCRC) ≠ m.getCrc then done .erBadCheckSum m c
        else some (((m.byteAt 0).toNat, m), c)
    rw [recvError, received]
    dsimp only
    split
    · exact inside_error (by decide) _ _
    · intro zero none
      have first : (Message.mk addr func ([] ++ (stream c).take (1 + crcLen crcNoCheckit))).byteAt 0 ≠
          0x0E := by
        intro equal
        rw [equal] at zero
        cases zero
      rw [init, if_pos first] at none
      cases none
  · have less := Nat.not_le.mp enough
    refine (inside_short obeys inv pos less (m := ⟨addr, func, []⟩) (Nat.zero_le _) _).mpr ?_
    have length := cut_length_le whole (stream c)
    rw [List.length_nil, Nat.zero_add]
    omega

/-- What follows the six bytes in front of the objects. -/
theorem inside_recvRest (obeys : Obeys whole line.getNextData stream I) (crcNoCheckit : Bool)
    (addr type : Byte) (f : Front) (inv : I c)
    (quiet : BringsNone line.getNextData stream I ∨ (type = 0x0E → Filled f.objNum.toNat (stream c))) :
    Inside (ModbusClient.recvRest line crcNoCheckit .fnMEI
        ⟨addr, 0x2B, [type, f.devID, f.conformity, f.mf, f.objID, f.objNum]⟩ c (.objects 6)) ↔
      (type = 0x0E → Roomy whole crcNoCheckit addr f.objNum.toNat f.bytes (stream c)) := by
  by_cases kind : type = 0x0E
  · subst kind
    have objects : Inside (recvObjects line f.objNum.toNat
        ⟨addr, 0x2B, f.bytes ++ objectsBytes []⟩ c fun m c =>
          if crcNoCheckit then done .erNoError m c
          else receive line szCRC m c (checkCrc crcNoCheckit)) ↔
        Roomy whole crcNoCheckit addr f.objNum.toNat (f.bytes ++ objectsBytes []) (stream c) :=
      recvObjects_inside obeys crcNoCheckit f.objNum.toNat inv
        (quiet.imp_right fun filled => filled rfl) (fun o member => absurd member List.not_mem_nil)
        (Nat.zero_add _).symm (by decide)
    have front : f.bytes ++ objectsBytes [] = f.bytes := List.append_nil _
    rw [front] at objects
    exact objects.trans ⟨fun roomy _ => roomy, fun roomy => roomy rfl⟩
  · have other : ModbusClient.recvRest line crcNoCheckit .fnMEI
        ⟨addr, 0x2B, [type, f.devID, f.conformity, f.mf, f.objID, f.objNum]⟩ c (.objects 6) =
        done .erInvalidFormat ⟨addr, 0x2B, [type, f.devID, f.conformity, f.mf, f.objID, f.objNum]⟩ c :=
      if_pos kind
    rw [other]
    exact iff_of_true (inside_error (by decide) _ _) fun same => absurd same kind

/-- **The accesses stay inside exactly for the tame streams.** -/
theorem inBounds_iff (obeys : Obeys whole line.getNextData stream I) (crcNoCheckit : Bool)
    (addr : Byte) (inv : I c) (quiet : BringsNone line.getNextData stream I ∨ Valued (stream c)) :
    InBounds line crcNoCheckit addr c ↔ Tame whole crcNoCheckit addr (stream c) := by
  cases bytes : stream c with
  | nil =>
    refine iff_of_true ?_ fun f more same => ?_
    · obtain ⟨c', answered | ⟨-, silent⟩⟩ := obeys.rest 1 c inv Nat.one_pos
        (by rw [bytes]; exact Nat.one_pos)
      · have none : cut whole [] = [] := by cases whole <;> rfl
        rw [InBounds, ModbusClient.recvPdu, answered, bytes, none]
        exact inside_error (by decide) _ _
      · rw [InBounds, ModbusClient.recvPdu, silent]
        exact inside_error (by decide) _ _
    · cases same
  | cons func data =>
    obtain ⟨c₁, read, left, inv₁⟩ := obeys.reads 1 c inv Nat.one_pos (by
      rw [bytes]
      exact Nat.succ_pos _)
    rw [bytes] at read left
    have behind : stream c₁ = data := left
    by_cases asked : func = 0x2B
    · subst asked
      by_cases head : 6 ≤ data.length
      · obtain ⟨type, devID, conformity, mf, objID, objNum, more, split⟩ := exists_six head
        let f : Front := ⟨devID, conformity, mf, objID, objNum⟩
        obtain ⟨c', received, after, inv'⟩ := recvPdu_head obeys.toDelivers crcNoCheckit inv addr
          bytes (rfl : SlaveFunctionCode.ofByte 0x2B = some .fnMEI) rfl head
        subst split
        have after : stream c' = more := after
        rw [InBounds, received]
        refine (inside_recvRest obeys crcNoCheckit addr type f inv' ?_).trans ?_
        · refine quiet.imp_right fun valued kind => ?_
          rw [after]
          exact valued f more (by rw [bytes, kind]; rfl)
        rw [after]
        constructor
        · rintro roomy g more' equal
          obtain ⟨⟩ := g
          cases equal
          exact roomy rfl
        · rintro tame kind
          subst kind
          exact tame f more rfl
      · refine iff_of_true ?_ fun f more' equal => ?_
        · have received : ModbusClient.recvPdu line crcNoCheckit 0x2B addr c =
              receive line 6 ⟨addr, 0x2B, []⟩ c₁ fun m c =>
                ModbusClient.recvRest line crcNoCheckit .fnMEI m c (.objects 6) := by
            rw [ModbusClient.recvPdu, read]
            rfl
          rw [InBounds, received]
          refine (inside_short obeys inv₁ (by decide : 0 < 6) (by rw [behind]; omega)
            (m := ⟨addr, 0x2B, []⟩) (Nat.zero_le _) _).mpr ?_
          have length := cut_length_le whole (stream c₁)
          rw [behind] at length
          rw [List.length_nil, Nat.zero_add, behind]
          have large : szMessageData = 510 := rfl
          omega
        · cases equal
          exact absurd (Nat.le_add_left 6 more'.length) head
    · refine iff_of_true ?_ fun f more' equal => ?_
      · rw [InBounds, ModbusClient.recvPdu, read]
        dsimp only [List.take]
        split
        · exact inside_recvError obeys crcNoCheckit inv₁ addr func
        · rw [if_pos (Ne.symm asked)]
          exact inside_error (by decide) _ _
      · cases equal
        exact absurd rfl asked

/-! ### A reply on the wire -/

/-- **What is promised of a reply that was built**: it fits into the buffer, and the client finds its
objects again. -/
structure RoundTrip (line : Line C) (crcNoCheckit : Bool) (r : MEIMessageRetRDI)
    (objs : List RDIObjectInfo) (c : C) : Prop where
  fits : r.transportMsg.data.length ≤ szMessageData
  decoded : ∃ m c' reply, ModbusClient.recvPdu line crcNoCheckit 0x2B r.addr c =
    some ((MbErrCode.erNoError.toNat, m), c') ∧ init m = some (.ok reply) ∧ reply.dlist = objs

/-- **Objects are received one after the other.** -/
theorem recvObjects_objects (delivers : Delivers line.getNextData stream I) (inv : I c)
    (m : Message) (small : ∀ o ∈ objs, o.val.length ≤ 255)
    (quiet : BringsNone line.getNextData stream I ∨ ∀ o ∈ objs, o.val ≠ [])
    (bytes : stream c = objectsBytes objs ++ more)
    (room : m.data.length + (objectsBytes objs).length ≤ szMessageData - szCRC)
    (next : Message → C → Received C) :
    ∃ c', recvObjects line objs.length m c next =
        next { m with data := m.data ++ objectsBytes objs } c' ∧ stream c' = more ∧ I c' := by
  have large : szMessageData - szCRC = 508 ∧ szMessageData = 510 := ⟨rfl, rfl⟩
  induction objs generalizing c m with
  | nil =>
    refine ⟨c, ?_, bytes, inv⟩
    rw [objectsBytes_nil, List.append_nil]
    rfl
  | cons o rest ih =>
    obtain ⟨first, others⟩ := List.forall_mem_cons.mp small
    have size := o.bytes_length
    rw [objectsBytes_cons, List.length_append] at room
    rw [objectsBytes_cons, List.append_assoc] at bytes
    obtain ⟨c₁, object, left, inv₁⟩ := recvObjects_object delivers inv m first
      (quiet.imp_right fun some => some o List.mem_cons_self) bytes (by omega) (by omega) rest.length next
    obtain ⟨c₂, later, after, inv₂⟩ := ih inv₁ { m with data := m.data ++ o.bytes } others
      (quiet.imp_right fun some p member => some p (List.mem_cons_of_mem _ member)) left
      (by rw [List.length_append]; omega)
    refine ⟨c₂, ?_, after, inv₂⟩
    rw [List.length_cons, object, later, objectsBytes_cons, List.append_assoc]

/-- The objects, and the check sum as far as it is sent. -/
theorem recvPdu_objects (delivers : Delivers line.getNextData stream I) (crcNoCheckit : Bool)
    (inv : I c) (small : ∀ o ∈ objs, o.val.length ≤ 255)
    (quiet : BringsNone line.getNextData stream I ∨ ∀ o ∈ objs, o.val ≠ [])
    (number : f.objNum.toNat = objs.length) (room : (objectsBytes objs).length ≤ 502)
    {rest : List Byte} (bytes : stream c = (Message.withCRC addr 0x2B
      (f.bytes ++ objectsBytes objs)).wire crcNoCheckit ++ rest) :
    ∃ c', ModbusClient.recvPdu line crcNoCheckit 0x2B addr c =
      done .erNoError ⟨addr, 0x2B, f.bytes ++ (objectsBytes objs ++
        crcTail crcNoCheckit addr 0x2B (f.bytes ++ objectsBytes objs))⟩ c' := by
  have large : szMessageData - szCRC = 508 := rfl
  have right := crcTail_ok crcNoCheckit addr 0x2B (f.bytes ++ objectsBytes objs)
  have total := crcTail_length crcNoCheckit addr 0x2B (f.bytes ++ objectsBytes objs)
  rw [wire_withCRC, List.cons_append] at bytes
  generalize crcTail crcNoCheckit addr 0x2B (f.bytes ++ objectsBytes objs) = tail at *
  rw [List.append_assoc, List.append_assoc] at bytes
  obtain ⟨c₁, head, left, inv₁⟩ := recvPdu_head delivers crcNoCheckit inv addr
    bytes (rfl : SlaveFunctionCode.ofByte 0x2B = some .fnMEI) rfl (Nat.le_add_left 6 _)
  have left : stream c₁ = objectsBytes objs ++ (tail ++ rest) := left
  have begins : ModbusClient.recvPdu line crcNoCheckit 0x2B addr c =
      recvObjects line f.objNum.toNat ⟨addr, 0x2B, f.bytes⟩ c₁
        fun m c => if crcNoCheckit then done .erNoError m c
          else receive line szCRC m c (checkCrc crcNoCheckit) := head
  obtain ⟨c₂, objects, after, inv₂⟩ := recvObjects_objects delivers inv₁
    ⟨addr, 0x2B, f.bytes⟩ small quiet left
    (by show 6 + (objectsBytes objs).length ≤ szMessageData - szCRC; omega) fun m c =>
      if crcNoCheckit then done .erNoError m c
      else receive line szCRC m c (checkCrc crcNoCheckit)
  rw [begins, number, objects]
  cases crcNoCheckit with
  | true =>
    have none : tail = [] := List.eq_nil_of_length_eq_zero total
    refine ⟨c₂, ?_⟩
    rw [none, List.append_nil]
    rfl
  | false =>
    have two : tail.length = szCRC := total
    obtain ⟨c₃, received, -, -⟩ := receive_all delivers inv₂ (by decide : 0 < szCRC)
      (by rw [after, ← two]; exact (List.sublist_append_left _ _).length_le)
      ⟨addr, 0x2B, f.bytes ++ objectsBytes objs⟩
      (by rw [front_length]; omega) (checkCrc false)
    refine ⟨c₃, received.trans ?_⟩
    rw [after, ← two, List.take_left, checkCrc, if_neg right, List.append_assoc]

/-- What is decoded of a message with these objects. -/
theorem init_complete (addr : Byte) (small : ∀ o ∈ objs, o.val.length ≤ 255)
    (number : f.objNum.toNat = objs.length) (room : (objectsBytes objs).length ≤ 502) (after : List Byte) :
    ∃ reply, init ⟨addr, 0x2B, f.bytes ++ (objectsBytes objs ++
      after)⟩ = some (.ok reply) ∧ reply.dlist = objs := by
  have large : szMessageData = 510 ∧ szCRC = 2 := ⟨rfl, rfl⟩
  have walked := init_objects addr f after (n := 0) small (by omega)
    number fun pos => absurd pos (Nat.lt_irrefl 0)
  have crc : ∀ m : Message, read? m (6 + (objectsBytes objs).length) szCRC =
      some ((List.range szCRC).map fun k => m.byteAt (6 + (objectsBytes objs).length + k)) :=
    fun m => if_pos (.inr (by omega))
  rw [walked, initObjects_end (.inl rfl), initEnd, crc]
  exact ⟨_, rfl, rfl⟩

/-- **A reply comes back exactly if its values fit into a byte and its objects into 502.** -/
theorem comes_back_iff (delivers : Delivers line.getNextData stream I) (crcNoCheckit : Bool)
    (inv : I c) {devID conformity mf objID : Byte}
    (quiet : BringsNone line.getNextData stream I ∨ ∀ o ∈ objs, o.val ≠ [])
    (added : addAll objs (start addr devID conformity mf objID) = some r) {rest : List Byte}
    (bytes : stream c = r.transportMsg.wire crcNoCheckit ++ rest) :
    RoundTrip line crcNoCheckit r objs c ↔
      (∀ o ∈ objs, o.val.length ≤ 255) ∧ (objectsBytes objs).length ≤ 502 := by
  obtain ⟨number, sent, -⟩ := start_addAll added
  have same : r.addr = addr := by
    rw [(addAll_grown added).same]
    rfl
  have length : r.transportMsg.data.length = 6 + (objectsBytes objs).length + 2 := by
    rw [sent]
    show ((Front.bytes ⟨devID, conformity, mf, objID, r.objNum⟩ ++ objectsBytes objs) ++
      crcBytes _).length = _
    rw [List.length_append, front_length]
    rfl
  have large : szMessageData = 510 := rfl
  constructor
  · intro back
    have fits := back.fits
    obtain ⟨m, c', reply, -, decoded, dlist⟩ := back.decoded
    refine ⟨fun o member => init_small decoded o (by rw [dlist]; exact member), ?_⟩
    omega
  · rintro ⟨small, room⟩
    rw [sent] at bytes
    obtain ⟨c', received⟩ := recvPdu_objects (f := ⟨devID, conformity, mf, objID, r.objNum⟩) delivers
      crcNoCheckit inv small quiet number room bytes
    obtain ⟨reply, decoded, dlist⟩ := init_complete (f := ⟨devID, conformity, mf, objID, r.objNum⟩)
      addr small number room _
    refine ⟨by omega, _, c', reply, ?_, decoded, dlist⟩
    rw [same]
    exact received

end Objects

/-- An object with a value of so many letters. -/
def letters (id : Byte) (n : Nat) : RDIObjectInfo := ⟨id, List.replicate n 0x41⟩

end MEIMessageRetRDI

end UniSet.Modbus

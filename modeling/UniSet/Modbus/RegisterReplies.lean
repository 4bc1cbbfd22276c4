/-
**`ReadOutputRetMessage` and `ReadInputRetMessage`: the registers of a reply to 0x03 and 0x04.**

The number of words is a `size_t`, the number of bytes on the wire is a byte, and the message is full
at `MAXLENPACKET`: 254 words are taken, of which 127 can be announced.

* `ReadRetMessage` — the message and its operations; the two classes differ in the function code.
* `addAll` — a sequence of calls of `addData` that all returned `true`.
* `RoundTrip` — what a receiver finds in the encoded message.
* **`roundTrip_iff`** — the message survives the wire exactly if it has at most 127 words.
-/

import UniSet.Modbus.Wire

namespace UniSet.Modbus

/-- **`ReadOutputRetMessage` and `ReadInputRetMessage`.** `count` is the length of `data`. -/
structure ReadRetMessage where
  addr : Byte
  func : Byte
  bcnt : Byte
  data : List UInt16
deriving DecidableEq, Repr

/-- `ReadOutputRetMessage( const ModbusAddr )`. -/
def readOutputRetMessage (addr : Byte) : ReadRetMessage := ⟨addr, 0x03, 0, []⟩

/-- `ReadInputRetMessage( const ModbusAddr )`. -/
def readInputRetMessage (addr : Byte) : ReadRetMessage := ⟨addr, 0x04, 0, []⟩

namespace ReadRetMessage

/-- The two classes. -/
inductive Kind
  | readOutput | readInput
deriving DecidableEq, Repr

def start (addr : Byte) : Kind → ReadRetMessage
  | .readOutput => readOutputRetMessage addr
  | .readInput => readInputRetMessage addr

variable (r : ReadRetMessage)

/-- `isFull`. -/
def isFull : Bool := decide (maxLenPacket ≤ r.data.length * 2)

/-- **`addData`.** -/
def addData (d : UInt16) : Bool × ReadRetMessage :=
  if r.isFull then (false, r)
  else
    (true, { r with
      data := r.data ++ [d]
      bcnt := UInt8.ofNat ((r.data.length + 1) * 2) })

/-- `szData`. -/
def szData : Nat := 1 + r.data.length * 2 + szCRC

/-- **`transport_msg_to`**: as many bytes of the words as `bcnt` says. -/
def transportMsg : Message :=
  .withCRC r.addr r.func
    (r.bcnt :: (Message.wordsBytes (r.data.map UInt16.toNat)).take r.bcnt.toNat)

/-- **`init`.** -/
def init (m : Message) : Except MbErrCode ReadRetMessage :=
  let cnt := (m.byteAt 0).toNat / 2
  if maxLenPacket / 2 < cnt then .error .erPacketTooLong
  else .ok ⟨m.addr, m.func, m.byteAt 0, (m.wordsAt 1 cnt).map UInt16.ofNat⟩

/-- `getCrc`: the two bytes behind the announced ones. -/
def getCrc (m : Message) : Nat :=
  (m.byteAt ((m.byteAt 0).toNat + 1)).toNat + (m.byteAt ((m.byteAt 0).toNat + 2)).toNat * 256

/-- `calcCRC`. -/
def calcCRC (m : Message) : Nat := m.pduCRC (szModbusHeader + 1 + (m.byteAt 0).toNat)

/-- Calls of `addData` that all returned `true`. -/
def addAll (r : ReadRetMessage) : List UInt16 → Option ReadRetMessage
  | [] => some r
  | d :: rest => if (r.addData d).1 then addAll (r.addData d).2 rest else none

/-- **What a receiver finds in the encoded message.** -/
structure RoundTrip (words : List UInt16) : Prop where
  decoded : ∃ received, init r.transportMsg = .ok received ∧ received.data.length = words.length ∧
    received.data = words
  dlen : r.transportMsg.data.length = r.szData
  crc : getCrc r.transportMsg = calcCRC r.transportMsg

variable {r}

/-! ### What was added -/

theorem addAll_spec {r' : ReadRetMessage} {words : List UInt16} (added : r.addAll words = some r')
    (counted : r.bcnt = UInt8.ofNat (r.data.length * 2)) :
    r'.addr = r.addr ∧ r'.func = r.func ∧ r'.data = r.data ++ words ∧
      r'.bcnt = UInt8.ofNat (r'.data.length * 2) := by
  induction words generalizing r with
  | nil =>
    cases added
    exact ⟨rfl, rfl, (List.append_nil _).symm, counted⟩
  | cons d rest ih =>
    rw [addAll] at added
    by_cases full : r.isFull
    · rw [addData, if_pos full] at added
      cases added
    · rw [addData, if_neg full] at added
      have counted' : UInt8.ofNat ((r.data.length + 1) * 2) =
          UInt8.ofNat ((r.data ++ [d]).length * 2) := by rw [List.length_append, List.length_singleton]
      obtain ⟨addr, func, data, bcnt⟩ := ih added counted'
      refine ⟨addr, func, ?_, bcnt⟩
      rw [data, List.append_assoc, List.singleton_append]

/-- The message after some calls on a new one. -/
theorem addAll_start {addr : Byte} {kind : Kind} {words : List UInt16}
    (added : (start addr kind).addAll words = some r) :
    r.data = words ∧ r.bcnt = UInt8.ofNat (words.length * 2) := by
  have fresh : (start addr kind).data = [] ∧ (start addr kind).bcnt = 0 := by
    cases kind <;> exact ⟨rfl, rfl⟩
  obtain ⟨-, -, data, bcnt⟩ := addAll_spec added (by rw [fresh.1, fresh.2]; rfl)
  rw [fresh.1, List.nil_append] at data
  exact ⟨data, data ▸ bcnt⟩

/-! ### The wire -/

/-- The check sum stands behind the announced bytes. -/
theorem getCrc_eq {m : Message} (ends : m.data.length = 1 + (m.byteAt 0).toNat + szCRC) :
    getCrc m = m.getCrc ∧ calcCRC m = m.pduCRC (m.pduLen - szCRC) := by
  have place : m.data.length - szCRC = (m.byteAt 0).toNat + 1 := by
    rw [ends, Nat.add_sub_cancel, Nat.add_comm]
  constructor
  · rw [getCrc, Message.getCrc, place]
  · rw [calcCRC, Message.pduLen, ends]
    refine congrArg m.pduCRC ?_
    unfold szModbusHeader szCRC
    omega

/-- **A message with at most 127 words survives the wire.** -/
theorem roundTrip_of_le {words : List UInt16} (data : r.data = words)
    (bcnt : r.bcnt = UInt8.ofNat (words.length * 2)) (le : words.length ≤ 127) :
    r.RoundTrip words := by
  have bytes : r.bcnt.toNat = 2 * words.length := by
    rw [bcnt, UInt8.toNat_ofNat']
    omega
  have length : (Message.wordsBytes (r.data.map UInt16.toNat)).length = r.bcnt.toNat := by
    rw [Message.wordsBytes_length, List.length_map, data, bytes]
  have encoded : r.transportMsg = .withCRC r.addr r.func
      (r.bcnt :: Message.wordsBytes (r.data.map UInt16.toNat)) := by
    rw [transportMsg, List.take_of_length_le (Nat.le_of_eq length)]
  have count : r.transportMsg.byteAt 0 = r.bcnt := rfl
  have dlen : r.transportMsg.data.length = 1 + r.bcnt.toNat + szCRC := by
    rw [encoded]
    show (r.bcnt :: _ ++ crcBytes _).length = _
    rw [List.length_append, List.length_cons, length, Nat.add_comm 1]
    rfl
  refine ⟨?_, ?_, ?_⟩
  · have half : r.bcnt.toNat / 2 = (r.data.map UInt16.toNat).length := by
      rw [bytes, List.length_map, data]
      omega
    have short : ¬ maxLenPacket / 2 < (r.transportMsg.byteAt 0).toNat / 2 := by
      rw [count, bytes]
      unfold maxLenPacket
      omega
    have small : ∀ w ∈ r.data.map UInt16.toNat, w < 65536 := by
      intro w member
      obtain ⟨d, -, rfl⟩ := List.mem_map.mp member
      exact d.toNat_lt
    have found : r.transportMsg.wordsAt 1 (r.bcnt.toNat / 2) = r.data.map UInt16.toNat := by
      rw [encoded, half]
      exact Message.wordsAt_words [r.bcnt] _ small
    refine ⟨_, if_neg short, ?_⟩
    have same : (r.transportMsg.wordsAt 1 (r.bcnt.toNat / 2)).map UInt16.ofNat = words := by
      rw [found, List.map_map, ← data]
      refine List.map_id'' (fun d => ?_) r.data
      exact UInt16.ofNat_toNat
    exact ⟨congrArg List.length same, same⟩
  · rw [dlen, szData, data, bytes]
    omega
  · obtain ⟨got, calculated⟩ := getCrc_eq (count ▸ dlen)
    rw [got, calculated, encoded, Message.crc_withCRC]

/-- **The reply survives the wire exactly if it has at most 127 words.** -/
theorem roundTrip_iff (addr : Byte) (kind : Kind) {words : List UInt16} {r : ReadRetMessage}
    (added : (start addr kind).addAll words = some r) :
    r.RoundTrip words ↔ words.length ≤ 127 := by
  obtain ⟨data, bcnt⟩ := addAll_start added
  refine ⟨fun survives => ?_, roundTrip_of_le data bcnt⟩
  have dlen := survives.dlen
  have sent : r.transportMsg.data.length =
      1 + min r.bcnt.toNat (2 * words.length) + szCRC := by
    show (r.bcnt :: (Message.wordsBytes _).take _ ++ crcBytes _).length = _
    rw [List.length_append, List.length_cons, List.length_take, Message.wordsBytes_length,
      List.length_map, data, Nat.add_comm 1]
    rfl
  have bytes : r.bcnt.toNat = words.length * 2 % 256 := by
    rw [bcnt, UInt8.toNat_ofNat']
  rw [sent, szData, data, bytes] at dlen
  omega

/-- Two words, in a reply to 0x04. -/
theorem roundTrip_two : ∃ r, (start 1 .readInput).addAll [7, 0x1234] = some r ∧
    r.RoundTrip [7, 0x1234] :=
  ⟨_, rfl, (roundTrip_iff 1 .readInput (r := _) rfl).mpr (by decide)⟩

/-- **The 128th word empties the reply.** All calls returned `true`, and the receiver finds no
word. -/
theorem words_128_lost : ∃ r, (start 1 .readOutput).addAll (List.replicate 128 7) = some r ∧
    ¬ r.RoundTrip (List.replicate 128 7) ∧
    (init r.transportMsg).map (fun received => received.data) = .ok [] := by
  refine ⟨⟨1, 3, 0, List.replicate 128 7⟩, by decide +kernel, fun survives => ?_, rfl⟩
  exact absurd survives.dlen (by decide +kernel)

end ReadRetMessage

end UniSet.Modbus

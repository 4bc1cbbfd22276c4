/-
**Frames with a fixed format, from one side to the other.**

* `ClientRequest`, `ClientReply` — what is sent: the requests of `ModbusClient` and the replies of
  `ModbusServer` whose length does not depend on their content. `makeTo` is their `make_to` or
  `transport_msg_to`.
* `Message.wire` — the bytes behind the address, with the check sum or without it.
* `recvPdu_withCRC`, `ModbusClient.recvPdu_withCRC` — a message whose body has the length that its
  format announces is received with exactly its bytes.
* `Carried` — the values that arrive. The four reading messages refuse a count above their limit when
  they are decoded; a date does not arrive at all, since its constructors copy the header only; and
  the numbers of a file transfer are cut to a byte when they are sent.
* **`fixed_frames_agree`** — a carried frame is accepted, consumed exactly and decoded to its values.
-/

import UniSet.Modbus.Client
import UniSet.Modbus.FileTransfer

namespace UniSet.Modbus

/-! ### What is sent -/

/-- `DiagnosticsSubFunction`. -/
inductive DiagnosticsSubFunction
  | subEcho | dgRestartComm | dgDiagReg | dgChangeASCII | dgForceListen
  | dgClearCounters | dgBusMsgCount | dgBusErrCount | dgBusExceptCount | dgMsgSlaveCount
  | dgNoNoResponseCount | dgSlaveNAKCount | dgSlaveBusyCount | dgBusCharOverrunCount
  | dgClearOverrunCounter
deriving DecidableEq, Repr

/-- The number of a sub-function. -/
def DiagnosticsSubFunction.toNat : DiagnosticsSubFunction → Nat
  | subEcho => 0x00
  | dgRestartComm => 0x01
  | dgDiagReg => 0x02
  | dgChangeASCII => 0x03
  | dgForceListen => 0x04
  | dgClearCounters => 0x0A
  | dgBusMsgCount => 0x0B
  | dgBusErrCount => 0x0C
  | dgBusExceptCount => 0x0D
  | dgMsgSlaveCount => 0x0E
  | dgNoNoResponseCount => 0x0F
  | dgSlaveNAKCount => 0x10
  | dgSlaveBusyCount => 0x11
  | dgBusCharOverrunCount => 0x12
  | dgClearOverrunCounter => 0x14

/-- The bytes of a date. -/
structure DateTimeBytes where
  hour : Byte
  min : Byte
  sec : Byte
  day : Byte
  mon : Byte
  year : Byte
  century : Byte
deriving DecidableEq, Repr

def DateTimeBytes.bytes (dt : DateTimeBytes) : List Byte :=
  [dt.hour, dt.min, dt.sec, dt.day, dt.mon, dt.year, dt.century]

def DateTimeBytes.fields (dt : DateTimeBytes) : DateTime :=
  ⟨dt.hour.toNat, dt.min.toNat, dt.sec.toNat, dt.day.toNat, dt.mon.toNat, dt.year.toNat,
    dt.century.toNat⟩

/-- A message of two words. -/
def twoWords (func addr : Byte) (first second : UInt16) : Message :=
  .withCRC addr func (wordBytes first.toNat ++ wordBytes second.toNat)

/-- `ReadCoilMessage::make_to`. -/
def ReadCoilMessage.makeTo : Byte → UInt16 → UInt16 → Message := twoWords 0x01

/-- `ReadInputStatusMessage::make_to`. -/
def ReadInputStatusMessage.makeTo : Byte → UInt16 → UInt16 → Message := twoWords 0x02

/-- `ReadOutputMessage::make_to`. -/
def ReadOutputMessage.makeTo : Byte → UInt16 → UInt16 → Message := twoWords 0x03

/-- `ReadInputMessage::make_to`. -/
def ReadInputMessage.makeTo : Byte → UInt16 → UInt16 → Message := twoWords 0x04

/-- The data of a single coil. -/
def coilData (cmd : Bool) : UInt16 := if cmd then 0xFF00 else 0x0000

/-- `ForceSingleCoilMessage::make_to`. -/
def ForceSingleCoilMessage.makeTo (addr : Byte) (start : UInt16) (cmd : Bool) : Message :=
  twoWords 0x05 addr start (coilData cmd)

/-- `WriteSingleOutputMessage::make_to`. -/
def WriteSingleOutputMessage.makeTo : Byte → UInt16 → UInt16 → Message := twoWords 0x06

/-- `DiagnosticMessage::transport_msg_to`, for the one word that the constructor adds. -/
def DiagnosticMessage.transportMsgTo (addr : Byte) (subf : DiagnosticsSubFunction) (data : UInt16) :
    Message :=
  .withCRC addr 0x08 (wordBytes subf.toNat ++ wordBytes data.toNat)

/-- `MEIMessageRDI::make_to`. -/
def MEIMessageRDI.makeTo (addr devID objID : Byte) : Message :=
  .withCRC addr 0x2B [0x0E, devID, objID]

/-- `SetDateTimeMessage::transport_msg_to`. -/
def SetDateTimeMessage.transportMsgTo (addr : Byte) (dt : DateTimeBytes) : Message :=
  .withCRC addr 0x50 dt.bytes

/-- **A request of `ModbusClient` with a fixed format**, with its fields. -/
inductive ClientRequest
  | readCoil (start count : UInt16)
  | readInputStatus (start count : UInt16)
  | readOutput (start count : UInt16)
  | readInput (start count : UInt16)
  | forceSingleCoil (start : UInt16) (cmd : Bool)
  | writeSingleOutput (start data : UInt16)
  | diagnostic (subf : DiagnosticsSubFunction) (data : UInt16)
  | mei (devID objID : Byte)
  | setDateTime (dt : DateTimeBytes)
  | fileTransfer (numfile numpacket : UInt16)
deriving DecidableEq, Repr

namespace ClientRequest

def makeTo (addr : Byte) : ClientRequest → Message
  | readCoil start count => ReadCoilMessage.makeTo addr start count
  | readInputStatus start count => ReadInputStatusMessage.makeTo addr start count
  | readOutput start count => ReadOutputMessage.makeTo addr start count
  | readInput start count => ReadInputMessage.makeTo addr start count
  | forceSingleCoil start cmd => ForceSingleCoilMessage.makeTo addr start cmd
  | writeSingleOutput start data => WriteSingleOutputMessage.makeTo addr start data
  | diagnostic subf data => DiagnosticMessage.transportMsgTo addr subf data
  | mei devID objID => MEIMessageRDI.makeTo addr devID objID
  | setDateTime dt => SetDateTimeMessage.transportMsgTo addr dt
  | fileTransfer numfile numpacket =>
    FileTransferMessage.makeTo addr numfile.toUInt8 numpacket.toUInt8

/-- The values that the server should see. -/
def fields : ClientRequest → Request
  | readCoil start count => .readCoil start.toNat count.toNat
  | readInputStatus start count => .readInputStatus start.toNat count.toNat
  | readOutput start count => .readOutput start.toNat count.toNat
  | readInput start count => .readInput start.toNat count.toNat
  | forceSingleCoil start cmd => .forceSingleCoil start.toNat (coilData cmd).toNat
  | writeSingleOutput start data => .writeSingleOutput start.toNat data.toNat
  | diagnostic subf data => .diagnostic subf.toNat [data.toNat]
  | mei devID objID => .mei 0x0E devID objID
  | setDateTime dt => .setDateTime dt.fields
  | fileTransfer numfile numpacket => .fileTransfer numfile.toNat numpacket.toNat

/-- **The values that arrive.** -/
def Carried : ClientRequest → Prop
  | readCoil _ count | readInputStatus _ count => count.toNat ≤ maxPduLen * bitsPerByte
  | readOutput _ count | readInput _ count => count.toNat ≤ maxDataLen
  | setDateTime _ => False
  | fileTransfer numfile numpacket => numfile.toNat < 256 ∧ numpacket.toNat < 256
  | _ => True

end ClientRequest

/-- `ForceSingleCoilRetMessage::make_to`. -/
def ForceSingleCoilRetMessage.makeTo (addr : Byte) (start : UInt16) (cmd : Bool) : Message :=
  twoWords 0x05 addr start (coilData cmd)

/-- `WriteSingleOutputRetMessage::make_to`. -/
def WriteSingleOutputRetMessage.makeTo : Byte → UInt16 → UInt16 → Message := twoWords 0x06

/-- `DiagnosticRetMessage` is a `DiagnosticMessage`. -/
def DiagnosticRetMessage.transportMsgTo :
    Byte → DiagnosticsSubFunction → UInt16 → Message := DiagnosticMessage.transportMsgTo

/-- `SetDateTimeRetMessage::transport_msg_to`. -/
def SetDateTimeRetMessage.transportMsgTo (addr : Byte) (dt : DateTimeBytes) : Message :=
  .withCRC addr 0x50 dt.bytes

/-- **A reply of `ModbusServer` with a fixed format**, with its fields. -/
inductive ClientReply
  | forceSingleCoil (start : UInt16) (cmd : Bool)
  | writeSingleOutput (start data : UInt16)
  | diagnostic (subf : DiagnosticsSubFunction) (data : UInt16)
  | setDateTime (dt : DateTimeBytes)
deriving DecidableEq, Repr

namespace ClientReply

def makeTo (addr : Byte) : ClientReply → Message
  | forceSingleCoil start cmd => ForceSingleCoilRetMessage.makeTo addr start cmd
  | writeSingleOutput start data => WriteSingleOutputRetMessage.makeTo addr start data
  | diagnostic subf data => DiagnosticRetMessage.transportMsgTo addr subf data
  | setDateTime dt => SetDateTimeRetMessage.transportMsgTo addr dt

/-- The values that the client should see. -/
def fields : ClientReply → Request
  | forceSingleCoil start cmd => .forceSingleCoil start.toNat (coilData cmd).toNat
  | writeSingleOutput start data => .writeSingleOutput start.toNat data.toNat
  | diagnostic subf data => .diagnostic subf.toNat [data.toNat]
  | setDateTime dt => .setDateTime dt.fields

/-- **The replies that arrive.** -/
def Carried : ClientReply → Prop
  | setDateTime _ => False
  | _ => True

end ClientReply

/-- **The constructors of `ModbusClient` for these replies.** They read what the constructors of the
requests read. -/
def Message.decodeReply (m : Message) : SlaveFunctionCode → Option (Except MbErrCode Request)
  | .fnForceSingleCoil => some (.ok (.forceSingleCoil (m.wordAt 0) (m.wordAt 2)))
  | .fnWriteOutputSingleRegister => some (.ok (.writeSingleOutput (m.wordAt 0) (m.wordAt 2)))
  | .fnDiagnostics => some m.diagnosticMessage
  | .fnSetDateTime => some (.ok (.setDateTime m.setDateTimeMessage))
  | _ => none

/-! ### What comes over the line -/

/-- **The bytes behind the address**: the serial line brings the check sum, and TCP leaves it out. -/
def Message.wire (crcNoCheckit : Bool) (m : Message) : List Byte :=
  m.func :: if crcNoCheckit then m.data.take (m.data.length - szCRC) else m.data

/-- The check sum as far as it is sent. -/
def crcTail (crcNoCheckit : Bool) (addr func : Byte) (body : List Byte) : List Byte :=
  if crcNoCheckit then [] else crcBytes (checkCRC (addr :: func :: body))

theorem wire_withCRC (crcNoCheckit : Bool) (addr func : Byte) (body : List Byte) :
    (Message.withCRC addr func body).wire crcNoCheckit =
      func :: (body ++ crcTail crcNoCheckit addr func body) := by
  cases crcNoCheckit with
  | false => rfl
  | true =>
    have length : (body ++ crcBytes (checkCRC (addr :: func :: body))).length - szCRC =
        body.length := by
      rw [List.length_append]
      exact Nat.add_sub_cancel body.length 2
    show func :: (body ++ crcBytes _).take ((body ++ crcBytes _).length - szCRC) = func :: (body ++ [])
    rw [length, List.take_left, List.append_nil]

theorem crcTail_length (crcNoCheckit : Bool) (addr func : Byte) (body : List Byte) :
    (crcTail crcNoCheckit addr func body).length = crcLen crcNoCheckit := by
  cases crcNoCheckit <;> rfl

/-- The check sum that was sent is the right one. -/
theorem crcTail_ok (crcNoCheckit : Bool) (addr func : Byte) (body : List Byte) :
    ¬ (crcNoCheckit = false ∧
      (Message.mk addr func (body ++ crcTail crcNoCheckit addr func body)).pduCRC
        ((Message.mk addr func (body ++ crcTail crcNoCheckit addr func body)).pduLen - szCRC) ≠
      (Message.mk addr func (body ++ crcTail crcNoCheckit addr func body)).getCrc) := by
  rintro ⟨checked, wrong⟩
  subst checked
  exact wrong (Message.crc_withCRC addr func body)

variable {rest : List Byte}

section Received

variable {C : Type} {stream : C → List Byte} {I : C → Prop}

/-- **A request whose body has the length that its format announces.** -/
theorem recvPdu_withCRC {ch : Channel C} (delivers : Delivers ch.getNextData stream I)
    (cfg : Settings) {c : C} (inv : I c) {addr func : Byte} (fn : SlaveFunctionCode)
    {body : List Byte}
    (bytes : stream c = (Message.withCRC addr func body).wire cfg.crcNoCheckit ++ rest)
    (known : SlaveFunctionCode.ofByte func = some fn)
    (head : fn.format.first cfg.crcNoCheckit ≤ body.length + crcLen cfg.crcNoCheckit)
    (length : ∀ more, fn.dataLen cfg addr func (body ++ more) =
      body.length + crcLen cfg.crcNoCheckit) (second : ∀ more, fn.format.second cfg.crcNoCheckit
      ⟨addr, func, (body ++ more).take (fn.format.first cfg.crcNoCheckit)⟩ ≠ some 0)
    (format : ∀ more, checkFormat ⟨addr, func, body ++ more⟩ fn = .erNoError) :
    ∃ c', recvPdu ch cfg addr c = ((.erNoError,
        ⟨addr, func, body ++ crcTail cfg.crcNoCheckit addr func body⟩), c') ∧
      stream c' = rest := by
  rw [wire_withCRC, List.cons_append] at bytes
  obtain ⟨c₁, read, left, inv₁⟩ := delivers.streams.read_cons inv bytes
  have total : (body ++ crcTail cfg.crcNoCheckit addr func body).length =
      body.length + crcLen cfg.crcNoCheckit := by
    rw [List.length_append, crcTail_length]
  have data : fn.dataLen cfg addr func (stream c₁) =
      (body ++ crcTail cfg.crcNoCheckit addr func body).length := by
    rw [left, List.append_assoc, length, total]
  have whole : (stream c₁).take (fn.dataLen cfg addr func (stream c₁)) =
      body ++ crcTail cfg.crcNoCheckit addr func body := by
    rw [data, left, List.take_left]
  have enough : body.length + crcLen cfg.crcNoCheckit ≤ (stream c₁).length := by
    rw [left, List.length_append, total]
    exact Nat.le_add_right _ _
  have arrives : Arrives cfg fn addr func (stream c₁) := by
    refine ⟨Nat.le_trans head enough, by rw [data, total]; exact enough, ?_, ?_⟩
    · rw [whole]
      have right := crcTail_ok cfg.crcNoCheckit addr func body
      rw [not_and_or, not_not, Bool.not_eq_false] at right
      exact right
    · rw [whole]
      exact format _
  obtain ⟨c₂, received, after, -⟩ := recvData_arrives cfg delivers inv₁ arrives
    (by rw [left, List.append_assoc]; exact second _)
  refine ⟨c₂, ?_, by rw [after, data, left, List.drop_left]⟩
  rw [recvPdu, read]
  dsimp only
  rw [known]
  dsimp only
  rw [received, whole]

namespace ModbusClient

/-- **A reply of a fixed length**, unless it is a date. -/
theorem recvPdu_fixed {line : Line C} (delivers : Delivers line.getNextData stream I)
    (crcNoCheckit : Bool) {c : C} (inv : I c) {addr func : Byte} (fn : SlaveFunctionCode)
    {body : List Byte}
    (bytes : stream c = (Message.withCRC addr func body).wire crcNoCheckit ++ rest)
    (known : SlaveFunctionCode.ofByte func = some fn)
    (replied : replyFormat fn = some (.fixed body.length)) (noDate : fn ≠ .fnSetDateTime) :
    ∃ c', recvPdu line crcNoCheckit func addr c = some
        ((0, ⟨addr, func, body ++ crcTail crcNoCheckit addr func body⟩), c') ∧
      stream c' = rest := by
  rw [wire_withCRC, List.cons_append] at bytes
  have total : (ReplyFormat.fixed body.length).first crcNoCheckit =
      (body ++ crcTail crcNoCheckit addr func body).length := by
    rw [List.length_append, crcTail_length]
    rfl
  have enough : (body ++ crcTail crcNoCheckit addr func body).length ≤
      (body ++ crcTail crcNoCheckit addr func body ++ rest).length :=
    (List.sublist_append_left _ _).length_le
  obtain ⟨c', received, left, -⟩ := recvPdu_head delivers crcNoCheckit inv addr bytes known replied
    (total ▸ enough)
  rw [total, List.take_left] at received
  rw [total, List.drop_left] at left
  refine ⟨c', ?_, left⟩
  rw [received, recvRest, if_neg (crcTail_ok crcNoCheckit addr func body),
    if_neg fun date => noDate date.1]
  rfl

/-- **A reply whose head tells the length of the rest.** -/
theorem recvPdu_counted {line : Line C} (delivers : Delivers line.getNextData stream I)
    (crcNoCheckit : Bool) {c : C} (inv : I c) {addr func : Byte} (fn : SlaveFunctionCode)
    (head body : List Byte) {getDataLen : Message → Nat}
    (bytes : stream c = (Message.withCRC addr func (head ++ body)).wire crcNoCheckit ++ rest)
    (known : SlaveFunctionCode.ofByte func = some fn)
    (replied : replyFormat fn = some (.counted head.length getDataLen))
    (length : getDataLen ⟨addr, func, head⟩ = body.length) (pos : 0 < body.length)
    (room : head.length + (body.length + szCRC) ≤ szMessageData) :
    ∃ c', recvPdu line crcNoCheckit func addr c = some
        ((0, ⟨addr, func, (head ++ body) ++ crcTail crcNoCheckit addr func (head ++ body)⟩), c') ∧
      stream c' = rest := by
  rw [wire_withCRC, List.cons_append] at bytes
  generalize sum : crcTail crcNoCheckit addr func (head ++ body) = tail at bytes ⊢
  have sumLength : tail.length = crcLen crcNoCheckit := by
    rw [← sum, crcTail_length]
  have right := crcTail_ok crcNoCheckit addr func (head ++ body)
  rw [sum] at right
  have regroup : head ++ body ++ tail ++ rest = head ++ (body ++ tail ++ rest) := by
    simp only [List.append_assoc]
  rw [regroup] at bytes
  obtain ⟨c₁, received, left, inv₁⟩ := recvPdu_head delivers crcNoCheckit inv addr bytes known
    replied (List.sublist_append_left _ _).length_le
  have first : (ReplyFormat.counted head.length getDataLen).first crcNoCheckit = head.length := rfl
  rw [first, List.take_left] at received
  rw [first, List.drop_left] at left
  have total : body.length + crcLen crcNoCheckit = (body ++ tail).length := by
    rw [List.length_append, sumLength]
  have fits : head.length + (body ++ tail).length ≤ szMessageData := by
    have small : crcLen crcNoCheckit ≤ szCRC := by cases crcNoCheckit <;> decide
    rw [← total]
    omega
  obtain ⟨c₂, second, after, -⟩ := receive_all delivers inv₁ (n := (body ++ tail).length)
    (by rw [← total]; omega)
    (by rw [left]; exact (List.sublist_append_left _ _).length_le)
    ⟨addr, func, head⟩ fits (checkCrc crcNoCheckit)
  rw [left, List.drop_left] at after
  rw [left, List.take_left, ← List.append_assoc] at second
  refine ⟨c₂, ?_, after⟩
  rw [received, recvRest, length, total, second, checkCrc, if_neg right]
  rfl

end ModbusClient

end Received

/-! ### The two sides agree -/

theorem DiagnosticsSubFunction.known (subf : DiagnosticsSubFunction) :
    szRequestDiagnosticData subf.toNat = some 1 := by
  cases subf <;> rfl

theorem DiagnosticsSubFunction.toNat_lt (subf : DiagnosticsSubFunction) : subf.toNat < 65536 := by
  cases subf <;> decide

theorem wordAt_words (addr func : Byte) {first second : Nat} (small : first < 65536)
    (small' : second < 65536) (more : List Byte) :
    (Message.mk addr func (wordBytes first ++ wordBytes second ++ more)).wordAt 0 = first ∧
      (Message.mk addr func (wordBytes first ++ wordBytes second ++ more)).wordAt 2 = second :=
  ⟨word_wordBytes first small, word_wordBytes second small'⟩

/-- **A request arrives** with its values, and only its bytes are taken. -/
def Recovered {C : Type} (ch : Channel C) (stream : C → List Byte) (cfg : Settings) (addr : Byte)
    (request : Request) (c : C) (rest : List Byte) : Prop :=
  ∃ m c' fn, recvPdu ch cfg addr c = ((.erNoError, m), c') ∧ stream c' = rest ∧ m.addr = addr ∧
    SlaveFunctionCode.ofByte m.func = some fn ∧ m.decode fn = .ok request

/-- **A request of two words arrives.** -/
theorem twoWords_arrives {C : Type} {ch : Channel C} {stream : C → List Byte} {I : C → Prop}
    (delivers : Delivers ch.getNextData stream I) (cfg : Settings) {c : C} (inv : I c)
    {addr func : Byte} (fn : SlaveFunctionCode) (request : Request) {first second : Nat}
    (bytes : stream c = (Message.withCRC addr func (wordBytes first ++ wordBytes second)).wire
      cfg.crcNoCheckit ++ rest) (known : SlaveFunctionCode.ofByte func = some fn)
    (format : fn.format = .fixed 4 ∨ fn.format = .counted 2 (fun _ => 2))
    (free : ∀ m, checkFormat m fn = .erNoError)
    (decoded : ∀ m : Message, m.wordAt 0 = first → m.wordAt 2 = second → m.decode fn = .ok request)
    (small : first < 65536) (small' : second < 65536) :
    Recovered ch stream cfg addr request c rest := by
  have head : fn.format.first cfg.crcNoCheckit ≤
      (wordBytes first ++ wordBytes second).length + crcLen cfg.crcNoCheckit := by
    rcases format with fixed | counted
    · rw [fixed]
      exact Nat.le_refl _
    · rw [counted]
      exact Nat.le_trans (by decide : 2 ≤ 4) (Nat.le_add_right _ _)
  have length : ∀ more, fn.dataLen cfg addr func ((wordBytes first ++ wordBytes second) ++ more) =
      (wordBytes first ++ wordBytes second).length + crcLen cfg.crcNoCheckit := by
    intro more
    unfold SlaveFunctionCode.dataLen
    rcases format with fixed | counted
    · rw [fixed]
      rfl
    · rw [counted]
      show 2 + (2 + crcLen cfg.crcNoCheckit) = 4 + crcLen cfg.crcNoCheckit
      omega
  have second' : ∀ more, fn.format.second cfg.crcNoCheckit ⟨addr, func,
      ((wordBytes first ++ wordBytes second) ++ more).take
        (fn.format.first cfg.crcNoCheckit)⟩ ≠ some 0 := by
    intro more none
    rcases format with fixed | counted
    · rw [fixed] at none
      cases none
    · rw [counted] at none
      have zero : 2 + crcLen cfg.crcNoCheckit = 0 := Option.some.inj none
      omega
  obtain ⟨c', received, after⟩ := recvPdu_withCRC delivers cfg inv fn bytes known head length second'
    fun _ => free _
  obtain ⟨low, high⟩ := wordAt_words addr func small small'
    (crcTail cfg.crcNoCheckit addr func (wordBytes first ++ wordBytes second))
  exact ⟨_, c', fn, received, after, rfl, known, decoded _ low high⟩

theorem readInit_ok {limit : Nat} {make : Nat → Nat → Request} {start count : Nat}
    (allowed : count ≤ limit) (m : Message) (low : m.wordAt 0 = start) (high : m.wordAt 2 = count) :
    m.readInit limit make = .ok (make start count) := by
  rw [Message.readInit, low, high, if_neg (Nat.not_lt.mpr allowed)]

theorem diagnosticMessage_ok (subf : DiagnosticsSubFunction) {data : Nat} (m : Message)
    (low : m.wordAt 0 = subf.toNat) (high : m.wordAt 2 = data) :
    m.diagnosticMessage = .ok (.diagnostic subf.toNat [data]) := by
  rw [Message.diagnosticMessage, low, subf.known]
  show (if maxDataLen < 1 then _ else _ : Except MbErrCode Request) = _
  rw [if_neg (by decide)]
  show Except.ok (Request.diagnostic subf.toNat [m.wordAt 2]) = _
  rw [high]

theorem diagnostic_second (crcNoCheckit : Bool) (addr func : Byte) (subf : DiagnosticsSubFunction)
    (more : List Byte) :
    SlaveFunctionCode.fnDiagnostics.format.second crcNoCheckit
      ⟨addr, func, (wordBytes subf.toNat ++ more).take 2⟩ = some (2 + crcLen crcNoCheckit) := by
  have first : (Message.mk addr func ((wordBytes subf.toNat ++ more).take 2)).wordAt 0 =
      subf.toNat := word_wordBytes _ subf.toNat_lt
  show some ((szRequestDiagnosticData (Message.wordAt _ 0)).getD 0 * 2 + crcLen crcNoCheckit) = _
  rw [first, subf.known]
  rfl

section Agree

variable {C : Type} {stream : C → List Byte} {I : C → Prop}

/-- A diagnostic request arrives: its head tells the number of its words. -/
theorem diagnostic_arrives {ch : Channel C} (delivers : Delivers ch.getNextData stream I)
    (cfg : Settings) (addr : Byte) (subf : DiagnosticsSubFunction) (data : UInt16) {c : C}
    (inv : I c) (bytes : stream c =
      (DiagnosticMessage.transportMsgTo addr subf data).wire cfg.crcNoCheckit ++ rest) :
    Recovered ch stream cfg addr (.diagnostic subf.toNat [data.toNat]) c rest := by
  have second : ∀ more, SlaveFunctionCode.fnDiagnostics.format.second cfg.crcNoCheckit ⟨addr, 0x08,
      ((wordBytes subf.toNat ++ wordBytes data.toNat) ++ more).take
        (SlaveFunctionCode.fnDiagnostics.format.first cfg.crcNoCheckit)⟩ =
      some (2 + crcLen cfg.crcNoCheckit) := fun more =>
    diagnostic_second cfg.crcNoCheckit addr 0x08 subf (wordBytes data.toNat ++ more)
  obtain ⟨c', received, after⟩ := recvPdu_withCRC delivers cfg inv .fnDiagnostics bytes rfl
    (Nat.le_trans (by decide : 2 ≤ 4) (Nat.le_add_right _ _))
    (fun more => by
      rw [SlaveFunctionCode.dataLen, second]
      exact (Nat.add_assoc 2 2 _).symm)
    (fun more none => by
      rw [second] at none
      have zero := Option.some.inj none
      omega)
    (fun _ => rfl)
  obtain ⟨low, high⟩ := wordAt_words addr 0x08 subf.toNat_lt data.toNat_lt
    (crcTail cfg.crcNoCheckit addr 0x08 (wordBytes subf.toNat ++ wordBytes data.toNat))
  exact ⟨_, c', .fnDiagnostics, received, after, rfl, rfl, diagnosticMessage_ok subf _ low high⟩

/-- A request for the device identification arrives: only the check sum follows its head. -/
theorem mei_arrives {ch : Channel C} (delivers : Delivers ch.getNextData stream I) (cfg : Settings)
    (addr devID objID : Byte) {c : C} (inv : I c)
    (bytes : stream c = (MEIMessageRDI.makeTo addr devID objID).wire cfg.crcNoCheckit ++ rest) :
    Recovered ch stream cfg addr (.mei 0x0E devID objID) c rest := by
  obtain ⟨c', received, after⟩ := recvPdu_withCRC delivers cfg inv .fnMEI bytes rfl
    (Nat.le_add_right 3 _)
    (fun more => by
      cases unchecked : cfg.crcNoCheckit <;>
        simp [SlaveFunctionCode.dataLen, unchecked, SlaveFunctionCode.format, Format.first,
          Format.second, crcLen])
    (fun more => by
      cases unchecked : cfg.crcNoCheckit <;>
        simp [SlaveFunctionCode.format, Format.second, szCRC])
    (fun _ => rfl)
  exact ⟨_, c', .fnMEI, received, after, rfl, rfl, rfl⟩

/-- **Every carried request arrives.** -/
theorem ClientRequest.arrives {ch : Channel C} (delivers : Delivers ch.getNextData stream I)
    (cfg : Settings) (addr : Byte) (request : ClientRequest) (carried : request.Carried) {c : C}
    (inv : I c) (bytes : stream c = (request.makeTo addr).wire cfg.crcNoCheckit ++ rest) :
    Recovered ch stream cfg addr request.fields c rest := by
  cases request with
  | readCoil start count =>
    exact twoWords_arrives delivers cfg inv .fnReadCoilStatus _ bytes rfl (.inl rfl) (fun _ => rfl)
      (fun m => readInit_ok carried m) start.toNat_lt count.toNat_lt
  | readInputStatus start count =>
    exact twoWords_arrives delivers cfg inv .fnReadInputStatus _ bytes rfl (.inl rfl) (fun _ => rfl)
      (fun m => readInit_ok carried m) start.toNat_lt count.toNat_lt
  | readOutput start count =>
    exact twoWords_arrives delivers cfg inv .fnReadOutputRegisters _ bytes rfl (.inl rfl)
      (fun _ => rfl) (fun m => readInit_ok carried m) start.toNat_lt count.toNat_lt
  | readInput start count =>
    exact twoWords_arrives delivers cfg inv .fnReadInputRegisters _ bytes rfl (.inl rfl)
      (fun _ => rfl) (fun m => readInit_ok carried m) start.toNat_lt count.toNat_lt
  | forceSingleCoil start cmd =>
    exact twoWords_arrives delivers cfg inv .fnForceSingleCoil _ bytes rfl (.inr rfl) (fun _ => rfl)
      (fun m low high => by rw [Message.decode, low, high, fields]) start.toNat_lt
      (coilData cmd).toNat_lt
  | writeSingleOutput start data =>
    exact twoWords_arrives delivers cfg inv .fnWriteOutputSingleRegister _ bytes rfl (.inr rfl)
      (fun _ => rfl) (fun m low high => by rw [Message.decode, low, high, fields]) start.toNat_lt
      data.toNat_lt
  | diagnostic subf data => exact diagnostic_arrives delivers cfg addr subf data inv bytes
  | mei devID objID => exact mei_arrives delivers cfg addr devID objID inv bytes
  | setDateTime dt => exact absurd carried id
  | fileTransfer numfile numpacket =>
    have file : numfile.toUInt8.toNat = numfile.toNat := by
      rw [UInt16.toNat_toUInt8]
      exact Nat.mod_eq_of_lt carried.1
    have packet : numpacket.toUInt8.toNat = numpacket.toNat := by
      rw [UInt16.toNat_toUInt8]
      exact Nat.mod_eq_of_lt carried.2
    exact twoWords_arrives delivers cfg inv .fnFileTransfer _ bytes rfl (.inl rfl) (fun _ => rfl)
      (fun m low high => by rw [Message.decode, low, high, file, packet, fields])
      (Nat.lt_trans (UInt8.toNat_lt _) (by decide)) (Nat.lt_trans (UInt8.toNat_lt _) (by decide))

/-- **Every carried reply arrives.** -/
theorem ClientReply.arrives {line : ModbusClient.Line C}
    (delivers : Delivers line.getNextData stream I) (crcNoCheckit : Bool) (addr : Byte)
    (reply : ClientReply) (carried : reply.Carried) {c : C} (inv : I c)
    (bytes : stream c = (reply.makeTo addr).wire crcNoCheckit ++ rest) :
    ∃ m c' fn, ModbusClient.recvPdu line crcNoCheckit (reply.makeTo addr).func addr c =
        some ((MbErrCode.erNoError.toNat, m), c') ∧ stream c' = rest ∧ m.addr = addr ∧
      SlaveFunctionCode.ofByte m.func = some fn ∧ m.decodeReply fn = some (.ok reply.fields) := by
  cases reply with
  | forceSingleCoil start cmd =>
    obtain ⟨c', received, after⟩ := ModbusClient.recvPdu_fixed delivers crcNoCheckit inv
      .fnForceSingleCoil bytes rfl rfl (by decide)
    obtain ⟨low, high⟩ := wordAt_words addr 0x05 start.toNat_lt (coilData cmd).toNat_lt
      (crcTail crcNoCheckit addr 0x05 (wordBytes start.toNat ++ wordBytes (coilData cmd).toNat))
    exact ⟨_, c', .fnForceSingleCoil, received, after, rfl, rfl, by
      rw [Message.decodeReply, low, high, fields]⟩
  | writeSingleOutput start data =>
    obtain ⟨c', received, after⟩ := ModbusClient.recvPdu_fixed delivers crcNoCheckit inv
      .fnWriteOutputSingleRegister bytes rfl rfl (by decide)
    obtain ⟨low, high⟩ := wordAt_words addr 0x06 start.toNat_lt data.toNat_lt
      (crcTail crcNoCheckit addr 0x06 (wordBytes start.toNat ++ wordBytes data.toNat))
    exact ⟨_, c', .fnWriteOutputSingleRegister, received, after, rfl, rfl, by
      rw [Message.decodeReply, low, high, fields]⟩
  | diagnostic subf data =>
    have length : (szRequestDiagnosticData
        ((Message.mk addr 0x08 (wordBytes subf.toNat)).wordAt 0)).getD 0 * 2 =
        (wordBytes data.toNat).length := by
      have first : (Message.mk addr 0x08 (wordBytes subf.toNat)).wordAt 0 = subf.toNat :=
        word_wordBytes _ subf.toNat_lt
      rw [first, subf.known]
      rfl
    obtain ⟨c', received, after⟩ := ModbusClient.recvPdu_counted delivers crcNoCheckit inv
      .fnDiagnostics (wordBytes subf.toNat) (wordBytes data.toNat) bytes rfl rfl length
      (by decide : 0 < 2) (by decide : 2 + (2 + szCRC) ≤ ModbusClient.szMessageData)
    obtain ⟨low, high⟩ := wordAt_words addr 0x08 subf.toNat_lt data.toNat_lt
      (crcTail crcNoCheckit addr 0x08 (wordBytes subf.toNat ++ wordBytes data.toNat))
    exact ⟨_, c', .fnDiagnostics, received, after, rfl, rfl,
      congrArg some (diagnosticMessage_ok subf _ low high)⟩
  | setDateTime dt => exact absurd carried id

end Agree

/-- **Frames with a fixed format agree between the two sides**, for the values they carry. -/
theorem fixed_frames_agree {C D : Type} {ch : Channel C} {stream : C → List Byte} {I : C → Prop}
    (server : Delivers ch.getNextData stream I) {line : ModbusClient.Line D}
    {replies : D → List Byte} {J : D → Prop} (client : Delivers line.getNextData replies J)
    (cfg : Settings) (crcNoCheckit : Bool) (addr : Byte) :
    (∀ request : ClientRequest, request.Carried → ∀ c rest, I c →
      stream c = (request.makeTo addr).wire cfg.crcNoCheckit ++ rest →
      ∃ m c' fn, recvPdu ch cfg addr c = ((.erNoError, m), c') ∧ stream c' = rest ∧
        m.addr = addr ∧ SlaveFunctionCode.ofByte m.func = some fn ∧
        m.decode fn = .ok request.fields) ∧
    (∀ reply : ClientReply, reply.Carried → ∀ d rest, J d →
      replies d = (reply.makeTo addr).wire crcNoCheckit ++ rest →
      ∃ m d' fn, ModbusClient.recvPdu line crcNoCheckit (reply.makeTo addr).func addr d =
          some ((MbErrCode.erNoError.toNat, m), d') ∧ replies d' = rest ∧ m.addr = addr ∧
        SlaveFunctionCode.ofByte m.func = some fn ∧ m.decodeReply fn = some (.ok reply.fields)) :=
  ⟨fun request carried _ _ inv bytes => request.arrives server cfg addr carried inv bytes,
    fun reply carried _ _ inv bytes => reply.arrives client crcNoCheckit addr carried inv bytes⟩

/-! ### On a serial line -/

namespace RTUSlave

/-- The serial line, as a client reads it. -/
def clientLine : ModbusClient.Line Port where
  getNextData := receiveBlock
  cleanupChannel p := { p with input := [] }

/-- A slave that answers nothing. -/
def silentSlave : Channel Port := channel fun addr _ => (.erOperationFailed, ⟨addr, 0, []⟩)

def serial : Settings := { vaddr := [1] }

/-- The largest count of coils, and the reply to a coil. -/
theorem fixed_frames_agree_coils :
    (∃ m p fn, recvPdu silentSlave serial 1
        ⟨((ClientRequest.readCoil 0 2024).makeTo 1).wire false ++ [0x55], [], []⟩ =
        ((.erNoError, m), p) ∧ p.input = [0x55] ∧ m.addr = 1 ∧
      SlaveFunctionCode.ofByte m.func = some fn ∧ m.decode fn = .ok (.readCoil 0 2024)) ∧
    (∃ m p fn, ModbusClient.recvPdu clientLine false 0x05 1
        ⟨((ClientReply.forceSingleCoil 7 true).makeTo 1).wire false ++ [0x55], [], []⟩ =
        some ((0, m), p) ∧ p.input = [0x55] ∧ m.addr = 1 ∧
      SlaveFunctionCode.ofByte m.func = some fn ∧
      m.decodeReply fn = some (.ok (.forceSingleCoil 7 0xFF00))) := by
  have server : Delivers silentSlave.getNextData Port.input fun _ => True := delivers
  have client : Delivers clientLine.getNextData Port.input fun _ => True := delivers
  obtain ⟨request, reply⟩ := fixed_frames_agree server client serial false 1
  exact ⟨request (.readCoil 0 2024) (by decide : 2024 ≤ maxPduLen * bitsPerByte) _ [0x55] trivial rfl,
    reply (.forceSingleCoil 7 true) trivial _ [0x55] trivial rfl⟩

/-- **What does not arrive**: a count above the limit, which the constructor refuses, a date, and the
number of a file above 255. -/
theorem frames_that_differ :
    (∃ m p, recvPdu silentSlave serial 1
        ⟨((ClientRequest.readCoil 0 2025).makeTo 1).wire false, [], []⟩ = ((.erNoError, m), p) ∧
      m.decode .fnReadCoilStatus = .error .erPacketTooLong) ∧
    (∃ m p, recvPdu silentSlave serial 1
        ⟨((ClientRequest.setDateTime ⟨12, 30, 0, 1, 6, 24, 20⟩).makeTo 1).wire false, [], []⟩ =
        ((.erBadDataValue, m), p)) ∧
    (∃ m p, recvPdu silentSlave serial 1
        ⟨((ClientRequest.fileTransfer 256 0).makeTo 1).wire false, [], []⟩ = ((.erNoError, m), p) ∧
      m.decode .fnFileTransfer = .ok (.fileTransfer 0 0)) := by
  refine ⟨⟨(ClientRequest.readCoil 0 2025).makeTo 1, ⟨[], [], []⟩, ?_, ?_⟩,
    ⟨(ClientRequest.setDateTime ⟨12, 30, 0, 1, 6, 24, 20⟩).makeTo 1, ⟨[], [], []⟩, ?_⟩,
    ⟨(ClientRequest.fileTransfer 256 0).makeTo 1, ⟨[], [], []⟩, ?_, ?_⟩⟩ <;> decide +kernel

end RTUSlave

end UniSet.Modbus

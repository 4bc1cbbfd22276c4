/-
**Modbus: error codes, bytes, check sums and messages.**

* `MbErrCode` — the result of every exchange; codes below `erInternalErrorCode` are sent in replies.
* `word`, `wordBytes` — a 16-bit value on the wire, its high byte first (`SWAPSHORT`).
* `checkCRC` — the table-driven CRC-16 of the serial line.
* `Message` — `ModbusMessage`: the header of the PDU and the received or encoded bytes after it. A
  read beyond them finds the zeros of the cleared buffer.
* `Request`, `decode` — the fourteen message classes a server constructs from a message. The
  constructors of the four reading functions and of the diagnostics throw for a number they do not
  allow.
-/

import Mathlib.Data.List.Basic
import Mathlib.Tactic.SplitIfs

namespace UniSet.Modbus

/-- `mbErrCode`. -/
inductive MbErrCode
  | erNoError | erUnExpectedPacketType | erBadDataAddress | erBadDataValue | erHardwareError
  | erAnknowledge | erSlaveBusy | erOperationFailed | erMemoryParityError | erGatewayUnavailable
  | erGatewayTargetUnavailable
  | erInternalErrorCode | erInvalidFormat | erBadCheckSum | erBadReplyNodeAddress | erTimeOut
  | erPacketTooLong | erSessionClosed
deriving DecidableEq, Repr

namespace MbErrCode

/-- The number of a code. -/
def toNat : MbErrCode → Nat
  | erNoError => 0
  | erUnExpectedPacketType => 1
  | erBadDataAddress => 2
  | erBadDataValue => 3
  | erHardwareError => 4
  | erAnknowledge => 5
  | erSlaveBusy => 6
  | erOperationFailed => 7
  | erMemoryParityError => 8
  | erGatewayUnavailable => 10
  | erGatewayTargetUnavailable => 11
  | erInternalErrorCode => 100
  | erInvalidFormat => 111
  | erBadCheckSum => 112
  | erBadReplyNodeAddress => 113
  | erTimeOut => 114
  | erPacketTooLong => 115
  | erSessionClosed => 116

/-- `err < erInternalErrorCode`: the code is sent in a reply. -/
def isReply (e : MbErrCode) : Bool := decide (e.toNat < erInternalErrorCode.toNat)

end MbErrCode

/-- `ModbusByte`, `ModbusAddr`. -/
abbrev Byte := UInt8

/-- A `ModbusData` of two bytes of the wire. -/
def word (hi lo : Byte) : Nat := hi.toNat * 256 + lo.toNat

/-- The bytes of a `ModbusData`, as they are sent. -/
def wordBytes (w : Nat) : List Byte := [UInt8.ofNat (w / 256), UInt8.ofNat w]

theorem word_wordBytes (w : Nat) (h : w < 65536) :
    word (UInt8.ofNat (w / 256)) (UInt8.ofNat w) = w := by
  simp only [word, UInt8.toNat_ofNat']
  omega

/-- The largest amount of data of a packet. -/
def maxLenPacket : Nat := 508

/-- `BroadcastAddr`. -/
def broadcastAddr : Byte := 0

def maxPduLen : Nat := 253

/-- The largest number of registers of one request. -/
def maxDataLen : Nat := 125

def bitsPerByte : Nat := 8

def szModbusHeader : Nat := 2

def szCRC : Nat := 2

/-- Set in the function code of an error reply. -/
def mbErrMask : Byte := 0x80

/-! ### The check sum -/

/-- `crc_16_tab`. -/
def crc16Tab : List Nat :=
  [0x0000, 0xc0c1, 0xc181, 0x0140, 0xc301, 0x03c0, 0x0280, 0xc241,
    0xc601, 0x06c0, 0x0780, 0xc741, 0x0500, 0xc5c1, 0xc481, 0x0440,
    0xcc01, 0x0cc0, 0x0d80, 0xcd41, 0x0f00, 0xcfc1, 0xce81, 0x0e40,
    0x0a00, 0xcac1, 0xcb81, 0x0b40, 0xc901, 0x09c0, 0x0880, 0xc841,
    0xd801, 0x18c0, 0x1980, 0xd941, 0x1b00, 0xdbc1, 0xda81, 0x1a40,
    0x1e00, 0xdec1, 0xdf81, 0x1f40, 0xdd01, 0x1dc0, 0x1c80, 0xdc41,
    0x1400, 0xd4c1, 0xd581, 0x1540, 0xd701, 0x17c0, 0x1680, 0xd641,
    0xd201, 0x12c0, 0x1380, 0xd341, 0x1100, 0xd1c1, 0xd081, 0x1040,
    0xf001, 0x30c0, 0x3180, 0xf141, 0x3300, 0xf3c1, 0xf281, 0x3240,
    0x3600, 0xf6c1, 0xf781, 0x3740, 0xf501, 0x35c0, 0x3480, 0xf441,
    0x3c00, 0xfcc1, 0xfd81, 0x3d40, 0xff01, 0x3fc0, 0x3e80, 0xfe41,
    0xfa01, 0x3ac0, 0x3b80, 0xfb41, 0x3900, 0xf9c1, 0xf881, 0x3840,
    0x2800, 0xe8c1, 0xe981, 0x2940, 0xeb01, 0x2bc0, 0x2a80, 0xea41,
    0xee01, 0x2ec0, 0x2f80, 0xef41, 0x2d00, 0xedc1, 0xec81, 0x2c40,
    0xe401, 0x24c0, 0x2580, 0xe541, 0x2700, 0xe7c1, 0xe681, 0x2640,
    0x2200, 0xe2c1, 0xe381, 0x2340, 0xe101, 0x21c0, 0x2080, 0xe041,
    0xa001, 0x60c0, 0x6180, 0xa141, 0x6300, 0xa3c1, 0xa281, 0x6240,
    0x6600, 0xa6c1, 0xa781, 0x6740, 0xa501, 0x65c0, 0x6480, 0xa441,
    0x6c00, 0xacc1, 0xad81, 0x6d40, 0xaf01, 0x6fc0, 0x6e80, 0xae41,
    0xaa01, 0x6ac0, 0x6b80, 0xab41, 0x6900, 0xa9c1, 0xa881, 0x6840,
    0x7800, 0xb8c1, 0xb981, 0x7940, 0xbb01, 0x7bc0, 0x7a80, 0xba41,
    0xbe01, 0x7ec0, 0x7f80, 0xbf41, 0x7d00, 0xbdc1, 0xbc81, 0x7c40,
    0xb401, 0x74c0, 0x7580, 0xb541, 0x7700, 0xb7c1, 0xb681, 0x7640,
    0x7200, 0xb2c1, 0xb381, 0x7340, 0xb101, 0x71c0, 0x7080, 0xb041,
    0x5000, 0x90c1, 0x9181, 0x5140, 0x9301, 0x53c0, 0x5280, 0x9241,
    0x9601, 0x56c0, 0x5780, 0x9741, 0x5500, 0x95c1, 0x9481, 0x5440,
    0x9c01, 0x5cc0, 0x5d80, 0x9d41, 0x5f00, 0x9fc1, 0x9e81, 0x5e40,
    0x5a00, 0x9ac1, 0x9b81, 0x5b40, 0x9901, 0x59c0, 0x5880, 0x9841,
    0x8801, 0x48c0, 0x4980, 0x8941, 0x4b00, 0x8bc1, 0x8a81, 0x4a40,
    0x4e00, 0x8ec1, 0x8f81, 0x4f40, 0x8d01, 0x4dc0, 0x4c80, 0x8c41,
    0x4400, 0x84c1, 0x8581, 0x4540, 0x8701, 0x47c0, 0x4680, 0x8641,
    0x8201, 0x42c0, 0x4380, 0x8341, 0x4100, 0x81c1, 0x8081, 0x4040]

/-- `get_crc_16`. -/
def getCrc16 (crc : Nat) : List Byte → Nat
  | [] => crc
  | b :: rest => getCrc16 ((crc >>> 8) ^^^ crc16Tab.getD ((crc ^^^ b.toNat) &&& 0xff) 0) rest

/-- **`checkCRC`.** -/
def checkCRC (bytes : List Byte) : Nat := getCrc16 0xffff bytes

/-- The check sum as it lies in memory, its low byte first. -/
def crcBytes (crc : Nat) : List Byte := [UInt8.ofNat crc, UInt8.ofNat (crc / 256)]

/-! ### Messages -/

/-- **`ModbusMessage`.** `dlen` is the length of `data`. -/
structure Message where
  addr : Byte
  func : Byte
  data : List Byte
deriving DecidableEq, Repr

namespace Message

/-- `data[i]`. -/
def byteAt (m : Message) (i : Nat) : Byte := m.data.getD i 0

/-- The word at `data[i]`. -/
def wordAt (m : Message) (i : Nat) : Nat := word (m.byteAt i) (m.byteAt (i + 1))

/-- `pduLen`. -/
def pduLen (m : Message) : Nat := szModbusHeader + m.data.length

/-- `pduCRC`: the check sum of the first `n` bytes, the header included. -/
def pduCRC (m : Message) (n : Nat) : Nat := checkCRC ((m.addr :: m.func :: m.data).take n)

/-- `getCrc`: the last two bytes of the data. -/
def getCrc (m : Message) : Nat :=
  (m.byteAt (m.data.length - szCRC)).toNat + (m.byteAt (m.data.length - szCRC + 1)).toNat * 256

/-- A message for the wire: its data, and the check sum after them. -/
def withCRC (addr func : Byte) (body : List Byte) : Message :=
  ⟨addr, func, body ++ crcBytes (checkCRC (addr :: func :: body))⟩

end Message

/-- **`ErrorRetMessage::make_to`.** -/
def errorRetMessage (addr func : Byte) (ecode : MbErrCode) : Message :=
  .withCRC addr (func ||| mbErrMask) [UInt8.ofNat ecode.toNat]

/-- The functions a server serves. -/
inductive SlaveFunctionCode
  | fnReadCoilStatus | fnReadInputStatus | fnReadOutputRegisters | fnReadInputRegisters
  | fnForceSingleCoil | fnWriteOutputSingleRegister | fnDiagnostics | fnForceMultipleCoils
  | fnWriteOutputRegisters | fnMEI | fnSetDateTime | fnRemoteService | fnJournalCommand
  | fnFileTransfer
deriving DecidableEq, Repr

/-- The function of a code, if the server serves it. -/
def SlaveFunctionCode.ofByte (b : Byte) : Option SlaveFunctionCode :=
  match b.toNat with
  | 0x01 => some .fnReadCoilStatus
  | 0x02 => some .fnReadInputStatus
  | 0x03 => some .fnReadOutputRegisters
  | 0x04 => some .fnReadInputRegisters
  | 0x05 => some .fnForceSingleCoil
  | 0x06 => some .fnWriteOutputSingleRegister
  | 0x08 => some .fnDiagnostics
  | 0x0F => some .fnForceMultipleCoils
  | 0x10 => some .fnWriteOutputRegisters
  | 0x2B => some .fnMEI
  | 0x50 => some .fnSetDateTime
  | 0x53 => some .fnRemoteService
  | 0x65 => some .fnJournalCommand
  | 0x66 => some .fnFileTransfer
  | _ => none

/-! ### The requests a server decodes -/

/-- `DiagnosticsSubFunction`: `szRequestDiagnosticData` is one word for each of them and `-1` for
every other number. -/
def szRequestDiagnosticData (subf : Nat) : Option Nat :=
  if subf ≤ 0x04 ∨ (0x0A ≤ subf ∧ subf ≤ 0x12) ∨ subf = 0x14 then some 1 else none

/-- The fields of a `SetDateTimeMessage`. -/
structure DateTime where
  hour : Nat
  min : Nat
  sec : Nat
  day : Nat
  mon : Nat
  year : Nat
  century : Nat
deriving DecidableEq, Repr

/-- A decoded request. -/
inductive Request
  | readCoil (start count : Nat)
  | readInputStatus (start count : Nat)
  | readOutput (start count : Nat)
  | readInput (start count : Nat)
  | forceCoils (start quant bcnt : Nat) (data : List Byte)
  | writeOutput (start quant bcnt : Nat) (data : List Nat)
  | diagnostic (subf : Nat) (data : List Nat)
  | mei (type devID objID : Byte)
  | forceSingleCoil (start data : Nat)
  | writeSingleOutput (start data : Nat)
  | journalCommand
  | setDateTime (dt : DateTime)
  | remoteService (bcnt : Nat) (data : List Byte)
  | fileTransfer (numfile numpacket : Nat)
deriving DecidableEq, Repr

namespace Message

/-- The words of the data from byte `i` on. -/
def wordsAt (m : Message) (i : Nat) : Nat → List Nat
  | 0 => []
  | n + 1 => m.wordAt i :: m.wordsAt (i + 2) n

/-- `init` of the four reading messages: a count above the limit throws `erPacketTooLong`. -/
def readInit (limit : Nat) (make : Nat → Nat → Request) (m : Message) : Except MbErrCode Request :=
  if limit < m.wordAt 2 then .error .erPacketTooLong else .ok (make (m.wordAt 0) (m.wordAt 2))

/-- `ReadCoilMessage::init`. -/
def readCoilMessage : Message → Except MbErrCode Request :=
  readInit (maxPduLen * bitsPerByte) .readCoil

/-- `ReadInputStatusMessage::init`. -/
def readInputStatusMessage : Message → Except MbErrCode Request :=
  readInit (maxPduLen * bitsPerByte) .readInputStatus

/-- `ReadOutputMessage::init`. -/
def readOutputMessage : Message → Except MbErrCode Request := readInit maxDataLen .readOutput

/-- `ReadInputMessage::init`. -/
def readInputMessage : Message → Except MbErrCode Request := readInit maxDataLen .readInput

/-- `ForceCoilsMessage::checkFormat` and its like look at the function code only.
`WriteOutputMessage::checkFormat` compares the two counts. -/
def writeOutputCheckFormat (m : Message) : Bool := (m.byteAt 4).toNat == m.wordAt 2 * 2

/-- `ForceCoilsMessage::init`. -/
def forceCoilsMessage (m : Message) : Request :=
  .forceCoils (m.wordAt 0) (m.wordAt 2) (m.byteAt 4).toNat (m.data.drop 5)

/-- `WriteOutputMessage::init`: a message with the wrong format is cleared. -/
def writeOutputMessage (m : Message) : Request :=
  let bcnt := if m.writeOutputCheckFormat then (m.byteAt 4).toNat else 0
  .writeOutput (m.wordAt 0) (m.wordAt 2) bcnt (m.wordsAt 5 (bcnt / 2))

/-- **`DiagnosticMessage::init`.** The `-1` of an unknown sub-function is a `size_t` and larger than
`MAXDATALEN`. -/
def diagnosticMessage (m : Message) : Except MbErrCode Request :=
  match szRequestDiagnosticData (m.wordAt 0) with
  | none => .error .erPacketTooLong
  | some count =>
    if maxDataLen < count then .error .erPacketTooLong
    else .ok (.diagnostic (m.wordAt 0) (m.wordsAt 2 count))

/-- `SetDateTimeMessage( const ModbusMessage& )`: the object is cleared, and only the header of the
message is copied into it. -/
def setDateTimeMessage (_ : Message) : DateTime := ⟨0, 0, 0, 0, 0, 0, 0⟩

/-- `SetDateTimeMessage::checkFormat`. -/
def setDateTimeCheckFormat (m : Message) : Bool :=
  let dt := m.setDateTimeMessage
  decide (dt.hour ≤ 23 ∧ dt.min ≤ 59 ∧ dt.sec ≤ 59 ∧ 1 ≤ dt.day ∧ dt.day ≤ 31 ∧ 1 ≤ dt.mon ∧
    dt.mon ≤ 12 ∧ dt.year ≤ 99 ∧ 19 ≤ dt.century ∧ dt.century ≤ 20)

/-- **The message constructors of `ModbusServer::processing`.** `JournalCommandMessage` copies the
header only and leaves its two fields unset. -/
def decode (m : Message) : SlaveFunctionCode → Except MbErrCode Request
  | .fnReadCoilStatus => m.readCoilMessage
  | .fnReadInputStatus => m.readInputStatusMessage
  | .fnReadOutputRegisters => m.readOutputMessage
  | .fnReadInputRegisters => m.readInputMessage
  | .fnForceMultipleCoils => .ok m.forceCoilsMessage
  | .fnWriteOutputRegisters => .ok m.writeOutputMessage
  | .fnDiagnostics => m.diagnosticMessage
  | .fnMEI => .ok (.mei (m.byteAt 0) (m.byteAt 1) (m.byteAt 2))
  | .fnForceSingleCoil => .ok (.forceSingleCoil (m.wordAt 0) (m.wordAt 2))
  | .fnWriteOutputSingleRegister => .ok (.writeSingleOutput (m.wordAt 0) (m.wordAt 2))
  | .fnJournalCommand => .ok .journalCommand
  | .fnSetDateTime => .ok (.setDateTime m.setDateTimeMessage)
  | .fnRemoteService => .ok (.remoteService (m.byteAt 0).toNat (m.data.drop 1))
  | .fnFileTransfer => .ok (.fileTransfer (m.wordAt 0) (m.wordAt 2))

/-- **The number in the request is out of range**: a count of a reading function above its limit, or
an unknown diagnostic sub-function. -/
def OutOfRange (m : Message) : SlaveFunctionCode → Prop
  | .fnReadCoilStatus | .fnReadInputStatus => maxPduLen * bitsPerByte < m.wordAt 2
  | .fnReadOutputRegisters | .fnReadInputRegisters => maxDataLen < m.wordAt 2
  | .fnDiagnostics => szRequestDiagnosticData (m.wordAt 0) = none
  | _ => False

/-- A value that was constructed threw nothing. -/
theorem not_thrown {r : Request} : ¬ ∃ e, (Except.ok r : Except MbErrCode Request) = .error e := by
  rintro ⟨e, thrown⟩
  cases thrown

theorem readInit_error {limit : Nat} {make : Nat → Nat → Request} {m : Message} :
    (∃ e, m.readInit limit make = .error e) ↔ limit < m.wordAt 2 := by
  by_cases above : limit < m.wordAt 2
  · rw [readInit, if_pos above]
    exact iff_of_true ⟨_, rfl⟩ above
  · rw [readInit, if_neg above]
    exact iff_of_false not_thrown above

theorem diagnosticMessage_error {m : Message} :
    (∃ e, m.diagnosticMessage = .error e) ↔ szRequestDiagnosticData (m.wordAt 0) = none := by
  unfold diagnosticMessage szRequestDiagnosticData
  split
  · rename_i unknown
    exact iff_of_true ⟨_, rfl⟩ unknown
  · rename_i count known
    have one : count = 1 := by
      split at known
      · exact (Option.some.inj known).symm
      · cases known
    rw [one, if_neg (by decide), known]
    exact iff_of_false not_thrown (Option.some_ne_none count)

/-- **A constructor throws exactly if the number is out of range.** -/
theorem decode_error {m : Message} {fn : SlaveFunctionCode} :
    (∃ e, m.decode fn = .error e) ↔ m.OutOfRange fn := by
  cases fn with
  | fnReadCoilStatus => exact readInit_error
  | fnReadInputStatus => exact readInit_error
  | fnReadOutputRegisters => exact readInit_error
  | fnReadInputRegisters => exact readInit_error
  | fnDiagnostics => exact diagnosticMessage_error
  | _ => exact iff_of_false not_thrown id

end Message

end UniSet.Modbus

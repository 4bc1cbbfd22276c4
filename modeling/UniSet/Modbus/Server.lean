/-
**`ModbusServer`: receiving, processing and answering one request.**

The functions are those of the base class; what a subclass overrides is a `Channel`: reading and
draining the line, the header of an answer, sending, and the handlers of the requests.

* `recvPdu`, `recv` — the bytes of one request. Every exception of the channel is caught, so both
  return a code.
* `send` — the answer, with its two length checks.
* `processing` — the message constructor, the handler and the answer. No handler of an exception
  surrounds it: the exception of a constructor escapes.
* **`processing_escapes_iff`** — it escapes exactly if the number in the request is out of range.
-/

import UniSet.Modbus.Types

namespace UniSet.Modbus

/-- The exceptions of a channel. -/
inductive Exc
  | timeOut | commFailed | systemError
  | mbException (err : MbErrCode)
deriving DecidableEq, Repr

/-- **What a subclass of `ModbusServer` overrides.** -/
structure Channel (C : Type) where
  /-- At most so many bytes of the line. -/
  getNextData : Nat → C → Except Exc (List Byte) × C
  cleanupChannel : C → C
  /-- `mbaphead.len` of the buffer the request came in. -/
  aduLen : C → Nat
  /-- `make_adu_header`: `mbaphead.len` of the answer. -/
  makeAduHeader : Message → C → Nat
  sendData : Message → C → C
  /-- The handler of a request: its code, and its reply as `transport_msg_to` encodes it. -/
  handle : Byte → Request → C → (MbErrCode × Message) × C

/-- The settings of a server. -/
structure Settings where
  /-- The addresses it answers. -/
  vaddr : List Byte
  onBroadcast : Bool := false
  crcNoCheckit : Bool := false
  cleanBeforeSend : Bool := false
deriving DecidableEq, Repr

/-- `ModbusServer::checkAddr`. -/
def checkAddr (vaddr : List Byte) (addr : Byte) : Bool := addr == broadcastAddr || vaddr.contains addr

/-! ### The bytes of a request -/

/-- How many bytes a function brings: a fixed number that the check sum follows, a head that says how
many more there are, or a head alone that only the check sum can follow. -/
inductive Format
  | fixed (szData : Nat)
  | counted (szHead : Nat) (getDataLen : Message → Nat)
  | headOnly (szHead : Nat)

/-- The `switch` of `recv_pdu`, with the `szData`, `szHead` and `getDataLen` of the message classes. -/
def SlaveFunctionCode.format : SlaveFunctionCode → Format
  | .fnReadCoilStatus | .fnReadInputStatus | .fnReadOutputRegisters | .fnReadInputRegisters => .fixed 4
  | .fnJournalCommand => .fixed 4
  | .fnSetDateTime => .fixed 7
  | .fnFileTransfer => .fixed 4
  | .fnForceMultipleCoils | .fnWriteOutputRegisters => .counted 5 fun m => (m.byteAt 4).toNat
  | .fnForceSingleCoil | .fnWriteOutputSingleRegister => .counted 2 fun _ => 2
  | .fnDiagnostics => .counted 2 fun m => (szRequestDiagnosticData (m.wordAt 0)).getD 0 * 2
  | .fnMEI => .headOnly 3
  | .fnRemoteService => .counted 1 fun m => (m.byteAt 0).toNat

/-- The bytes of the check sum, as far as they are received. -/
def crcLen (crcNoCheckit : Bool) : Nat := if crcNoCheckit then 0 else szCRC

/-- The length of the first read. -/
def Format.first (crcNoCheckit : Bool) : Format → Nat
  | .fixed szData => szData + crcLen crcNoCheckit
  | .counted szHead _ => szHead
  | .headOnly szHead => szHead

/-- The length of the second read, if there is one. -/
def Format.second (crcNoCheckit : Bool) (m : Message) : Format → Option Nat
  | .fixed _ => none
  | .counted _ getDataLen => some (getDataLen m + crcLen crcNoCheckit)
  | .headOnly _ => if crcNoCheckit then none else some szCRC

/-- The `checkFormat` of the functions that have one, with the code of a failure. -/
def checkFormat (m : Message) : SlaveFunctionCode → MbErrCode
  | .fnWriteOutputRegisters =>
    if m.writeOutputCheckFormat then .erNoError else .erInvalidFormat
  | .fnSetDateTime => if m.setDateTimeCheckFormat then .erNoError else .erBadDataValue
  | _ => .erNoError

section Server

variable {C : Type} (ch : Channel C) (cfg : Settings)

/-- The end of `recv_pdu`: the check sum, unless it is not checked, and the format. -/
def checkPdu (fn : SlaveFunctionCode) (m : Message) (c : C) : (MbErrCode × Message) × C :=
  if cfg.crcNoCheckit = false ∧ m.pduCRC (m.pduLen - szCRC) ≠ m.getCrc then
    ((.erBadCheckSum, m), ch.cleanupChannel c)
  else if checkFormat m fn = .erNoError then ((.erNoError, m), c)
  else ((checkFormat m fn, m), ch.cleanupChannel c)

/-- The check sum is right or is not looked at. -/
def CrcOk (cfg : Settings) (m : Message) : Prop :=
  cfg.crcNoCheckit = true ∨ m.pduCRC (m.pduLen - szCRC) = m.getCrc

theorem checkPdu_ok {fn : SlaveFunctionCode} {m : Message} (crcOk : CrcOk cfg m)
    (ok : checkFormat m fn = .erNoError) (c : C) :
    checkPdu ch cfg fn m c = ((.erNoError, m), c) := by
  have right : ¬ (cfg.crcNoCheckit = false ∧ m.pduCRC (m.pduLen - szCRC) ≠ m.getCrc) := by
    rintro ⟨checked, wrong⟩
    rcases crcOk with unchecked | right
    · rw [checked] at unchecked
      cases unchecked
    · exact wrong right
  rw [checkPdu, if_neg right, if_pos ok]

/-- The `catch` clauses of `recv_pdu`. -/
def pduHandler (m : Message) (c : C) : Exc → (MbErrCode × Message) × C
  | .mbException err => ((err, m), ch.cleanupChannel c)
  | .timeOut => ((.erTimeOut, m), c)
  | _ => ((.erHardwareError, m), ch.cleanupChannel c)

/-- The data of a request whose function is known. -/
def recvData (fn : SlaveFunctionCode) (m : Message) (c : C) : (MbErrCode × Message) × C :=
  match ch.getNextData (fn.format.first cfg.crcNoCheckit) c with
  | (.error ex, c) => pduHandler ch m c ex
  | (.ok data, c) =>
    let m := { m with data := data }
    if data.length < fn.format.first cfg.crcNoCheckit then
      ((.erInvalidFormat, m), ch.cleanupChannel c)
    else
      match fn.format.second cfg.crcNoCheckit m with
      | none => checkPdu ch cfg fn m c
      | some szDataLen =>
        match ch.getNextData szDataLen c with
        | (.error ex, c) => pduHandler ch m c ex
        | (.ok more, c) =>
          let m := { m with data := data ++ more }
          if more.length < szDataLen then ((.erInvalidFormat, m), ch.cleanupChannel c)
          else checkPdu ch cfg fn m c

/-- **`ModbusServer::recv_pdu`**, after the address. -/
def recvPdu (addr : Byte) (c : C) : (MbErrCode × Message) × C :=
  match ch.getNextData 1 c with
  | (.error ex, c) => pduHandler ch ⟨addr, 0, []⟩ c ex
  | (.ok [], c) => ((.erInvalidFormat, ⟨addr, 0, []⟩), ch.cleanupChannel c)
  | (.ok (func :: _), c) =>
    match SlaveFunctionCode.ofByte func with
    | none => ((.erUnExpectedPacketType, ⟨addr, func, []⟩), ch.cleanupChannel c)
    | some fn => recvData ch cfg fn ⟨addr, func, []⟩ c

/-- The loop of `recv` that waits for an address; `tmAbort` expires at the `n`-th look at it. -/
def waitAddr : Nat → C → Except Exc (Option Byte) × C
  | 0, c => (.ok none, c)
  | n + 1, c =>
    match ch.getNextData 1 c with
    | (.error ex, c) => (.error ex, c)
    | (.ok [], c) => waitAddr n c
    | (.ok (addr :: _), c) =>
      if checkAddr cfg.vaddr addr then (.ok (some addr), c) else waitAddr n c

/-- **`ModbusServer::recv`.** -/
def recv (tmAbort : Nat) (c : C) : (MbErrCode × Message) × C :=
  match waitAddr ch cfg tmAbort c with
  | (.error .timeOut, c) => ((.erTimeOut, ⟨0, 0, []⟩), c)
  | (.error .commFailed, c) => ((.erSessionClosed, ⟨0, 0, []⟩), ch.cleanupChannel c)
  | (.error _, c) => ((.erHardwareError, ⟨0, 0, []⟩), ch.cleanupChannel c)
  | (.ok none, c) => ((.erTimeOut, ⟨0, 0, []⟩), c)
  | (.ok (some addr), c) =>
    if ¬ (cfg.onBroadcast = true ∧ addr = broadcastAddr) ∧ checkAddr cfg.vaddr addr = false then
      ((.erBadReplyNodeAddress, ⟨addr, 0, []⟩), ch.cleanupChannel c)
    else recvPdu ch cfg addr c

/-! ### The answer -/

/-- `maxSizeOfMessage`, with the six bytes of the MBAP header. -/
def maxSizeOfMessage : Nat := maxLenPacket + szModbusHeader + 6

/-- `len`, for a given `mbaphead.len`. -/
def Message.len (m : Message) (aduLen : Nat) : Nat := if aduLen = 0 then m.pduLen else 6 + aduLen

/-- **`ModbusServer::send`.** `inTime` is whether `tmProcessing` has not expired yet. -/
def send (inTime : Bool) (m : Message) (c : C) : MbErrCode × C :=
  if maxSizeOfMessage < m.len (ch.aduLen c) then (.erPacketTooLong, c)
  else if maxSizeOfMessage < m.len (ch.makeAduHeader m c) then (.erPacketTooLong, c)
  else
    let c := if cfg.cleanBeforeSend then ch.cleanupChannel c else c
    if inTime then (.erNoError, ch.sendData m c) else (.erTimeOut, c)

/-- The part of `processing` that follows the message constructor: the handler, and its answer. An
error is answered unless it is internal or the request was a broadcast. -/
def answer (inTime : Bool) (m : Message) (request : Request) (c : C) : MbErrCode × C :=
  let handled := ch.handle m.addr request c
  let err := handled.1.1
  if err ≠ .erNoError then
    if err.isReply = true ∧ m.addr ≠ broadcastAddr then
      send ch cfg inTime (errorRetMessage m.addr m.func err) handled.2
    else (err, handled.2)
  else send ch cfg inTime handled.1.2 handled.2

/-- **`ModbusServer::processing`.** An `mbException` of a message constructor is not caught. -/
def processing (inTime : Bool) (m : Message) (c : C) : Except MbErrCode MbErrCode × C :=
  match SlaveFunctionCode.ofByte m.func with
  | none =>
    (.ok .erUnExpectedPacketType,
      (send ch cfg inTime (errorRetMessage m.addr m.func .erUnExpectedPacketType) c).2)
  | some fn =>
    match m.decode fn with
    | .error err => (.error err, c)
    | .ok request =>
      let answered := answer ch cfg inTime m request c
      (.ok answered.1, answered.2)

/-- **An exception escapes from `processing` exactly if the number in the request is out of range.** -/
theorem processing_escapes_iff {inTime : Bool} {m : Message} {c : C} :
    (∃ err, (processing ch cfg inTime m c).1 = .error err) ↔
      ∃ fn, SlaveFunctionCode.ofByte m.func = some fn ∧ m.OutOfRange fn := by
  unfold processing
  cases known : SlaveFunctionCode.ofByte m.func with
  | none =>
    constructor
    · rintro ⟨err, thrown⟩
      cases thrown
    · rintro ⟨fn, found, -⟩
      cases found
  | some fn =>
    dsimp only
    constructor
    · rintro ⟨err, thrown⟩
      refine ⟨fn, rfl, Message.decode_error.mp ?_⟩
      cases decoded : m.decode fn with
      | error err' => exact ⟨err', rfl⟩
      | ok request =>
        rw [decoded] at thrown
        cases thrown
    · rintro ⟨fn', found, outOfRange⟩
      cases found
      obtain ⟨err, thrown⟩ := Message.decode_error.mpr outOfRange
      rw [thrown]
      exact ⟨err, rfl⟩

end Server

end UniSet.Modbus

/-
**`ModbusTCPSession`: one connection of a Modbus TCP server.**

* `Socket` — the bytes the client has written and nobody has read, and how many of them the next
  calls of `::read` return.
* `readDataFD`, `getDataFD`, `getNextData` — the receive queue. A call reads at least 255 bytes
  whatever length it asks for, and a call that gets nothing takes the connection for closed.
* `tcpProcessing` — the MBAP header. The queue is cleared first.
* `realReceive` — one request.
-/

import UniSet.Modbus.Server

namespace UniSet.Modbus

/-! ### The socket and the receive queue -/

/-- **The socket of a session.** -/
structure Socket where
  /-- What the client has written and nobody has read. -/
  kernel : List Byte
  /-- The most bytes each of the next calls of `::read` returns; later calls return all there are. -/
  cuts : List Nat
  /-- The client has closed its side. -/
  closed : Bool
deriving DecidableEq, Repr

/-- `::read` of at most `max` bytes: `none` is the end of the stream, no bytes are `EAGAIN`. -/
def Socket.read (max : Nat) (sock : Socket) : Option (List Byte) × Socket :=
  let k := min max (sock.cuts.headD max)
  (if sock.kernel = [] ∧ sock.closed = true then none else some (sock.kernel.take k),
    { sock with kernel := sock.kernel.drop k, cuts := sock.cuts.tail })

/-- `MBAPHeader`. -/
structure MBAPHeader where
  tID : Nat
  pID : Nat
  len : Nat
deriving DecidableEq, Repr

structure Session where
  sock : Socket
  qrecv : List Byte
  cancelled : Bool
  curQueryHeader : MBAPHeader
  /-- The answers, with the transaction they belong to. -/
  qsend : List (Nat × Message)
  /-- The requests that were handled, with their transaction and address. -/
  handled : List (Nat × Byte × Request)
deriving DecidableEq, Repr

namespace Session

/-- `DEFAULT_BUFFER_SIZE_FOR_READ`. -/
def defaultBufferSizeForRead : Nat := 255

/-- **`ModbusTCPCore::readDataFD`**, with one attempt: `none` is `CommFailed`. -/
def readDataFD (max : Nat) (s : Session) : Option Nat × Session :=
  let max := Nat.max max defaultBufferSizeForRead
  match s.sock.read max with
  | (none, sock) => (none, { s with sock := sock })
  | (some bytes, sock) =>
    (some (min (s.qrecv ++ bytes).length max), { s with sock := sock, qrecv := s.qrecv ++ bytes })

/-- Take at most `len` bytes off the queue. -/
def popData (len : Nat) (s : Session) : List Byte × Session :=
  (s.qrecv.take len, { s with qrecv := s.qrecv.drop len })

/-- **`ModbusTCPCore::getDataFD`.** A length of zero is taken for seven if the queue is empty. -/
def getDataFD (len : Nat) (s : Session) : List Byte × Session :=
  if s.qrecv = [] ∨ s.qrecv.length < len then
    let len := if len = 0 then 7 else len
    let s := (s.readDataFD len).2
    if s.qrecv = [] then ([], s) else s.popData len
  else s.popData len

/-- **`ModbusTCPSession::getNextData`**: nothing means that the client has disconnected. -/
def getNextData (len : Nat) (s : Session) : List Byte × Session :=
  match s.getDataFD len with
  | ([], s) => ([], { s with cancelled := true })
  | (bytes, s) => (bytes, s)

theorem getNextData_pop {s t : Session} {n : Nat} (data : s.getDataFD n = t.popData n)
    (popped : t.qrecv.take n ≠ []) :
    s.getNextData n = (t.qrecv.take n, { t with qrecv := t.qrecv.drop n }) := by
  rw [getNextData, data, popData]
  split
  · rename_i none
    exact absurd (Prod.mk.inj none).1 popped
  · rename_i some
    obtain ⟨bytes, state⟩ := Prod.mk.inj some
    rw [bytes, state]

theorem take_ne_nil {bytes : List Byte} {n : Nat} (pos : 0 < n) (enough : n ≤ bytes.length) :
    bytes.take n ≠ [] := by
  intro none
  have := congrArg List.length none
  rw [List.length_take_of_le enough, List.length_nil] at this
  omega

/-- A call that finds enough in the queue takes it from there. -/
theorem getNextData_queue {s : Session} {n : Nat} (pos : 0 < n) (enough : n ≤ s.qrecv.length) :
    s.getNextData n = (s.qrecv.take n, { s with qrecv := s.qrecv.drop n }) := by
  have queued : ¬ (s.qrecv = [] ∨ s.qrecv.length < n) := by
    rintro (empty | short)
    · rw [empty] at enough
      exact absurd pos (Nat.not_lt.mpr enough)
    · exact absurd enough (Nat.not_le.mpr short)
  exact getNextData_pop (if_neg queued) (take_ne_nil pos enough)

/-- `cleanInputStream`, with at most `n` turns of its loop. -/
def cleanInputStream : Nat → Session → Session
  | 0, s => s
  | n + 1, s =>
    match s.getNextData 128 with
    | ([], s) => s
    | (_, s) => cleanInputStream n s

/-- **`ModbusTCPSession::cleanupChannel`.** Every turn takes a byte, so there are not more turns than
bytes. -/
def cleanupChannel (s : Session) : Session :=
  s.cleanInputStream (s.qrecv.length + s.sock.kernel.length + 1)

end Session

/-- **The channel of a session**, for the handlers of its server. -/
def tcpChannel (handler : Byte → Request → MbErrCode × Message) : Channel Session where
  getNextData n s := (.ok (s.getNextData n).1, (s.getNextData n).2)
  cleanupChannel := Session.cleanupChannel
  aduLen s := s.curQueryHeader.len
  makeAduHeader m _ := (m.pduLen - szCRC) % 65536
  sendData m s := { s with qsend := s.qsend ++ [(s.curQueryHeader.tID, m)] }
  handle addr request s :=
    (handler addr request,
      { s with handled := s.handled ++ [(s.curQueryHeader.tID, addr, request)] })

/-! ### One request -/

/-- What the timers of one call of `realReceive` do. -/
structure Clock where
  /-- The turns of the loop for the body before `pt` expires, after the first. -/
  pt : Nat
  /-- The turns of the loop for the address before `tmAbort` expires. -/
  tmAbort : Nat
  /-- Time is left after the header, after the request and for the answer. -/
  leftAfterHeader : Bool
  leftAfterRecv : Bool
  inTime : Bool
deriving DecidableEq, Repr

namespace Session

/-- The loop of `tcp_processing` that reads the body: the last value of `len`, which an exception of
the first turn leaves at the length of the header. -/
def readBody (bodyLen : Nat) : Nat → Nat → Session → Nat × Session
  | n, len, s =>
    match s.readDataFD bodyLen with
    | (none, s) => (len, s)
    | (some 0, s) =>
      match n with
      | 0 => (0, s)
      | n + 1 => readBody bodyLen n 0 s
    | (some k, s) => (k, s)

/-- The header in the first six bytes. -/
def headerOf (bytes : List Byte) : MBAPHeader :=
  { tID := word (bytes.getD 0 0) (bytes.getD 1 0)
    pID := word (bytes.getD 2 0) (bytes.getD 3 0)
    len := word (bytes.getD 4 0) (bytes.getD 5 0) }

/-- **`ModbusTCPSession::tcp_processing`.** -/
def tcpProcessing (pt : Nat) (s : Session) : (MbErrCode × MBAPHeader) × Session :=
  let read := getNextData 6 { s with qrecv := [] }
  let s := read.2
  let mhead := headerOf read.1
  if read.1.length < 6 then
    ((if read.1.length = 0 then .erSessionClosed else .erInvalidFormat, mhead), s)
  else if mhead.pID ≠ 0 then ((.erUnExpectedPacketType, mhead), s)
  else if mhead.len = 0 then ((.erInvalidFormat, mhead), s)
  else if maxLenPacket < mhead.len then ((.erInvalidFormat, mhead), s)
  else
    let body := s.readBody mhead.len pt 6
    if body.1 < mhead.len then ((.erInvalidFormat, mhead), body.2)
    else ((.erNoError, mhead), body.2)

variable (handler : Byte → Request → MbErrCode × Message) (cfg : Settings)

/-- The part of `realReceive` that follows the header. -/
def serve (clock : Clock) (s : Session) : Except MbErrCode MbErrCode × Session :=
  let received := recv (tcpChannel handler) cfg clock.tmAbort s
  let res := received.1.1
  let m := received.1.2
  let s := received.2
  if s.cancelled then (.ok .erSessionClosed, s)
  else if res ≠ .erNoError then
    if res.isReply then
      (.ok res, (send (tcpChannel handler) cfg clock.inTime (errorRetMessage m.addr m.func res) s).2)
    else (.ok res, s)
  else if clock.leftAfterRecv = false then (.ok .erTimeOut, s)
  else processing (tcpChannel handler) cfg clock.inTime m s

/-- **`ModbusTCPSession::realReceive`.** `.error` is an exception that escapes. -/
def realReceive (clock : Clock) (s : Session) : Except MbErrCode MbErrCode × Session :=
  let header := s.tcpProcessing clock.pt
  let s := header.2
  if header.1.1 ≠ .erNoError then (.ok header.1.1, s)
  else if clock.leftAfterHeader = false then (.ok .erTimeOut, s)
  else if s.qrecv = [] then (.ok .erTimeOut, s)
  else if s.cancelled then (.ok .erSessionClosed, s)
  else serve handler cfg clock { s with curQueryHeader := header.1.2 }

end Session

end UniSet.Modbus

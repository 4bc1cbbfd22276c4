/-
**Modbus TCP framing: requests written one behind the other.**

A client writes requests to its connection, perhaps several before the first answer, and `::read`
cuts the stream into pieces. A call of `readEvent` reads the socket twice, once for the header and
once for the body, takes one request out of the queue and leaves the rest of the queue to the next
call, which clears it.

* `Adu` — a request with its MBAP header; `Supported` — the session serves it.
* `WholeAdu` — the two reads together return exactly the first request of the stream, and the first
  of them at least the header.
* `readEvent_spec` — one call that reads a whole request handles it and leaves the others alone.
* **`requests_processed_in_order`** — in every run in which each call reads a whole request, the
  requests are handled once each, in order, with their own transaction.
* `second_request_lost` — two requests in one piece: the second is never handled.
-/

import UniSet.Lib.Machine
import UniSet.Modbus.RealReceive

namespace UniSet.Modbus

/-! ### Requests on the wire -/

/-- **A request with its MBAP header**, whose protocol number is zero and whose length is right. -/
structure Adu where
  tID : Nat
  addr : Byte
  func : Byte
  data : List Byte
deriving DecidableEq, Repr

variable {a : Adu} {s : Session}

namespace Adu

def pdu (a : Adu) : List Byte := a.addr :: a.func :: a.data

def bytes (a : Adu) : List Byte :=
  wordBytes a.tID ++ (wordBytes 0 ++ (wordBytes a.pdu.length ++ a.pdu))

def message (a : Adu) : Message := ⟨a.addr, a.func, a.data⟩

/-- The part of the data that the first read of `recv_pdu` brings. -/
def head (a : Adu) (fn : SlaveFunctionCode) : Message :=
  ⟨a.addr, a.func, a.data.take (fn.format.first true)⟩

/-- What the log of a session says of a request that was handled. -/
def handledAs (a : Adu) : Option (Nat × Byte × Request) :=
  match SlaveFunctionCode.ofByte a.func with
  | none => none
  | some fn =>
    match a.message.decode fn with
    | .error _ => none
    | .ok request => some (a.tID, a.addr, request)

/-- **The request is one the session serves**: for one of its addresses, with a function it knows, all
the data of that function and no number out of range. -/
structure Supported (vaddr : List Byte) (a : Adu) (fn : SlaveFunctionCode) : Prop where
  tID : a.tID < 65536
  size : a.pdu.length ≤ maxLenPacket
  addressed : checkAddr vaddr a.addr = true
  served : SlaveFunctionCode.ofByte a.func = some fn
  complete : a.data.length = fn.format.first true + ((fn.format.second true (a.head fn)).getD 0)
  wellFormed : checkFormat a.message fn = .erNoError
  inRange : ¬ a.message.OutOfRange fn

theorem bytes_length (a : Adu) : a.bytes.length = 6 + a.pdu.length := by
  simp only [bytes, wordBytes, List.length_append, List.length_cons, List.length_nil]
  omega

theorem bytes_drop (a : Adu) : a.bytes.drop 6 = a.pdu := rfl

/-- The header of the first request of a stream. -/
theorem headerOf_bytes (tID : a.tID < 65536) (size : a.pdu.length ≤ maxLenPacket)
    (rest : List Byte) : Session.headerOf (a.bytes ++ rest) = ⟨a.tID, 0, a.pdu.length⟩ := by
  have small : a.pdu.length < 65536 := Nat.lt_of_le_of_lt size (by decide)
  have transaction := word_wordBytes a.tID tID
  have length := word_wordBytes a.pdu.length small
  have zero : word (UInt8.ofNat (0 / 256)) (UInt8.ofNat 0) = 0 := rfl
  simp only [Session.headerOf, bytes, wordBytes, List.cons_append, List.nil_append,
    List.getD_cons_zero, List.getD_cons_succ, transaction, length, zero]

end Adu

/-! ### The connection -/

/-- The settings of a session. -/
def tcpSettings (vaddr : List Byte) (cleanBeforeSend : Bool) : Settings :=
  { vaddr := vaddr, crcNoCheckit := true, cleanBeforeSend := cleanBeforeSend }

/-- A session, with the requests its client has written. -/
structure Connection where
  session : Session
  written : List Adu

inductive Event
  /-- The client writes a request. -/
  | write (a : Adu)
  /-- The socket is readable; its next reads return at most so many bytes. -/
  | readEvent (cuts : List Nat) (clock : Clock)
deriving DecidableEq, Repr

namespace Event

def isRead : Event → Bool
  | .write _ => false
  | .readEvent .. => true

end Event

section Connection

variable (handler : Byte → Request → MbErrCode × Message) (vaddr : List Byte)
  (cleanBeforeSend : Bool)

/-- **`ModbusTCPSession::readEvent`.** An exception that escapes ends the process. -/
def readEvent (cuts : List Nat) (clock : Clock) (s : Session) : Option Session :=
  match Session.realReceive handler (tcpSettings vaddr cleanBeforeSend) clock
      { s with sock := { s.sock with cuts := cuts } } with
  | (.error _, _) => none
  | (.ok res, s) => some { s with cancelled := s.cancelled || decide (res = .erSessionClosed) }

def connectionStep (c : Connection) : Event → Option Connection
  | .write a => some
    { session := { c.session with
        sock := { c.session.sock with kernel := c.session.sock.kernel ++ a.bytes } }
      written := c.written ++ [a] }
  | .readEvent cuts clock =>
    if c.session.cancelled then none
    else (readEvent handler vaddr cleanBeforeSend cuts clock c.session).map fun s =>
      { c with session := s }

/-- **A connection**, from the moment the session is open. -/
def connection : Lib.Machine Connection Event where
  start c := c = ⟨Session.opened, []⟩
  step := connectionStep handler vaddr cleanBeforeSend

/-! ### What must hold of a step -/

/-- What a read of at most `max` bytes returns of `n`. -/
def readLen (max : Nat) (cuts : List Nat) (n : Nat) : Nat := min (min max (cuts.headD max)) n

/-- **The two reads of a call return exactly the first request of the stream**, and the first of them
at least its header. -/
def WholeAdu (kernel : List Byte) (cuts : List Nat) : Prop :=
  let len := (Session.headerOf kernel).len
  let first := readLen 255 cuts kernel.length
  6 ≤ first ∧ first + readLen (Nat.max len 255) cuts.tail (kernel.length - first) = 6 + len

instance (kernel : List Byte) (cuts : List Nat) : Decidable (WholeAdu kernel cuts) :=
  inferInstanceAs (Decidable (_ ∧ _))

/-- **The request can be served to its end.** It does not announce a second part of no bytes, which
the session takes for the end of the connection, and its handler does not end the session. -/
def Adu.Served (a : Adu) : Prop :=
  ∃ fn, a.Supported vaddr fn ∧ fn.format.second true (a.head fn) ≠ some 0 ∧
    ∀ request, (handler a.addr request).1 ≠ .erSessionClosed

/-- The condition on a step. -/
def InStep (c : Connection) : Event → Prop
  | .write a => a.Served handler vaddr
  | .readEvent cuts clock => cleanBeforeSend = false ∧ WholeAdu c.session.sock.kernel cuts ∧
      0 < clock.tmAbort ∧ clock.leftAfterHeader = true ∧ clock.leftAfterRecv = true

end Connection

/-! ### One call -/

namespace Session

theorem readDataFD_opened (opened : s.sock.closed = false) (n : Nat) :
    ∃ k, k = min (Nat.max n 255) (s.sock.cuts.headD (Nat.max n 255)) ∧
      s.readDataFD n = (some (min (s.qrecv ++ s.sock.kernel.take k).length (Nat.max n 255)),
        { s with
          sock := ⟨s.sock.kernel.drop k, s.sock.cuts.tail, false⟩
          qrecv := s.qrecv ++ s.sock.kernel.take k }) := by
  refine ⟨_, rfl, ?_⟩
  have going : ¬ (s.sock.kernel = [] ∧ false = true) := fun ⟨_, closed⟩ => Bool.noConfusion closed
  simp only [readDataFD, Socket.read, defaultBufferSizeForRead, opened, if_neg going]

/-- The first read brings the header and perhaps more. -/
theorem getNextData_first (empty : s.qrecv = []) (opened : s.sock.closed = false)
    (six : 6 ≤ readLen 255 s.sock.cuts s.sock.kernel.length) :
    ∃ k, min k s.sock.kernel.length = readLen 255 s.sock.cuts s.sock.kernel.length ∧
      s.getNextData 6 = (s.sock.kernel.take 6,
        { s with
          sock := ⟨s.sock.kernel.drop k, s.sock.cuts.tail, false⟩
          qrecv := (s.sock.kernel.take k).drop 6 }) := by
  obtain ⟨k, which, read⟩ := readDataFD_opened opened 6
  have length : min k s.sock.kernel.length = readLen 255 s.sock.cuts s.sock.kernel.length := by
    rw [which]
    rfl
  refine ⟨k, length, ?_⟩
  rw [empty, List.nil_append] at read
  have queued : 6 ≤ (s.sock.kernel.take k).length := by
    rw [List.length_take, length]
    exact six
  have popped := take_ne_nil (by decide : 0 < 6) queued
  have nonempty : ¬ s.sock.kernel.take k = [] := by
    intro none
    rw [none] at popped
    exact popped rfl
  have data : s.getDataFD 6 = popData 6 { s with
      sock := ⟨s.sock.kernel.drop k, s.sock.cuts.tail, false⟩
      qrecv := s.sock.kernel.take k } := by
    rw [getDataFD, if_pos (.inl empty)]
    simp only [if_neg (by decide : ¬ (6 : Nat) = 0), read, if_neg nonempty]
  rw [getNextData_pop data popped]
  dsimp only
  rw [List.take_take, Nat.min_eq_left (by rw [List.length_take] at queued; omega)]

theorem readBody_first {t : Session} {bodyLen k : Nat} (pos : 0 < k)
    (read : s.readDataFD bodyLen = (some k, t)) (n len : Nat) :
    s.readBody bodyLen n len = (k, t) := by
  obtain ⟨k, rfl⟩ := Nat.exists_eq_succ_of_ne_zero (Nat.pos_iff_ne_zero.mp pos)
  unfold readBody
  rw [read]
  rfl

end Session

/-- Bytes of which a read takes as many as the first part has. -/
theorem take_drop_first {first rest : List Byte} {n : Nat}
    (length : min n (first ++ rest).length = first.length) :
    (first ++ rest).take n = first ∧ (first ++ rest).drop n = rest := by
  rw [List.length_append] at length
  rcases Nat.lt_or_ge first.length n with beyond | within
  · have none : rest = [] := List.eq_nil_of_length_eq_zero (by omega)
    subst none
    rw [List.append_nil]
    have beyond := Nat.le_of_lt beyond
    exact ⟨List.take_of_length_le beyond, List.drop_of_length_le beyond⟩
  · have exactly : n = first.length := by omega
    rw [exactly]
    exact ⟨List.take_left, List.drop_left⟩

/-- **The header of a whole request**: the queue holds its body, the socket what follows it. -/
theorem tcpProcessing_whole {rest : List Byte} (tID : a.tID < 65536)
    (size : a.pdu.length ≤ maxLenPacket) (opened : s.sock.closed = false)
    (kernel : s.sock.kernel = a.bytes ++ rest) (whole : WholeAdu s.sock.kernel s.sock.cuts)
    (pt : Nat) :
    ∃ cuts, s.tcpProcessing pt = ((.erNoError, ⟨a.tID, 0, a.pdu.length⟩),
      { s with sock := ⟨rest, cuts, false⟩, qrecv := a.pdu }) := by
  have header := Adu.headerOf_bytes tID size rest
  obtain ⟨six, exactly⟩ := whole
  obtain ⟨k, first, head⟩ :=
    Session.getNextData_first (s := { s with qrecv := [] }) rfl opened six
  dsimp only at first head
  rw [kernel] at first head exactly six
  rw [header] at exactly
  obtain ⟨k', which, read⟩ := Session.readDataFD_opened (s := { s with
    sock := ⟨(a.bytes ++ rest).drop k, s.sock.cuts.tail, false⟩
    qrecv := ((a.bytes ++ rest).take k).drop 6 }) rfl a.pdu.length
  dsimp only at which read
  have queued : 6 ≤ ((a.bytes ++ rest).take k).length := by
    rw [List.length_take, first]
    exact six
  -- The two reads together are one read that ends where the request ends.
  have second : readLen (Nat.max a.pdu.length 255) s.sock.cuts.tail
      ((a.bytes ++ rest).length - readLen 255 s.sock.cuts (a.bytes ++ rest).length) =
      min k' ((a.bytes ++ rest).length - readLen 255 s.sock.cuts (a.bytes ++ rest).length) := by
    rw [which]
    rfl
  have together : min (k + k') (a.bytes ++ rest).length = a.bytes.length := by
    rw [Adu.bytes_length]
    rw [second] at exactly
    dsimp only at exactly
    omega
  obtain ⟨taken, left⟩ := take_drop_first together
  have queue : ((a.bytes ++ rest).take k).drop 6 ++ ((a.bytes ++ rest).drop k).take k' = a.pdu := by
    rw [← List.drop_append_of_le_length queued, ← List.take_add, taken, Adu.bytes_drop]
  rw [queue, List.drop_drop, left] at read
  have pos : 0 < min a.pdu.length (Nat.max a.pdu.length 255) :=
    Nat.lt_min.mpr ⟨Nat.succ_pos _, Nat.lt_of_lt_of_le (by decide) (Nat.le_max_right _ _)⟩
  refine ⟨s.sock.cuts.tail.tail, ?_⟩
  have long : ¬ ((a.bytes ++ rest).take 6).length < 6 := by
    rw [List.length_take, List.length_append, Adu.bytes_length]
    omega
  have some : ¬ a.pdu.length = 0 := Nat.succ_ne_zero _
  have allowed : ¬ maxLenPacket < a.pdu.length := Nat.not_lt.mpr size
  have body := Session.readBody_first pos read pt 6
  have enough : ¬ min a.pdu.length (Nat.max a.pdu.length 255) < a.pdu.length := by
    rw [Nat.min_eq_left (Nat.le_max_left _ _)]
    exact Nat.lt_irrefl _
  simp only [Session.tcpProcessing, head, if_neg long, Session.headerOf_take, header,
    if_neg (not_not.mpr (rfl : (0 : Nat) = 0)), if_neg some, if_neg allowed, body, if_neg enough]

section Call

variable (handler : Byte → Request → MbErrCode × Message) (vaddr : List Byte)

theorem channel_queue {n : Nat} (pos : 0 < n) (enough : n ≤ s.qrecv.length) :
    (tcpChannel handler).getNextData n s =
      (.ok (s.qrecv.take n), { s with qrecv := s.qrecv.drop n }) := by
  have read := Session.getNextData_queue pos enough
  simp only [tcpChannel, read]

theorem SlaveFunctionCode.first_pos (fn : SlaveFunctionCode) : 0 < fn.format.first true := by
  cases fn <;> decide

/-- The data of a request that is complete in the queue. -/
theorem recvData_whole (cleanBeforeSend : Bool) {fn : SlaveFunctionCode}
    (supported : a.Supported vaddr fn) (second : fn.format.second true (a.head fn) ≠ some 0)
    (queue : s.qrecv = a.data) :
    recvData (tcpChannel handler) (tcpSettings vaddr cleanBeforeSend) fn ⟨a.addr, a.func, []⟩ s =
      ((.erNoError, a.message), { s with qrecv := [] }) := by
  have complete := supported.complete
  have first := channel_queue handler (s := s) fn.first_pos (by rw [queue]; omega)
  rw [queue] at first
  have enough : ¬ (a.data.take (fn.format.first true)).length < fn.format.first true := by
    rw [List.length_take]
    omega
  have checked := checkPdu_ok (tcpChannel handler) (tcpSettings vaddr cleanBeforeSend)
    (.inl rfl) supported.wellFormed
  cases wanted : fn.format.second true (a.head fn) with
  | none =>
    rw [wanted] at complete
    have all : a.data.take (fn.format.first true) = a.data :=
      List.take_of_length_le (Nat.le_of_eq complete)
    have left : a.data.drop (fn.format.first true) = [] :=
      List.drop_of_length_le (Nat.le_of_eq complete)
    rw [Adu.head, all] at wanted
    rw [all] at first enough
    rw [left] at first
    rw [recvData, show (tcpSettings vaddr cleanBeforeSend).crcNoCheckit = true from rfl, first]
    dsimp only
    rw [if_neg enough, wanted]
    exact checked _
  | some n =>
    rw [wanted] at complete second
    have pos : 0 < n := Nat.pos_of_ne_zero fun zero => second (congrArg some zero)
    have length : (a.data.drop (fn.format.first true)).length = n := by
      rw [List.length_drop, complete]
      exact Nat.add_sub_cancel_left _ _
    have more := channel_queue handler
      (s := { s with qrecv := a.data.drop (fn.format.first true) }) pos (Nat.le_of_eq length.symm)
    dsimp only at more
    rw [List.take_of_length_le (Nat.le_of_eq length),
      List.drop_of_length_le (Nat.le_of_eq length)] at more
    have whole : ¬ (a.data.drop (fn.format.first true)).length < n := by
      rw [length]
      exact Nat.lt_irrefl _
    rw [Adu.head] at wanted
    rw [recvData, show (tcpSettings vaddr cleanBeforeSend).crcNoCheckit = true from rfl, first]
    dsimp only
    rw [if_neg enough, wanted]
    dsimp only
    rw [more]
    dsimp only
    rw [if_neg whole, List.take_append_drop]
    exact checked _

/-- A request that is complete in the queue is received, and the queue is empty then. -/
theorem recv_whole (cleanBeforeSend : Bool) {fn : SlaveFunctionCode}
    (supported : a.Supported vaddr fn) (second : fn.format.second true (a.head fn) ≠ some 0)
    (queue : s.qrecv = a.pdu) {tmAbort : Nat} (time : 0 < tmAbort) :
    recv (tcpChannel handler) (tcpSettings vaddr cleanBeforeSend) tmAbort s =
      ((.erNoError, a.message), { s with qrecv := [] }) := by
  obtain ⟨n, rfl⟩ := Nat.exists_eq_succ_of_ne_zero (Nat.pos_iff_ne_zero.mp time)
  have address := channel_queue handler (s := s) Nat.one_pos
    (by rw [queue]; exact Nat.succ_le_succ (Nat.zero_le _))
  rw [queue] at address
  have function := channel_queue handler (s := { s with qrecv := a.func :: a.data }) Nat.one_pos
    (Nat.succ_le_succ (Nat.zero_le _))
  have accepted : ¬ (¬ ((tcpSettings vaddr cleanBeforeSend).onBroadcast = true ∧
      a.addr = broadcastAddr) ∧ checkAddr vaddr a.addr = false) := by
    rintro ⟨-, refused⟩
    rw [supported.addressed] at refused
    cases refused
  have found : waitAddr (tcpChannel handler) (tcpSettings vaddr cleanBeforeSend) (n + 1) s =
      (.ok (some a.addr), { s with qrecv := a.func :: a.data }) := by
    rw [waitAddr, address]
    exact if_pos supported.addressed
  rw [recv, found]
  dsimp only
  rw [show (tcpSettings vaddr cleanBeforeSend).vaddr = vaddr from rfl, if_neg accepted, recvPdu,
    function]
  dsimp only [List.take]
  rw [supported.served]
  exact recvData_whole handler vaddr cleanBeforeSend supported second rfl

/-- An answer touches nothing but the send queue. -/
theorem send_keeps (inTime : Bool) (m : Message) (s : Session) :
    ∃ code qsend, code ≠ .erSessionClosed ∧
      send (tcpChannel handler) (tcpSettings vaddr false) inTime m s =
        (code, { s with qsend := qsend }) := by
  unfold send
  simp only [tcpSettings, Bool.false_eq_true, if_false]
  split_ifs
  · exact ⟨.erPacketTooLong, s.qsend, by decide, rfl⟩
  · exact ⟨.erPacketTooLong, s.qsend, by decide, rfl⟩
  · exact ⟨.erNoError, _, by decide, rfl⟩
  · exact ⟨.erTimeOut, s.qsend, by decide, rfl⟩

/-- The request is logged under the transaction of its header. -/
theorem answer_keeps (inTime : Bool) (m : Message) (request : Request) (s : Session)
    (going : (handler m.addr request).1 ≠ .erSessionClosed) :
    ∃ code qsend, code ≠ .erSessionClosed ∧
      answer (tcpChannel handler) (tcpSettings vaddr false) inTime m request s =
        (code, { s with
          qsend := qsend
          handled := s.handled ++ [(s.curQueryHeader.tID, m.addr, request)] }) := by
  unfold answer
  dsimp only [tcpChannel]
  split_ifs
  · exact send_keeps ..
  · exact ⟨_, _, going, rfl⟩
  · exact send_keeps ..

variable {handler vaddr}

/-- A request that is complete in the queue is handled. -/
theorem serve_whole {clock : Clock} (served : a.Served handler vaddr) (live : s.cancelled = false)
    (queue : s.qrecv = a.pdu) (transaction : s.curQueryHeader.tID = a.tID)
    (address : 0 < clock.tmAbort) (time : clock.leftAfterRecv = true) :
    ∃ code qsend entry, code ≠ .erSessionClosed ∧ a.handledAs = some entry ∧
      s.serve handler (tcpSettings vaddr false) clock =
        (.ok code, { s with qrecv := [], qsend := qsend, handled := s.handled ++ [entry] }) := by
  obtain ⟨fn, supported, second, going⟩ := served
  obtain ⟨request, decoded⟩ : ∃ request, a.message.decode fn = .ok request := by
    cases result : a.message.decode fn with
    | error err => exact absurd (Message.decode_error.mp ⟨err, result⟩) supported.inRange
    | ok request => exact ⟨request, rfl⟩
  have entry : a.handledAs = some (a.tID, a.addr, request) := by
    rw [Adu.handledAs, supported.served]
    dsimp only
    rw [decoded]
  have received := recv_whole handler vaddr false supported second queue address
  obtain ⟨code, qsend, continues, answered⟩ := answer_keeps handler vaddr clock.inTime a.message
    request { s with qrecv := [] } (going request)
  have processed : processing (tcpChannel handler) (tcpSettings vaddr false) clock.inTime a.message
      { s with qrecv := [] } = (.ok code, { s with
        qrecv := []
        qsend := qsend
        handled := s.handled ++ [(a.tID, a.addr, request)] }) := by
    rw [processing, show a.message.func = a.func from rfl, supported.served]
    dsimp only
    rw [decoded]
    dsimp only
    rw [answered, ← transaction]
    rfl
  refine ⟨code, qsend, _, continues, entry, ?_⟩
  rw [Session.serve, received]
  dsimp only
  have left : ¬ clock.leftAfterRecv = false := by
    rw [time]
    decide
  rw [if_neg (Bool.eq_false_iff.mp live), if_neg (not_not.mpr rfl), if_neg left]
  exact processed

/-- **One call that reads a whole request** handles it and leaves what follows in the socket. -/
theorem readEvent_spec {rest : List Byte} {cuts : List Nat} {clock : Clock}
    (served : a.Served handler vaddr) (live : s.cancelled = false) (opened : s.sock.closed = false)
    (kernel : s.sock.kernel = a.bytes ++ rest) (whole : WholeAdu s.sock.kernel cuts)
    (address : 0 < clock.tmAbort) (afterHeader : clock.leftAfterHeader = true)
    (afterRecv : clock.leftAfterRecv = true) :
    ∃ t entry, readEvent handler vaddr false cuts clock s = some t ∧ t.cancelled = false ∧
      t.sock.closed = false ∧ t.sock.kernel = rest ∧ a.handledAs = some entry ∧
      t.handled = s.handled ++ [entry] := by
  have supported := served
  obtain ⟨fn, supported, -, -⟩ := supported
  obtain ⟨cuts', header⟩ := tcpProcessing_whole (s := { s with sock := { s.sock with cuts := cuts } })
    supported.tID supported.size opened kernel whole clock.pt
  obtain ⟨code, qsend, entry, continues, logged, answered⟩ := serve_whole (s := { s with
    sock := ⟨rest, cuts', false⟩, qrecv := a.pdu, curQueryHeader := ⟨a.tID, 0, a.pdu.length⟩ })
    served live rfl rfl address afterRecv
  have returned : Session.realReceive handler (tcpSettings vaddr false) clock
      { s with sock := { s.sock with cuts := cuts } } = (.ok code, { s with
        sock := ⟨rest, cuts', false⟩
        qrecv := []
        curQueryHeader := ⟨a.tID, 0, a.pdu.length⟩
        qsend := qsend
        handled := s.handled ++ [entry] }) := by
    rw [Session.realReceive, header]
    dsimp only
    have time : ¬ clock.leftAfterHeader = false := by
      rw [afterHeader]
      decide
    have some : ¬ a.pdu = [] := List.cons_ne_nil _ _
    rw [if_neg (not_not.mpr rfl), if_neg time, if_neg some, if_neg (Bool.eq_false_iff.mp live)]
    exact answered
  refine ⟨{ s with
    sock := ⟨rest, cuts', false⟩
    qrecv := []
    cancelled := false
    curQueryHeader := ⟨a.tID, 0, a.pdu.length⟩
    qsend := qsend
    handled := s.handled ++ [entry] }, entry, ?_, rfl, rfl, rfl, logged, rfl⟩
  rw [readEvent, returned]
  dsimp only
  rw [live, decide_eq_false continues]
  rfl

end Call

/-! ### Whole runs -/

/-- The requests written in a run. -/
def writes (events : List Event) : List Adu :=
  events.filterMap fun
    | .write a => some a
    | .readEvent .. => none

section Runs

variable (handler : Byte → Request → MbErrCode × Message) (vaddr : List Byte)

/-- **What holds after `done` calls**: that many requests are handled, and the socket holds the
others. -/
structure Framed (done : Nat) (c : Connection) : Prop where
  live : c.session.cancelled = false
  opened : c.session.sock.closed = false
  pending : c.session.sock.kernel = ((c.written.drop done).map Adu.bytes).flatten
  handled : c.session.handled.map some = (c.written.take done).map Adu.handledAs
  read : done ≤ c.written.length
  served : ∀ a ∈ c.written, a.Served handler vaddr

variable {handler vaddr}

theorem Framed.write {done : Nat} {c : Connection} (framed : Framed handler vaddr done c)
    (cleanBeforeSend : Bool) (served : a.Served handler vaddr) :
    ∃ d, connectionStep handler vaddr cleanBeforeSend c (.write a) = some d ∧
      Framed handler vaddr done d ∧ d.written = c.written ++ [a] := by
  refine ⟨_, rfl, ⟨framed.live, framed.opened, ?_, ?_, ?_, ?_⟩, rfl⟩
  · dsimp only
    rw [framed.pending, List.drop_append_of_le_length framed.read, List.map_append,
      List.flatten_append, List.map_singleton, List.flatten_singleton]
  · dsimp only
    rw [framed.handled, List.take_append_of_le_length framed.read]
  · dsimp only
    rw [List.length_append]
    exact Nat.le_add_right_of_le framed.read
  · intro b written
    rcases List.mem_append.mp written with before | new
    · exact framed.served b before
    · rw [List.mem_singleton.mp new]
      exact served

/-- A call that reads a whole request handles the first one that is left. -/
theorem Framed.readEvent {done : Nat} {c : Connection} (framed : Framed handler vaddr done c)
    {cleanBeforeSend : Bool} {cuts : List Nat} {clock : Clock}
    (inStep : InStep handler vaddr cleanBeforeSend c (.readEvent cuts clock)) :
    ∃ d, connectionStep handler vaddr cleanBeforeSend c (.readEvent cuts clock) = some d ∧
      Framed handler vaddr (done + 1) d ∧ d.written = c.written := by
  obtain ⟨rfl, whole, address, afterHeader, afterRecv⟩ := inStep
  cases left : c.written.drop done with
  | nil =>
    have empty := framed.pending
    rw [left] at empty
    rw [empty] at whole
    exact absurd whole.1 (by simp [readLen])
  | cons a others =>
    have kernel : c.session.sock.kernel = a.bytes ++ (others.map Adu.bytes).flatten := by
      rw [framed.pending, left, List.map_cons, List.flatten_cons]
    have written : c.written = c.written.take done ++ (a :: others) := by
      rw [← left, List.take_append_drop]
    have member : a ∈ c.written := by
      rw [written]
      exact List.mem_append_right _ List.mem_cons_self
    have later : c.written.drop (done + 1) = others := by
      rw [← List.drop_drop, left]
      rfl
    have next : c.written[done]? = some a := by
      rw [← List.head?_drop, left]
      rfl
    obtain ⟨t, entry, called, live, opened, rest, logged, handled⟩ :=
      readEvent_spec (framed.served a member) framed.live framed.opened kernel whole address
        afterHeader afterRecv
    refine ⟨{ c with session := t }, ?_, ⟨live, opened, ?_, ?_, ?_, framed.served⟩, rfl⟩
    · rw [connectionStep, if_neg (Bool.eq_false_iff.mp framed.live), called]
      rfl
    · rw [later]
      exact rest
    · dsimp only
      rw [handled, List.map_append, framed.handled, List.take_add_one, next, List.map_append,
        Option.toList_some, List.map_singleton, List.map_singleton, logged]
    · have := congrArg List.length written
      rw [List.length_append, List.length_cons, List.length_take_of_le framed.read] at this
      dsimp only
      omega

/-- **Every request is processed once, in order and under its own transaction**, in every run in which
each call reads a whole request: after `n` calls the log holds the first `n` requests written. -/
theorem requests_processed_in_order (cleanBeforeSend : Bool) (events : List Event)
    (inStep : (connection handler vaddr cleanBeforeSend).Meets
      (InStep handler vaddr cleanBeforeSend) ⟨Session.opened, []⟩ events) :
    ∃ c, (connection handler vaddr cleanBeforeSend).run ⟨Session.opened, []⟩ events = some c ∧
      c.session.handled.map some =
        ((writes events).take (events.countP Event.isRead)).map Adu.handledAs := by
  have moves : ∀ past c event,
      (Framed handler vaddr (past.countP Event.isRead) c ∧ c.written = writes past) →
      InStep handler vaddr cleanBeforeSend c event →
      ∃ d, (connection handler vaddr cleanBeforeSend).step c event = some d ∧
        (Framed handler vaddr ((past ++ [event]).countP Event.isRead) d ∧
          d.written = writes (past ++ [event])) := by
    rintro past c event ⟨framed, written⟩ inStep
    cases event with
    | write a =>
      obtain ⟨d, stepped, framed, appended⟩ := framed.write cleanBeforeSend inStep
      refine ⟨d, stepped, ?_, ?_⟩
      · rw [List.countP_append]
        exact framed
      · rw [appended, written, writes, writes, List.filterMap_append]
        rfl
    | readEvent cuts clock =>
      obtain ⟨d, stepped, framed, kept⟩ := framed.readEvent inStep
      refine ⟨d, stepped, ?_, ?_⟩
      · rw [List.countP_append]
        exact framed
      · rw [kept, written, writes, writes, List.filterMap_append]
        exact (List.append_nil _).symm
  have initially : Framed handler vaddr (([] : List Event).countP Event.isRead)
      ⟨Session.opened, []⟩ :=
    ⟨rfl, rfl, rfl, rfl, Nat.le_refl _, fun a none => absurd none List.not_mem_nil⟩
  obtain ⟨c, ran, framed, written⟩ := Lib.Machine.exists_run moves []
    ⟨initially, rfl⟩ inStep
  rw [List.nil_append] at framed written
  exact ⟨c, ran, by rw [framed.handled, written]⟩

end Runs

/-- A request to read one register. -/
def readRegister (tID : Nat) : Adu := ⟨tID, 1, 3, [0, 0, 0, 1]⟩

/-- A handler that answers everything. -/
def answerAll (addr : Byte) (_ : Request) : MbErrCode × Message := (.erNoError, ⟨addr, 3, []⟩)

theorem readRegister_served {tID : Nat} (small : tID < 65536) :
    (readRegister tID).Served answerAll [1] := by
  refine ⟨.fnReadOutputRegisters, ⟨small, ?_, ?_, rfl, rfl, rfl, ?_⟩, ?_, ?_⟩
  · change 6 ≤ 508
    decide
  · exact (by decide : checkAddr [1] 1 = true)
  · exact (by decide : ¬ maxDataLen < word 0 1)
  · exact (by decide : (none : Option Nat) ≠ some 0)
  · exact fun _ => (by decide : MbErrCode.erNoError ≠ .erSessionClosed)

/-- Two requests at once, of which the first is read in two pieces. -/
theorem requests_processed_in_pieces :
    let events := [.write (readRegister 1), .write (readRegister 2), .readEvent [6, 6] .unhurried,
      .readEvent [] .unhurried]
    (connection answerAll [1] false).Meets (InStep answerAll [1] false) ⟨Session.opened, []⟩ events ∧
      ∃ c, (connection answerAll [1] false).run ⟨Session.opened, []⟩ events = some c ∧
        c.session.handled.map some = [readRegister 1, readRegister 2].map Adu.handledAs := by
  intro events
  have first : WholeAdu ((readRegister 1).bytes ++ (readRegister 2).bytes) [6, 6] := by decide
  have second : WholeAdu (readRegister 2).bytes [] := by decide
  have inStep : (connection answerAll [1] false).Meets (InStep answerAll [1] false)
      ⟨Session.opened, []⟩ events := by
    refine ⟨readRegister_served (by decide), fun c wrote => ?_⟩
    cases wrote
    refine ⟨readRegister_served (by decide), fun c wrote => ?_⟩
    cases wrote
    refine ⟨⟨rfl, first, by decide, rfl, rfl⟩, fun c called => ?_⟩
    have kernel := congrArg (Option.map fun c => c.session.sock.kernel) called
    have kernel : some (readRegister 2).bytes = some c.session.sock.kernel :=
      Eq.trans (by decide +kernel) kernel
    refine ⟨⟨rfl, ?_, by decide, rfl, rfl⟩, fun _ _ => trivial⟩
    rw [← Option.some.inj kernel]
    exact second
  exact ⟨inStep, requests_processed_in_order false events inStep⟩

/-- **Two requests that one call reads: the second is lost.** Both were readable when the call began;
the next call clears the queue they were left in. -/
theorem second_request_lost :
    (∀ a ∈ [readRegister 1, readRegister 2, readRegister 3], a.Served answerAll [1]) ∧
      ((connection answerAll [1] false).run ⟨Session.opened, []⟩
        [.write (readRegister 1), .write (readRegister 2), .readEvent [] .unhurried,
          .write (readRegister 3), .readEvent [] .unhurried]).map
        (fun c => (c.session.handled.map some, c.session.sock.kernel)) =
      some ([readRegister 1, readRegister 3].map Adu.handledAs, []) := by
  refine ⟨?_, by decide +kernel⟩
  simp only [List.forall_mem_cons]
  exact ⟨readRegister_served (by decide), readRegister_served (by decide),
    readRegister_served (by decide), fun a none => absurd none List.not_mem_nil⟩

end UniSet.Modbus

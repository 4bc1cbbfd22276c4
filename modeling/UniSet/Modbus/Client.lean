/-
**`ModbusClient::recv_pdu`: the reply to a request.**

Every read goes into `rbuf.data` behind what is already there, and a read that brings fewer bytes
than it was asked for drains the line and ends the reply. The result is `none` if a read writes
outside `rbuf.data`.

* `receive` — one read into the buffer; `checkCrc` — the end of every reply.
* `ReplyFormat` — how many bytes a reply brings; `recvObjects` — the objects of a device
  identification, each with its own length.
* `recvPdu` — the result is a number: an error reply brings any byte as its code.
* `receive_all`, `receive_short` — a read that is answered completely, and one that is not.
* `Obeys` — reads of a line on which a read of more than there is brings all there is, or nothing.
* `BringsNone` — a read of no bytes brings none. Over TCP this is so while the queue holds something, or
  nothing more comes: `ModbusTCPCore` makes seven of no bytes.
* `serial_obeys`, `tcp_obeys` — the lines of `ModbusRTUMaster` and `ModbusTCPMaster`.
-/

import UniSet.Modbus.ByteQueue
import UniSet.Modbus.Wire

namespace UniSet.Modbus.ModbusClient

/-- **What a subclass of `ModbusClient` overrides** for receiving. -/
structure Line (C : Type) where
  /-- At most so many bytes of the line. -/
  getNextData : Nat → C → Except Exc (List Byte) × C
  cleanupChannel : C → C

/-- `sizeof(ModbusMessage::data)`. -/
def szMessageData : Nat := maxLenPacket + szCRC

/-- The bytes a reply brings: a fixed number that the check sum follows, a head that says how many
more there are, or a head and objects. -/
inductive ReplyFormat
  | fixed (szData : Nat)
  | counted (szHead : Nat) (getDataLen : Message → Nat)
  | objects (szHead : Nat)

/-- The `switch` of `recv_pdu`, with the `szData`, `szHead` and `getDataLen` of the message classes.
Two functions of the server are commented out. -/
def replyFormat : SlaveFunctionCode → Option ReplyFormat
  | .fnReadCoilStatus | .fnReadInputStatus | .fnReadOutputRegisters | .fnReadInputRegisters =>
    some (.counted 1 fun m => (m.byteAt 0).toNat)
  | .fnForceMultipleCoils | .fnWriteOutputRegisters => some (.fixed 4)
  | .fnForceSingleCoil | .fnWriteOutputSingleRegister => some (.fixed 4)
  | .fnDiagnostics =>
    some (.counted 2 fun m => (szRequestDiagnosticData (m.wordAt 0)).getD 0 * 2)
  | .fnMEI => some (.objects 6)
  | .fnSetDateTime => some (.fixed 7)
  | .fnFileTransfer => some (.counted 1 fun m => (m.byteAt 0).toNat)
  | .fnRemoteService | .fnJournalCommand => none

/-- The length of the first read. -/
def ReplyFormat.first (crcNoCheckit : Bool) : ReplyFormat → Nat
  | .fixed szData => szData + crcLen crcNoCheckit
  | .counted szHead _ => szHead
  | .objects szHead => szHead

/-- What `recv_pdu` returns, with the buffer. -/
abbrev Received (C : Type) : Type := Option ((Nat × Message) × C)

section Receive

variable {C : Type} (line : Line C) (crcNoCheckit : Bool)

/-- A code is returned. -/
def done (code : MbErrCode) (m : Message) (c : C) : Received C := some ((code.toNat, m), c)

/-- The `catch` clauses of `recv_pdu`. -/
def caught (m : Message) (c : C) : Exc → Received C
  | .mbException err => done err m c
  | .timeOut => done .erTimeOut m c
  | .commFailed => done .erTimeOut m c
  | .systemError => done .erHardwareError m c

/-- **A read of `n` bytes into `rbuf.data`**, behind what is there. -/
def receive (n : Nat) (m : Message) (c : C) (next : Message → C → Received C) : Received C :=
  match line.getNextData n c with
  | (.error ex, c) => caught m c ex
  | (.ok bytes, c) =>
    if szMessageData < m.data.length + bytes.length then none
    else if bytes.length < n then
      done .erInvalidFormat { m with data := m.data ++ bytes } (line.cleanupChannel c)
    else next { m with data := m.data ++ bytes } c

/-- The check sum, unless it is not checked. -/
def checkCrc (m : Message) (c : C) : Received C :=
  if crcNoCheckit = false ∧ m.pduCRC (m.pduLen - szCRC) ≠ m.getCrc then done .erBadCheckSum m c
  else done .erNoError m c

/-- The error reply to the function. -/
def recvError (m : Message) (c : C) : Received C :=
  receive line (1 + crcLen crcNoCheckit) m c fun m c =>
    if crcNoCheckit = false ∧ m.pduCRC (m.pduLen - szCRC) ≠ m.getCrc then done .erBadCheckSum m c
    else some (((m.byteAt 0).toNat, m), c)

/-- The loop over the objects, of which at most `n` are left: two bytes with the identifier and the
length, and so many bytes. `rlen` is moved on by the length, whatever the read returned. -/
def recvObjects : Nat → Message → C → (Message → C → Received C) → Received C
  | 0, m, c, next => next m c
  | n + 1, m, c, next =>
    if m.data.length + 2 < szMessageData then
      receive line 2 m c fun m c =>
        let szDataLen := (m.byteAt (m.data.length - 1)).toNat
        receive line szDataLen m c fun m' c =>
          recvObjects n { m' with data := m'.data.take (m.data.length + szDataLen) } c next
    else next m c

/-- The part of `recv_pdu` that follows the head of the reply. -/
def recvRest (fn : SlaveFunctionCode) (m : Message) (c : C) : ReplyFormat → Received C
  | .fixed _ =>
    if crcNoCheckit = false ∧ m.pduCRC (m.pduLen - szCRC) ≠ m.getCrc then done .erBadCheckSum m c
    else if fn = .fnSetDateTime ∧ m.setDateTimeCheckFormat = false then done .erBadDataValue m c
    else done .erNoError m c
  | .counted _ getDataLen =>
    receive line (getDataLen m + crcLen crcNoCheckit) m c (checkCrc crcNoCheckit)
  | .objects _ =>
    -- `MEIMessageRetRDI::pre_init` throws for every other type.
    if m.byteAt 0 ≠ 0x0E then done .erInvalidFormat m c
    else recvObjects line (m.byteAt 5).toNat m c fun m c =>
      if crcNoCheckit then done .erNoError m c
      else receive line szCRC m c (checkCrc crcNoCheckit)

/-- **`ModbusClient::recv_pdu`**, after the address: the reply to the function `qfunc`. -/
def recvPdu (qfunc addr : Byte) (c : C) : Received C :=
  match line.getNextData 1 c with
  | (.error ex, c) => caught ⟨addr, 0, []⟩ c ex
  | (.ok [], c) => done .erInvalidFormat ⟨addr, 0, []⟩ (line.cleanupChannel c)
  | (.ok (func :: _), c) =>
    let m : Message := ⟨addr, func, []⟩
    if func = qfunc ||| mbErrMask then recvError line crcNoCheckit m c
    else if qfunc ≠ func then done .erUnExpectedPacketType m (line.cleanupChannel c)
    else
      match (SlaveFunctionCode.ofByte func).bind fun fn => (replyFormat fn).map (fn, ·) with
      | none => done .erUnExpectedPacketType m (line.cleanupChannel c)
      | some (fn, format) =>
        receive line (format.first crcNoCheckit) m c fun m c =>
          recvRest line crcNoCheckit fn m c format

end Receive

/-! ### Reads of a line that delivers its bytes -/

section Delivered

variable {C : Type} {line : Line C} {stream : C → List Byte} {I : C → Prop}

variable {n : Nat} {fn : SlaveFunctionCode}

/-- **A read that is answered completely.** -/
theorem receive_all (delivers : Delivers line.getNextData stream I) {c : C} (inv : I c)
    (pos : 0 < n) (enough : n ≤ (stream c).length) (m : Message)
    (room : m.data.length + n ≤ szMessageData) (next : Message → C → Received C) :
    ∃ c', receive line n m c next = next { m with data := m.data ++ (stream c).take n } c' ∧
      stream c' = (stream c).drop n ∧ I c' := by
  obtain ⟨c', read, left, inv'⟩ := delivers.reads n c inv pos enough
  have length : ((stream c).take n).length = n := List.length_take_of_le enough
  refine ⟨c', ?_, left, inv'⟩
  rw [receive, read]
  dsimp only
  rw [length, if_neg (Nat.not_lt.mpr room), if_neg (Nat.lt_irrefl n)]

/-- A read whose answer goes beyond the buffer. -/
theorem receive_outside (delivers : Delivers line.getNextData stream I) {c : C} (inv : I c)
    (pos : 0 < n) (enough : n ≤ (stream c).length) {m : Message}
    (outside : szMessageData < m.data.length + n) (next : Message → C → Received C) :
    receive line n m c next = none := by
  obtain ⟨c', read, -, -⟩ := delivers.reads n c inv pos enough
  have length : ((stream c).take n).length = n := List.length_take_of_le enough
  rw [receive, read]
  dsimp only
  rw [length, if_pos outside]

/-- What is left for a read of more than there is: all of it, or nothing. -/
def cut (whole : Bool) (bytes : List Byte) : List Byte := if whole then bytes else []

theorem cut_length_le (whole : Bool) (bytes : List Byte) : (cut whole bytes).length ≤ bytes.length := by
  cases whole with
  | true => exact Nat.le_refl _
  | false => exact Nat.zero_le _

/-- **Reads that keep what `getNextData` promises**: a read of more than there is brings what there is, or
it brings nothing. -/
structure Obeys {C : Type} (whole : Bool) (read : Nat → C → Except Exc (List Byte) × C)
    (stream : C → List Byte) (I : C → Prop) : Prop extends Delivers read stream I where
  rest : ∀ n c, I c → 0 < n → (stream c).length < n →
    ∃ c', read n c = (.ok (cut whole (stream c)), c') ∨ stream c = [] ∧ read n c = (.error .timeOut, c')

/-- **A read of no bytes brings none.** -/
def BringsNone {C : Type} (read : Nat → C → Except Exc (List Byte) × C) (stream : C → List Byte)
    (I : C → Prop) : Prop :=
  ∀ c, I c → ∃ c', read 0 c = (.ok [], c') ∧ stream c' = stream c ∧ I c'

theorem receive_nothing (silent : BringsNone line.getNextData stream I) {c : C} (inv : I c) {m : Message}
    (inside : m.data.length ≤ szMessageData) (next : Message → C → Received C) :
    ∃ c', receive line 0 m c next = next m c' ∧ stream c' = stream c ∧ I c' := by
  obtain ⟨c', read, same, inv'⟩ := silent c inv
  refine ⟨c', ?_, same, inv'⟩
  rw [receive, read]
  dsimp only
  rw [List.length_nil, Nat.add_zero, if_neg (Nat.not_lt.mpr inside), if_neg (Nat.lt_irrefl 0),
    List.append_nil]

/-- A read of any length that is answered completely. -/
theorem receive_exact (delivers : Delivers line.getNextData stream I) {c : C} (inv : I c)
    (quiet : BringsNone line.getNextData stream I ∨ n ≠ 0) (enough : n ≤ (stream c).length)
    {m : Message} (room : m.data.length + n ≤ szMessageData) (next : Message → C → Received C) :
    ∃ c', receive line n m c next = next { m with data := m.data ++ (stream c).take n } c' ∧
      stream c' = (stream c).drop n ∧ I c' := by
  rcases Nat.eq_zero_or_pos n with none | pos
  · subst none
    have silent := quiet.resolve_right fun some => some rfl
    obtain ⟨c', received, same, inv'⟩ := receive_nothing silent inv room next
    refine ⟨c', ?_, same, inv'⟩
    rw [received, List.take_zero, List.append_nil]
  · exact receive_all delivers inv pos enough m room next

/-- **A read that is not answered completely** ends the reply, or goes beyond the buffer. -/
theorem receive_short {whole : Bool} (obeys : Obeys whole line.getNextData stream I) {c : C}
    (inv : I c) (pos : 0 < n) (short : (stream c).length < n) {m : Message}
    (inside : m.data.length ≤ szMessageData) (next : Message → C → Received C) :
    (szMessageData < m.data.length + (cut whole (stream c)).length ∧ receive line n m c next = none) ∨
    (m.data.length + (cut whole (stream c)).length ≤ szMessageData ∧
      ∃ e m' c', e ≠ .erNoError ∧ receive line n m c next = done e m' c') := by
  have less := Nat.lt_of_le_of_lt (cut_length_le whole (stream c)) short
  obtain ⟨c', answered | ⟨empty, silent⟩⟩ := obeys.rest n c inv pos short
  · rcases Nat.lt_or_ge szMessageData (m.data.length + (cut whole (stream c)).length) with
      outside | within
    · refine .inl ⟨outside, ?_⟩
      rw [receive, answered]
      dsimp only
      rw [if_pos outside]
    · refine .inr ⟨within, .erInvalidFormat, { m with data := m.data ++ cut whole (stream c) },
        line.cleanupChannel c', by decide, ?_⟩
      rw [receive, answered]
      dsimp only
      rw [if_neg (Nat.not_lt.mpr within), if_pos less]
  · have none : (cut whole (stream c)).length ≤ 0 := by
      rw [empty]
      exact cut_length_le whole []
    refine .inr ⟨by omega, .erTimeOut, m, c', by decide, ?_⟩
    rw [receive, silent]
    rfl

/-! ### The two lines -/

/-- **The serial line keeps the promise.** -/
theorem serial_obeys : Obeys true RTUSlave.receiveBlock RTUSlave.Port.input fun _ => True where
  toDelivers := RTUSlave.delivers
  rest n p _ pos short := by
    by_cases empty : p.input = []
    · refine ⟨p, .inr ⟨empty, ?_⟩⟩
      rw [RTUSlave.receiveBlock, if_neg (Nat.ne_of_gt pos), if_pos empty]
    · refine ⟨{ p with input := p.input.drop n }, .inl ?_⟩
      rw [RTUSlave.receiveBlock, if_neg (Nat.ne_of_gt pos), if_neg empty,
        List.take_of_length_le (Nat.le_of_lt short)]
      rfl

theorem serial_bringsNone : BringsNone RTUSlave.receiveBlock RTUSlave.Port.input fun _ => True :=
  fun p _ => ⟨p, rfl, rfl, trivial⟩

open ModbusTCPCore (Link Reading)

/-- `cleanInputStream`, with at most `n` turns of its loop. -/
def cleanInputStream : Nat → Link → Link
  | 0, s => s
  | n + 1, s =>
    match ModbusTCPCore.getNextData true 100 s with
    | ([], s) => s
    | (_, s) => cleanInputStream n s

/-- The bytes that are in the queue and that come. -/
def tcpStream (s : Link) : List Byte :=
  s.qrecv ++ s.stream.flatMap fun reading =>
    match reading with
    | .received bytes => bytes
    | _ => []

/-- **`ModbusTCPMaster`** on a connection. Every turn of `cleanInputStream` that goes on takes a byte. -/
def tcpLine : Line Link where
  getNextData n s := (.ok (ModbusTCPCore.getNextData true n s).1, (ModbusTCPCore.getNextData true n s).2)
  cleanupChannel s := cleanInputStream ((tcpStream s).length + 1) s

/-- The rest of the reply comes in one piece, or is in the queue. -/
def OnePiece (s : Link) : Prop :=
  s.stream = [] ∨ ∃ bytes, s.stream = [.received bytes] ∧ bytes.length ≤ 255

/-- A read of a queue to which nothing more comes. -/
theorem tcp_read_all (n : Nat) (q a : List Byte) :
    ModbusTCPCore.getNextData true n ⟨q, [], a⟩ =
      if q = [] ∨ q.length < n then ([], ⟨q, [], a⟩) else (q.take n, ⟨q.drop n, [], a⟩) := rfl

theorem tcp_read_piece (pos : 0 < n) (q a : List Byte) {bytes : List Byte}
    (small : bytes.length ≤ 255) :
    ∃ a', ModbusTCPCore.getNextData true n ⟨q, [.received bytes], a⟩ =
      if q = [] ∨ q.length < n then ((q ++ bytes).take n, ⟨(q ++ bytes).drop n, [], a'⟩)
      else (q.take n, ⟨q.drop n, [.received bytes], a⟩) := by
  have room : bytes.length ≤ ModbusTCPCore.bufferSize n := Nat.le_trans small (Nat.le_max_right n 255)
  have length : (if n = 0 then 7 else n) = n := if_neg (Nat.ne_of_gt pos)
  have read : (Link.read (ModbusTCPCore.bufferSize n) ⟨q, [.received bytes], a⟩) =
      (.received bytes, ⟨q, [], a⟩) := if_pos room
  unfold ModbusTCPCore.getNextData ModbusTCPCore.readNextData
  simp only [length, read]
  cases bytes with
  | nil =>
    refine ⟨a, ?_⟩
    by_cases empty : q = []
    · simp [empty]
    · simp [empty, Link.pop]
  | cons b bytes => exact ⟨a ++ b :: bytes, rfl⟩

theorem tcp_read {s t : Link} {bytes : List Byte}
    (read : ModbusTCPCore.getNextData true n s = (bytes, t)) :
    tcpLine.getNextData n s = (.ok bytes, t) :=
  congrArg (fun out => (Except.ok out.1, out.2)) read

theorem tcpStream_all (q a : List Byte) : tcpStream ⟨q, [], a⟩ = q := List.append_nil q

theorem tcpStream_piece (q bytes a : List Byte) : tcpStream ⟨q, [.received bytes], a⟩ = q ++ bytes :=
  congrArg (q ++ ·) (List.append_nil bytes)

theorem tcp_read_enough (pos : 0 < n) {q : List Byte} (enough : n ≤ q.length)
    (stream : List Reading) (a : List Byte) :
    ModbusTCPCore.getNextData true n ⟨q, stream, a⟩ = (q.take n, ⟨q.drop n, stream, a⟩) := by
  refine if_neg ?_
  rintro (empty | short)
  · exact absurd (Nat.lt_of_lt_of_le pos enough) (by simp [show q = [] from empty])
  · exact absurd short (Nat.not_lt.mpr enough)

/-- A read of a line that brings no more bytes. -/
theorem tcp_dry {s t : Link} {bytes : List Byte} (dry : tcpStream s = [])
    (read : tcpLine.getNextData n s = (.ok bytes, t)) : bytes = [] ∧ tcpStream t = [] := by
  obtain ⟨q, stream, a⟩ := s
  obtain ⟨queue, pending⟩ := List.append_eq_nil_iff.mp dry
  have queue : q = [] := queue
  subst queue
  cases stream with
  | nil =>
    cases read
    exact ⟨rfl, rfl⟩
  | cons reading rest =>
    obtain ⟨first, later⟩ := List.append_eq_nil_iff.mp pending
    have none : tcpLine.getNextData n ⟨[], reading :: rest, a⟩ = (.ok [], ⟨[], rest, a⟩) := by
      cases reading with
      | received bytes =>
        have empty : bytes = [] := first
        subst empty
        rfl
      | nothing => rfl
      | netException => rfl
    rw [none] at read
    cases read
    exact ⟨rfl, later⟩

/-- **A reply that comes over TCP in one piece, or is in the queue.** -/
theorem tcp_delivers : Delivers tcpLine.getNextData tcpStream OnePiece where
  reads n s inv pos enough := by
    obtain ⟨q, stream, a⟩ := s
    rcases inv with all | ⟨bytes, piece, small⟩
    · have all : stream = [] := all
      subst all
      rw [tcpStream_all] at enough ⊢
      refine ⟨⟨q.drop n, [], a⟩, ?_, tcpStream_all _ a, Or.inl rfl⟩
      exact tcp_read (tcp_read_enough pos enough [] a)
    · have piece : stream = [.received bytes] := piece
      subst piece
      rw [tcpStream_piece] at enough ⊢
      rcases Nat.lt_or_ge q.length n with few | many
      · obtain ⟨a', read⟩ := tcp_read_piece pos q a small
        rw [if_pos (Or.inr few)] at read
        refine ⟨⟨(q ++ bytes).drop n, [], a'⟩, ?_, tcpStream_all _ a', Or.inl rfl⟩
        exact tcp_read read
      · refine ⟨⟨q.drop n, [.received bytes], a⟩, ?_, ?_, Or.inr ⟨bytes, rfl, small⟩⟩
        · rw [List.take_append_of_le_length many]
          exact tcp_read (tcp_read_enough pos many _ a)
        · rw [tcpStream_piece, List.drop_append_of_le_length many]
  short n s bytes t inv pos short read := by
    obtain ⟨q, stream, a⟩ := s
    rcases inv with all | ⟨piece, single, small⟩
    · have all : stream = [] := all
      subst all
      rw [tcpStream_all] at short
      have none := tcp_read_all n q a
      rw [if_pos (Or.inr short)] at none
      rw [tcp_read none] at read
      cases read
      exact pos
    · have single : stream = [.received piece] := single
      subst single
      rw [tcpStream_piece] at short
      obtain ⟨a', all⟩ := tcp_read_piece pos q a small
      rw [if_pos (Or.inr (by rw [List.length_append] at short; omega))] at all
      rw [tcp_read all] at read
      cases read
      exact Nat.lt_of_le_of_lt (List.length_take_le' n _) short
  dry n s bytes t dry _ read := tcp_dry dry read
  throws n s ex t read := by cases read
  zero s _ := ⟨_, _, rfl⟩

/-- **A reply that is in the queue.** -/
theorem tcp_obeys : Obeys false tcpLine.getNextData tcpStream fun s => s.stream = [] where
  reads n s all pos enough := by
    obtain ⟨q, stream, a⟩ := s
    subst all
    rw [tcpStream_all] at enough ⊢
    refine ⟨⟨q.drop n, [], a⟩, ?_, tcpStream_all _ a, rfl⟩
    exact tcp_read (tcp_read_enough pos enough [] a)
  short n s bytes t all := tcp_delivers.short n s bytes t (Or.inl all)
  dry := tcp_delivers.dry
  throws := tcp_delivers.throws
  zero s _ := ⟨_, _, rfl⟩
  rest n s all pos short := by
    obtain ⟨q, stream, a⟩ := s
    subst all
    rw [tcpStream_all] at short
    refine ⟨⟨q, [], a⟩, Or.inl ?_⟩
    exact tcp_read (if_pos (Or.inr short))

theorem tcp_bringsNone : BringsNone tcpLine.getNextData tcpStream fun s => s.stream = [] := by
  rintro ⟨q, stream, a⟩ all
  have all : stream = [] := all
  subst all
  refine ⟨⟨q, [], a⟩, ?_, rfl, rfl⟩
  refine tcp_read ((tcp_read_all 0 q a).trans ?_)
  split_ifs
  · rfl
  · rfl

/-- A function the server serves is no error reply to itself. -/
theorem ofByte_ne_error {func : Byte} (known : SlaveFunctionCode.ofByte func = some fn) :
    ¬ func = func ||| mbErrMask := by
  have small : func.toNat < 0x80 := by
    unfold SlaveFunctionCode.ofByte at known
    split at known <;> first | omega | cases known
  intro equal
  have masked : func.toNat = func.toNat ||| 0x80 := by
    have := congrArg UInt8.toNat equal
    rwa [UInt8.toNat_or] at this
  have large : 0x80 ≤ func.toNat ||| 0x80 := Nat.right_le_or
  omega

theorem replyFormat_first {format : ReplyFormat} (replied : replyFormat fn = some format)
    (crcNoCheckit : Bool) :
    0 < format.first crcNoCheckit ∧ format.first crcNoCheckit ≤ szMessageData := by
  cases fn <;> cases replied <;> cases crcNoCheckit <;> decide

/-- **A reply whose head is complete.** -/
theorem recvPdu_head (delivers : Delivers line.getNextData stream I) (crcNoCheckit : Bool) {c : C}
    (inv : I c) (addr : Byte) {func : Byte} {data : List Byte} {format : ReplyFormat}
    (bytes : stream c = func :: data) (known : SlaveFunctionCode.ofByte func = some fn)
    (replied : replyFormat fn = some format) (head : format.first crcNoCheckit ≤ data.length) :
    ∃ c', recvPdu line crcNoCheckit func addr c =
        recvRest line crcNoCheckit fn ⟨addr, func, data.take (format.first crcNoCheckit)⟩ c' format ∧
      stream c' = data.drop (format.first crcNoCheckit) ∧ I c' := by
  have one : 1 ≤ (stream c).length := by
    rw [bytes]
    exact Nat.succ_pos _
  obtain ⟨c₁, read, left, inv₁⟩ := delivers.reads 1 c inv Nat.one_pos one
  rw [bytes] at read left
  have left : stream c₁ = data := left
  have served : (SlaveFunctionCode.ofByte func).bind
      (fun fn => (replyFormat fn).map (fn, ·)) = some (fn, format) := by
    rw [known, Option.bind_some, replied]
    rfl
  obtain ⟨pos, room⟩ := replyFormat_first replied crcNoCheckit
  have enough : format.first crcNoCheckit ≤ (stream c₁).length := by
    rw [left]
    exact head
  obtain ⟨c₂, received, left₂, inv₂⟩ := receive_all delivers inv₁ pos enough ⟨addr, func, []⟩
    (by rw [List.length_nil, Nat.zero_add]; exact room)
    fun m c => recvRest line crcNoCheckit fn m c format
  refine ⟨c₂, ?_, by rw [left₂, left], inv₂⟩
  rw [recvPdu, read]
  dsimp only [List.take]
  rw [if_neg (ofByte_ne_error known), if_neg (not_not.mpr rfl), served]
  dsimp only
  rw [received, left, List.nil_append]

end Delivered

end UniSet.Modbus.ModbusClient

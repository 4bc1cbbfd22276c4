/-
**`realReceive` of the TCP session and of the serial slave: which requests make it throw.**

Both receive a request through `ModbusServer::recv` and hand it to `ModbusServer::processing`, and
neither catches an `mbException`.

* `RTUSlave.realReceive` — the serial slave: the line delivers bytes, and silence is a `TimeOut`.
* `Streams` — a channel that delivers a list of bytes in order: what `recv` makes of them depends on
  the list alone (`waitAddr_spec`, `recvData_reading`, `recvData_diagnostics`).
* `skipTo`, `Overrun` — the first accepted address among the bytes, and the request behind it: a
  reading function or a diagnostic that arrives completely and whose number is out of range.
* `Session.Grid` — where the receive queue of a session runs dry: the session takes a read of length
  zero for the end of the connection unless the queue is empty and the socket is not.
* **`realReceive_returns_iff`** — both return a code exactly if there is no overrun.
-/

import UniSet.Modbus.TCPSession

namespace UniSet.Modbus

/-! ### The serial slave -/

namespace RTUSlave

/-- The serial line: what it has delivered and what was sent on it. -/
structure Port where
  input : List Byte
  sent : List Message
  handled : List (Byte × Request)
deriving DecidableEq, Repr

/-- **`ComPort::receiveBlock`.** -/
def receiveBlock (len : Nat) (p : Port) : Except Exc (List Byte) × Port :=
  if len = 0 then (.ok [], p)
  else if p.input = [] then (.error .timeOut, p)
  else (.ok (p.input.take len), { p with input := p.input.drop len })

/-- **The channel of the serial slave.** Draining the line leaves nothing on it. -/
def channel (handler : Byte → Request → MbErrCode × Message) : Channel Port where
  getNextData := receiveBlock
  cleanupChannel p := { p with input := [] }
  aduLen _ := 0
  makeAduHeader _ _ := 0
  sendData m p := { p with sent := p.sent ++ [m] }
  handle addr request p := (handler addr request, { p with handled := p.handled ++ [(addr, request)] })

variable (handler : Byte → Request → MbErrCode × Message) (cfg : Settings)

/-- The loop of `ModbusRTUSlave::realReceive`, with at most `n` turns: a request to another node is
followed by the next. -/
def receiveLoop (tmAbort : Nat) (inTime : Bool) :
    Nat → Port → Option (Except MbErrCode MbErrCode × Port)
  | 0, _ => none
  | n + 1, p =>
    let received := recv (channel handler) cfg tmAbort p
    let res := received.1.1
    let m := received.1.2
    let p := received.2
    if res = .erBadReplyNodeAddress then receiveLoop tmAbort inTime n p
    else if res ≠ .erNoError then
      if res.isReply then
        some (.ok res, (send (channel handler) cfg inTime (errorRetMessage m.addr m.func res) p).2)
      else some (.ok res, p)
    else some (processing (channel handler) cfg inTime m p)

/-- **`ModbusRTUSlave::realReceive`**, with at most `n` turns of its loop; `locked` is whether
`recvMutex` was locked in time. -/
def realReceive (locked : Bool) (tmAbort : Nat) (inTime : Bool) (n : Nat) (p : Port) :
    Option (Except MbErrCode MbErrCode × Port) :=
  if locked then receiveLoop handler cfg tmAbort inTime n p else some (.ok .erTimeOut, p)

end RTUSlave

/-! ### Channels that deliver a list of bytes -/

/-- **The channel delivers the bytes of `stream`** in the states of `I`, for reads of at most 255. -/
structure Streams {C : Type} (ch : Channel C) (stream : C → List Byte) (I : C → Prop) : Prop where
  reads : ∀ n c, I c → 0 < n → n ≤ 255 → n ≤ (stream c).length →
    ∃ c', ch.getNextData n c = (.ok ((stream c).take n), c') ∧ stream c' = (stream c).drop n ∧ I c'
  short : ∀ n c bytes c', I c → 0 < n → (stream c).length < n →
    ch.getNextData n c = (.ok bytes, c') → bytes.length < n
  dry : ∀ n c bytes c', stream c = [] → 0 < n → ch.getNextData n c = (.ok bytes, c') →
    bytes = [] ∧ stream c' = []
  throws : ∀ n c ex c', ch.getNextData n c = (.error ex, c') → ex = .timeOut

/-- The first accepted address among the first `n` bytes, with what follows it. -/
def skipTo (vaddr : List Byte) : Nat → List Byte → Option (Byte × List Byte)
  | 0, _ => none
  | _ + 1, [] => none
  | n + 1, b :: rest => if checkAddr vaddr b then some (b, rest) else skipTo vaddr n rest

section Streams

variable {C : Type} {ch : Channel C} {stream : C → List Byte} {I : C → Prop} (cfg : Settings)

variable {c : C} {addr : Byte} {fn : SlaveFunctionCode} {data : List Byte}

theorem Streams.read_cons (streams : Streams ch stream I) {b : Byte} {rest : List Byte} (inv : I c)
    (bytes : stream c = b :: rest) :
    ∃ c', ch.getNextData 1 c = (.ok [b], c') ∧ stream c' = rest ∧ I c' := by
  have enough : 1 ≤ (stream c).length := by
    rw [bytes]
    exact Nat.succ_pos _
  obtain ⟨c', read, left, inv'⟩ := streams.reads 1 c inv Nat.one_pos (by decide) enough
  rw [bytes] at read left
  exact ⟨c', read, left, inv'⟩

theorem waitAddr_dry (streams : Streams ch stream I) (n : Nat) {c' : C} (empty : stream c = []) :
    waitAddr ch cfg n c ≠ (.ok (some addr), c') := by
  induction n generalizing c with
  | zero =>
    intro found
    cases found
  | succ n ih =>
    rw [waitAddr]
    split
    · intro found
      cases found
    · rename_i read
      exact ih (streams.dry 1 c _ _ empty Nat.one_pos read).2
    · rename_i read
      have none := (streams.dry 1 c _ _ empty Nat.one_pos read).1
      cases none

/-- **The loop for the address finds the first accepted one.** -/
theorem waitAddr_spec (streams : Streams ch stream I) (n : Nat) (inv : I c) :
    (∃ addr rest c', skipTo cfg.vaddr n (stream c) = some (addr, rest) ∧
      waitAddr ch cfg n c = (.ok (some addr), c') ∧ stream c' = rest ∧ I c') ∨
    (skipTo cfg.vaddr n (stream c) = none ∧
      ∀ addr c', waitAddr ch cfg n c ≠ (.ok (some addr), c')) := by
  induction n generalizing c with
  | zero =>
    refine .inr ⟨rfl, fun addr c' found => ?_⟩
    cases found
  | succ n ih =>
    cases bytes : stream c with
    | nil => exact .inr ⟨rfl, fun addr c' => waitAddr_dry cfg streams (n + 1) bytes⟩
    | cons b rest =>
      obtain ⟨c', read, left, inv'⟩ := streams.read_cons inv bytes
      by_cases accepted : checkAddr cfg.vaddr b = true
      · refine .inl ⟨b, rest, c', ?_, ?_, left, inv'⟩
        · rw [skipTo, if_pos accepted]
        · rw [waitAddr, read]
          exact if_pos accepted
      · have later := ih inv'
        rw [left] at later
        have skip : skipTo cfg.vaddr (n + 1) (b :: rest) = skipTo cfg.vaddr n rest := by
          rw [skipTo, if_neg accepted]
        have again : waitAddr ch cfg (n + 1) c = waitAddr ch cfg n c' := by
          rw [waitAddr, read]
          exact if_neg accepted
        rw [skip, again]
        exact later

/-- `recv` is `recv_pdu` behind the first accepted address, and no request without one. -/
theorem recv_spec (streams : Streams ch stream I) (n : Nat) (inv : I c) :
    (∃ addr rest c', skipTo cfg.vaddr n (stream c) = some (addr, rest) ∧
      recv ch cfg n c = recvPdu ch cfg addr c' ∧ stream c' = rest ∧ I c') ∨
    (skipTo cfg.vaddr n (stream c) = none ∧ (recv ch cfg n c).1.1 ≠ .erNoError ∧
      (recv ch cfg n c).1.1 ≠ .erBadReplyNodeAddress) := by
  rcases waitAddr_spec cfg streams n inv with
    ⟨addr, rest, c', skipped, waited, left, inv'⟩ | ⟨none, waited⟩
  · refine .inl ⟨addr, rest, c', skipped, ?_, left, inv'⟩
    have accepted : checkAddr cfg.vaddr addr = true := by
      clear waited left
      generalize stream c = bytes at skipped
      induction n generalizing bytes with
      | zero => cases skipped
      | succ n ih =>
        cases bytes with
        | nil => cases skipped
        | cons b later =>
          rw [skipTo] at skipped
          split at skipped
          · rename_i accepted
            cases skipped
            exact accepted
          · exact ih later skipped
    rw [recv, waited]
    refine if_neg fun refused => ?_
    rw [accepted] at refused
    cases refused.2
  · refine .inr ⟨none, ?_⟩
    rw [recv]
    split
    · simp
    · simp
    · simp
    · simp
    · rename_i found
      exact absurd found (waited _ _)

theorem recvPdu_spec (streams : Streams ch stream I) (inv : I c) (addr : Byte) :
    (∃ func rest c', stream c = func :: rest ∧ stream c' = rest ∧ I c' ∧
      ((∃ fn, SlaveFunctionCode.ofByte func = some fn ∧
          recvPdu ch cfg addr c = recvData ch cfg fn ⟨addr, func, []⟩ c') ∨
        (SlaveFunctionCode.ofByte func = none ∧ (recvPdu ch cfg addr c).1.1 ≠ .erNoError))) ∨
    (stream c = [] ∧ (recvPdu ch cfg addr c).1.1 ≠ .erNoError) := by
  cases bytes : stream c with
  | nil =>
    refine .inr ⟨rfl, ?_⟩
    rw [recvPdu]
    split
    · rename_i read
      rw [streams.throws 1 c _ _ read]
      simp [pduHandler]
    · simp
    · rename_i read
      have none := (streams.dry 1 c _ _ bytes Nat.one_pos read).1
      cases none
  | cons func rest =>
    obtain ⟨c', read, left, inv'⟩ := streams.read_cons inv bytes
    refine .inl ⟨func, rest, c', rfl, left, inv', ?_⟩
    rw [recvPdu, read]
    dsimp only
    cases SlaveFunctionCode.ofByte func with
    | none => exact .inr ⟨rfl, by simp⟩
    | some fn => exact .inl ⟨fn, rfl, rfl⟩

/-! #### A number that is out of range -/

/-- The bytes of the data that decide whether the number is out of range. -/
def SlaveFunctionCode.numberLen (fn : SlaveFunctionCode) : Nat :=
  if fn = .fnDiagnostics then 2 else 4

/-- A function is a diagnostic, has four bytes of data, or has no number to be out of range. -/
theorem SlaveFunctionCode.overrun_cases (fn : SlaveFunctionCode) :
    fn = .fnDiagnostics ∨
    (fn ≠ .fnDiagnostics ∧ fn.format = .fixed 4 ∧ ∀ m, checkFormat m fn = .erNoError) ∨
    ∀ m : Message, ¬ m.OutOfRange fn := by
  cases fn with
  | fnReadCoilStatus => exact .inr (.inl ⟨by decide, rfl, fun _ => rfl⟩)
  | fnReadInputStatus => exact .inr (.inl ⟨by decide, rfl, fun _ => rfl⟩)
  | fnReadOutputRegisters => exact .inr (.inl ⟨by decide, rfl, fun _ => rfl⟩)
  | fnReadInputRegisters => exact .inr (.inl ⟨by decide, rfl, fun _ => rfl⟩)
  | fnDiagnostics => exact .inl rfl
  | _ => exact .inr (.inr fun _ => id)

theorem Message.outOfRange_congr {m m' : Message}
    (same : ∀ i < fn.numberLen, m.byteAt i = m'.byteAt i) : m.OutOfRange fn ↔ m'.OutOfRange fn := by
  have first : m.wordAt 0 = m'.wordAt 0 := by
    have two : 2 ≤ fn.numberLen := by
      unfold SlaveFunctionCode.numberLen
      split <;> decide
    rw [wordAt, wordAt, same 0 (by omega), same 1 (by omega)]
  by_cases diagnostics : fn = .fnDiagnostics
  · subst diagnostics
    unfold OutOfRange
    rw [first]
  · have four : fn.numberLen = 4 := if_neg diagnostics
    have second : m.wordAt 2 = m'.wordAt 2 := by
      rw [wordAt, wordAt, same 2 (by omega), same 3 (by omega)]
    cases fn <;> simp_all [OutOfRange]

theorem Message.byteAt_take {func : Byte} {i k : Nat} (inside : i < k) :
    (Message.mk addr func (data.take k)).byteAt i = (Message.mk addr func data).byteAt i := by
  simp [byteAt, inside]

theorem Message.byteAt_append {func : Byte} {more : List Byte} {i : Nat}
    (inside : i < data.length) :
    (Message.mk addr func (data ++ more)).byteAt i = (Message.mk addr func data).byteAt i := by
  simp [byteAt, List.getElem?_append_left inside]

/-- The bytes of a request that decide whether it is refused. -/
def overrunLen (cfg : Settings) (fn : SlaveFunctionCode) : Nat :=
  fn.numberLen + crcLen cfg.crcNoCheckit

theorem checkPdu_iff {m : Message} (ok : checkFormat m fn = .erNoError) {Q : Message → C → Prop} :
    (∃ m' c', checkPdu ch cfg fn m c = ((.erNoError, m'), c') ∧ Q m' c') ↔ CrcOk cfg m ∧ Q m c := by
  by_cases crcOk : CrcOk cfg m
  · rw [checkPdu_ok ch cfg crcOk ok]
    constructor
    · rintro ⟨m', c', equal, holds⟩
      cases equal
      exact ⟨crcOk, holds⟩
    · rintro ⟨-, holds⟩
      exact ⟨m, c, rfl, holds⟩
  · have bad : cfg.crcNoCheckit = false ∧ m.pduCRC (m.pduLen - szCRC) ≠ m.getCrc := by
      obtain ⟨checked, wrong⟩ := not_or.mp crcOk
      exact ⟨Bool.eq_false_iff.mpr checked, wrong⟩
    rw [checkPdu, if_pos bad]
    refine iff_of_false ?_ fun both => crcOk both.1
    rintro ⟨m', c', equal, -⟩
    cases equal

/-- **The data of a request that `recv_pdu` accepts although its number is out of range.** A
diagnostic without a check sum ends with a read of length zero; `final` says when it leaves the
channel in order. -/
def OverrunData (cfg : Settings) (final : List Byte → Prop) (fn : SlaveFunctionCode)
    (addr func : Byte) (data : List Byte) : Prop :=
  (Message.mk addr func data).OutOfRange fn ∧ overrunLen cfg fn ≤ data.length ∧
    CrcOk cfg ⟨addr, func, data.take (overrunLen cfg fn)⟩ ∧
    (fn = .fnDiagnostics → cfg.crcNoCheckit = true → final (data.drop (overrunLen cfg fn)))

/-- **Such a request among the bytes of the line.** -/
def Overrun (cfg : Settings) (final : List Byte → Prop) (tmAbort : Nat) (bytes : List Byte) : Prop :=
  ∃ addr func data fn, skipTo cfg.vaddr tmAbort bytes = some (addr, func :: data) ∧
    SlaveFunctionCode.ofByte func = some fn ∧ OverrunData cfg final fn addr func data

variable {P : C → Prop} {final : List Byte → Prop}

theorem not_overrun_nil {tmAbort : Nat} : ¬ Overrun cfg final tmAbort [] := by
  rintro ⟨addr, func, data, fn, found, -⟩
  cases tmAbort <;> cases found

theorem recvData_func (ch : Channel C) (fn : SlaveFunctionCode) (m : Message) (c : C) :
    (recvData ch cfg fn m c).1.2.addr = m.addr ∧ (recvData ch cfg fn m c).1.2.func = m.func := by
  have handler : ∀ m c ex, (pduHandler ch m c ex).1.2 = m := by
    intro m c ex
    cases ex <;> rfl
  have checked : ∀ m c, (checkPdu ch cfg fn m c).1.2 = m := by
    intro m c
    unfold checkPdu
    split
    · rfl
    · split <;> rfl
  unfold recvData
  split
  · rw [handler]
    exact ⟨rfl, rfl⟩
  · dsimp only
    split
    · exact ⟨rfl, rfl⟩
    · split
      · rw [checked]
        exact ⟨rfl, rfl⟩
      · split
        · rw [handler]
          exact ⟨rfl, rfl⟩
        · split
          · exact ⟨rfl, rfl⟩
          · rw [checked]
            exact ⟨rfl, rfl⟩

theorem recvData_reading (streams : Streams ch stream I) (format : fn.format = .fixed 4) (inv : I c)
    (addr func : Byte) :
    (4 + crcLen cfg.crcNoCheckit ≤ (stream c).length ∧ ∃ c', I c' ∧
      recvData ch cfg fn ⟨addr, func, []⟩ c = checkPdu ch cfg fn
        ⟨addr, func, (stream c).take (4 + crcLen cfg.crcNoCheckit)⟩ c') ∨
    ((stream c).length < 4 + crcLen cfg.crcNoCheckit ∧
      (recvData ch cfg fn ⟨addr, func, []⟩ c).1.1 ≠ .erNoError) := by
  have first : fn.format.first cfg.crcNoCheckit = 4 + crcLen cfg.crcNoCheckit := by rw [format]; rfl
  have small : 4 + crcLen cfg.crcNoCheckit ≤ 255 := by
    unfold crcLen szCRC
    split <;> decide
  have second : ∀ m, fn.format.second cfg.crcNoCheckit m = none := by
    intro m
    rw [format]
    rfl
  unfold recvData
  rw [first]
  by_cases enough : 4 + crcLen cfg.crcNoCheckit ≤ (stream c).length
  · obtain ⟨c', read, -, inv'⟩ := streams.reads _ c inv (by omega) small enough
    refine .inl ⟨enough, c', inv', ?_⟩
    rw [read]
    dsimp only
    rw [if_neg (by rw [List.length_take_of_le enough]; exact Nat.lt_irrefl _), second]
  · refine .inr ⟨by omega, ?_⟩
    split
    · rename_i read
      rw [streams.throws _ c _ _ read]
      simp [pduHandler]
    · rename_i read
      have short := streams.short _ c _ _ inv (by omega) (by omega) read
      dsimp only
      rw [if_pos short]
      simp

/-- The second part of a diagnostic: what follows the sub-function. -/
def recvRest (ch : Channel C) (cfg : Settings) (m : Message) (szDataLen : Nat) (c : C) :
    (MbErrCode × Message) × C :=
  match ch.getNextData szDataLen c with
  | (.error ex, c) => pduHandler ch m c ex
  | (.ok more, c) =>
    if more.length < szDataLen then
      ((.erInvalidFormat, { m with data := m.data ++ more }), ch.cleanupChannel c)
    else checkPdu ch cfg .fnDiagnostics { m with data := m.data ++ more } c

theorem recvData_diagnostics (streams : Streams ch stream I) (inv : I c) (addr func : Byte) :
    (2 ≤ (stream c).length ∧ ∃ c', I c' ∧ stream c' = (stream c).drop 2 ∧
      recvData ch cfg .fnDiagnostics ⟨addr, func, []⟩ c =
        recvRest ch cfg ⟨addr, func, (stream c).take 2⟩
          ((szRequestDiagnosticData ((Message.mk addr func (stream c)).wordAt 0)).getD 0 * 2
            + crcLen cfg.crcNoCheckit) c') ∨
    ((stream c).length < 2 ∧
      (recvData ch cfg .fnDiagnostics ⟨addr, func, []⟩ c).1.1 ≠ .erNoError) := by
  have first : SlaveFunctionCode.fnDiagnostics.format.first cfg.crcNoCheckit = 2 := rfl
  unfold recvData
  rw [first]
  by_cases enough : 2 ≤ (stream c).length
  · obtain ⟨c', read, left, inv'⟩ := streams.reads 2 c inv (by decide) (by decide) enough
    refine .inl ⟨enough, c', inv', left, ?_⟩
    have same : (Message.mk addr func ((stream c).take 2)).wordAt 0 =
        (Message.mk addr func (stream c)).wordAt 0 := by
      rw [Message.wordAt, Message.wordAt, Message.byteAt_take (by decide),
        Message.byteAt_take (by decide)]
    rw [read]
    dsimp only
    rw [if_neg (by rw [List.length_take_of_le enough]; decide)]
    simp only [SlaveFunctionCode.format, Format.second, same]
    rfl
  · refine .inr ⟨by omega, ?_⟩
    split
    · rename_i read
      rw [streams.throws _ c _ _ read]
      simp [pduHandler]
    · rename_i read
      have short := streams.short _ c _ _ inv (by decide) (by omega) read
      dsimp only
      rw [if_pos short]
      simp

/-- The sub-function decides, whatever follows it. -/
theorem outOfRange_head {func : Byte} (enough : 2 ≤ data.length) (more : List Byte) :
    (Message.mk addr func (data.take 2 ++ more)).OutOfRange .fnDiagnostics ↔
      (Message.mk addr func data).OutOfRange .fnDiagnostics := by
  refine Message.outOfRange_congr fun i inside => ?_
  have inside : i < 2 := inside
  rw [Message.byteAt_append (by rw [List.length_take_of_le enough]; exact inside),
    Message.byteAt_take inside]

/-- Whatever follows the sub-function, the message that is accepted begins with it. -/
theorem recvRest_accepts (streams : Streams ch stream I) {m m' : Message} {n : Nat} {c' : C}
    (received : recvRest ch cfg m n c = ((.erNoError, m'), c')) :
    ∃ more, ch.getNextData n c = (.ok more, c') ∧ n ≤ more.length ∧ CrcOk cfg m' ∧
      m' = { m with data := m.data ++ more } := by
  unfold recvRest at received
  split at received
  · rename_i read
    rw [streams.throws _ _ _ _ read] at received
    cases received
  · rename_i more next read
    split at received
    · cases received
    · rename_i long
      have kept := (checkPdu_iff cfg rfl
        (Q := fun m₁ c₁ => m₁ = m' ∧ c₁ = c')).mp ⟨m', c', received, rfl, rfl⟩
      obtain ⟨crcOk, same, state⟩ := kept
      rw [state] at read
      rw [same] at crcOk
      exact ⟨more, read, Nat.not_lt.mp long, crcOk, same.symm⟩

/-- Without a check sum, a read of length zero ends the diagnostic. -/
theorem recvRest_unchecked (unchecked : cfg.crcNoCheckit = true) {m : Message} {more : List Byte}
    {c' : C} (read : ch.getNextData 0 c = (.ok more, c')) :
    recvRest ch cfg m 0 c = ((.erNoError, { m with data := m.data ++ more }), c') := by
  unfold recvRest
  rw [read]
  dsimp only
  rw [if_neg (Nat.not_lt_zero _), checkPdu_ok ch cfg (.inl unchecked) rfl]

theorem recvRest_checked (streams : Streams ch stream I) {func : Byte} (inv : I c)
    (left : stream c = data.drop 2) (complete : 4 ≤ data.length)
    (crcOk : CrcOk cfg ⟨addr, func, data.take 4⟩) :
    ∃ c', recvRest ch cfg ⟨addr, func, data.take 2⟩ 2 c =
      ((.erNoError, ⟨addr, func, data.take 4⟩), c') ∧ I c' := by
  obtain ⟨c', read, -, inv'⟩ := streams.reads 2 c inv (by decide) (by decide)
    (by rw [left, List.length_drop]; omega)
  have all : data.take 2 ++ (data.drop 2).take 2 = data.take 4 :=
    (List.take_add (i := 2) (j := 2)).symm
  refine ⟨c', ?_, inv'⟩
  unfold recvRest
  rw [read, left]
  dsimp only
  rw [if_neg (by rw [List.length_take_of_le (by rw [List.length_drop]; omega)]; decide), all,
    checkPdu_ok ch cfg crcOk rfl]

theorem recvData_overrun_diagnostics (streams : Streams ch stream I) (quiet : ∀ c, I c → P c)
    (zero : ∀ c, I c → ∃ more c', ch.getNextData 0 c = (.ok more, c') ∧ (P c' ↔ final (stream c)))
    (inv : I c) (addr func : Byte) :
    (∃ m c', recvData ch cfg .fnDiagnostics ⟨addr, func, []⟩ c = ((.erNoError, m), c') ∧
        m.OutOfRange .fnDiagnostics ∧ P c') ↔
      OverrunData cfg final .fnDiagnostics addr func (stream c) := by
  rcases recvData_diagnostics cfg streams inv addr func with
    ⟨enough, c', inv', left, received⟩ | ⟨short, refused⟩
  · rw [received]
    have lens : overrunLen cfg .fnDiagnostics = 2 + crcLen cfg.crcNoCheckit := rfl
    unfold OverrunData
    rw [lens]
    constructor
    · rintro ⟨m, c'', accepted, outOfRange, holds⟩
      obtain ⟨more, read, long, crcOk, rfl⟩ := recvRest_accepts cfg streams accepted
      have unknown := (outOfRange_head enough more).mp outOfRange
      have none : szRequestDiagnosticData ((Message.mk addr func (stream c)).wordAt 0) = none :=
        unknown
      rw [none, Option.getD_none, Nat.zero_mul, Nat.zero_add] at read long
      cases checked : cfg.crcNoCheckit with
      | true =>
        obtain ⟨more', last, read', ends⟩ := zero c' inv'
        rw [checked] at read
        have same := read'.symm.trans read
        cases same
        exact ⟨unknown, enough, .inl checked, fun _ _ => left ▸ ends.mp holds⟩
      | false =>
        rw [checked] at read long
        have complete : 2 ≤ (stream c').length := Nat.not_lt.mp fun few =>
          absurd long (Nat.not_le.mpr (streams.short _ _ _ _ inv' (by decide) few read))
        obtain ⟨last, read', -, -⟩ := streams.reads 2 c' inv' (by decide) (by decide) complete
        have same := read'.symm.trans read
        rw [left] at same complete
        rw [List.length_drop] at complete
        have all : (stream c).take 2 ++ more = (stream c).take 4 := by
          rw [← Except.ok.inj (Prod.mk.inj same).1]
          exact (List.take_add (i := 2) (j := 2)).symm
        rw [all] at crcOk
        refine ⟨unknown, ?_, crcOk, fun _ unchecked => absurd unchecked Bool.false_ne_true⟩
        change 4 ≤ (stream c).length
        omega
    · rintro ⟨unknown, complete, crcOk, ready⟩
      have none : szRequestDiagnosticData ((Message.mk addr func (stream c)).wordAt 0) = none :=
        unknown
      rw [none, Option.getD_none, Nat.zero_mul, Nat.zero_add]
      cases checked : cfg.crcNoCheckit with
      | true =>
        rw [checked] at ready
        obtain ⟨more, last, read, ends⟩ := zero c' inv'
        exact ⟨_, last, recvRest_unchecked cfg checked read, (outOfRange_head enough more).mpr unknown,
          ends.mpr (left ▸ ready rfl rfl)⟩
      | false =>
        rw [checked] at complete crcOk
        obtain ⟨last, accepted, inv''⟩ := recvRest_checked cfg streams inv' left complete crcOk
        refine ⟨_, last, accepted, ?_, quiet last inv''⟩
        refine (Message.outOfRange_congr fun i inside => ?_).mpr unknown
        have inside : i < 2 := inside
        exact Message.byteAt_take (by omega)
  · refine iff_of_false ?_ ?_
    · rintro ⟨m, c', received, -⟩
      rw [received] at refused
      exact refused rfl
    · intro overrun
      have long : 2 + crcLen cfg.crcNoCheckit ≤ (stream c).length := overrun.2.1
      omega

theorem recvData_overrun_reading (streams : Streams ch stream I) (quiet : ∀ c, I c → P c)
    (other : fn ≠ .fnDiagnostics) (format : fn.format = .fixed 4)
    (unformatted : ∀ m, checkFormat m fn = .erNoError) (inv : I c) (addr func : Byte) :
    (∃ m c', recvData ch cfg fn ⟨addr, func, []⟩ c = ((.erNoError, m), c') ∧ m.OutOfRange fn ∧
        P c') ↔
      OverrunData cfg final fn addr func (stream c) := by
  have four : overrunLen cfg fn = 4 + crcLen cfg.crcNoCheckit := by
    rw [overrunLen, SlaveFunctionCode.numberLen, if_neg other]
  have number : fn.numberLen = 4 := if_neg other
  unfold OverrunData
  rw [four]
  rcases recvData_reading cfg streams format inv addr func with
    ⟨enough, c', inv', received⟩ | ⟨short, refused⟩
  · rw [received, checkPdu_iff cfg (unformatted _)]
    have same : ∀ i < fn.numberLen,
        (Message.mk addr func ((stream c).take (4 + crcLen cfg.crcNoCheckit))).byteAt i =
          (Message.mk addr func (stream c)).byteAt i := by
      intro i inside
      exact Message.byteAt_take (by omega)
    rw [Message.outOfRange_congr same]
    constructor
    · rintro ⟨crcOk, outOfRange, -⟩
      exact ⟨outOfRange, enough, crcOk, fun diagnostics => absurd diagnostics other⟩
    · rintro ⟨outOfRange, -, crcOk, -⟩
      exact ⟨crcOk, outOfRange, quiet c' inv'⟩
  · refine iff_of_false ?_ fun overrun => Nat.not_lt.mpr overrun.2.1 short
    rintro ⟨m, c', received, -⟩
    rw [received] at refused
    exact refused rfl

/-- **`recv_pdu` accepts a request whose number is out of range exactly if it arrives completely.** -/
theorem recvData_overrun_iff (streams : Streams ch stream I) (quiet : ∀ c, I c → P c)
    (zero : ∀ c, I c → ∃ more c', ch.getNextData 0 c = (.ok more, c') ∧ (P c' ↔ final (stream c)))
    (fn : SlaveFunctionCode) (inv : I c) (addr func : Byte) :
    (∃ m c', recvData ch cfg fn ⟨addr, func, []⟩ c = ((.erNoError, m), c') ∧ m.OutOfRange fn ∧
        P c') ↔
      OverrunData cfg final fn addr func (stream c) := by
  rcases fn.overrun_cases with rfl | ⟨other, format, unformatted⟩ | never
  · exact recvData_overrun_diagnostics cfg streams quiet zero inv addr func
  · exact recvData_overrun_reading cfg streams quiet other format unformatted inv addr func
  · refine iff_of_false ?_ fun overrun => never _ overrun.1
    rintro ⟨m, c', -, outOfRange, -⟩
    exact never m outOfRange

/-- **`recv` accepts a request whose number is out of range exactly if there is an overrun.** -/
theorem recv_overrun_iff (streams : Streams ch stream I) (quiet : ∀ c, I c → P c)
    (zero : ∀ c, I c → ∃ more c', ch.getNextData 0 c = (.ok more, c') ∧ (P c' ↔ final (stream c)))
    (n : Nat) (inv : I c) :
    (∃ m c' fn, recv ch cfg n c = ((.erNoError, m), c') ∧
        SlaveFunctionCode.ofByte m.func = some fn ∧ m.OutOfRange fn ∧ P c') ↔
      Overrun cfg final n (stream c) := by
  have refusal : ∀ {out : (MbErrCode × Message) × C}, out.1.1 ≠ .erNoError →
      ¬ ∃ m c' fn, out = ((.erNoError, m), c') ∧
        SlaveFunctionCode.ofByte m.func = some fn ∧ m.OutOfRange fn ∧ P c' := by
    rintro out refused ⟨m, c', fn, received, -⟩
    rw [received] at refused
    exact refused rfl
  rcases recv_spec cfg streams n inv with
    ⟨addr, rest, c', skipped, received, left, inv'⟩ | ⟨none, refused, -⟩
  · rw [received]
    rcases recvPdu_spec cfg streams inv' addr with
      ⟨func, data, c'', bytes, left', inv'', ⟨fn, known, received⟩ | ⟨unknown, refused⟩⟩ |
        ⟨empty, refused⟩
    · have found : skipTo cfg.vaddr n (stream c) = some (addr, func :: data) := by
        rw [skipped, ← left, bytes]
      rw [received]
      have overrun := recvData_overrun_iff cfg streams quiet zero fn inv'' addr func
      rw [left'] at overrun
      constructor
      · rintro ⟨m, last, fn', accepted, known', outOfRange, holds⟩
        have same : m.func = func := by
          have kept := (recvData_func cfg ch fn ⟨addr, func, []⟩ c'').2
          rw [accepted] at kept
          exact kept
        rw [same, known] at known'
        cases known'
        exact ⟨addr, func, data, fn, found, known, overrun.mp ⟨m, last, accepted, outOfRange, holds⟩⟩
      · rintro ⟨addr', func', data', fn', found', known', data⟩
        rw [found] at found'
        cases found'
        rw [known] at known'
        cases known'
        obtain ⟨m, last, accepted, outOfRange, holds⟩ := overrun.mpr data
        have same : m.func = func := by
          have kept := (recvData_func cfg ch fn ⟨addr, func, []⟩ c'').2
          rw [accepted] at kept
          exact kept
        exact ⟨m, last, fn, accepted, by rw [same, known], outOfRange, holds⟩
    · refine iff_of_false (refusal refused) ?_
      rintro ⟨addr', func', data', fn', found, known, -⟩
      rw [skipped, ← left, bytes] at found
      cases found
      rw [unknown] at known
      cases known
    · refine iff_of_false (refusal refused) ?_
      rintro ⟨addr', func', data', fn', found, -⟩
      rw [skipped, ← left, empty] at found
      cases found
  · refine iff_of_false (refusal refused) ?_
    rintro ⟨addr', func', data', fn', found, -⟩
    rw [none] at found
    cases found

end Streams

/-! ### The serial line delivers its bytes -/

namespace RTUSlave

variable (handler : Byte → Request → MbErrCode × Message) (cfg : Settings)

theorem streams : Streams (channel handler) Port.input fun _ => True where
  reads n p _ pos _ enough := by
    have bytes : p.input ≠ [] := by
      intro empty
      rw [empty] at enough
      exact absurd enough (by simpa using Nat.ne_of_gt pos)
    refine ⟨{ p with input := p.input.drop n }, ?_, rfl, trivial⟩
    simp only [channel, receiveBlock, if_neg (Nat.ne_of_gt pos), if_neg bytes]
  short n p bytes p' _ pos short read := by
    simp only [channel, receiveBlock, if_neg (Nat.ne_of_gt pos)] at read
    split at read
    · cases read
    · cases read
      rw [List.length_take]
      omega
  dry n p bytes p' empty pos read := by
    simp only [channel, receiveBlock, if_neg (Nat.ne_of_gt pos), if_pos empty] at read
    cases read
  throws n p ex p' thrown := by
    simp only [channel, receiveBlock] at thrown
    split at thrown
    · cases thrown
    · split at thrown
      · cases thrown
        rfl
      · cases thrown

theorem zero (p : Port) : ∃ more p', (channel handler).getNextData 0 p = (.ok more, p') ∧
    (True ↔ (fun _ : List Byte => True) p.input) :=
  ⟨[], p, rfl, Iff.rfl⟩

end RTUSlave

/-! ### A session whose bytes are all readable delivers them -/

namespace Session

/-- What is in the queue and in the socket. -/
def stream (s : Session) : List Byte := s.qrecv ++ s.sock.kernel

/-- The lengths `K`, `K - 255`, `K - 510`, … -/
def OnGrid (K g : Nat) : Prop := g ≤ K ∧ 255 ∣ K - g

/-- **Where the queue runs dry.** The socket was left with `K` bytes and is read in pieces of 255; no
length of the grid lies inside the queue. -/
structure Grid (K : Nat) (s : Session) : Prop where
  cuts : s.sock.cuts = []
  connected : s.cancelled = false
  kernel : s.sock.kernel = [] ∨ OnGrid K s.sock.kernel.length
  queue : ∀ g, 0 < g → g ≤ s.stream.length → OnGrid K g → g ≤ s.sock.kernel.length

variable {s : Session}

theorem readDataFD_all (cuts : s.sock.cuts = []) (n : Nat) :
    (s.readDataFD n).2 = { s with
      qrecv := s.qrecv ++ s.sock.kernel.take (Nat.max n 255)
      sock := { s.sock with kernel := s.sock.kernel.drop (Nat.max n 255), cuts := [] } } := by
  have all : min (Nat.max n 255) (s.sock.cuts.headD (Nat.max n 255)) = Nat.max n 255 := by
    rw [cuts]
    exact Nat.min_self _
  simp only [readDataFD, Socket.read, defaultBufferSizeForRead, all]
  by_cases closed : s.sock.kernel = [] ∧ s.sock.closed = true
  · simp [closed, cuts]
  · simp [closed, cuts]

theorem readDataFD_grid {K : Nat} (grid : s.Grid K) {n : Nat} (small : n ≤ 255)
    (short : s.qrecv.length < n) (enough : n ≤ s.stream.length) {t : Session}
    (read : (s.readDataFD n).2 = t) :
    t.stream = s.stream ∧ n ≤ t.qrecv.length ∧ Grid K { t with qrecv := t.qrecv.drop n } := by
  subst read
  have piece : Nat.max n 255 = 255 := Nat.max_eq_right small
  have total : s.stream.length = s.qrecv.length + s.sock.kernel.length := List.length_append ..
  rw [readDataFD_all grid.cuts, piece]
  refine ⟨?_, ?_, ⟨rfl, grid.connected, ?_, ?_⟩⟩
  · simp only [stream, List.append_assoc, List.take_append_drop]
  · rw [List.length_append, List.length_take]
    omega
  · by_cases empty : s.sock.kernel.drop 255 = []
    · exact .inl empty
    · have more : 255 < s.sock.kernel.length := by
        have := mt List.drop_eq_nil_of_le empty
        omega
      rcases grid.kernel with none | ⟨below, step⟩
      · rw [none] at more
        exact absurd more (by decide)
      · refine .inr ⟨?_, ?_⟩
        · rw [List.length_drop]
          omega
        · rw [List.length_drop]
          omega
  · intro g pos inside onGrid
    have length : g ≤ s.stream.length - n := by
      simp only [stream, List.length_append, List.length_drop, List.length_take] at inside ⊢
      omega
    have before := grid.queue g pos (by omega) onGrid
    obtain ⟨gBelow, gStep⟩ := onGrid
    rw [List.length_drop]
    rcases grid.kernel with none | ⟨below, step⟩
    · rw [none] at before
      exact absurd before (Nat.not_le.mpr pos)
    · omega

/-- The bytes of a read that is answered in full, and the session behind it. -/
theorem getDataFD_grid {K n : Nat} (grid : s.Grid K) (pos : 0 < n) (small : n ≤ 255)
    (enough : n ≤ s.stream.length) :
    ∃ t : Session, s.getDataFD n = t.popData n ∧ t.stream = s.stream ∧ n ≤ t.qrecv.length ∧
      Grid K { t with qrecv := t.qrecv.drop n } := by
  by_cases short : s.qrecv = [] ∨ s.qrecv.length < n
  · have shorter : s.qrecv.length < n := by
      rcases short with empty | shorter
      · rw [empty]
        exact pos
      · exact shorter
    obtain ⟨same, queued, grid'⟩ := readDataFD_grid grid small shorter enough rfl
    have nonempty : (s.readDataFD n).2.qrecv ≠ [] := by
      intro empty
      rw [empty] at queued
      exact absurd queued (Nat.not_le.mpr pos)
    refine ⟨_, ?_, same, queued, grid'⟩
    simp only [getDataFD, if_pos short, if_neg (Nat.ne_of_gt pos), if_neg nonempty]
  · have queued : n ≤ s.qrecv.length := Nat.not_lt.mp fun less => short (.inr less)
    refine ⟨s, if_neg short, rfl, queued, ⟨grid.cuts, grid.connected, grid.kernel, ?_⟩⟩
    intro g gPos inside onGrid
    refine grid.queue g gPos ?_ onGrid
    simp only [stream, List.length_append, List.length_drop] at inside ⊢
    omega

theorem getNextData_short {K n : Nat} (grid : s.Grid K) (pos : 0 < n)
    (short : s.stream.length < n) : (s.getNextData n).1.length < n := by
  have few : s.qrecv = [] ∨ s.qrecv.length < n := by
    right
    rw [stream, List.length_append] at short
    omega
  have same : (s.readDataFD n).2.stream = s.stream := by
    rw [readDataFD_all grid.cuts]
    simp only [stream, List.append_assoc, List.take_append_drop]
  rw [getNextData]
  split
  · exact pos
  · rename_i popped
    simp only [getDataFD, if_pos few, if_neg (Nat.ne_of_gt pos)] at popped
    split at popped
    · have none := (Prod.mk.inj popped).1
      rw [← none]
      exact pos
    · have some := (Prod.mk.inj popped).1
      rw [← some]
      refine Nat.lt_of_le_of_lt (List.length_take_le' ..) ?_
      have := congrArg List.length same
      simp only [stream, List.length_append] at this short
      omega

/-- A read of a session without bytes ends it. -/
theorem getNextData_dry {n : Nat} (empty : s.stream = []) (pos : 0 < n) :
    s.getNextData n = ([], { (s.readDataFD n).2 with cancelled := true }) ∧
      (s.readDataFD n).2.stream = [] := by
  obtain ⟨queue, kernel⟩ := List.append_eq_nil_iff.mp empty
  have left : (s.readDataFD n).2.qrecv = [] ∧ (s.readDataFD n).2.sock.kernel = [] := by
    unfold readDataFD Socket.read
    dsimp only
    by_cases closed : s.sock.closed = true
    · rw [if_pos ⟨kernel, closed⟩]
      exact ⟨queue, by simp [kernel]⟩
    · rw [if_neg fun both => closed both.2]
      simp [queue, kernel]
  refine ⟨?_, by rw [stream, left.1, left.2]; rfl⟩
  simp only [getNextData, getDataFD, if_pos (Or.inl queue), if_neg (Nat.ne_of_gt pos), if_pos left.1]

variable (handler : Byte → Request → MbErrCode × Message) (cfg : Settings)

theorem streams (K : Nat) : Streams (tcpChannel handler) stream (Grid K) where
  reads n s grid pos small enough := by
    obtain ⟨t, data, same, queued, grid'⟩ := getDataFD_grid grid pos small enough
    refine ⟨_, congrArg (fun out => (Except.ok out.1, out.2))
      (getNextData_pop data (take_ne_nil pos queued)) |>.trans ?_, ?_, grid'⟩
    · rw [← same, stream, List.take_append_of_le_length queued]
    · rw [← same, stream, stream, List.drop_append_of_le_length queued]
  short n s bytes s' grid pos short read := by
    have taken : bytes = (s.getNextData n).1 := (Except.ok.inj (Prod.mk.inj read).1).symm
    rw [taken]
    exact getNextData_short grid pos short
  dry n s bytes s' empty pos read := by
    obtain ⟨next, nothing⟩ := getNextData_dry empty pos
    change (Except.ok (s.getNextData n).1, (s.getNextData n).2) = (.ok bytes, s') at read
    rw [next] at read
    cases read
    exact ⟨rfl, nothing⟩
  throws n s ex s' thrown := by
    cases thrown

/-- **A read of length zero** leaves the session connected only if the queue is empty and the socket
is not. -/
theorem zero (K : Nat) (s : Session) (grid : s.Grid K) :
    ∃ more s', (tcpChannel handler).getNextData 0 s = (.ok more, s') ∧
      (s'.cancelled = false ↔ 0 < s.stream.length ∧ OnGrid K s.stream.length) := by
  refine ⟨_, _, rfl, ?_⟩
  by_cases empty : s.qrecv = []
  · have kernel : s.stream = s.sock.kernel := by rw [stream, empty, List.nil_append]
    have queue : (s.readDataFD 7).2.qrecv = s.sock.kernel.take 255 := by
      rw [readDataFD_all grid.cuts, empty]
      rfl
    rw [kernel]
    by_cases none : s.sock.kernel = []
    · have lost : s.getNextData 0 = ([], { (s.readDataFD 7).2 with cancelled := true }) := by
        have nothing : (s.readDataFD 7).2.qrecv = [] := by
          rw [queue, none]
          rfl
        simp only [getNextData, getDataFD, if_pos (Or.inl empty), if_true, if_pos nothing]
      rw [lost, none]
      simp
    · have some : (s.readDataFD 7).2.qrecv ≠ [] := by
        rw [queue]
        simpa using none
      have popped : (s.readDataFD 7).2.qrecv.take 7 ≠ [] := by simpa using some
      have kept : s.getNextData 0 = ((s.readDataFD 7).2.qrecv.take 7,
          { (s.readDataFD 7).2 with qrecv := (s.readDataFD 7).2.qrecv.drop 7 }) := by
        have data : s.getDataFD 0 = popData 7 (s.readDataFD 7).2 := by
          simp only [getDataFD, if_pos (Or.inl empty), if_true, if_neg some]
        rw [getNextData, data, popData]
        split
        · rename_i nothing
          exact absurd (Prod.mk.inj nothing).1 popped
        · rename_i read
          obtain ⟨bytes, state⟩ := Prod.mk.inj read
          rw [bytes, state]
      rw [kept, readDataFD_all grid.cuts]
      exact iff_of_true grid.connected
        ⟨List.length_pos_iff.mpr none, grid.kernel.resolve_left none⟩
  · have lost : s.getNextData 0 = ([], { s with cancelled := true }) := by
      have data : s.getDataFD 0 = ([], s) :=
        if_neg (by rintro (none | less); exacts [empty none, Nat.not_lt_zero _ less])
      rw [getNextData, data]
    rw [lost]
    refine iff_of_false (by simp) ?_
    rintro ⟨pos, onGrid⟩
    have inside := grid.queue _ pos (Nat.le_refl _) onGrid
    rw [stream, List.length_append] at inside
    exact empty (List.length_eq_zero_iff.mp (by omega))

/-! ### The header of a request that is delivered at once -/

/-- The session when the bytes arrive, all of them readable. -/
def delivered (bytes : List Byte) (closed : Bool) (s : Session) : Session :=
  { s with sock := ⟨bytes, [], closed⟩, cancelled := false }

/-- **The header is accepted.** The end of the stream behind a short request hides how much of it
has arrived: then the length of the header itself is compared. -/
def HeaderOk (bytes : List Byte) (closed : Bool) : Prop :=
  6 ≤ bytes.length ∧ (headerOf bytes).pID = 0 ∧ 0 < (headerOf bytes).len ∧
    (headerOf bytes).len ≤ maxLenPacket ∧
    if bytes.length ≤ 255 ∧ closed = true then (headerOf bytes).len ≤ 6
    else 6 + (headerOf bytes).len ≤ bytes.length

/-- What the header and the body leave in the socket. -/
def leftInSocket (bytes : List Byte) : Nat :=
  bytes.length - (255 + Nat.max (headerOf bytes).len 255)

theorem headerOf_take (bytes : List Byte) : headerOf (bytes.take 6) = headerOf bytes := by
  simp [headerOf]

theorem readBody_closed (ended : s.sock.kernel = [] ∧ s.sock.closed = true) (bodyLen n len : Nat) :
    s.readBody bodyLen n len = (len, (s.readDataFD bodyLen).2) := by
  have read : s.readDataFD bodyLen = (none, (s.readDataFD bodyLen).2) := by
    simp only [readDataFD, Socket.read, if_pos ended]
  unfold readBody
  rw [read]

theorem readBody_some (cuts : s.sock.cuts = [])
    (going : ¬ (s.sock.kernel = [] ∧ s.sock.closed = true)) {bodyLen : Nat}
    (queue : (s.readDataFD bodyLen).2.qrecv ≠ []) (n len : Nat) :
    s.readBody bodyLen n len =
      (min (s.readDataFD bodyLen).2.qrecv.length (Nat.max bodyLen 255),
        (s.readDataFD bodyLen).2) := by
  have all : min (Nat.max bodyLen 255) (s.sock.cuts.headD (Nat.max bodyLen 255)) =
      Nat.max bodyLen 255 := by
    rw [cuts]
    exact Nat.min_self _
  have read : s.readDataFD bodyLen =
      (some (min (s.readDataFD bodyLen).2.qrecv.length (Nat.max bodyLen 255)),
        (s.readDataFD bodyLen).2) := by
    simp only [readDataFD, Socket.read, defaultBufferSizeForRead, all, if_neg going]
  have pos : 0 < min (s.readDataFD bodyLen).2.qrecv.length (Nat.max bodyLen 255) := by
    have := List.length_pos_iff.mpr queue
    have := Nat.le_max_right bodyLen 255
    change 255 ≤ Nat.max bodyLen 255 at this
    omega
  unfold readBody
  rw [read]
  split
  · rename_i same
    cases (Prod.mk.inj same).1
  · rename_i same
    have none := Option.some.inj (Prod.mk.inj same).1
    omega
  · rename_i same
    obtain ⟨length, state⟩ := Prod.mk.inj same
    rw [Option.some.inj length, state]

/-- Nothing has arrived. -/
structure Idle (s : Session) : Prop where
  queue : s.qrecv = []
  kernel : s.sock.kernel = []
  going : s.sock.closed = false

theorem Idle.read (idle : s.Idle) (n : Nat) :
    ∃ t : Session, s.readDataFD n = (some 0, t) ∧ t.Idle := by
  refine ⟨(s.readDataFD n).2, ?_, ⟨?_, ?_, ?_⟩⟩
  all_goals simp [readDataFD, Socket.read, idle.queue, idle.kernel, idle.going]

theorem Idle.readBody (idle : s.Idle) (bodyLen n len : Nat) : (s.readBody bodyLen n len).1 = 0 := by
  induction n generalizing s len with
  | zero =>
    obtain ⟨t, read, -⟩ := idle.read bodyLen
    unfold Session.readBody
    rw [read]
    rfl
  | succ n ih =>
    obtain ⟨t, read, idle'⟩ := idle.read bodyLen
    unfold Session.readBody
    rw [read]
    exact ih idle' 0

section Delivered

variable (bytes : List Byte) (closed : Bool) (s : Session)

/-- The session when `tcp_processing` begins to read. -/
def cleared : Session := { s.delivered bytes closed with qrecv := [] }

/-- The session after the header. -/
def afterHeader : Session :=
  { cleared bytes closed s with
    qrecv := (bytes.take 255).drop 6
    sock := ⟨bytes.drop 255, [], closed⟩ }

/-- The session after the body. -/
def afterBody : Session := ((afterHeader bytes closed s).readDataFD (headerOf bytes).len).2

variable {bytes closed s}

theorem getNextData_header (six : 6 ≤ bytes.length) :
    (cleared bytes closed s).getNextData 6 = (bytes.take 6, afterHeader bytes closed s) := by
  have queued : 6 ≤ (bytes.take 255).length := by
    rw [List.length_take]
    omega
  have first : ((cleared bytes closed s).readDataFD 6).2 = { cleared bytes closed s with
      qrecv := bytes.take 255
      sock := ⟨bytes.drop 255, [], closed⟩ } := readDataFD_all rfl 6
  have nonempty : ¬ ((cleared bytes closed s).readDataFD 6).2.qrecv = [] := by
    rw [first]
    intro none
    have none := congrArg List.length none
    dsimp only at none
    rw [List.length_nil] at none
    omega
  have empty : (cleared bytes closed s).qrecv = [] ∨ (cleared bytes closed s).qrecv.length < 6 :=
    .inl rfl
  have data : (cleared bytes closed s).getDataFD 6 =
      popData 6 ((cleared bytes closed s).readDataFD 6).2 := by
    simp only [getDataFD, if_pos empty, if_neg (by decide : ¬ (6 : Nat) = 0), if_neg nonempty]
  rw [first] at data
  rw [getNextData_pop data (take_ne_nil (by decide) queued)]
  dsimp only
  rw [List.take_take]
  rfl

theorem getNextData_header_short (few : bytes.length < 6) :
    ((cleared bytes closed s).getNextData 6).1.length < 6 := by
  have grid : (cleared bytes closed s).Grid bytes.length :=
    ⟨rfl, rfl, .inr ⟨Nat.le_refl _, Nat.sub_self bytes.length ▸ Nat.dvd_zero 255⟩,
      fun g _ inside _ => inside⟩
  exact (streams (fun _ _ => (.erNoError, ⟨0, 0, []⟩)) bytes.length).short 6 _ _ _ grid
    (by decide) few rfl

theorem afterBody_eq : afterBody bytes closed s = { cleared bytes closed s with
    qrecv := (bytes.take 255).drop 6 ++ (bytes.drop 255).take (Nat.max (headerOf bytes).len 255)
    sock := ⟨(bytes.drop 255).drop (Nat.max (headerOf bytes).len 255), [], closed⟩ } :=
  readDataFD_all rfl _

theorem afterBody_stream : (afterBody bytes closed s).stream = bytes.drop 6 := by
  rw [afterBody_eq, stream]
  dsimp only
  rw [List.append_assoc, List.take_append_drop]
  by_cases few : bytes.length ≤ 255
  · rw [List.take_of_length_le few, List.drop_eq_nil_of_le few, List.append_nil]
  · have queued : 6 ≤ (bytes.take 255).length := by
      rw [List.length_take]
      omega
    rw [← List.drop_append_of_le_length queued, List.take_append_drop]

/-- An empty queue after the body means that nothing followed the header. -/
theorem afterBody_empty (queue : (afterBody bytes closed s).qrecv = []) : bytes.drop 6 = [] := by
  rw [afterBody_eq] at queue
  have none := congrArg List.length (List.append_eq_nil_iff.mp queue).1
  rw [List.length_drop, List.length_take, List.length_nil] at none
  exact List.drop_eq_nil_of_le (by omega)

theorem afterBody_grid (bytes : List Byte) (closed : Bool) (s : Session) :
    (afterBody bytes closed s).Grid (leftInSocket bytes) := by
  have kernel : (afterBody bytes closed s).sock.kernel.length = leftInSocket bytes := by
    rw [afterBody_eq]
    simp only [List.length_drop, leftInSocket]
    omega
  refine ⟨by rw [afterBody_eq], by rw [afterBody_eq]; rfl, .inr ?_, ?_⟩
  · rw [kernel]
    exact ⟨Nat.le_refl _, by rw [Nat.sub_self]; exact Nat.dvd_zero _⟩
  · intro g _ _ onGrid
    rw [kernel]
    exact onGrid.1

/-- **The body is complete exactly if the last part of the header's conditions holds.** -/
theorem readBody_afterHeader (closed : Bool) (s : Session) (six : 6 ≤ bytes.length) (pos : 0 < (headerOf bytes).len)
    (pt : Nat) :
    ((headerOf bytes).len ≤
        ((afterHeader bytes closed s).readBody (headerOf bytes).len pt 6).1 ↔
      if bytes.length ≤ 255 ∧ closed = true then (headerOf bytes).len ≤ 6
      else 6 + (headerOf bytes).len ≤ bytes.length) ∧
    ((headerOf bytes).len ≤ ((afterHeader bytes closed s).readBody (headerOf bytes).len pt 6).1 →
      ((afterHeader bytes closed s).readBody (headerOf bytes).len pt 6).2 =
        afterBody bytes closed s) := by
  have kernel : (afterHeader bytes closed s).sock.kernel = [] ↔ bytes.length ≤ 255 :=
    List.drop_eq_nil_iff
  by_cases ended : bytes.length ≤ 255 ∧ closed = true
  · rw [readBody_closed ⟨kernel.mpr ended.1, ended.2⟩, if_pos ended]
    exact ⟨Iff.rfl, fun _ => rfl⟩
  · rw [if_neg ended]
    by_cases queue : (afterBody bytes closed s).qrecv = []
    · have only : bytes.length = 6 := by
        have none := congrArg List.length queue
        rw [afterBody_eq] at none
        simp only [List.length_append, List.length_drop, List.length_take, List.length_nil] at none
        have := Nat.le_max_right (headerOf bytes).len 255
        change 255 ≤ Nat.max (headerOf bytes).len 255 at this
        omega
      have idle : (afterHeader bytes closed s).Idle := by
        refine ⟨?_, kernel.mpr (by omega), ?_⟩
        · refine List.drop_eq_nil_of_le ?_
          rw [List.length_take]
          omega
        · exact Bool.eq_false_iff.mpr fun yes => ended ⟨by omega, yes⟩
      rw [idle.readBody]
      constructor
      · omega
      · omega
    · have going : ¬ ((afterHeader bytes closed s).sock.kernel = [] ∧
          (afterHeader bytes closed s).sock.closed = true) :=
        fun both => ended ⟨kernel.mp both.1, both.2⟩
      rw [readBody_some rfl going queue]
      refine ⟨?_, fun _ => rfl⟩
      have length : (afterBody bytes closed s).qrecv.length =
          min 255 bytes.length - 6 +
            min (Nat.max (headerOf bytes).len 255) (bytes.length - 255) := by
        rw [afterBody_eq]
        simp only [List.length_append, List.length_drop, List.length_take]
      rw [show ((afterHeader bytes closed s).readDataFD (headerOf bytes).len).2 =
        afterBody bytes closed s from rfl, length]
      have left : (headerOf bytes).len ≤ Nat.max (headerOf bytes).len 255 := Nat.le_max_left ..
      have right : 255 ≤ Nat.max (headerOf bytes).len 255 := Nat.le_max_right ..
      omega

/-- **What `tcp_processing` makes of bytes that are delivered at once.** -/
theorem tcpProcessing_spec (bytes : List Byte) (closed : Bool) (s : Session) (pt : Nat) :
    (HeaderOk bytes closed ∧ (s.delivered bytes closed).tcpProcessing pt =
        ((.erNoError, headerOf bytes), afterBody bytes closed s)) ∨
    (¬ HeaderOk bytes closed ∧
      ((s.delivered bytes closed).tcpProcessing pt).1.1 ≠ .erNoError) := by
  have begins : { s.delivered bytes closed with qrecv := [] } = cleared bytes closed s := rfl
  unfold tcpProcessing
  rw [begins]
  by_cases six : 6 ≤ bytes.length
  · have long : ¬ (bytes.take 6).length < 6 := by
      rw [List.length_take_of_le six]
      decide
    rw [getNextData_header six]
    dsimp only
    rw [if_neg long, headerOf_take]
    by_cases pID : (headerOf bytes).pID ≠ 0
    · rw [if_pos pID]
      exact .inr ⟨fun ok => pID ok.2.1, by simp⟩
    by_cases zero : (headerOf bytes).len = 0
    · rw [if_neg pID, if_pos zero]
      exact .inr ⟨fun ok => absurd zero (Nat.ne_of_gt ok.2.2.1), by simp⟩
    by_cases large : maxLenPacket < (headerOf bytes).len
    · rw [if_neg pID, if_neg zero, if_pos large]
      exact .inr ⟨fun ok => absurd large (Nat.not_lt.mpr ok.2.2.2.1), by simp⟩
    rw [if_neg pID, if_neg zero, if_neg large]
    obtain ⟨complete, state⟩ :=
      readBody_afterHeader closed s six (Nat.pos_of_ne_zero zero) pt
    by_cases short : ((afterHeader bytes closed s).readBody (headerOf bytes).len pt 6).1 <
        (headerOf bytes).len
    · rw [if_pos short]
      exact .inr ⟨fun ok => absurd short (Nat.not_lt.mpr (complete.mpr ok.2.2.2.2)), by simp⟩
    · rw [if_neg short, state (Nat.not_lt.mp short)]
      exact .inl ⟨⟨six, not_not.mp pID, Nat.pos_of_ne_zero zero, Nat.not_lt.mp large,
        complete.mp (Nat.not_lt.mp short)⟩, rfl⟩
  · right
    refine ⟨fun ok => six ok.1, ?_⟩
    dsimp only
    rw [if_pos (getNextData_header_short (Nat.not_le.mp six))]
    split <;> simp

end Delivered

/-- **The exception that escapes from the part behind the header.** -/
theorem serve_escapes_iff (K : Nat) (clock : Clock) (grid : s.Grid K) :
    (∃ err, (serve handler cfg clock s).1 = .error err) ↔
      clock.leftAfterRecv = true ∧
        Overrun cfg (fun left => 0 < left.length ∧ OnGrid K left.length) clock.tmAbort s.stream := by
  rw [← recv_overrun_iff cfg (streams handler K) (fun s grid => grid.connected)
    (zero handler K) clock.tmAbort grid]
  unfold serve
  dsimp only
  constructor
  · rintro ⟨err, thrown⟩
    split at thrown
    · cases thrown
    rename_i connected
    split at thrown
    · split at thrown <;> cases thrown
    rename_i accepted
    split at thrown
    · cases thrown
    rename_i left
    obtain ⟨fn, known, outOfRange⟩ := (processing_escapes_iff _ _).mp ⟨err, thrown⟩
    refine ⟨Bool.not_eq_false _ ▸ left, _, _, fn, ?_, known, outOfRange,
      Bool.eq_false_iff.mpr connected⟩
    rw [← not_not.mp accepted]
  · rintro ⟨left, m, s', fn, received, known, outOfRange, connected⟩
    rw [received]
    dsimp only
    rw [connected, if_neg Bool.false_ne_true, if_neg fun wrong => wrong rfl, left,
      if_neg (by simp)]
    exact (processing_escapes_iff _ _).mpr ⟨fn, known, outOfRange⟩

/-- **An exception escapes from `realReceive` of a session exactly if the header is accepted, time is
left and there is an overrun.** -/
theorem realReceive_escapes_iff (bytes : List Byte) (closed : Bool) (clock : Clock) (s : Session) :
    (∃ err, (realReceive handler cfg clock (s.delivered bytes closed)).1 = .error err) ↔
      HeaderOk bytes closed ∧ clock.leftAfterHeader = true ∧ clock.leftAfterRecv = true ∧
        Overrun cfg (fun left => 0 < left.length ∧ OnGrid (leftInSocket bytes) left.length)
          clock.tmAbort (bytes.drop 6) := by
  unfold realReceive
  rcases tcpProcessing_spec bytes closed s clock.pt with ⟨ok, header⟩ | ⟨bad, refused⟩
  · rw [header]
    dsimp only
    rw [if_neg fun wrong => wrong rfl]
    by_cases left : clock.leftAfterHeader = false
    · rw [if_pos left]
      refine iff_of_false ?_ fun all => Bool.false_ne_true (left.symm.trans all.2.1)
      rintro ⟨err, thrown⟩
      cases thrown
    rw [if_neg left]
    by_cases queue : (afterBody bytes closed s).qrecv = []
    · rw [if_pos queue, afterBody_empty queue]
      refine iff_of_false ?_ fun all => not_overrun_nil cfg all.2.2.2
      rintro ⟨err, thrown⟩
      cases thrown
    have grid := afterBody_grid bytes closed s
    rw [if_neg queue, if_neg fun lost => Bool.false_ne_true (grid.connected.symm.trans lost)]
    have served := serve_escapes_iff handler cfg (leftInSocket bytes) clock
      (s := { afterBody bytes closed s with curQueryHeader := headerOf bytes })
      ⟨grid.cuts, grid.connected, grid.kernel, grid.queue⟩
    have stream : Session.stream { afterBody bytes closed s with
        curQueryHeader := headerOf bytes } = bytes.drop 6 := afterBody_stream
    rw [stream] at served
    rw [served]
    constructor
    · rintro ⟨time, overrun⟩
      exact ⟨ok, (Bool.not_eq_false _).mp left, time, overrun⟩
    · rintro ⟨-, -, time, overrun⟩
      exact ⟨time, overrun⟩
  · dsimp only
    rw [if_pos refused]
    refine iff_of_false ?_ fun all => bad all.1
    rintro ⟨err, thrown⟩
    cases thrown

end Session

/-! ### The serial slave -/

namespace RTUSlave

variable (handler : Byte → Request → MbErrCode × Message) (cfg : Settings)

/-- No request is taken for one to another node: the loop for the address has looked at it. -/
theorem recv_ne_badReplyNodeAddress (tmAbort : Nat) (p : Port) :
    (recv (channel handler) cfg tmAbort p).1.1 ≠ .erBadReplyNodeAddress := by
  have handled : ∀ {n : Nat} {m : Message} {p p' : Port} {ex : Exc},
      (channel handler).getNextData n p = (.error ex, p') →
        (pduHandler (channel handler) m p' ex).1.1 ≠ .erBadReplyNodeAddress := by
    intro n m p p' ex thrown
    rw [(streams handler).throws n p ex p' thrown]
    simp [pduHandler]
  have checked : ∀ {fn : SlaveFunctionCode} {m : Message} {p : Port},
      (checkPdu (channel handler) cfg fn m p).1.1 ≠ .erBadReplyNodeAddress := by
    intro fn m p
    unfold checkPdu
    split
    · simp
    · split
      · simp
      · cases fn <;> simp only [checkFormat] <;> (try split) <;> simp
  rcases recv_spec cfg (streams handler) tmAbort (c := p) trivial with
    ⟨addr, rest, p', -, received, -, -⟩ | ⟨-, -, other⟩
  · rw [received, recvPdu]
    split
    · rename_i thrown
      exact handled thrown
    · simp
    · split
      · simp
      · unfold recvData
        split
        · rename_i thrown
          exact handled thrown
        · dsimp only
          split
          · simp
          · split
            · exact checked
            · split
              · rename_i thrown
                exact handled thrown
              · split
                · simp
                · exact checked
  · exact other

/-- **The serial slave returns after one turn, and an exception escapes from it exactly if there is
an overrun.** -/
theorem realReceive_escapes_iff (locked : Bool) (tmAbort : Nat) (inTime : Bool) (n : Nat) (p : Port) :
    ∃ out, realReceive handler cfg locked tmAbort inTime (n + 1) p = some out ∧
      ((∃ err, out.1 = .error err) ↔
        locked = true ∧ Overrun cfg (fun _ => True) tmAbort p.input) := by
  unfold realReceive
  cases locked with
  | false =>
    refine ⟨_, rfl, iff_of_false ?_ fun all => Bool.false_ne_true all.1⟩
    rintro ⟨err, thrown⟩
    cases thrown
  | true =>
    have overrun : (∃ m p' fn, recv (channel handler) cfg tmAbort p = ((.erNoError, m), p') ∧
          SlaveFunctionCode.ofByte m.func = some fn ∧ m.OutOfRange fn ∧ True) ↔
        Overrun cfg (fun _ => True) tmAbort p.input :=
      recv_overrun_iff cfg (streams handler) (fun _ _ => trivial) (fun p _ => zero handler p)
        tmAbort trivial
    rw [if_pos rfl, receiveLoop, if_neg (recv_ne_badReplyNodeAddress handler cfg tmAbort p), ← overrun]
    by_cases accepted : (recv (channel handler) cfg tmAbort p).1.1 = .erNoError
    · rw [if_neg fun refused => refused accepted]
      refine ⟨_, rfl, (processing_escapes_iff _ _).trans ⟨?_, ?_⟩⟩
      · rintro ⟨fn, known, outOfRange⟩
        refine ⟨rfl, _, (recv (channel handler) cfg tmAbort p).2, fn, ?_, known, outOfRange, trivial⟩
        rw [← accepted]
      · rintro ⟨-, m, p', fn, received, known, outOfRange, -⟩
        rw [received]
        exact ⟨fn, known, outOfRange⟩
    · rw [if_pos accepted]
      have refused : ¬ (true = true ∧ ∃ m p' fn, recv (channel handler) cfg tmAbort p =
          ((.erNoError, m), p') ∧ SlaveFunctionCode.ofByte m.func = some fn ∧ m.OutOfRange fn ∧
            True) := by
        rintro ⟨-, m, p', fn, received, -⟩
        rw [received] at accepted
        exact accepted rfl
      split
      · refine ⟨_, rfl, iff_of_false ?_ refused⟩
        rintro ⟨err, thrown⟩
        cases thrown
      · refine ⟨_, rfl, iff_of_false ?_ refused⟩
        rintro ⟨err, thrown⟩
        cases thrown

end RTUSlave

/-! ### Which requests the server survives -/

theorem returns_iff {out : Except MbErrCode MbErrCode} :
    (∃ code, out = .ok code) ↔ ¬ ∃ err, out = .error err := by
  cases out with
  | ok code =>
    refine iff_of_true ⟨code, rfl⟩ ?_
    rintro ⟨err, thrown⟩
    cases thrown
  | error err =>
    refine iff_of_false ?_ fun never => never ⟨err, rfl⟩
    rintro ⟨code, returned⟩
    cases returned

/-- **`realReceive` returns a code exactly if no request whose number is out of range is accepted**:
for every byte sequence, every timing and all handlers, on a TCP connection and on a serial line. -/
theorem realReceive_returns_iff (handler : Byte → Request → MbErrCode × Message) (cfg : Settings) :
    (∀ bytes closed clock (s : Session),
      (∃ code, (Session.realReceive handler cfg clock (s.delivered bytes closed)).1 = .ok code) ↔
        ¬ (Session.HeaderOk bytes closed ∧ clock.leftAfterHeader = true ∧
          clock.leftAfterRecv = true ∧
          Overrun cfg (fun left => 0 < left.length ∧
              Session.OnGrid (Session.leftInSocket bytes) left.length)
            clock.tmAbort (bytes.drop 6))) ∧
    (∀ locked tmAbort inTime n p, ∃ out,
      RTUSlave.realReceive handler cfg locked tmAbort inTime (n + 1) p = some out ∧
        ((∃ code, out.1 = .ok code) ↔
          ¬ (locked = true ∧ Overrun cfg (fun _ => True) tmAbort p.input))) := by
  constructor
  · intro bytes closed clock s
    rw [returns_iff, Session.realReceive_escapes_iff]
  · intro locked tmAbort inTime n p
    obtain ⟨out, ran, escapes⟩ :=
      RTUSlave.realReceive_escapes_iff handler cfg locked tmAbort inTime n p
    exact ⟨out, ran, by rw [returns_iff, escapes]⟩

/-- A session nobody has written to. -/
def Session.opened : Session where
  sock := ⟨[], [], false⟩
  qrecv := []
  cancelled := false
  curQueryHeader := ⟨0, 0, 0⟩
  qsend := []
  handled := []

/-- Enough time for everything. -/
def Clock.unhurried : Clock := ⟨10, 100, true, true, true⟩

/-- The request to read 126 registers, one more than fit into an answer. -/
def read126 : List Byte := [0, 1, 0, 0, 0, 6, 1, 3, 0, 0, 0, 126]

/-- **A count above the limit escapes as an exception.** -/
theorem read126_escapes :
    ¬ ∃ code, (Session.realReceive (fun addr _ => (.erNoError, ⟨addr, 3, []⟩))
      { vaddr := [1], crcNoCheckit := true } .unhurried
      (Session.opened.delivered read126 false)).1 = .ok code := by
  rw [returns_iff, not_not]
  exact ⟨.erPacketTooLong, by decide +kernel⟩

end UniSet.Modbus

/-
**What is read back from an encoded message.**

* `checkCRC_lt` — a check sum fits into its two bytes.
* `crc_withCRC` — the check sum of an encoded message is the one that a receiver calculates.
* `wordsAt_words` — the words that were put into a message.
* `Delivers` — reads that bring a list of bytes in order, whatever their lengths; the serial line does.
* `Arrives` — a complete request among the bytes. **`recvPdu_accepts_iff`**: `recv_pdu` accepts
  exactly these, and takes exactly their bytes.
-/

import UniSet.Modbus.RealReceive

namespace UniSet.Modbus

/-! ### The check sum -/

theorem crc16Tab_lt (i : Nat) : crc16Tab.getD i 0 < 65536 := by
  have entries : ∀ w ∈ crc16Tab, w < 65536 := by decide +kernel
  by_cases inside : i < crc16Tab.length
  · rw [List.getD_eq_getElem?_getD, List.getElem?_eq_getElem inside]
    exact entries _ (List.getElem_mem inside)
  · rw [List.getD_eq_getElem?_getD, List.getElem?_eq_none (Nat.le_of_not_lt inside)]
    decide

theorem getCrc16_lt (bytes : List Byte) {crc : Nat} (small : crc < 65536) :
    getCrc16 crc bytes < 65536 := by
  induction bytes generalizing crc with
  | nil => exact small
  | cons b rest ih =>
    refine ih (Nat.xor_lt_two_pow (n := 16) ?_ (crc16Tab_lt _))
    exact Nat.lt_of_le_of_lt (Nat.shiftRight_le crc 8) small

/-- **A check sum fits into its two bytes.** -/
theorem checkCRC_lt (bytes : List Byte) : checkCRC bytes < 65536 := getCrc16_lt bytes (by decide)

theorem crcBytes_value {crc : Nat} (small : crc < 65536) :
    (UInt8.ofNat crc).toNat + (UInt8.ofNat (crc / 256)).toNat * 256 = crc := by
  rw [UInt8.toNat_ofNat', UInt8.toNat_ofNat']
  omega

namespace Message

theorem byteAt_behind (addr func : Byte) (before after : List Byte) (i : Nat) :
    (Message.mk addr func (before ++ after)).byteAt (before.length + i) = after.getD i 0 := by
  rw [byteAt, List.getD_eq_getElem?_getD, List.getElem?_append_right (Nat.le_add_right _ _),
    Nat.add_sub_cancel_left, List.getD_eq_getElem?_getD]

theorem getCrc_append (addr func : Byte) (body : List Byte) {crc : Nat} (small : crc < 65536) :
    (Message.mk addr func (body ++ crcBytes crc)).getCrc = crc := by
  have place : (body ++ crcBytes crc).length - szCRC = body.length := by
    rw [List.length_append]
    exact Nat.add_sub_cancel body.length 2
  rw [getCrc, place]
  have lo := byteAt_behind addr func body (crcBytes crc) 0
  have hi := byteAt_behind addr func body (crcBytes crc) 1
  rw [Nat.add_zero] at lo
  rw [lo, hi]
  exact crcBytes_value small

theorem pduCRC_append (addr func : Byte) (body : List Byte) (crc : Nat) :
    (Message.mk addr func (body ++ crcBytes crc)).pduCRC
      ((Message.mk addr func (body ++ crcBytes crc)).pduLen - szCRC) =
      checkCRC (addr :: func :: body) := by
  have place : (Message.mk addr func (body ++ crcBytes crc)).pduLen - szCRC =
      (addr :: func :: body).length := by
    show 2 + (body ++ crcBytes crc).length - 2 = body.length + 1 + 1
    rw [List.length_append]
    show 2 + (body.length + 2) - 2 = _
    omega
  rw [place, pduCRC]
  have first : ((addr :: func :: body) ++ crcBytes crc).take (addr :: func :: body).length =
    addr :: func :: body := List.take_left
  exact congrArg checkCRC first

/-- **The check sum of an encoded message is the one that a receiver calculates.** -/
theorem crc_withCRC (addr func : Byte) (body : List Byte) :
    (withCRC addr func body).pduCRC ((withCRC addr func body).pduLen - szCRC) =
      (withCRC addr func body).getCrc := by
  rw [withCRC, pduCRC_append, getCrc_append addr func body (checkCRC_lt _)]

/-! ### Words -/

/-- The bytes of some words, one after the other. -/
def wordsBytes (words : List Nat) : List Byte := words.flatMap wordBytes

theorem wordsBytes_length (words : List Nat) : (wordsBytes words).length = 2 * words.length := by
  induction words with
  | nil => rfl
  | cons w rest ih =>
    show (wordBytes w ++ wordsBytes rest).length = _
    rw [List.length_append, ih]
    show 2 + 2 * rest.length = 2 * (rest.length + 1)
    omega

theorem wordsAt_words {addr func : Byte} (before after : List Byte) {words : List Nat}
    (small : ∀ w ∈ words, w < 65536) :
    (Message.mk addr func (before ++ (wordsBytes words ++ after))).wordsAt before.length words.length =
      words := by
  induction words generalizing before with
  | nil => rfl
  | cons w rest ih =>
    obtain ⟨first, others⟩ := List.forall_mem_cons.mp small
    have data : before ++ (wordsBytes (w :: rest) ++ after) =
        (before ++ wordBytes w) ++ (wordsBytes rest ++ after) := by
      simp only [wordsBytes, List.flatMap_cons, List.append_assoc]
    have behind := ih (before ++ wordBytes w) others
    rw [List.length_append] at behind
    have hi := byteAt_behind addr func before
      (wordsBytes (w :: rest) ++ after) 0
    have lo := byteAt_behind addr func before
      (wordsBytes (w :: rest) ++ after) 1
    rw [Nat.add_zero] at hi
    show wordAt _ before.length :: wordsAt _ (before.length + 2) rest.length = _
    rw [wordAt, hi, lo]
    refine congrArg₂ List.cons (word_wordBytes w first) ?_
    rw [data]
    exact behind

end Message

/-! ### Reads that bring a list of bytes -/

/-- **The reads bring the bytes of `stream`** in the states of `I`. -/
structure Delivers {C : Type} (read : Nat → C → Except Exc (List Byte) × C) (stream : C → List Byte)
    (I : C → Prop) : Prop where
  reads : ∀ n c, I c → 0 < n → n ≤ (stream c).length →
    ∃ c', read n c = (.ok ((stream c).take n), c') ∧ stream c' = (stream c).drop n ∧ I c'
  short : ∀ n c bytes c', I c → 0 < n → (stream c).length < n → read n c = (.ok bytes, c') →
    bytes.length < n
  dry : ∀ n c bytes c', stream c = [] → 0 < n → read n c = (.ok bytes, c') →
    bytes = [] ∧ stream c' = []
  throws : ∀ n c ex c', read n c = (.error ex, c') → ex = .timeOut
  zero : ∀ c, I c → ∃ bytes c', read 0 c = (.ok bytes, c')

theorem Delivers.streams {C : Type} {ch : Channel C} {stream : C → List Byte} {I : C → Prop}
    (delivers : Delivers ch.getNextData stream I) : Streams ch stream I where
  reads n c inv pos _ enough := delivers.reads n c inv pos enough
  short := delivers.short
  dry := delivers.dry
  throws := delivers.throws

theorem RTUSlave.delivers : Delivers RTUSlave.receiveBlock Port.input fun _ => True where
  reads n p _ pos enough := by
    have bytes : p.input ≠ [] := by
      intro empty
      rw [empty] at enough
      exact absurd pos (Nat.not_lt.mpr enough)
    refine ⟨{ p with input := p.input.drop n }, ?_, rfl, trivial⟩
    rw [receiveBlock, if_neg (Nat.ne_of_gt pos), if_neg bytes]
  short := (RTUSlave.streams fun _ _ => (.erNoError, ⟨0, 0, []⟩)).short
  dry := (RTUSlave.streams fun _ _ => (.erNoError, ⟨0, 0, []⟩)).dry
  throws := (RTUSlave.streams fun _ _ => (.erNoError, ⟨0, 0, []⟩)).throws
  zero p _ := ⟨[], p, rfl⟩

namespace Session

end Session

/-! ### A complete request -/

/-- The length of the data of a request that begins with the bytes `data`. -/
def SlaveFunctionCode.dataLen (fn : SlaveFunctionCode) (cfg : Settings) (addr func : Byte)
    (data : List Byte) : Nat :=
  fn.format.first cfg.crcNoCheckit +
    (fn.format.second cfg.crcNoCheckit
      ⟨addr, func, data.take (fn.format.first cfg.crcNoCheckit)⟩).getD 0

/-- **A complete request is among the bytes**, with the right check sum and format. -/
structure Arrives (cfg : Settings) (fn : SlaveFunctionCode) (addr func : Byte) (data : List Byte) :
    Prop where
  head : fn.format.first cfg.crcNoCheckit ≤ data.length
  whole : fn.dataLen cfg addr func data ≤ data.length
  crc : CrcOk cfg ⟨addr, func, data.take (fn.dataLen cfg addr func data)⟩
  format : checkFormat ⟨addr, func, data.take (fn.dataLen cfg addr func data)⟩ fn = .erNoError

section Server

variable {C : Type} {ch : Channel C} {stream : C → List Byte} {I : C → Prop} (cfg : Settings)

variable {fn : SlaveFunctionCode} {c : C}

theorem checkPdu_accepts {m : Message} :
    (checkPdu ch cfg fn m c).1.1 = .erNoError ↔ CrcOk cfg m ∧ checkFormat m fn = .erNoError := by
  by_cases crcOk : CrcOk cfg m
  · by_cases ok : checkFormat m fn = .erNoError
    · rw [checkPdu_ok ch cfg crcOk ok]
      exact iff_of_true rfl ⟨crcOk, ok⟩
    · have right : ¬ (cfg.crcNoCheckit = false ∧ m.pduCRC (m.pduLen - szCRC) ≠ m.getCrc) := by
        rintro ⟨checked, wrong⟩
        rcases crcOk with unchecked | right
        · rw [checked] at unchecked
          cases unchecked
        · exact wrong right
      rw [checkPdu, if_neg right, if_neg ok]
      exact iff_of_false ok fun both => ok both.2
  · obtain ⟨checked, wrong⟩ := not_or.mp crcOk
    rw [checkPdu, if_pos ⟨Bool.eq_false_iff.mpr checked, wrong⟩]
    exact iff_of_false (by decide : MbErrCode.erBadCheckSum ≠ .erNoError) fun both => crcOk both.1

theorem SlaveFunctionCode.first_read_pos (fn : SlaveFunctionCode) (crcNoCheckit : Bool) :
    0 < fn.format.first crcNoCheckit := by
  cases fn <;> cases crcNoCheckit <;> decide

/-- The second read is empty only where no check sum is read. -/
theorem Format.second_zero {format : Format} {crcNoCheckit : Bool} {m : Message}
    (none : format.second crcNoCheckit m = some 0) : crcNoCheckit = true := by
  cases crcNoCheckit with
  | true => rfl
  | false =>
    cases format with
    | fixed _ => cases none
    | counted szHead getDataLen => exact absurd (Option.some.inj none) (Nat.succ_ne_zero _)
    | headOnly _ => cases none

theorem checkFormat_head (addr func : Byte) {data : List Byte}
    (head : fn.format.first cfg.crcNoCheckit ≤ data.length) (more : List Byte) :
    checkFormat ⟨addr, func, data ++ more⟩ fn = checkFormat ⟨addr, func, data⟩ fn := by
  cases fn with
  | fnWriteOutputRegisters =>
    have five : 5 ≤ data.length := head
    have same : ∀ i < 5, (Message.mk addr func (data ++ more)).byteAt i =
        (Message.mk addr func data).byteAt i := fun i inside =>
      Message.byteAt_append (Nat.lt_of_lt_of_le inside five)
    have format : (Message.mk addr func (data ++ more)).writeOutputCheckFormat =
        (Message.mk addr func data).writeOutputCheckFormat := by
      rw [Message.writeOutputCheckFormat, Message.writeOutputCheckFormat, Message.wordAt,
        Message.wordAt, same 2 (by decide), same (2 + 1) (by decide), same 4 (by decide)]
    rw [checkFormat, checkFormat, format]
  | _ => rfl

/-- The second part of the data. -/
def recvMore (ch : Channel C) (cfg : Settings) (fn : SlaveFunctionCode) (m : Message)
    (szDataLen : Nat) (c : C) : (MbErrCode × Message) × C :=
  match ch.getNextData szDataLen c with
  | (.error ex, c) => pduHandler ch m c ex
  | (.ok more, c) =>
    if more.length < szDataLen then
      ((.erInvalidFormat, { m with data := m.data ++ more }), ch.cleanupChannel c)
    else checkPdu ch cfg fn { m with data := m.data ++ more } c

theorem recvData_head (delivers : Delivers ch.getNextData stream I) (inv : I c) (addr func : Byte)
    (head : fn.format.first cfg.crcNoCheckit ≤ (stream c).length) :
    ∃ m c', m = Message.mk addr func ((stream c).take (fn.format.first cfg.crcNoCheckit)) ∧
      stream c' = (stream c).drop (fn.format.first cfg.crcNoCheckit) ∧ I c' ∧
      recvData ch cfg fn ⟨addr, func, []⟩ c =
        match fn.format.second cfg.crcNoCheckit m with
        | none => checkPdu ch cfg fn m c'
        | some szDataLen => recvMore ch cfg fn m szDataLen c' := by
  obtain ⟨c', read, left, inv'⟩ :=
    delivers.reads _ c inv (fn.first_read_pos cfg.crcNoCheckit) head
  have long : ¬ ((stream c).take (fn.format.first cfg.crcNoCheckit)).length <
      fn.format.first cfg.crcNoCheckit := by
    rw [List.length_take_of_le head]
    exact Nat.lt_irrefl _
  refine ⟨_, c', rfl, left, inv', ?_⟩
  rw [recvData, read]
  dsimp only
  rw [if_neg long]
  rfl

theorem recvMore_whole (delivers : Delivers ch.getNextData stream I) (inv : I c)
    (fn : SlaveFunctionCode) (m : Message) {n : Nat} (pos : 0 < n)
    (enough : n ≤ (stream c).length) :
    ∃ c', stream c' = (stream c).drop n ∧ I c' ∧ recvMore ch cfg fn m n c =
      checkPdu ch cfg fn { m with data := m.data ++ (stream c).take n } c' := by
  obtain ⟨c', read, left, inv'⟩ := delivers.reads n c inv pos enough
  have long : ¬ ((stream c).take n).length < n := by
    rw [List.length_take_of_le enough]
    exact Nat.lt_irrefl _
  refine ⟨c', left, inv', ?_⟩
  rw [recvMore, read]
  exact if_neg long

/-- A read of length zero brings something or nothing; only the head is looked at. -/
theorem recvMore_zero (delivers : Delivers ch.getNextData stream I) (inv : I c) {m : Message}
    (unchecked : cfg.crcNoCheckit = true)
    (head : fn.format.first cfg.crcNoCheckit ≤ m.data.length) :
    (recvMore ch cfg fn m 0 c).1.1 = .erNoError ↔ checkFormat m fn = .erNoError := by
  obtain ⟨more, c', read⟩ := delivers.zero c inv
  have same : recvMore ch cfg fn m 0 c =
      checkPdu ch cfg fn { m with data := m.data ++ more } c' := by
    rw [recvMore, read]
    exact if_neg (Nat.not_lt_zero _)
  rw [same, checkPdu_accepts, checkFormat_head cfg m.addr m.func head more]
  exact ⟨fun both => both.2, fun ok => ⟨.inl unchecked, ok⟩⟩

/-- **The second part is accepted exactly if it is there**, with the right check sum and format. -/
theorem recvMore_accepts_iff (delivers : Delivers ch.getNextData stream I) (inv : I c)
    (fn : SlaveFunctionCode) (m : Message) {n : Nat} (pos : 0 < n) :
    (recvMore ch cfg fn m n c).1.1 = .erNoError ↔
      n ≤ (stream c).length ∧ CrcOk cfg { m with data := m.data ++ (stream c).take n } ∧
        checkFormat { m with data := m.data ++ (stream c).take n } fn = .erNoError := by
  by_cases enough : n ≤ (stream c).length
  · obtain ⟨c', -, -, whole⟩ := recvMore_whole cfg delivers inv fn m pos enough
    rw [whole, checkPdu_accepts]
    exact ⟨fun both => ⟨enough, both⟩, fun all => all.2⟩
  · refine iff_of_false ?_ fun all => enough all.1
    rw [recvMore]
    split
    · rename_i read
      rw [delivers.throws _ _ _ _ read]
      exact (by decide : MbErrCode.erTimeOut ≠ .erNoError)
    · rename_i read
      have short := delivers.short _ _ _ _ inv pos (Nat.not_le.mp enough) read
      rw [if_pos short]
      exact (by decide : MbErrCode.erInvalidFormat ≠ .erNoError)

theorem recvData_short (delivers : Delivers ch.getNextData stream I) (inv : I c) (addr func : Byte)
    (head : ¬ fn.format.first cfg.crcNoCheckit ≤ (stream c).length) :
    (recvData ch cfg fn ⟨addr, func, []⟩ c).1.1 ≠ .erNoError := by
  rw [recvData]
  split
  · rename_i read
    rw [delivers.throws _ _ _ _ read]
    exact (by decide : MbErrCode.erTimeOut ≠ .erNoError)
  · rename_i read
    have short := delivers.short _ _ _ _ inv (fn.first_read_pos _) (Nat.not_le.mp head) read
    dsimp only
    rw [if_pos short]
    exact (by decide : MbErrCode.erInvalidFormat ≠ .erNoError)

/-- **The data of a request is accepted exactly if a complete request is among the bytes.** -/
theorem recvData_accepts_iff (delivers : Delivers ch.getNextData stream I) (inv : I c)
    (fn : SlaveFunctionCode) (addr func : Byte) :
    (recvData ch cfg fn ⟨addr, func, []⟩ c).1.1 = .erNoError ↔
      Arrives cfg fn addr func (stream c) := by
  by_cases head : fn.format.first cfg.crcNoCheckit ≤ (stream c).length
  · obtain ⟨m, c', begin, left, inv', received⟩ :=
      recvData_head cfg delivers inv addr func head
    rw [received]
    have total : fn.dataLen cfg addr func (stream c) = fn.format.first cfg.crcNoCheckit +
        (fn.format.second cfg.crcNoCheckit m).getD 0 := by
      rw [begin]
      rfl
    cases wanted : fn.format.second cfg.crcNoCheckit m with
    | none =>
      rw [wanted] at total
      have total : fn.dataLen cfg addr func (stream c) = fn.format.first cfg.crcNoCheckit := total
      dsimp only
      rw [checkPdu_accepts, begin, ← total]
      exact ⟨fun both => ⟨head, total ▸ head, both.1, both.2⟩, fun arrives =>
        ⟨arrives.crc, arrives.format⟩⟩
    | some n =>
      rw [wanted] at total
      have total : fn.dataLen cfg addr func (stream c) =
        fn.format.first cfg.crcNoCheckit + n := total
      dsimp only
      rcases Nat.eq_zero_or_pos n with zero | pos
      · subst zero
        have unchecked := Format.second_zero wanted
        have long : fn.format.first cfg.crcNoCheckit ≤ m.data.length := by
          rw [begin]
          exact Nat.le_of_eq (List.length_take_of_le head).symm
        rw [Nat.add_zero] at total
        have all : Message.mk addr func ((stream c).take (fn.dataLen cfg addr func (stream c))) = m := by
          rw [total, begin]
        rw [recvMore_zero cfg delivers inv' unchecked long, ← all]
        exact ⟨fun ok => ⟨head, total ▸ head, .inl unchecked, ok⟩, fun arrives => arrives.format⟩
      · have behind : (stream c').length = (stream c).length - fn.format.first cfg.crcNoCheckit := by
          rw [left, List.length_drop]
        have all : Message.mk addr func ((stream c).take (fn.dataLen cfg addr func (stream c))) =
            { m with data := m.data ++ (stream c').take n } := by
          rw [total, begin, left, List.take_add]
        rw [recvMore_accepts_iff cfg delivers inv' fn m pos, ← all]
        constructor
        · rintro ⟨enough, crc, format⟩
          exact ⟨head, by omega, crc, format⟩
        · intro arrives
          have whole := arrives.whole
          exact ⟨by omega, arrives.crc, arrives.format⟩
  · exact iff_of_false (recvData_short cfg delivers inv addr func head) fun arrives =>
      head arrives.head

/-- **A complete request is received with exactly its bytes**, unless a read of length zero ends it. -/
theorem recvData_arrives (delivers : Delivers ch.getNextData stream I) (inv : I c)
    {addr func : Byte} (arrives : Arrives cfg fn addr func (stream c))
    (more : fn.format.second cfg.crcNoCheckit
      ⟨addr, func, (stream c).take (fn.format.first cfg.crcNoCheckit)⟩ ≠ some 0) :
    ∃ c', recvData ch cfg fn ⟨addr, func, []⟩ c =
        ((.erNoError, ⟨addr, func, (stream c).take (fn.dataLen cfg addr func (stream c))⟩), c') ∧
      stream c' = (stream c).drop (fn.dataLen cfg addr func (stream c)) ∧ I c' := by
  obtain ⟨m, c', begin, left, inv', received⟩ :=
    recvData_head cfg delivers inv addr func arrives.head
  have total : fn.dataLen cfg addr func (stream c) = fn.format.first cfg.crcNoCheckit +
      (fn.format.second cfg.crcNoCheckit m).getD 0 := by
    rw [begin]
    rfl
  rw [← begin] at more
  rw [received]
  cases wanted : fn.format.second cfg.crcNoCheckit m with
  | none =>
    rw [wanted] at total
    have total : fn.dataLen cfg addr func (stream c) = fn.format.first cfg.crcNoCheckit := total
    refine ⟨c', ?_, by rw [left, total], inv'⟩
    dsimp only
    rw [← total] at begin
    rw [begin]
    exact checkPdu_ok ch cfg arrives.crc arrives.format c'
  | some n =>
    rw [wanted] at total more
    have total : fn.dataLen cfg addr func (stream c) =
      fn.format.first cfg.crcNoCheckit + n := total
    have pos : 0 < n := Nat.pos_of_ne_zero fun zero => more (congrArg some zero)
    have enough : n ≤ (stream c').length := by
      have := arrives.whole
      rw [left, List.length_drop]
      omega
    obtain ⟨c'', after, inv'', whole⟩ :=
      recvMore_whole cfg delivers inv' fn m pos enough
    have all : { m with data := m.data ++ (stream c').take n } =
        Message.mk addr func ((stream c).take (fn.dataLen cfg addr func (stream c))) := by
      rw [total, begin, left, List.take_add]
    refine ⟨c'', ?_, ?_, inv''⟩
    · dsimp only
      rw [whole, all]
      exact checkPdu_ok ch cfg arrives.crc arrives.format c''
    · rw [after, left, List.drop_drop, total]

/-- **A request is accepted exactly if it is complete** and its function is one the server serves. -/
theorem recvPdu_accepts_iff (delivers : Delivers ch.getNextData stream I) (inv : I c)
    (addr : Byte) :
    (recvPdu ch cfg addr c).1.1 = .erNoError ↔
      ∃ func data fn, stream c = func :: data ∧ SlaveFunctionCode.ofByte func = some fn ∧
        Arrives cfg fn addr func data := by
  rcases recvPdu_spec cfg delivers.streams inv addr with
    ⟨func, data, c', bytes, left, inv', served | refused⟩ | ⟨empty, refused⟩
  · obtain ⟨fn, known, received⟩ := served
    rw [received, recvData_accepts_iff cfg delivers inv', left]
    constructor
    · intro arrives
      exact ⟨func, data, fn, bytes, known, arrives⟩
    · rintro ⟨func', data', fn', bytes', known', arrives⟩
      rw [bytes] at bytes'
      cases bytes'
      rw [known] at known'
      cases known'
      exact arrives
  · refine iff_of_false refused.2 ?_
    rintro ⟨func', data', fn', bytes', known', -⟩
    rw [bytes] at bytes'
    cases bytes'
    rw [refused.1] at known'
    cases known'
  · refine iff_of_false refused ?_
    rintro ⟨func, data, fn, bytes, -⟩
    rw [empty] at bytes
    cases bytes

end Server

end UniSet.Modbus

/-
**File transfer over Modbus (function 0x66).**

The client asks for the packets of a file one after the other and appends their data to its output;
the server cuts the file into blocks of `MaxDataLen` = 500 bytes.

* `FileTransferMessage`, `FileTransferRetMessage` — the request and its answer on the wire. The number
  of the file and of the packet pass through a byte in the request, the length of the data in the
  answer. The link hands answers over as they are; the count that `recv_pdu` of a client goes by is a
  byte too, and too small for 249 to 255 bytes of data.
* `replyFileTransfer` — the server.
* `turn`, `fileTransfer` — the client. `patience` is the number of turns that fit before `ptTimeout`
  expires, counted from its last reset.
* `fileTransfer_exits` — the client returns or throws, whatever the answers are.
* `Shortened` — a block of 256 bytes or more loses 256 of them, and no later packet brings them back.
* **`fileTransfer_correct_iff`** — the transfer terminates, and it reproduces the file exactly if the
  number of the file and the length of the file fit into a byte each.
-/

import UniSet.Lib.Loop
import UniSet.Modbus.Types

namespace UniSet.Modbus

/-- The code of `fnFileTransfer`. -/
def fnFileTransfer : Byte := 0x66

/-! ### The messages -/

namespace FileTransferMessage

/-- **`FileTransferMessage::make_to`**, whose two numbers are bytes. -/
def makeTo (addr numfile numpacket : Byte) : Message :=
  .withCRC addr fnFileTransfer (wordBytes numfile.toNat ++ wordBytes numpacket.toNat)

/-- `FileTransferMessage::init`: the numbers of the file and of the packet. -/
def init (m : Message) : Nat × Nat := (m.wordAt 0, m.wordAt 2)

theorem init_makeTo (addr numfile numpacket : Byte) :
    init (makeTo addr numfile numpacket) = (numfile.toNat, numpacket.toNat) := by
  have file := word_wordBytes numfile.toNat (Nat.lt_trans numfile.toNat_lt (by decide))
  have packet := word_wordBytes numpacket.toNat (Nat.lt_trans numpacket.toNat_lt (by decide))
  simp only [init, makeTo, Message.withCRC, Message.wordAt, Message.byteAt, wordBytes,
    List.cons_append, List.nil_append, List.getD_cons_zero, List.getD_cons_succ, file, packet]

end FileTransferMessage

/-- **`FileTransferRetMessage`.** `dlen` is the length of `data`. -/
structure FileTransferRetMessage where
  numfile : Nat
  numpacks : Nat
  packet : Nat
  data : List Byte
deriving DecidableEq, Repr

namespace FileTransferRetMessage

/-- `FileTransferRetMessage::MaxDataLen`. -/
def maxDataLen : Nat := maxLenPacket - 2 * 3 - 1 * 2

/-- `set`: the length is a `ModbusByte`, the number of packets a `ModbusData`. -/
def set (nfile fpacks pack : Nat) (buf : List Byte) (len : Nat) : FileTransferRetMessage :=
  ⟨nfile, fpacks % 65536, pack, buf.take (len % 256)⟩

/-- `szData`. -/
def szData (r : FileTransferRetMessage) : Nat := 1 * 2 + 2 * 3 + r.data.length + szCRC

/-- **`transport_msg_to`.** -/
def transportMsg (addr : Byte) (r : FileTransferRetMessage) : Message :=
  .withCRC addr fnFileTransfer
    (UInt8.ofNat (r.szData - szCRC - 1) :: (wordBytes r.numfile ++ (wordBytes r.numpacks ++
      (wordBytes r.packet ++ (UInt8.ofNat r.data.length :: r.data)))))

/-- **`init`.** -/
def init (m : Message) : FileTransferRetMessage :=
  ⟨m.wordAt 1, m.wordAt 3, m.wordAt 5, (m.data.drop 8).take (m.byteAt 7).toNat⟩

/-- The numbers and the length fit into the message. -/
structure Fits (r : FileTransferRetMessage) : Prop where
  numfile : r.numfile < 65536
  numpacks : r.numpacks < 65536
  packet : r.packet < 65536
  data : r.data.length < 256

/-- **An answer survives the wire.** -/
theorem init_transportMsg (addr : Byte) {r : FileTransferRetMessage} (fits : r.Fits) :
    init (r.transportMsg addr) = r := by
  have file := word_wordBytes r.numfile fits.numfile
  have packs := word_wordBytes r.numpacks fits.numpacks
  have pack := word_wordBytes r.packet fits.packet
  have length : (UInt8.ofNat r.data.length).toNat = r.data.length :=
    Nat.mod_eq_of_lt fits.data
  simp only [init, transportMsg, Message.withCRC, Message.wordAt, Message.byteAt, wordBytes,
    List.cons_append, List.nil_append, List.getD_cons_zero, List.getD_cons_succ, file, packs, pack,
    length, List.drop_succ_cons, List.drop_zero, List.take_left]

end FileTransferRetMessage

/-! ### The server -/

/-- **`ModbusServer::replyFileTransfer`** for a file that can be opened. -/
def replyFileTransfer (file : List Byte) (numfile numpacket : Nat) : FileTransferRetMessage :=
  let buf := (file.drop (numpacket * FileTransferRetMessage.maxDataLen)).take
    FileTransferRetMessage.maxDataLen
  let numpacks := file.length / FileTransferRetMessage.maxDataLen +
    if file.length % FileTransferRetMessage.maxDataLen = 0 then 0 else 1
  .set numfile numpacks numpacket buf buf.length

/-- **A server behind a link without losses.** -/
def fileServer (file : List Byte) (query : Message) : Except MbErrCode Message :=
  let numbers := FileTransferMessage.init query
  .ok ((replyFileTransfer file numbers.1 numbers.2).transportMsg query.addr)

/-! ### The client -/

/-- The state of `fileTransfer`. -/
structure Transfer where
  curpack : Nat
  maxpackets : Nat
  /-- The turns before `ptTimeout` expires. -/
  left : Nat
  /-- What was written to the file. -/
  out : List Byte
  /-- The error with which the loop was left. -/
  stop : Option MbErrCode
deriving DecidableEq, Repr

namespace Transfer

variable (query : Message → Except MbErrCode Message) (addr : Byte) (numfile patience : Nat)

/-- **`ModbusClient::partOfFileTransfer`.** -/
def partOfFileTransfer (idFile numpack : Nat) : Except MbErrCode FileTransferRetMessage :=
  match query (FileTransferMessage.makeTo addr (UInt8.ofNat idFile) (UInt8.ofNat numpack)) with
  | .error err => .error err
  | .ok reply => .ok (FileTransferRetMessage.init reply)

/-- **One turn of the loop of `ModbusClient::fileTransfer`.** A packet that was not asked for is
asked for again; `fwrite` of no bytes returns zero. -/
def turn (t : Transfer) : Option Transfer :=
  if t.stop.isSome ∨ ¬ t.curpack < t.maxpackets ∨ t.left = 0 then none
  else
    match partOfFileTransfer query addr numfile t.curpack with
    | .error err =>
      if err = .erBadCheckSum then some { t with left := t.left - 1 }
      else some { t with stop := some err }
    | .ok ret =>
      if ret.numfile ≠ numfile then some { t with left := t.left - 1 }
      else if ret.packet ≠ t.curpack then some { t with left := t.left - 1 }
      else if ret.data = [] then
        some { t with maxpackets := ret.numpacks, stop := some .erHardwareError }
      else
        some { t with
          maxpackets := ret.numpacks
          out := t.out ++ ret.data
          left := patience
          curpack := (ret.packet + 1) % 65536 }

def start : Transfer := ⟨0, 65535, patience, [], none⟩

/-- The end of `fileTransfer`: it returns or throws. -/
def finish (t : Transfer) : Except MbErrCode Unit :=
  if t.curpack = t.maxpackets then .ok () else .error (t.stop.getD .erTimeOut)

/-- **`ModbusClient::fileTransfer`**, with at most `n` turns: `none` is a loop that still runs. -/
def fileTransfer (n : Nat) : Option (Except MbErrCode Unit × List Byte) :=
  let t := Lib.loop (turn query addr numfile patience) n (start patience)
  if (turn query addr numfile patience t).isSome then none else some (t.finish, t.out)

/-! ### The client ends -/

theorem turn_cases {t u : Transfer} (turned : turn query addr numfile patience t = some u) :
    t.stop = none ∧ t.curpack < t.maxpackets ∧ 0 < t.left ∧
      (u = { t with left := t.left - 1 } ∨
        (∃ err, u = { t with stop := some err }) ∨
        ∃ ret, partOfFileTransfer query addr numfile t.curpack = .ok ret ∧ ret.numfile = numfile ∧
          ret.packet = t.curpack ∧
          ((ret.data = [] ∧
              u = { t with maxpackets := ret.numpacks, stop := some .erHardwareError }) ∨
            (ret.data ≠ [] ∧ u = { t with
              maxpackets := ret.numpacks
              out := t.out ++ ret.data
              left := patience
              curpack := (t.curpack + 1) % 65536 }))) := by
  unfold turn at turned
  by_cases exit : t.stop.isSome ∨ ¬ t.curpack < t.maxpackets ∨ t.left = 0
  · rw [if_pos exit] at turned
    cases turned
  rw [if_neg exit] at turned
  simp only [not_or, not_not] at exit
  obtain ⟨going, more, time⟩ := exit
  refine ⟨Option.not_isSome_iff_eq_none.mp going, more, Nat.pos_of_ne_zero time, ?_⟩
  cases answered : partOfFileTransfer query addr numfile t.curpack with
  | error err =>
    rw [answered] at turned
    dsimp only at turned
    split_ifs at turned
    · exact .inl (Option.some.inj turned).symm
    · exact .inr (.inl ⟨err, (Option.some.inj turned).symm⟩)
  | ok ret =>
    rw [answered] at turned
    dsimp only at turned
    split_ifs at turned with file packet empty
    · exact .inl (Option.some.inj turned).symm
    · exact .inl (Option.some.inj turned).symm
    · exact .inr (.inr ⟨ret, rfl, not_not.mp file, not_not.mp packet,
        .inl ⟨empty, (Option.some.inj turned).symm⟩⟩)
    · refine .inr (.inr ⟨ret, rfl, not_not.mp file, not_not.mp packet, .inr ⟨empty, ?_⟩⟩)
      rw [← not_not.mp packet]
      exact (Option.some.inj turned).symm

theorem word_lt (hi lo : Byte) : word hi lo < 65536 := by
  have := hi.toNat_lt
  have := lo.toNat_lt
  unfold word
  omega

theorem numpacks_le {idFile numpack : Nat} {ret : FileTransferRetMessage}
    (answered : partOfFileTransfer query addr idFile numpack = .ok ret) : ret.numpacks ≤ 65535 := by
  unfold partOfFileTransfer at answered
  split at answered
  · cases answered
  · cases answered
    exact Nat.le_of_lt_succ (word_lt _ _)

/-- The turns that are left, at most. -/
def turnsLeft (t : Transfer) : Nat :=
  if t.stop.isSome then 0 else (65536 - t.curpack) * (patience + 1) + t.left + 1

/-- **`fileTransfer` ends**, whatever is answered. -/
theorem fileTransfer_exits : ∃ n out, fileTransfer query addr numfile patience n = some out := by
  have keeps : ∀ t u : Transfer, t.maxpackets ≤ 65535 →
      turn query addr numfile patience t = some u → u.maxpackets ≤ 65535 := by
    intro t u bounded turned
    obtain ⟨-, -, -, rfl | ⟨err, rfl⟩ | ⟨ret, answered, -, -, ⟨-, rfl⟩ | ⟨-, rfl⟩⟩⟩ :=
      turn_cases query addr numfile patience turned
    · exact bounded
    · exact bounded
    · exact numpacks_le query addr answered
    · exact numpacks_le query addr answered
  have drops : ∀ t u : Transfer, t.maxpackets ≤ 65535 →
      turn query addr numfile patience t = some u →
      u.turnsLeft patience < t.turnsLeft patience := by
    intro t u bounded turned
    obtain ⟨going, more, time, rfl | ⟨err, rfl⟩ | ⟨ret, answered, -, -, ⟨-, rfl⟩ | ⟨-, rfl⟩⟩⟩ :=
      turn_cases query addr numfile patience turned
    · simp only [turnsLeft, going, Option.isSome_none, Bool.false_eq_true, if_false]
      omega
    · simp only [turnsLeft, going, Option.isSome_none, Option.isSome_some, Bool.false_eq_true,
        if_false, if_true]
      omega
    · simp only [turnsLeft, going, Option.isSome_none, Option.isSome_some, Bool.false_eq_true,
        if_false, if_true]
      omega
    · have next : (t.curpack + 1) % 65536 = t.curpack + 1 := Nat.mod_eq_of_lt (by omega)
      have packets : 65536 - t.curpack = (65536 - (t.curpack + 1)) + 1 := by omega
      simp only [turnsLeft, going, Option.isSome_none, Bool.false_eq_true, if_false, next]
      rw [packets, Nat.succ_mul]
      omega
  have exits := Lib.loop_exits_of_invariant keeps (turnsLeft patience) drops
    ((start patience).turnsLeft patience) (Nat.le_refl 65535) (Nat.le_refl _)
  refine ⟨(start patience).turnsLeft patience, ?_⟩
  rw [fileTransfer, exits]
  exact ⟨_, rfl⟩

/-! ### The client and the server -/

variable {query numfile patience}

/-- What the client makes of an answer of the server. -/
theorem partOfFileTransfer_fileServer (file : List Byte) (idFile numpack : Nat) :
    partOfFileTransfer (fileServer file) addr idFile numpack =
      .ok (replyFileTransfer file (idFile % 256) (numpack % 256)) := by
  have fits : (replyFileTransfer file (idFile % 256) (numpack % 256)).Fits := by
    refine ⟨?_, ?_, ?_, ?_⟩
    · exact Nat.lt_trans (Nat.mod_lt _ (by decide)) (by decide)
    · exact Nat.mod_lt _ (by decide)
    · exact Nat.lt_trans (Nat.mod_lt _ (by decide)) (by decide)
    · exact Nat.lt_of_le_of_lt (List.length_take_le _ _) (Nat.mod_lt _ (by decide))
  rw [partOfFileTransfer, fileServer]
  dsimp only
  rw [FileTransferMessage.init_makeTo]
  exact congrArg Except.ok (FileTransferRetMessage.init_transportMsg _ fits)

theorem replyFileTransfer_length (file : List Byte) (numfile numpacket : Nat) :
    (replyFileTransfer file numfile numpacket).data.length =
      min 500 (file.length - numpacket * 500) % 256 := by
  rw [replyFileTransfer, FileTransferRetMessage.set]
  dsimp only
  rw [List.length_take, List.length_take, List.length_drop,
    show FileTransferRetMessage.maxDataLen = 500 from rfl]
  exact Nat.min_eq_left (Nat.mod_le _ _)

/-- **A block did not fit**: at least 256 bytes are missing in the output, once a packet was written. -/
def Shortened (size : Nat) (t : Transfer) : Prop :=
  t.curpack = 0 ∧ t.out = [] ∨ t.out.length + 256 ≤ min (t.curpack * 500) size

variable {file : List Byte}

/-- No later packet brings the bytes back that are missing. -/
theorem Shortened.turn (long : 256 ≤ file.length) {t u : Transfer} (short : t.Shortened file.length)
    (turned : turn (fileServer file) addr numfile patience t = some u) :
    u.Shortened file.length := by
  obtain ⟨-, -, -, rfl | ⟨err, rfl⟩ | ⟨ret, answered, -, packet, ⟨-, rfl⟩ | ⟨some, rfl⟩⟩⟩ :=
    turn_cases (fileServer file) addr numfile patience turned
  · exact short
  · exact short
  · exact short
  rw [partOfFileTransfer_fileServer] at answered
  cases answered
  have small : t.curpack % 256 = t.curpack := packet
  have length := replyFileTransfer_length file (numfile % 256) (t.curpack % 256)
  have pos := List.length_pos_iff.mpr some
  rw [length, small] at pos
  rw [small] at length
  have next : (t.curpack + 1) % 65536 = t.curpack + 1 := Nat.mod_eq_of_lt (by omega)
  right
  dsimp only
  rw [next, List.length_append, small, length]
  rcases short with ⟨first, none⟩ | short
  · rw [first, none, List.length_nil]
    omega
  · omega

/-- A file number above 255 comes back as another one: nothing is ever written. -/
theorem turn_misnumbered (large : 256 ≤ numfile) {t u : Transfer}
    (waiting : t.curpack = 0 ∧ t.maxpackets = 65535)
    (turned : turn (fileServer file) addr numfile patience t = some u) :
    u.curpack = 0 ∧ u.maxpackets = 65535 := by
  obtain ⟨-, -, -, rfl | ⟨err, rfl⟩ | ⟨ret, answered, named, -, -⟩⟩ :=
    turn_cases (fileServer file) addr numfile patience turned
  · exact waiting
  · exact waiting
  rw [partOfFileTransfer_fileServer] at answered
  cases answered
  have named : numfile % 256 = numfile := named
  have := Nat.mod_lt numfile (by decide : 256 > 0)
  omega

/-- A file of at most 255 bytes is one packet. -/
theorem replyFileTransfer_small (short : file.length < 256) (numfile : Nat) :
    replyFileTransfer file numfile 0 = ⟨numfile, if file = [] then 0 else 1, 0, file⟩ := by
  have all : (file.drop (0 * 500)).take 500 = file := List.take_of_length_le (by
    rw [List.length_drop]
    omega)
  rw [replyFileTransfer, show FileTransferRetMessage.maxDataLen = 500 from rfl,
    FileTransferRetMessage.set, all, Nat.mod_eq_of_lt short, List.take_length,
    Nat.div_eq_of_lt (by omega), Nat.mod_eq_of_lt (by omega : file.length < 500)]
  cases file with
  | nil => rfl
  | cons b rest => rfl

theorem fileTransfer_small (time : 0 < patience) (named : numfile < 256)
    (short : file.length < 256) :
    fileTransfer (fileServer file) addr numfile patience 1 = some (.ok (), file) := by
  have going : ¬ ((start patience).stop.isSome ∨ ¬ (start patience).curpack < 65535 ∨
      (start patience).left = 0) := by
    rintro (stopped | done | late)
    · cases stopped
    · exact done (by decide : 0 < 65535)
    · exact absurd late (Nat.pos_iff_ne_zero.mp time)
  have answered := partOfFileTransfer_fileServer addr file numfile 0
  rw [Nat.mod_eq_of_lt named, replyFileTransfer_small short] at answered
  have first : turn (fileServer file) addr numfile patience (start patience) =
      if file = [] then some ⟨0, 0, patience, [], some .erHardwareError⟩
      else some ⟨1, 1, patience, file, none⟩ := by
    rw [turn, show (start patience).maxpackets = 65535 from rfl, if_neg going,
      show (start patience).curpack = 0 from rfl, answered]
    dsimp only
    rw [if_neg (not_not.mpr rfl), if_neg (not_not.mpr rfl)]
    split_ifs
    · rfl
    · rfl
  by_cases empty : file = []
  · rw [if_pos empty] at first
    rw [fileTransfer, Lib.loop_some first, empty]
    rfl
  · rw [if_neg empty] at first
    rw [fileTransfer, Lib.loop_some first]
    rfl

/-- **The transfer ends, and it reproduces the file exactly if the number and the length of the file
fit into a byte each.** -/
theorem fileTransfer_correct_iff (addr : Byte) (file : List Byte) (numfile patience : Nat) :
    (∃ n out, fileTransfer (fileServer file) addr numfile patience n = some out) ∧
      ((∃ n, fileTransfer (fileServer file) addr numfile patience n = some (.ok (), file)) ↔
        0 < patience ∧ numfile < 256 ∧ file.length < 256) := by
  refine ⟨fileTransfer_exits (fileServer file) addr numfile patience, ?_, ?_⟩
  · rintro ⟨n, returned⟩
    rw [fileTransfer] at returned
    split at returned
    · cases returned
    obtain ⟨finished, written⟩ := Prod.mk.inj (Option.some.inj returned)
    refine ⟨?_, ?_, ?_⟩
    · by_contra late
      obtain rfl : patience = 0 := Nat.eq_zero_of_not_pos late
      rw [Lib.loop_none rfl] at finished
      cases finished
    · by_contra large
      have waiting : ∀ t u : Transfer, t.curpack = 0 ∧ t.maxpackets = 65535 →
          turn (fileServer file) addr numfile patience t = some u →
          u.curpack = 0 ∧ u.maxpackets = 65535 :=
        fun t u => turn_misnumbered addr (Nat.not_lt.mp large)
      have waited := Lib.loop_keeps waiting n (s := start patience) ⟨rfl, rfl⟩
      rw [finish, waited.1, waited.2] at finished
      cases finished
    · by_contra long
      have keeps : ∀ t u : Transfer, t.Shortened file.length →
          turn (fileServer file) addr numfile patience t = some u → u.Shortened file.length :=
        fun t u => Shortened.turn addr (Nat.not_lt.mp long)
      have short := Lib.loop_keeps keeps n (s := start patience) (.inl ⟨rfl, rfl⟩)
      rw [Shortened, written] at short
      rcases short with ⟨-, none⟩ | short
      · rw [none] at long
        exact long (by decide)
      · omega
  · rintro ⟨time, named, short⟩
    exact ⟨1, fileTransfer_small addr time named short⟩

/-- **A file of 300 bytes arrives as its first 44**, and no error is reported. -/
theorem file300_truncated :
    fileTransfer (fileServer (List.replicate 300 7)) 1 5 10 1 = some (.ok (), List.replicate 44 7) ∧
      List.replicate 44 (7 : Byte) ≠ List.replicate 300 7 := by
  decide +kernel

end Transfer

end UniSet.Modbus

/-
**Parsing of a packet: `initFromBuffer` and the parsers generated for `unet.proto`.**

The generated parsers are loops over the fields of a text: they read a tag and call the function of the
protobuf library for the kind of the field; a field they do not know goes to `UnknownFieldParse`. A
field that comes twice is set or appended once more.

* `Protobuf` — the functions of the library; `Documented` is what its wire format says of them.
* `UNetData.field`, `Parsing.field` — one turn of the two `_InternalParse`.
* `initFromBuffer` — the whole call, `none` where it returns false.
* `Addition` — a field that a later version of the message has.
* **`initFromBuffer_serialize`** — a packet that the sender can encode is parsed as what it was,
  whatever fields follow it.
-/

import UniSet.Lib.Reading
import UniSet.UNet.Size

namespace UniSet.UNet

open UniSet.Lib (Reads Takes)

/-- **The functions of the protobuf library** that the generated code calls. -/
structure Protobuf where
  readTag : Lib.Reader UInt8 Nat
  readVarint32 : Lib.Reader UInt8 UInt32
  readVarint64 : Lib.Reader UInt8 UInt64
  /-- With the values the field has already. -/
  packedUInt64Parser : List UInt64 → Lib.Reader UInt8 (List UInt64)
  packedBoolParser : List Bool → Lib.Reader UInt8 (List Bool)
  /-- `ParseMessage`, with the parser of the message. -/
  parseMessage : (List UInt8 → Option UNetData) → Lib.Reader UInt8 UNetData
  /-- With the tag of the field. -/
  unknownFieldParse : Nat → Lib.Reader UInt8 Unit

/-- The longest text that has a length of its own, `INT_MAX - 16`. -/
def maxSize : Nat := 0x7fffffef

/-- Bytes behind their number. -/
def sized (content : List UInt8) : List UInt8 := varint content.length ++ content

/-- **The wire format.** -/
structure Protobuf.Documented (p : Protobuf) : Prop where
  readTag : ∀ tag < 0x100000000, Reads p.readTag (varint tag) tag
  readVarint32 : ∀ x : UInt32, Reads p.readVarint32 (varint x.toNat) x
  readVarint64 : ∀ x : UInt64, Reads p.readVarint64 (varint x.toNat) x
  packedUInt64Parser : ∀ old values : List UInt64,
    ((values.map UInt64.toNat).flatMap varint).length ≤ maxSize →
    Reads (p.packedUInt64Parser old) (sized ((values.map UInt64.toNat).flatMap varint)) (old ++ values)
  packedBoolParser : ∀ old values : List Bool,
    ((values.map Bool.toNat).flatMap varint).length ≤ maxSize →
    Reads (p.packedBoolParser old) (sized ((values.map Bool.toNat).flatMap varint)) (old ++ values)
  parseMessage : ∀ inner content d, content.length ≤ maxSize → inner content = some d →
    Reads (p.parseMessage inner) (sized content) d
  skipVarint : ∀ tag, tag % 8 = 0 → ∀ x : UInt64, Reads (p.unknownFieldParse tag) (varint x.toNat) ()
  skipSized : ∀ tag, tag % 8 = 2 → ∀ content : List UInt8, content.length ≤ maxSize →
    Reads (p.unknownFieldParse tag) (sized content) ()

/-! ### The generated parsers -/

section Parsers

variable (p : Protobuf)

/-- `handle_unusual`: the tag `0` or the end of a group ends the message, and the caller refuses
that; another field is skipped. -/
def unusual {State : Type} (tag : Nat) (s : State) : Lib.Reader UInt8 State := fun text =>
  if tag = 0 ∨ tag % 8 = 4 then none
  else (p.unknownFieldParse tag text).map fun got => (s, got.2)

/-- One turn of **`UNetData::_InternalParse`**, behind the tag. -/
def UNetData.fieldOf (d : UNetData) (tag : Nat) : Lib.Reader UInt8 UNetData := fun text =>
  match tag / 8 with
  | 1 =>
    if tag % 256 = 10 then
      (p.packedUInt64Parser d.dID text).map fun got => ({ d with dID := got.1 }, got.2)
    else if tag % 256 = 8 then
      (p.readVarint64 text).map fun got => ({ d with dID := d.dID ++ [got.1] }, got.2)
    else unusual p tag d text
  | 2 =>
    if tag % 256 = 18 then
      (p.packedBoolParser d.dValue text).map fun got => ({ d with dValue := got.1 }, got.2)
    else if tag % 256 = 16 then
      (p.readVarint64 text).map fun got => ({ d with dValue := d.dValue ++ [got.1 != (0 : UInt64)] }, got.2)
    else unusual p tag d text
  | 3 =>
    if tag % 256 = 26 then
      (p.packedUInt64Parser d.aID text).map fun got => ({ d with aID := got.1 }, got.2)
    else if tag % 256 = 24 then
      (p.readVarint64 text).map fun got => ({ d with aID := d.aID ++ [got.1] }, got.2)
    else unusual p tag d text
  | 4 =>
    if tag % 256 = 34 then
      (p.packedUInt64Parser d.aValue text).map fun got => ({ d with aValue := got.1 }, got.2)
    else if tag % 256 = 32 then
      (p.readVarint64 text).map fun got => ({ d with aValue := d.aValue ++ [got.1] }, got.2)
    else unusual p tag d text
  | _ => unusual p tag d text

/-- One turn of **`UNetData::_InternalParse`**. -/
def UNetData.field (d : UNetData) : Lib.Reader UInt8 UNetData := fun text =>
  (p.readTag text).bind fun got => d.fieldOf p got.1 got.2

/-- **`UNetData::_InternalParse`**, of all bytes. -/
def UNetData.internalParse (d : UNetData) (text : List UInt8) : Option UNetData :=
  Lib.fields (UNetData.field p) d text

/-- A packet while it is parsed; the required fields may be missing. -/
structure Parsing where
  magic : Option UInt32
  num : Option UInt64
  nodeID : UInt64
  procID : UInt64
  data : UNetData

/-- One turn of **`UNetPacket::_InternalParse`**, behind the tag. -/
def Parsing.fieldOf (s : Parsing) (tag : Nat) : Lib.Reader UInt8 Parsing := fun text =>
  match tag / 8 with
  | 1 =>
    if tag % 256 = 8 then
      (p.readVarint32 text).map fun got => ({ s with magic := some got.1 }, got.2)
    else unusual p tag s text
  | 2 =>
    if tag % 256 = 16 then
      (p.readVarint64 text).map fun got => ({ s with num := some got.1 }, got.2)
    else unusual p tag s text
  | 3 =>
    if tag % 256 = 24 then
      (p.readVarint64 text).map fun got => ({ s with nodeID := got.1 }, got.2)
    else unusual p tag s text
  | 4 =>
    if tag % 256 = 32 then
      (p.readVarint64 text).map fun got => ({ s with procID := got.1 }, got.2)
    else unusual p tag s text
  | 5 =>
    if tag % 256 = 42 then
      (p.parseMessage (s.data.internalParse p) text).map fun got => ({ s with data := got.1 }, got.2)
    else unusual p tag s text
  | _ => unusual p tag s text

/-- One turn of **`UNetPacket::_InternalParse`**. -/
def Parsing.field (s : Parsing) : Lib.Reader UInt8 Parsing := fun text =>
  (p.readTag text).bind fun got => s.fieldOf p got.1 got.2

/-- A cleared packet. -/
def Parsing.clear : Parsing := ⟨none, none, 0, 0, ⟨[], [], [], []⟩⟩

/-- **`initFromBuffer`**: the required fields have to be there at the end. -/
def initFromBuffer (text : List UInt8) : Option UDPMessage :=
  (Lib.fields (Parsing.field p) .clear text).bind fun s =>
    s.magic.bind fun magic => s.num.map fun num => ⟨magic, num, s.nodeID, s.procID, s.data⟩

end Parsers

/-! ### Fields of a later version -/

/-- **A field that this version does not have**: a number or bytes. -/
inductive Addition
  | number (key : Nat) (x : UInt64)
  | bytes (key : Nat) (content : List UInt8)

namespace Addition

/-- The number of the field. -/
def key : Addition → Nat
  | number key _ => key
  | bytes key _ => key

/-- Numbers that the message does not use, within the limits of the format. -/
def Fresh : Addition → Prop
  | number key _ => 5 < key ∧ key < 0x20000000
  | bytes key content => 5 < key ∧ key < 0x20000000 ∧ content.length ≤ maxSize

/-- The encoding of the field. -/
def serialize : Addition → List UInt8
  | number key x => varint (8 * key) ++ varint x.toNat
  | bytes key content => varint (8 * key + 2) ++ sized content

end Addition

/-! ### The words of the encoding -/

section Words

variable {p : Protobuf}

theorem varint_ne (x : Nat) : varint x ≠ [] := by
  unfold varint varintBytes
  split
  · exact List.cons_ne_nil _ _
  · exact List.cons_ne_nil _ _

theorem varint_small {tag : Nat} (small : tag < 128) : varint tag = [UInt8.ofNat tag] := by
  unfold varint varintBytes
  rw [if_pos small]

/-- A field of a packet: its tag, then what the tag calls for. -/
theorem takes_field {s t : Parsing} {tag : Nat} {word : List UInt8} (documented : p.Documented)
    (small : tag < 0x100000000) (reads : Reads (s.fieldOf p tag) word t) :
    Takes (Parsing.field p) s (varint tag ++ word) t := by
  refine .single (List.append_ne_nil_of_left_ne_nil (varint_ne tag) word) ?_
  exact (documented.readTag tag small).bind reads

theorem takes_data {d e : UNetData} {tag : Nat} {word : List UInt8} (documented : p.Documented)
    (small : tag < 0x100000000) (reads : Reads (d.fieldOf p tag) word e) :
    Takes (UNetData.field p) d (varint tag ++ word) e := by
  refine .single (List.append_ne_nil_of_left_ne_nil (varint_ne tag) word) ?_
  exact (documented.readTag tag small).bind reads

/-- A packed field, which is missing where it has no value. -/
theorem takes_packed {d e : UNetData} {key : UInt8} {values : List Nat} (documented : p.Documented)
    (small : key < 128) (none : values = [] → d = e)
    (reads : Reads (d.fieldOf p key.toNat) (sized (values.flatMap varint)) e) :
    Takes (UNetData.field p) d (packed key values) e := by
  unfold packed
  split
  · rename_i empty
    rw [none empty]
    exact .done e
  · have word : delimited key (values.flatMap varint) =
        varint key.toNat ++ sized (values.flatMap varint) := by
      rw [varint_small (UInt8.lt_iff_toNat_lt.mp small), UInt8.ofNat_toNat]
      rfl
    rw [word]
    refine takes_data documented ?_ reads
    have := key.toNat_lt
    omega

/-- A field that this version does not have is skipped. -/
theorem takes_addition (documented : p.Documented) (s : Parsing) {addition : Addition}
    (fresh : addition.Fresh) : Takes (Parsing.field p) s addition.serialize s := by
  cases addition with
  | number key x =>
    obtain ⟨above, below⟩ := fresh
    refine takes_field documented (by omega) fun rest => ?_
    have field : 8 * key / 8 = key := by omega
    have other : ¬ (8 * key = 0 ∨ 8 * key % 8 = 4) := by omega
    have skipped := documented.skipVarint (8 * key) (by omega) x rest
    unfold Parsing.fieldOf
    rw [field]
    split
    all_goals first
      | omega
      | skip
    unfold unusual
    rw [if_neg other, skipped, Option.map_some]
  | bytes key content =>
    obtain ⟨above, below, few⟩ := fresh
    refine takes_field documented (by omega) fun rest => ?_
    have field : (8 * key + 2) / 8 = key := by omega
    have other : ¬ (8 * key + 2 = 0 ∨ (8 * key + 2) % 8 = 4) := by omega
    have skipped := documented.skipSized (8 * key + 2) (by omega) content few rest
    unfold Parsing.fieldOf
    rw [field]
    split
    all_goals first
      | omega
      | skip
    unfold unusual
    rw [if_neg other, skipped, Option.map_some]

/-- **The data of a packet**, field by field. -/
theorem takes_data_serialize (documented : p.Documented) {m : UDPMessage} (filled : Filled m) :
    Takes (UNetData.field p) ⟨[], [], [], []⟩ m.data.serialize m.data := by
  obtain ⟨discrete, analog, dcount, acount⟩ := filled
  unfold maxDCount at dcount
  unfold maxACount at acount
  have words : ∀ values : List UInt64, values.length ≤ 5000 →
      ((values.map UInt64.toNat).flatMap varint).length ≤ maxSize := by
    intro values few
    have bounds := (allGroups_bounds values).2
    rw [length_words]
    unfold maxSize
    omega
  have bools : ((m.data.dValue.map Bool.toNat).flatMap varint).length ≤ maxSize := by
    rw [length_bools, discrete]
    unfold maxSize
    omega
  have dID : Takes (UNetData.field p) ⟨[], [], [], []⟩
      (packed 0x0a (m.data.dID.map UInt64.toNat)) ⟨m.data.dID, [], [], []⟩ := by
    refine takes_packed documented (by decide) (fun none => ?_) ?_
    · rw [List.map_eq_nil_iff.mp none]
    · exact (documented.packedUInt64Parser [] m.data.dID (words _ dcount)).map
        fun ids => (⟨ids, [], [], []⟩ : UNetData)
  have dValue : Takes (UNetData.field p) ⟨m.data.dID, [], [], []⟩
      (packed 0x12 (m.data.dValue.map Bool.toNat)) ⟨m.data.dID, m.data.dValue, [], []⟩ := by
    refine takes_packed documented (by decide) (fun none => ?_) ?_
    · rw [List.map_eq_nil_iff.mp none]
    · exact (documented.packedBoolParser [] m.data.dValue bools).map
        fun values => (⟨m.data.dID, values, [], []⟩ : UNetData)
  have aID : Takes (UNetData.field p) ⟨m.data.dID, m.data.dValue, [], []⟩
      (packed 0x1a (m.data.aID.map UInt64.toNat)) ⟨m.data.dID, m.data.dValue, m.data.aID, []⟩ := by
    refine takes_packed documented (by decide) (fun none => ?_) ?_
    · rw [List.map_eq_nil_iff.mp none]
    · exact (documented.packedUInt64Parser [] m.data.aID (words _ acount)).map
        fun ids => (⟨m.data.dID, m.data.dValue, ids, []⟩ : UNetData)
  have aValue : Takes (UNetData.field p) ⟨m.data.dID, m.data.dValue, m.data.aID, []⟩
      (packed 0x22 (m.data.aValue.map UInt64.toNat)) m.data := by
    refine takes_packed documented (by decide) (fun none => ?_) ?_
    · show UNetData.mk m.data.dID m.data.dValue m.data.aID [] = ⟨_, _, _, m.data.aValue⟩
      rw [List.map_eq_nil_iff.mp none]
    · exact (documented.packedUInt64Parser [] m.data.aValue (words _ (analog ▸ acount))).map
        fun values => (⟨m.data.dID, m.data.dValue, m.data.aID, values⟩ : UNetData)
  exact ((dID.append dValue).append aID).append aValue

/-- **The whole packet**, field by field. -/
theorem takes_serialize (documented : p.Documented) {m : UDPMessage} (filled : Filled m) :
    Takes (Parsing.field p) .clear m.serialize ⟨some m.magic, some m.num, m.nodeID, m.procID, m.data⟩ := by
  have magic : Takes (Parsing.field p) .clear (varint 8 ++ varint m.magic.toNat)
      ⟨some m.magic, none, 0, 0, ⟨[], [], [], []⟩⟩ :=
    takes_field documented (by decide) ((documented.readVarint32 m.magic).map
      fun x => (⟨some x, none, 0, 0, ⟨[], [], [], []⟩⟩ : Parsing))
  have num : Takes (Parsing.field p) ⟨some m.magic, none, 0, 0, ⟨[], [], [], []⟩⟩
      (varint 16 ++ varint m.num.toNat) ⟨some m.magic, some m.num, 0, 0, ⟨[], [], [], []⟩⟩ :=
    takes_field documented (by decide) ((documented.readVarint64 m.num).map
      fun x => (⟨some m.magic, some x, 0, 0, ⟨[], [], [], []⟩⟩ : Parsing))
  have nodeID : Takes (Parsing.field p) ⟨some m.magic, some m.num, 0, 0, ⟨[], [], [], []⟩⟩
      (varint 24 ++ varint m.nodeID.toNat) ⟨some m.magic, some m.num, m.nodeID, 0, ⟨[], [], [], []⟩⟩ :=
    takes_field documented (by decide) ((documented.readVarint64 m.nodeID).map
      fun x => (⟨some m.magic, some m.num, x, 0, ⟨[], [], [], []⟩⟩ : Parsing))
  have procID : Takes (Parsing.field p) ⟨some m.magic, some m.num, m.nodeID, 0, ⟨[], [], [], []⟩⟩
      (varint 32 ++ varint m.procID.toNat)
      ⟨some m.magic, some m.num, m.nodeID, m.procID, ⟨[], [], [], []⟩⟩ :=
    takes_field documented (by decide) ((documented.readVarint64 m.procID).map
      fun x => (⟨some m.magic, some m.num, m.nodeID, x, ⟨[], [], [], []⟩⟩ : Parsing))
  have data : Takes (Parsing.field p) ⟨some m.magic, some m.num, m.nodeID, m.procID, ⟨[], [], [], []⟩⟩
      (if m.data = ⟨[], [], [], []⟩ then [] else delimited 0x2a m.data.serialize)
      ⟨some m.magic, some m.num, m.nodeID, m.procID, m.data⟩ := by
    split
    · rename_i empty
      rw [empty]
      exact .done _
    · have size := filled.dataSize_le
      have dcount : m.data.dID.length ≤ 5000 := filled.dcount
      have acount : m.data.aID.length ≤ 5000 := filled.acount
      have few : m.data.serialize.length ≤ maxSize := by
        rw [filled.length_data]
        unfold maxSize
        omega
      have parsed := (takes_data_serialize documented filled).fields
      have tag : 42 < 0x100000000 := by decide
      exact takes_field documented tag
        ((documented.parseMessage _ _ _ few parsed).map
          fun d => (⟨some m.magic, some m.num, m.nodeID, m.procID, d⟩ : Parsing))
  have header := (magic.append (num.append (nodeID.append procID))).append data
  refine Eq.mp (congrArg (fun text => Takes (Parsing.field p) _ text _) ?_) header
  unfold UDPMessage.serialize
  rw [varint_small (by decide : 8 < 128), varint_small (by decide : 16 < 128),
    varint_small (by decide : 24 < 128), varint_small (by decide : 32 < 128)]
  simp

theorem takes_additions (documented : p.Documented) (s : Parsing) {additions : List Addition}
    (fresh : ∀ addition ∈ additions, addition.Fresh) :
    Takes (Parsing.field p) s (additions.flatMap Addition.serialize) s := by
  induction additions with
  | nil => exact .done s
  | cons addition additions ih =>
    rw [List.forall_mem_cons] at fresh
    rw [List.flatMap_cons]
    exact (takes_addition documented s fresh.1).append (ih fresh.2)

end Words

/-! ### The result -/

theorem built_isOk (calls : List Call) : (built calls).isOk = true := by
  have kept : ∀ (m : UDPMessage) (call : Call), (call.apply m).magic = m.magic := by
    intro m call
    cases call with
    | setNum | setNodeID | setProcID => rfl
    | addDData id val =>
      show (m.addDData id val).1.magic = _
      unfold UDPMessage.addDData
      split <;> rfl
    | addAData id val =>
      show (m.addAData id val).1.magic = _
      unfold UDPMessage.addAData
      split <;> rfl
    | setDData index val =>
      show (m.setDData index val).magic = _
      unfold UDPMessage.setDData
      split <;> rfl
    | setAData index val =>
      show (m.setAData index val).magic = _
      unfold UDPMessage.setAData
      split <;> rfl
  have same : (built calls).magic = magicNum := by
    unfold built
    generalize start : UDPMessage.new = m
    have begins : m.magic = magicNum := by rw [← start]; rfl
    clear start
    induction calls generalizing m with
    | nil => exact begins
    | cons call calls ih => exact ih (call.apply m) ((kept m call).trans begins)
  unfold UDPMessage.isOk
  rw [same]
  rfl

/-- A packet that is filled as the calls fill it is parsed as what it was. -/
theorem initFromBuffer_filled {p : Protobuf} (documented : p.Documented) {m : UDPMessage}
    (filled : Filled m) (additions : List Addition)
    (fresh : ∀ addition ∈ additions, addition.Fresh) :
    initFromBuffer p (m.serialize ++ additions.flatMap Addition.serialize) = some m := by
  have packet := takes_serialize documented filled
  have whole := (packet.append (takes_additions documented _ fresh)).fields
  unfold initFromBuffer
  rw [whole]
  rfl

/-- **A packet survives its encoding.** Whatever calls built it, a packet is parsed as what it was and
is accepted, also where fields of a later version follow. -/
theorem initFromBuffer_serialize {p : Protobuf} (documented : p.Documented) (calls : List Call)
    (additions : List Addition) (fresh : ∀ addition ∈ additions, addition.Fresh) :
    initFromBuffer p ((built calls).serialize ++ additions.flatMap Addition.serialize) =
      some (built calls) ∧ (built calls).isOk = true :=
  ⟨initFromBuffer_filled documented (built_filled calls) additions fresh, built_isOk calls⟩

/-! ### The wire format, executable -/

/-- A varint of at most `n` bytes. -/
def readVarintWithin : Nat → Lib.Reader UInt8 Nat
  | 0, _ => none
  | _ + 1, [] => none
  | n + 1, b :: rest =>
    if b < 128 then some (b.toNat, rest)
    else (readVarintWithin n rest).map fun got => (b.toNat % 128 + 128 * got.1, got.2)

theorem reads_varintBytes {n x : Nat} (positive : 0 < n) (small : x < 128 ^ n) {m : Nat} (room : n ≤ m) :
    Reads (readVarintWithin m) (varintBytes n x) x := by
  induction n generalizing x m with
  | zero => omega
  | succ n ih =>
    intro rest
    obtain ⟨m, rfl⟩ : ∃ k, m = k + 1 := ⟨m - 1, by omega⟩
    unfold varintBytes
    split
    · rename_i last
      have byte : UInt8.ofNat x < 128 := by
        rw [UInt8.lt_iff_toNat_lt, UInt8.toNat_ofNat']
        exact Nat.lt_of_le_of_lt (Nat.mod_le _ _) last
      rw [List.cons_append, List.nil_append, readVarintWithin, if_pos byte, UInt8.toNat_ofNat',
        Nat.mod_eq_of_lt (by omega)]
    · rename_i more
      have value : (UInt8.ofNat (x % 128 + 128)).toNat = x % 128 + 128 := by
        rw [UInt8.toNat_ofNat']
        omega
      have byte : ¬ UInt8.ofNat (x % 128 + 128) < 128 := by
        rw [UInt8.lt_iff_toNat_lt, value]
        exact Nat.not_lt.mpr (Nat.le_add_left _ _)
      have further : 0 < n := by
        refine Nat.pos_of_ne_zero fun zero => more ?_
        rwa [zero, Nat.zero_add, Nat.pow_one] at small
      have rest_small : x / 128 < 128 ^ n := by
        rw [Nat.div_lt_iff_lt_mul (by decide), ← Nat.pow_succ]
        exact small
      rw [List.cons_append, readVarintWithin, if_neg byte, ih further rest_small (by omega) rest,
        Option.map_some, value]
      congr 2
      omega

theorem reads_varint {x : Nat} (small : x < 128 ^ 10) : Reads (readVarintWithin 10) (varint x) x :=
  reads_varintBytes (by decide) small (Nat.le_refl 10)

/-- Bytes behind their number. -/
def readSized : Lib.Reader UInt8 (List UInt8) := fun text =>
  (readVarintWithin 10 text).bind fun got =>
    if got.1 ≤ maxSize ∧ got.1 ≤ got.2.length then some (got.2.take got.1, got.2.drop got.1) else none

theorem reads_sized {content : List UInt8} (few : content.length ≤ maxSize) :
    Reads readSized (sized content) content := by
  have small : content.length < 128 ^ 10 := Nat.lt_of_le_of_lt few (by decide)
  intro rest
  unfold readSized sized
  rw [List.append_assoc, reads_varint small, Option.bind_some,
    if_pos ⟨few, by rw [List.length_append]; exact Nat.le_add_right _ _⟩, List.take_left,
    List.drop_left]

/-- Varints up to the end. -/
def readVarints (content : List UInt8) : Option (List Nat) :=
  Lib.fields (fun values text => (readVarintWithin 10 text).map fun got => (values ++ [got.1], got.2))
    [] content

theorem readVarints_flatMap {values : List Nat} (small : ∀ x ∈ values, x < 128 ^ 10) :
    readVarints (values.flatMap varint) = some values := by
  have takes : ∀ before : List Nat, Takes
      (fun values text => (readVarintWithin 10 text).map fun got => (values ++ [got.1], got.2))
      before (values.flatMap varint) (before ++ values) := by
    induction values with
    | nil =>
      intro before
      rw [List.append_nil]
      exact .done before
    | cons x values ih =>
      rw [List.forall_mem_cons] at small
      intro before
      have one := (reads_varint small.1).map fun x => before ++ [x]
      have more := ih small.2 (before ++ [x])
      rw [List.append_assoc, List.singleton_append] at more
      exact .field (varint_ne x) one more
  exact (takes []).fields

/-- The library, for the fields the messages have. -/
def wire : Protobuf where
  readTag := readVarintWithin 10
  readVarint32 := fun text => (readVarintWithin 10 text).map fun got => (UInt32.ofNat got.1, got.2)
  readVarint64 := fun text => (readVarintWithin 10 text).map fun got => (UInt64.ofNat got.1, got.2)
  packedUInt64Parser := fun old text => (readSized text).bind fun got =>
    (readVarints got.1).map fun values => (old ++ values.map UInt64.ofNat, got.2)
  packedBoolParser := fun old text => (readSized text).bind fun got =>
    (readVarints got.1).map fun values => (old ++ values.map (· != 0), got.2)
  parseMessage := fun inner text => (readSized text).bind fun got =>
    (inner got.1).map fun d => (d, got.2)
  unknownFieldParse := fun tag text =>
    if tag % 8 = 0 then (readVarintWithin 10 text).map fun got => ((), got.2)
    else if tag % 8 = 2 then (readSized text).map fun got => ((), got.2)
    else none

theorem wire_documented : wire.Documented where
  readTag := fun tag small => reads_varint (Nat.lt_trans small (by decide))
  readVarint32 := fun x => by
    have reads := (reads_varint (Nat.lt_trans x.toNat_lt (by decide))).map UInt32.ofNat
    rw [UInt32.ofNat_toNat] at reads
    exact reads
  readVarint64 := fun x => by
    have reads := (reads_varint (word_small x)).map UInt64.ofNat
    rw [UInt64.ofNat_toNat] at reads
    exact reads
  packedUInt64Parser := fun old values few rest => by
    have parsed : readVarints ((values.map UInt64.toNat).flatMap varint) =
        some (values.map UInt64.toNat) := by
      refine readVarints_flatMap fun x member => ?_
      obtain ⟨word, -, rfl⟩ := List.mem_map.mp member
      exact word_small word
    have back : (values.map UInt64.toNat).map UInt64.ofNat = values := by
      rw [List.map_map]
      exact (List.map_congr_left fun word _ => UInt64.ofNat_toNat).trans (List.map_id values)
    show (readSized _).bind _ = _
    rw [reads_sized few, Option.bind_some, parsed, Option.map_some, back]
  packedBoolParser := fun old values few rest => by
    have parsed : readVarints ((values.map Bool.toNat).flatMap varint) =
        some (values.map Bool.toNat) := by
      refine readVarints_flatMap fun x member => ?_
      obtain ⟨bit, -, rfl⟩ := List.mem_map.mp member
      cases bit <;> decide
    have back : (values.map Bool.toNat).map (· != 0) = values := by
      rw [List.map_map]
      refine (List.map_congr_left fun bit _ => ?_).trans (List.map_id values)
      cases bit <;> rfl
    show (readSized _).bind _ = _
    rw [reads_sized few, Option.bind_some, parsed, Option.map_some, back]
  parseMessage := fun inner content d few parsed rest => by
    show (readSized _).bind _ = _
    rw [reads_sized few, Option.bind_some, parsed, Option.map_some]
  skipVarint := fun tag kind x => by
    show Reads (fun text => if tag % 8 = 0 then _ else _) _ _
    rw [kind]
    exact (reads_varint (word_small x)).map fun _ => ()
  skipSized := fun tag kind content few => by
    show Reads (fun text => if tag % 8 = 0 then _ else _) _ _
    rw [kind]
    exact (reads_sized few).map fun _ => ()

/-- A packet with an analog and a discrete value, and a text behind it. -/
theorem initFromBuffer_two :
    let calls : List Call := [.setNum 300, .addAData 5 0xffffffffffffffff, .addDData 7 true]
    initFromBuffer wire ((built calls).serialize ++ [Addition.bytes 9 [1, 2, 3]].flatMap Addition.serialize) =
      some (built calls) ∧ (built calls).isOk = true :=
  initFromBuffer_serialize wire_documented _ [.bytes 9 [1, 2, 3]] (by
    rw [List.forall_mem_singleton]
    exact ⟨by decide, by decide, by decide⟩)

end UniSet.UNet

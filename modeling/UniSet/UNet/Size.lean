/-
**The size of a packet.**

A varint has a byte for every seven bits, so the size of a packet depends on the identifiers and values
in it and not only on their number. The packets the calls can build reach a multiple of the buffer.

* `Call`, `built` — the calls that fill a packet, and the packet they leave.
* `groups`, `UDPMessage.Fits` — the bytes of numbers, and the packets within the buffer.
* `length_serialize` — the length of the encoding.
* **`serializeToArray_iff`** — a packet is encoded exactly if it fits; `fits_of_few`: whatever its
  identifiers and values are, it does with few entries.
-/

import UniSet.UNet.Packet
import Mathlib.Algebra.BigOperators.Group.List.Basic
import Mathlib.Algebra.Order.Ring.Nat
import Mathlib.Data.Nat.Log

namespace UniSet.UNet

/-! ### The packets that are built -/

/-- A call that fills a packet; the numbers are the bits of a `long`. -/
inductive Call
  | setNum (num : UInt64)
  | setNodeID (num : UInt64)
  | setProcID (num : UInt64)
  | addDData (id : UInt64) (val : Bool)
  | addAData (id val : UInt64)
  | setDData (index : Nat) (val : Bool)
  | setAData (index : Nat) (val : UInt64)

/-- What a call leaves. -/
def Call.apply (m : UDPMessage) : Call → UDPMessage
  | .setNum num => m.setNum num
  | .setNodeID num => { m with nodeID := num }
  | .setProcID num => { m with procID := num }
  | .addDData id val => (m.addDData id val).1
  | .addAData id val => (m.addAData id val).1
  | .setDData index val => m.setDData index val
  | .setAData index val => m.setAData index val

/-- **The packet the calls build.** -/
def built (calls : List Call) : UDPMessage := calls.foldl Call.apply .new

/-! ### The sizes -/

/-- The groups of seven bits of a number, one at least. -/
def groups (x : Nat) : Nat := Nat.log 128 x + 1

/-- The groups of seven bits of all numbers. -/
def allGroups (values : List UInt64) : Nat := (values.map fun x => groups x.toNat).sum

/-- A field of `n` bytes with its key and its length; nothing if it is empty. -/
def framed (n : Nat) : Nat := if n = 0 then 0 else 1 + groups n + n

/-- The bytes of a packet: the four numbers with their keys, and the data; a discrete value takes one
byte. -/
def UDPMessage.byteSize (m : UDPMessage) : Nat :=
  let d := m.data
  let header := 4 + groups m.magic.toNat + groups m.num.toNat + groups m.nodeID.toNat +
    groups m.procID.toNat
  header + framed (framed (allGroups d.dID) + framed d.dValue.length + framed (allGroups d.aID) +
    framed (allGroups d.aValue))

/-- **The packets within the buffer.** -/
def UDPMessage.Fits (m : UDPMessage) : Prop := m.byteSize ≤ messageBufSize

variable {n : Nat}

section Length

variable {m : UDPMessage}

theorem length_varintBytes {x : Nat} (small : x < 128 ^ (n + 1)) :
    (varintBytes (n + 1) x).length = groups x := by
  induction n generalizing x with
  | zero =>
    rw [Nat.zero_add, Nat.pow_one] at small
    unfold varintBytes groups
    rw [if_pos small, Nat.log_of_lt small]
    rfl
  | succ n ih =>
    unfold varintBytes groups
    split
    · rename_i one
      rw [Nat.log_of_lt one]
      rfl
    · rename_i more
      have rest : x / 128 < 128 ^ (n + 1) := by
        rw [Nat.div_lt_iff_lt_mul (by decide), ← Nat.pow_succ]
        exact small
      rw [List.length_cons, ih rest, Nat.log_of_one_lt_of_le (by decide) (Nat.le_of_not_lt more)]
      rfl

/-- **A varint has a byte for every group of seven bits.** -/
theorem length_varint {x : Nat} (small : x < 128 ^ 10) : (varint x).length = groups x :=
  length_varintBytes small

theorem word_small (x : UInt64) : x.toNat < 128 ^ 10 :=
  Nat.lt_trans x.toNat_lt (by decide)

theorem groups_word (x : UInt64) : groups x.toNat ≤ 10 := by
  have few : Nat.log 128 x.toNat < 10 := Nat.log_lt_of_lt_pow' (by decide) (word_small x)
  exact few

theorem length_words (values : List UInt64) :
    ((values.map UInt64.toNat).flatMap varint).length = allGroups values := by
  unfold allGroups
  rw [List.length_flatMap, List.map_map]
  refine congrArg List.sum (List.map_congr_left fun x _ => ?_)
  exact length_varint (word_small x)

theorem length_bools (values : List Bool) :
    ((values.map Bool.toNat).flatMap varint).length = values.length := by
  induction values with
  | nil => rfl
  | cons b values ih =>
    rw [List.map_cons, List.flatMap_cons, List.length_append, ih, List.length_cons, Nat.add_comm]
    cases b <;> rfl

/-- Every number takes at least a byte, and at most ten. -/
theorem allGroups_bounds (values : List UInt64) :
    values.length ≤ allGroups values ∧ allGroups values ≤ 10 * values.length := by
  induction values with
  | nil => exact ⟨Nat.le_refl _, Nat.le_refl _⟩
  | cons x values ih =>
    have step : allGroups (x :: values) = groups x.toNat + allGroups values := rfl
    have one : 1 ≤ groups x.toNat := Nat.succ_pos _
    have ten := groups_word x
    rw [step, List.length_cons]
    omega

theorem length_delimited (key : UInt8) {content : List UInt8} (small : content.length < 128 ^ 10) :
    (delimited key content).length = 1 + groups content.length + content.length := by
  unfold delimited
  rw [List.length_cons, List.length_append, length_varint small]
  omega

/-- **The length of a packed field**, from the bytes of its values. -/
theorem length_packed (key : UInt8) {values : List Nat} (bytes : (values.flatMap varint).length = n)
    (some : values.length ≤ n) (small : n < 128 ^ 10) :
    (packed key values).length = framed n := by
  unfold packed framed
  by_cases none : values = []
  · rw [none, List.flatMap_nil, List.length_nil] at bytes
    rw [if_pos none, if_pos bytes.symm]
    rfl
  · have positive : 0 < values.length := List.length_pos_iff.mpr none
    rw [if_neg none, if_neg (by omega), length_delimited key (bytes ▸ small), bytes]

/-- As many values as identifiers, and no more than the packet takes. -/
structure Filled (m : UDPMessage) : Prop where
  discrete : m.data.dValue.length = m.data.dID.length
  analog : m.data.aValue.length = m.data.aID.length
  dcount : m.data.dID.length ≤ maxDCount
  acount : m.data.aID.length ≤ maxACount

theorem Filled.apply (filled : Filled m) (call : Call) : Filled (call.apply m) := by
  obtain ⟨discrete, analog, dcount, acount⟩ := filled
  cases call with
  | setNum num => exact ⟨discrete, analog, dcount, acount⟩
  | setNodeID num => exact ⟨discrete, analog, dcount, acount⟩
  | setProcID num => exact ⟨discrete, analog, dcount, acount⟩
  | addDData id val =>
    show Filled (m.addDData id val).1
    unfold UDPMessage.addDData
    split
    · exact ⟨discrete, analog, dcount, acount⟩
    · rename_i room
      refine ⟨?_, analog, ?_, acount⟩
      · rw [List.length_append, List.length_append, discrete]
        rfl
      · rw [List.length_append]
        exact Nat.lt_of_not_le room
  | addAData id val =>
    show Filled (m.addAData id val).1
    unfold UDPMessage.addAData
    split
    · exact ⟨discrete, analog, dcount, acount⟩
    · rename_i room
      refine ⟨discrete, ?_, dcount, ?_⟩
      · rw [List.length_append, List.length_append, analog]
        rfl
      · rw [List.length_append]
        exact Nat.lt_of_not_le room
  | setDData index val =>
    show Filled (m.setDData index val)
    unfold UDPMessage.setDData
    split
    · exact ⟨(List.length_set).trans discrete, analog, dcount, acount⟩
    · exact ⟨discrete, analog, dcount, acount⟩
  | setAData index val =>
    show Filled (m.setAData index val)
    unfold UDPMessage.setAData
    split
    · exact ⟨discrete, (List.length_set).trans analog, dcount, acount⟩
    · exact ⟨discrete, analog, dcount, acount⟩

theorem built_filled (calls : List Call) : Filled (built calls) := by
  unfold built
  suffices further : ∀ m, Filled m → Filled (calls.foldl Call.apply m) from
    further .new ⟨rfl, rfl, Nat.zero_le _, Nat.zero_le _⟩
  induction calls with
  | nil => exact fun m filled => filled
  | cons call calls ih => exact fun m filled => ih _ (filled.apply call)

theorem groups_le {x k : Nat} (small : x < 128 ^ k) (some : k ≠ 0) : groups x ≤ k :=
  Nat.log_lt_of_lt_pow' some small

/-- A length takes at most three bytes where it is less than two million. -/
theorem framed_le (small : n < 128 ^ 3) : framed n ≤ 4 + n := by
  unfold framed
  have three := groups_le small (by decide)
  split <;> omega

/-- The data without their key and length. -/
def dataSize (d : UNetData) : Nat :=
  framed (allGroups d.dID) + framed d.dValue.length + framed (allGroups d.aID) +
    framed (allGroups d.aValue)

/-- **The bytes of few entries**: eleven for a discrete one and twenty for an analog one at most. -/
theorem Filled.dataSize_le (filled : Filled m) :
    dataSize m.data ≤ 16 + 11 * m.data.dID.length + 20 * m.data.aID.length := by
  obtain ⟨discrete, analog, dcount, acount⟩ := filled
  unfold maxDCount at dcount
  unfold maxACount at acount
  have dID := (allGroups_bounds m.data.dID).2
  have aID := (allGroups_bounds m.data.aID).2
  have aValue := (allGroups_bounds m.data.aValue).2
  have ids := framed_le (n := allGroups m.data.dID) (by omega)
  have bools := framed_le (n := m.data.dValue.length) (by omega)
  have names := framed_le (n := allGroups m.data.aID) (by omega)
  have values := framed_le (n := allGroups m.data.aValue) (by omega)
  unfold dataSize
  omega

/-- **The length of the encoded data.** -/
theorem Filled.length_data (filled : Filled m) : m.data.serialize.length = dataSize m.data := by
  have total := filled.dataSize_le
  obtain ⟨discrete, analog, dcount, acount⟩ := filled
  unfold maxDCount at dcount
  unfold maxACount at acount
  have dID := allGroups_bounds m.data.dID
  have aID := allGroups_bounds m.data.aID
  have aValue := allGroups_bounds m.data.aValue
  unfold UNetData.serialize dataSize
  rw [List.length_append, List.length_append, List.length_append,
    length_packed _ (length_words m.data.dID) (by rw [List.length_map]; exact dID.1) (by omega),
    length_packed _ (length_bools m.data.dValue) (by rw [List.length_map]) (by omega),
    length_packed _ (length_words m.data.aID) (by rw [List.length_map]; exact aID.1) (by omega),
    length_packed _ (length_words m.data.aValue) (by rw [List.length_map]; exact aValue.1) (by omega)]

theorem le_framed (n : Nat) : n ≤ framed n := by
  unfold framed
  split <;> omega

theorem framed_pos (some : 0 < n) : 0 < framed n := by
  unfold framed
  rw [if_neg (by omega)]
  omega

/-- The data are not encoded exactly if there is no entry. -/
theorem Filled.data_empty (filled : Filled m) : m.data = ⟨[], [], [], []⟩ ↔ dataSize m.data = 0 := by
  obtain ⟨discrete, analog, -, -⟩ := filled
  constructor
  · intro none
    rw [none]
    rfl
  · intro none
    unfold dataSize at none
    have noD : m.data.dID = [] := by
      refine List.length_eq_zero_iff.mp (Nat.eq_zero_of_not_pos fun some => ?_)
      have := framed_pos (Nat.lt_of_lt_of_le some (allGroups_bounds m.data.dID).1)
      omega
    have noA : m.data.aID = [] := by
      refine List.length_eq_zero_iff.mp (Nat.eq_zero_of_not_pos fun some => ?_)
      have := framed_pos (Nat.lt_of_lt_of_le some (allGroups_bounds m.data.aID).1)
      omega
    have noDValue : m.data.dValue = [] :=
      List.length_eq_zero_iff.mp (by rw [discrete, noD, List.length_nil])
    have noAValue : m.data.aValue = [] :=
      List.length_eq_zero_iff.mp (by rw [analog, noA, List.length_nil])
    show UNetData.mk m.data.dID m.data.dValue m.data.aID m.data.aValue = _
    rw [noD, noDValue, noA, noAValue]

/-- **The length of the encoding.** -/
theorem Filled.length_serialize (filled : Filled m) : m.serialize.length = m.byteSize := by
  have data : (if m.data = ⟨[], [], [], []⟩ then [] else delimited 0x2a m.data.serialize).length =
      framed (dataSize m.data) := by
    have total := filled.dataSize_le
    have dcount : m.data.dID.length ≤ 5000 := filled.dcount
    have acount : m.data.aID.length ≤ 5000 := filled.acount
    unfold framed
    by_cases none : m.data = ⟨[], [], [], []⟩
    · rw [if_pos none, if_pos (filled.data_empty.mp none), List.length_nil]
    · have size := filled.length_data
      rw [if_neg none, if_neg fun empty => none (filled.data_empty.mpr empty),
        length_delimited 0x2a (by omega), size]
  have magic : (varint m.magic.toNat).length = groups m.magic.toNat :=
    length_varint (Nat.lt_trans m.magic.toNat_lt (by decide))
  unfold UDPMessage.serialize UDPMessage.byteSize
  rw [List.length_append, data]
  simp only [List.cons_append, List.append_assoc, List.length_cons, List.length_append, magic,
    length_varint (word_small _)]
  unfold dataSize
  omega

/-- A packet that is filled as the calls fill it is encoded exactly if it fits. -/
theorem Filled.encoded_iff (filled : Filled m) :
    m.serializeToArray messageBufSize ≠ 0 ↔ m.Fits := by
  unfold UDPMessage.serializeToArray UDPMessage.Fits
  dsimp only
  rw [filled.length_serialize]
  have some : 0 < m.byteSize := by
    unfold UDPMessage.byteSize
    dsimp only
    omega
  split
  · rename_i fits
    exact iff_of_true (Nat.ne_of_gt some) fits
  · rename_i large
    exact iff_of_false (fun nonzero => nonzero rfl) large

end Length

/-! ### The result -/

/-- **When a packet is encoded.** Whatever calls built it, `serializeToArray` gives the packet to
`real_send` exactly if the groups of seven bits of its numbers, with the keys and lengths, are within
the buffer. -/
theorem serializeToArray_iff (calls : List Call) :
    (built calls).serializeToArray messageBufSize ≠ 0 ↔ (built calls).Fits :=
  (built_filled calls).encoded_iff

/-- **Few entries always fit**, whatever their identifiers and values are. -/
theorem fits_of_few {calls : List Call}
    (few : 11 * (built calls).data.dID.length + 20 * (built calls).data.aID.length + 63 ≤
      messageBufSize) : (built calls).Fits := by
  have total := (built_filled calls).dataSize_le
  have small : messageBufSize < 128 ^ 3 := by decide
  have data := framed_le (n := dataSize (built calls).data) (by omega)
  have magic : groups (built calls).magic.toNat ≤ 5 :=
    groups_le (Nat.lt_trans (built calls).magic.toNat_lt (by decide)) (by decide)
  have num := groups_word (built calls).num
  have nodeID := groups_word (built calls).nodeID
  have procID := groups_word (built calls).procID
  show 4 + groups _ + groups _ + groups _ + groups _ + framed (dataSize (built calls).data) ≤ _
  omega

/-- A full packet of one analog entry. -/
def fullPacket (id val : UInt64) : List Call := List.replicate maxACount (.addAData id val)

/-- The calls that fill it leave as many entries as they are. -/
theorem built_replicate (id val : UInt64) (room : n ≤ maxACount) :
    (built (List.replicate n (.addAData id val))).data =
      ⟨[], [], List.replicate n id, List.replicate n val⟩ := by
  induction n with
  | zero => rfl
  | succ n ih =>
    have before := ih (Nat.le_of_succ_le room)
    unfold built at before ⊢
    rw [List.replicate_succ', List.foldl_append]
    show ((List.foldl Call.apply .new _).addAData id val).1.data = _
    unfold UDPMessage.addAData
    rw [before, if_neg (by rw [List.length_replicate]; omega)]
    simp only [List.replicate_succ']

theorem allGroups_replicate (n : Nat) (x : UInt64) :
    allGroups (List.replicate n x) = n * groups x.toNat := by
  unfold allGroups
  rw [List.map_replicate, List.sum_replicate_nat]

/-- Identifiers that are larger than the buffer alone. -/
theorem not_sent_of_ids (id val : UInt64) (room : n ≤ maxACount)
    (large : messageBufSize < n * groups id.toNat) :
    (built (List.replicate n (.addAData id val))).serializeToArray messageBufSize = 0 := by
  refine Decidable.not_not.mp fun encoded => ?_
  have fits := (built_filled _).encoded_iff.mp encoded
  unfold UDPMessage.Fits UDPMessage.byteSize at fits
  rw [built_replicate id val room] at fits
  dsimp only at fits
  rw [allGroups_replicate] at fits
  have field := le_framed (n * groups id.toNat)
  have data := le_framed (framed (allGroups []) + framed ([] : List Bool).length +
    framed (n * groups id.toNat) + framed (allGroups (List.replicate n val)))
  omega

/-- **A full packet of large values is not encoded**: 5000 identifiers and values of ten bytes each. -/
theorem large_values_not_sent :
    (built (fullPacket 0xffffffffffffffff 0xffffffffffffffff)).serializeToArray messageBufSize = 0 ∧
      ¬ ∀ calls, (built calls).serializeToArray messageBufSize ≠ 0 := by
  have ten : groups (0xffffffffffffffff : UInt64).toNat = 10 :=
    congrArg (· + 1) (Nat.log_eq_of_pow_le_of_lt_pow (by decide) (by decide))
  have unsent := not_sent_of_ids 0xffffffffffffffff 0xffffffffffffffff (Nat.le_refl maxACount)
    (by rw [ten]; decide)
  exact ⟨unsent, fun all => all _ unsent⟩

end UniSet.UNet

/-
**The UNet packet: `UDPMessage`, its encoding and its CRC.**

`UNetData` and `UDPMessage` are the messages of `unet.proto`; the four repeated fields of the data
are independent lists. `serialize` is their protobuf encoding: varints, packed repeated fields, and
every field that is set, in the order of the field numbers.

* `addDData`, `addAData` — a new entry of a pack; `setDData`, `setAData` — the writes of the sender.
* `entries` — what a receiver hands to the shared memory, discrete before analog; the value of an
  entry is `none` where the packet carries an identifier without a value.
* `makeCRC`, `dataCRCWithBuf` — the CRC-16 of the encoded data, from the table of the source.
-/

import UniSet.Processes.Sensor

namespace UniSet.UNet

open UniSet.Processes (ObjectId Value defaultObjectId)

/-- The conversion of a `uint64` to `long`. -/
def toLong (x : UInt64) : Int := x.toInt64.toInt

/-- The message `UNetData` of `unet.proto`. -/
structure UNetData where
  dID : List UInt64
  dValue : List Bool
  aID : List UInt64
  aValue : List UInt64
deriving DecidableEq, Repr

/-- `UNETUDP_MAGICNUM`, the identifier of the protocol. -/
def magicNum : UInt32 := 0x13463C4

/-- `MaxACount`, the analog entries of a packet at most. -/
def maxACount : Nat := 5000

/-- `MaxDCount`, the discrete entries of a packet at most. -/
def maxDCount : Nat := 5000

/-- `MessageBufSize`, the size of the buffer a packet is encoded into. -/
def messageBufSize : Nat := 34700

/-- **`UDPMessage`**, the message `UNetPacket` of `unet.proto`. -/
structure UDPMessage where
  magic : UInt32
  num : UInt64
  nodeID : UInt64
  procID : UInt64
  data : UNetData
deriving DecidableEq, Repr

namespace UDPMessage

/-- The message a new `UDPMessage` holds. -/
def new : UDPMessage := ⟨magicNum, 0, 0, 0, ⟨[], [], [], []⟩⟩

/-- **`isOk`**, of a message whose parsing succeeded. -/
def isOk (m : UDPMessage) : Bool := m.magic == magicNum

/-- **`setNum`.** -/
def setNum (m : UDPMessage) (num : UInt64) : UDPMessage := { m with num := num }

/-- **`addDData`**, with the index of the new entry; `maxDCount` if the packet is full. -/
def addDData (m : UDPMessage) (id : UInt64) (val : Bool) : UDPMessage × Nat :=
  if maxDCount ≤ m.data.dID.length then (m, maxDCount)
  else
    let data := { m.data with dID := m.data.dID ++ [id], dValue := m.data.dValue ++ [val] }
    ({ m with data := data }, data.dID.length - 1)

/-- **`addAData`**, with the index of the new entry; `maxACount` if the packet is full. -/
def addAData (m : UDPMessage) (id val : UInt64) : UDPMessage × Nat :=
  if maxACount ≤ m.data.aID.length then (m, maxACount)
  else
    let data := { m.data with aID := m.data.aID ++ [id], aValue := m.data.aValue ++ [val] }
    ({ m with data := data }, data.aID.length - 1)

/-- **`setDData`**: an index beyond the data changes nothing. -/
def setDData (m : UDPMessage) (index : Nat) (val : Bool) : UDPMessage :=
  if index < m.data.dID.length then
    { m with data := { m.data with dValue := m.data.dValue.set index val } }
  else m

/-- **`setAData`**: an index beyond the data changes nothing. -/
def setAData (m : UDPMessage) (index : Nat) (val : UInt64) : UDPMessage :=
  if index < m.data.aID.length then
    { m with data := { m.data with aValue := m.data.aValue.set index val } }
  else m

/-- The entries that `UNetReceiver::update` hands over: identifier and value. -/
def entries (m : UDPMessage) : List (ObjectId × Option Value) :=
  (m.data.dID.mapIdx fun i id => (toLong id, (m.data.dValue[i]?).map fun b => if b then 1 else 0)) ++
    m.data.aID.mapIdx fun i id => (toLong id, (m.data.aValue[i]?).map toLong)

end UDPMessage

/-- A packet with the number and one analog value. -/
def packet (num value : UInt64) : UDPMessage := ⟨magicNum, num, 1, 2, ⟨[], [], [5], [value]⟩⟩

/-! ### The encoding -/

/-- A varint of at most `n` bytes, seven bits a byte, low bits first. -/
def varintBytes : Nat → Nat → List UInt8
  | 0, _ => []
  | n + 1, x =>
    if x < 128 then [UInt8.ofNat x] else UInt8.ofNat (x % 128 + 128) :: varintBytes n (x / 128)

/-- The varint of a 64-bit number. -/
def varint (x : Nat) : List UInt8 := varintBytes 10 x

/-- A length-delimited field. -/
def delimited (key : UInt8) (content : List UInt8) : List UInt8 :=
  key :: (varint content.length ++ content)

/-- A packed repeated field; an empty one is not encoded. -/
def packed (key : UInt8) (values : List Nat) : List UInt8 :=
  if values = [] then [] else delimited key (values.flatMap varint)

/-- `SerializeToArray` of the data, without the limit of the buffer. -/
def UNetData.serialize (d : UNetData) : List UInt8 :=
  packed 0x0a (d.dID.map UInt64.toNat) ++ packed 0x12 (d.dValue.map Bool.toNat) ++
    packed 0x1a (d.aID.map UInt64.toNat) ++ packed 0x22 (d.aValue.map UInt64.toNat)

/-- `SerializeToArray` of the packet, without the limit of the buffer. The constructor sets every
field but the data, which the first added entry sets. -/
def UDPMessage.serialize (m : UDPMessage) : List UInt8 :=
  0x08 :: varint m.magic.toNat ++ 0x10 :: varint m.num.toNat ++ 0x18 :: varint m.nodeID.toNat ++
    0x20 :: varint m.procID.toNat ++
    (if m.data = ⟨[], [], [], []⟩ then [] else delimited 0x2a m.data.serialize)

/-- **`serializeToArray`** into a buffer of `sz` bytes: the number of bytes, 0 if they do not fit. -/
def UDPMessage.serializeToArray (m : UDPMessage) (sz : Nat) : Nat :=
  let bytes := m.serialize
  if bytes.length ≤ sz then bytes.length else 0

/-! ### The CRC -/

/-- `crc_16_tab`. -/
def crc16Tab : List UInt16 :=
    [0x0000, 0xc0c1, 0xc181, 0x0140, 0xc301, 0x03c0, 0x0280, 0xc241, 0xc601, 0x06c0, 0x0780, 0xc741,
    0x0500, 0xc5c1, 0xc481, 0x0440, 0xcc01, 0x0cc0, 0x0d80, 0xcd41, 0x0f00, 0xcfc1, 0xce81, 0x0e40,
    0x0a00, 0xcac1, 0xcb81, 0x0b40, 0xc901, 0x09c0, 0x0880, 0xc841, 0xd801, 0x18c0, 0x1980, 0xd941,
    0x1b00, 0xdbc1, 0xda81, 0x1a40, 0x1e00, 0xdec1, 0xdf81, 0x1f40, 0xdd01, 0x1dc0, 0x1c80, 0xdc41,
    0x1400, 0xd4c1, 0xd581, 0x1540, 0xd701, 0x17c0, 0x1680, 0xd641, 0xd201, 0x12c0, 0x1380, 0xd341,
    0x1100, 0xd1c1, 0xd081, 0x1040, 0xf001, 0x30c0, 0x3180, 0xf141, 0x3300, 0xf3c1, 0xf281, 0x3240,
    0x3600, 0xf6c1, 0xf781, 0x3740, 0xf501, 0x35c0, 0x3480, 0xf441, 0x3c00, 0xfcc1, 0xfd81, 0x3d40,
    0xff01, 0x3fc0, 0x3e80, 0xfe41, 0xfa01, 0x3ac0, 0x3b80, 0xfb41, 0x3900, 0xf9c1, 0xf881, 0x3840,
    0x2800, 0xe8c1, 0xe981, 0x2940, 0xeb01, 0x2bc0, 0x2a80, 0xea41, 0xee01, 0x2ec0, 0x2f80, 0xef41,
    0x2d00, 0xedc1, 0xec81, 0x2c40, 0xe401, 0x24c0, 0x2580, 0xe541, 0x2700, 0xe7c1, 0xe681, 0x2640,
    0x2200, 0xe2c1, 0xe381, 0x2340, 0xe101, 0x21c0, 0x2080, 0xe041, 0xa001, 0x60c0, 0x6180, 0xa141,
    0x6300, 0xa3c1, 0xa281, 0x6240, 0x6600, 0xa6c1, 0xa781, 0x6740, 0xa501, 0x65c0, 0x6480, 0xa441,
    0x6c00, 0xacc1, 0xad81, 0x6d40, 0xaf01, 0x6fc0, 0x6e80, 0xae41, 0xaa01, 0x6ac0, 0x6b80, 0xab41,
    0x6900, 0xa9c1, 0xa881, 0x6840, 0x7800, 0xb8c1, 0xb981, 0x7940, 0xbb01, 0x7bc0, 0x7a80, 0xba41,
    0xbe01, 0x7ec0, 0x7f80, 0xbf41, 0x7d00, 0xbdc1, 0xbc81, 0x7c40, 0xb401, 0x74c0, 0x7580, 0xb541,
    0x7700, 0xb7c1, 0xb681, 0x7640, 0x7200, 0xb2c1, 0xb381, 0x7340, 0xb101, 0x71c0, 0x7080, 0xb041,
    0x5000, 0x90c1, 0x9181, 0x5140, 0x9301, 0x53c0, 0x5280, 0x9241, 0x9601, 0x56c0, 0x5780, 0x9741,
    0x5500, 0x95c1, 0x9481, 0x5440, 0x9c01, 0x5cc0, 0x5d80, 0x9d41, 0x5f00, 0x9fc1, 0x9e81, 0x5e40,
    0x5a00, 0x9ac1, 0x9b81, 0x5b40, 0x9901, 0x59c0, 0x5880, 0x9841, 0x8801, 0x48c0, 0x4980, 0x8941,
    0x4b00, 0x8bc1, 0x8a81, 0x4a40, 0x4e00, 0x8ec1, 0x8f81, 0x4f40, 0x8d01, 0x4dc0, 0x4c80, 0x8c41,
    0x4400, 0x84c1, 0x8581, 0x4540, 0x8701, 0x47c0, 0x4680, 0x8641, 0x8201, 0x42c0, 0x4380, 0x8341,
    0x4100, 0x81c1, 0x8081, 0x4040]

/-- **`get_crc_16`**, with the table. -/
def getCrc16 (crc : UInt16) (buf : List UInt8) : UInt16 :=
  buf.foldl (fun crc byte =>
    (crc >>> 8) ^^^ crc16Tab.getD ((crc ^^^ byte.toUInt16) &&& 0xff).toNat 0) crc

/-- **`makeCRC`.** -/
def makeCRC (buf : List UInt8) : UInt16 := getCrc16 0xffff buf

/-- **`dataCRCWithBuf`**: `0` if the data do not fit into the buffer. -/
def UDPMessage.dataCRCWithBuf (m : UDPMessage) : UInt16 :=
  let bytes := m.data.serialize
  if bytes.length ≤ messageBufSize then makeCRC bytes else 0

end UniSet.UNet

import AgentC.Cbor.Item
import AgentC.Foundation.BigEndian

/-! # The core library's writer

`core/src/agent_cbor_det.c`: a writer into a buffer of the caller, without
allocation. -/

namespace AgentC.Cbor

structure Writer where
  cap : Nat
  bytes : Bytes
  fits : bytes.length ≤ cap

namespace Writer

def init (cap : Nat) : Writer := ⟨cap, [], Nat.zero_le cap⟩

/-- `ensure` and the `put_*` calls behind it. -/
def put (chunk : Bytes) (writer : Writer) : Except Status Writer :=
  if room : writer.bytes.length + chunk.length ≤ writer.cap then
    .ok ⟨writer.cap, writer.bytes ++ chunk, by rwa [List.length_append]⟩
  else .error .bounds

end Writer

/-- A call that writes, such as the `encode_value` callback of a pair. -/
abbrev Write := Writer → Except Status Writer

/-- `put_ai_u64`; `majorShift` is already shifted. -/
def putAi (majorShift : UInt8) (n : Nat) : Write :=
  if n < 24 then Writer.put [majorShift ||| UInt8.ofNat n]
  else if n ≤ 0xff then Writer.put [majorShift ||| 24, UInt8.ofNat n]
  else if n ≤ 0xffff then Writer.put ((majorShift ||| 25) :: beBytes 2 n)
  else if n ≤ 0xffffffff then Writer.put ((majorShift ||| 26) :: beBytes 4 n)
  else Writer.put ((majorShift ||| 27) :: beBytes 8 n)

def writeUint (n : Nat) : Write := putAi majorUint n

def writeInt (value : Int) : Write :=
  if 0 ≤ value then writeUint value.toNat else putAi majorNegative (-1 - value).toNat

def writeBool (value : Bool) : Write := Writer.put [if value then 0xf5 else 0xf4]

def writeNull : Write := Writer.put [0xf6]

def writeText (text : Bytes) : Write := fun writer => do
  let writer ← putAi majorText text.length writer
  Writer.put text writer

def writeF64 (bits : UInt64) : Write := Writer.put (0xfb :: beBytes 8 bits.toNat)

def writeArrayStart (n : Nat) : Write := putAi majorArray n

def writeMapStart (n : Nat) : Write := putAi majorMap n

/-- `write_raw_cbor_item`: an item that is already encoded. -/
def writeRawCborItem (item : Bytes) : Write := fun writer =>
  if item = [] then .error .invalidArgument else Writer.put item writer

def maxMapPairs : Nat := 64

def keyLess (left right : Bytes) : Bool :=
  if left.length ≠ right.length then left.length < right.length
  else if left.length = 0 then false
  else compare left right == .lt

def keyEqual (left right : Bytes) : Bool :=
  if left.length ≠ right.length then false
  else if left.length = 0 then true
  else left == right

/-- The inner loop of the insertion sort: `sorted` starts with the last pair. -/
def insertDown {α : Type} (pair : Bytes × α) : List (Bytes × α) → List (Bytes × α)
  | [] => [pair]
  | last :: rest =>
    if keyLess pair.1 last.1 then last :: insertDown pair rest else pair :: last :: rest

def sortPairs {α : Type} (pairs : List (Bytes × α)) : List (Bytes × α) :=
  (pairs.foldl (fun sorted pair => insertDown pair sorted) []).reverse

def hasEqualNeighbours {α : Type} : List (Bytes × α) → Bool
  | first :: second :: rest => keyEqual first.1 second.1 || hasEqualNeighbours (second :: rest)
  | _ => false

/-- The last loop of `agent_cbor_write_map_sorted`. -/
def writePairs : List (Bytes × Write) → Write
  | [], writer => .ok writer
  | (key, encodeValue) :: rest, writer => do
    let writer ← writeText key writer
    let writer ← encodeValue writer
    writePairs rest writer

def writeMapSorted (pairs : List (Bytes × Write)) : Write := fun writer =>
  if maxMapPairs < pairs.length then .error .limit
  else if pairs.any (fun pair => pair.1.length == 0) then .error .invalidArgument
  else if hasEqualNeighbours (sortPairs pairs) then .error .invalidArgument
  else do
    let writer ← writeMapStart pairs.length writer
    writePairs (sortPairs pairs) writer

mutual

/-- A value written item by item. The values of a map are encoded first, each
into a buffer of its own. -/
def writeItem (capacity : Nat) : Item → Write
  | .null => writeNull
  | .bool value => writeBool value
  | .integer number =>
    if number.value ≤ 2 ^ 63 - 1 then writeInt number.value else writeUint number.value.toNat
  | .real bits => writeF64 bits
  | .string text => writeText text
  | .array items => fun writer => do
    let writer ← writeArrayStart items.length writer
    writeItems capacity items writer
  | .object members => fun writer => do
    let pairs ← encodeMembers capacity members
    writeMapSorted (pairs.map fun pair => (pair.1, writeRawCborItem pair.2)) writer

def writeItems (capacity : Nat) : List Item → Write
  | [], writer => .ok writer
  | item :: rest, writer => do
    let writer ← writeItem capacity item writer
    writeItems capacity rest writer

def encodeMembers (capacity : Nat) : List (Bytes × Item) → Except Status (List (Bytes × Bytes))
  | [] => .ok []
  | (key, value) :: rest => do
    let writer ← writeItem capacity value (.init capacity)
    let more ← encodeMembers capacity rest
    return (key, writer.bytes) :: more

end

end AgentC.Cbor

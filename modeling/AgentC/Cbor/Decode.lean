import AgentC.Cbor.Item
import AgentC.Foundation.BigEndian

/-! # The daemon's decoder

`daemon/src/cbor_decode.cpp`. A reader takes the bytes between the cursor and
the end and returns what it read with the bytes behind it. The recursion is on a
number; two for every byte of the input are always enough. -/

namespace AgentC.Cbor

/-- `read_u8` and `read_be_u16`, `read_be_u32`, `read_be_u64`. -/
def readBe (width : Nat) (input : Bytes) : Except String (Nat × Bytes) :=
  if input.length < width then .error "cbor: truncated"
  else .ok (beValue (input.take width), input.drop width)

def readAi (ai : Nat) (input : Bytes) : Except String (Nat × Bytes) :=
  if ai < 24 then .ok (ai, input)
  else if ai = 24 then readBe 1 input
  else if ai = 25 then readBe 2 input
  else if ai = 26 then readBe 4 input
  else if ai = 27 then readBe 8 input
  else if ai = 31 then .error "cbor: indefinite length not supported"
  else .error "cbor: reserved additional info"

def decodeText (n : Nat) (input : Bytes) : Except String (Bytes × Bytes) :=
  if input.length < n then .error "cbor: truncated" else .ok (input.take n, input.drop n)

def decodeBytes (n : Nat) (input : Bytes) : Except String (Item × Bytes) :=
  if input.length < n then .error "cbor: truncated"
  else .error "cbor: byte strings not supported (expected text strings)"

def decodeUint (n : Nat) : Item :=
  .integer ⟨(n % 2 ^ 64 : Nat), by omega, by omega⟩

/-- The value is `-1 - n`. -/
def decodeNegative (n : Nat) : Except String Item :=
  if small : n ≤ 2 ^ 63 - 1 then .ok (.integer ⟨-1 - n, by omega, by omega⟩)
  else .error "cbor: negative int too large"

def doubleBits (sign exponent mantissa : Nat) : UInt64 :=
  UInt64.ofNat (sign * 2 ^ 63 + exponent * 2 ^ 52 + mantissa)

/-- The double `fraction * 2 ^ (power - 1074)`, for a fraction below `2 ^ 52`. -/
def scaledDouble (sign fraction power : Nat) : UInt64 :=
  let top := Nat.log2 fraction
  doubleBits sign (power + top - 51) ((fraction - 2 ^ top) * 2 ^ (52 - top))

def halfToDouble (half : Nat) : UInt64 :=
  let sign := half / 2 ^ 15 % 2
  let exponent := half / 2 ^ 10 % 2 ^ 5
  let fraction := half % 2 ^ 10
  if exponent = 0 then
    if fraction = 0 then doubleBits sign 0 0 else scaledDouble sign fraction 1050
  else if exponent = 31 then
    if fraction = 0 then doubleBits sign 0x7ff 0 else doubleBits 0 0x7ff (2 ^ 51)
  else doubleBits sign (exponent + 1008) (fraction * 2 ^ 42)

/-- The conversion of a `float`; a signalling NaN becomes quiet. -/
def floatToDouble (single : Nat) : UInt64 :=
  let sign := single / 2 ^ 31 % 2
  let exponent := single / 2 ^ 23 % 2 ^ 8
  let fraction := single % 2 ^ 23
  if exponent = 0 then
    if fraction = 0 then doubleBits sign 0 0 else scaledDouble sign fraction 925
  else if exponent = 255 then
    if fraction = 0 then doubleBits sign 0x7ff 0
    else doubleBits sign 0x7ff (2 ^ 51 + fraction % 2 ^ 22 * 2 ^ 29)
  else doubleBits sign (exponent + 896) (fraction * 2 ^ 29)

-- One half and the smallest positive half.
example : halfToDouble 0x3800 = 0x3fe0000000000000 := by decide
example : floatToDouble 0x00000001 = 0x36a0000000000000 := by decide

def decodeSimple (ai : Nat) (input : Bytes) : Except String (Item × Bytes) :=
  if ai = 20 then .ok (.bool false, input)
  else if ai = 21 then .ok (.bool true, input)
  else if ai = 22 then .ok (.null, input)
  else if ai = 23 then .ok (.null, input)
  else if ai = 25 then do
    let (half, rest) ← readBe 2 input
    return (.real (halfToDouble half), rest)
  else if ai = 26 then do
    let (single, rest) ← readBe 4 input
    return (.real (floatToDouble single), rest)
  else if ai = 27 then do
    let (bits, rest) ← readBe 8 input
    return (.real (UInt64.ofNat bits), rest)
  else if ai = 24 then do
    let _ ← readBe 1 input
    .error "cbor: unsupported simple value"
  else .error "cbor: unsupported simple/float"

/-- `obj[key] = v` on a map that is kept sorted. -/
def assign (key : Bytes) (value : Item) : List (Bytes × Item) → List (Bytes × Item)
  | [] => [(key, value)]
  | (name, other) :: rest =>
    match compare key name with
    | .lt => (key, value) :: (name, other) :: rest
    | .eq => (key, value) :: rest
    | .gt => (name, other) :: assign key value rest

def decodeKey (input : Bytes) : Except String (Bytes × Bytes) := do
  let (ib, rest) ← readBe 1 input
  if ib / 32 ≠ 3 then .error "cbor: map key must be text string"
  else
    let (length, rest) ← readAi (ib % 32) rest
    let (key, rest) ← decodeText length rest
    if key = [] then .error "cbor: empty key" else return (key, rest)

def checkContainer (n depth : Nat) (tooLarge : String) : Except String Unit :=
  if 100000 < n then .error tooLarge
  else if 64 ≤ depth then .error "cbor: max depth exceeded"
  else .ok ()

mutual

/-- `decode_item`, with `decode_array` and `decode_map` up to their loops. -/
def decodeItem : Nat → Nat → Bytes → Except String (Item × Bytes)
  | 0, _, _ => .error "out of fuel"
  | fuel + 1, depth, input => do
    let (ib, rest) ← readBe 1 input
    if ib / 32 = 7 then decodeSimple (ib % 32) rest
    else
      let (n, rest) ← readAi (ib % 32) rest
      if ib / 32 = 0 then return (decodeUint n, rest)
      else if ib / 32 = 1 then
        let number ← decodeNegative n
        return (number, rest)
      else if ib / 32 = 2 then decodeBytes n rest
      else if ib / 32 = 3 then
        let (text, rest) ← decodeText n rest
        return (.string text, rest)
      else if ib / 32 = 4 then
        checkContainer n depth "cbor: array too large"
        let (items, rest) ← decodeItems fuel (depth + 1) n [] rest
        return (.array items, rest)
      else if ib / 32 = 5 then
        checkContainer n depth "cbor: map too large"
        let (members, rest) ← decodeMembers fuel (depth + 1) n [] rest
        return (.object members, rest)
      -- A tag is ignored.
      else decodeItem fuel depth rest

def decodeItems : Nat → Nat → Nat → List Item → Bytes → Except String (List Item × Bytes)
  | 0, _, _, _, _ => .error "out of fuel"
  | _ + 1, _, 0, items, input => .ok (items, input)
  | fuel + 1, depth, n + 1, items, input => do
    let (item, rest) ← decodeItem fuel depth input
    decodeItems fuel depth n (items ++ [item]) rest

def decodeMembers : Nat → Nat → Nat → List (Bytes × Item) → Bytes →
    Except String (List (Bytes × Item) × Bytes)
  | 0, _, _, _, _ => .error "out of fuel"
  | _ + 1, _, 0, members, input => .ok (members, input)
  | fuel + 1, depth, n + 1, members, input => do
    let (key, rest) ← decodeKey input
    let (value, rest) ← decodeItem fuel depth rest
    decodeMembers fuel depth n (assign key value members) rest

end

/-- `cbor_decode_to_json_value`. -/
def cborDecode (input : Bytes) : Except String Item :=
  if input = [] then .error "cbor: empty body"
  else if 1024 * 1024 < input.length then .error "cbor: body too large"
  else do
    let (item, rest) ← decodeItem (2 * input.length + 1) 0 input
    if rest = [] then return item else .error "cbor: trailing bytes"

end AgentC.Cbor

import AgentC.Foundation.ByteOrder
import AgentC.Json.Parser

/-! # Canonical output

The emit phase of `core/src/agent_json_c14n.c` and
`agent_json_c14n_canonicalize` itself. Every emitter takes the buffer and
returns it with its text behind, or fails. -/

namespace AgentC.Json

abbrev Emitter := Bytes → Except Failure Bytes

/-- The lower case digits of `buf_append_hex_u16`. -/
def hexDigit (value : Nat) : UInt8 :=
  if value < 10 then UInt8.ofNat (48 + value) else UInt8.ofNat (87 + value)

def hexU16 (value : Nat) : Bytes :=
  [backslash, letterU, hexDigit (value / 4096 % 16), hexDigit (value / 256 % 16),
    hexDigit (value / 16 % 16), hexDigit (value % 16)]

def escapeByte (byte : UInt8) : Bytes :=
  if byte = quote ∨ byte = backslash then [backslash, byte]
  else if byte = 8 then [backslash, 98]
  else if byte = 12 then [backslash, 102]
  else if byte = 10 then [backslash, 110]
  else if byte = 13 then [backslash, 114]
  else if byte = 9 then [backslash, 116]
  else if byte < 32 then hexU16 byte.toNat
  else [byte]

/-- The loop of `emit_string`. -/
def emitEscaped : Bytes → Emitter
  | [], buffer => .ok buffer
  | byte :: rest, buffer => do
    let buffer ← bufAppend buffer (escapeByte byte)
    emitEscaped rest buffer

def emitString (text : Bytes) : Emitter := fun buffer => do
  let buffer ← bufAppend buffer [quote]
  let buffer ← emitEscaped text buffer
  bufAppend buffer [quote]

def int64Max : Int := 2 ^ 63 - 1

/-- The loop of `parse_i64_clamped`. -/
def parseI64Digits : Int → Bytes → Option Int
  | value, [] => some value
  | value, byte :: rest =>
    if isDigit byte then
      if (int64Max - digitValue byte) / 10 < value then none
      else parseI64Digits (value * 10 + digitValue byte) rest
    else none

def parseI64Clamped (text : Bytes) : Option Int :=
  match text with
  | [] => none
  | first :: rest =>
    if first = minus then
      if rest = [] then none else (parseI64Digits 0 rest).map fun value => -value
    else if first = plus then none
    else parseI64Digits 0 text

/-- What `emit_number_c14n` reads off a token. -/
structure ScannedNumber where
  negative : Bool
  integer : Bytes
  fraction : Bytes
  exponent : Int
deriving DecidableEq

def scanExponent (input : Bytes) : Except Failure (Int × Bytes) :=
  if input.head?.any isExponentMark then
    if input.tail = [] then .error (.invalid "invalid exponent")
    else
      let (sign, rest) := takeExponentSign input.tail
      match parseI64Clamped (takeDigits rest).1 with
      | none => .error (.invalid "invalid exponent")
      | some value => .ok (if sign = [minus] then -value else value, (takeDigits rest).2)
  else .ok (0, input)

def scanNumber (token : Bytes) : Except Failure ScannedNumber :=
  let (sign, rest) := takeMinus token
  if rest = [] then .error (.invalid "invalid number")
  else
    let (integer, rest) :=
      if rest.head? = some zeroDigit then ([zeroDigit], rest.tail) else takeDigits rest
    let (fraction, rest) := if rest.head? = some dot then takeDigits rest.tail else ([], rest)
    match scanExponent rest with
    | .error failure => .error failure
    | .ok (exponent, rest) =>
      if rest = [] then .ok ⟨sign = [minus], integer, fraction, exponent⟩
      else .error (.invalid "invalid number")

namespace ScannedNumber

def maxDigits : Nat := 4096

def maxOut : Int := 8192

def digits (number : ScannedNumber) : Bytes :=
  number.integer ++ number.fraction

/-- Where the point stands in `digits`. The source adds in 64 bits; a sum that
wraps around is rejected by the same guard as the exact one. -/
def dotPos (number : ScannedNumber) : Int :=
  number.integer.length + number.exponent

/-- The length the guard against huge expansions works with. -/
def outLength (number : ScannedNumber) : Int :=
  if number.dotPos ≤ 0 then 2 + -number.dotPos + number.digits.length
  else if number.digits.length ≤ number.dotPos then number.dotPos
  else number.digits.length + 1

def plainInteger (number : ScannedNumber) : Bytes :=
  if number.dotPos ≤ 0 then [zeroDigit]
  else if number.digits.length ≤ number.dotPos then
    trimLeading number.digits ++
      List.replicate (number.dotPos - number.digits.length).toNat zeroDigit
  else trimLeading (number.digits.take number.dotPos.toNat)

def plainFraction (number : ScannedNumber) : Bytes :=
  if number.dotPos ≤ 0 then
    trimTrailing (List.replicate (-number.dotPos).toNat zeroDigit ++ number.digits)
  else if number.digits.length ≤ number.dotPos then []
  else trimTrailing (number.digits.drop number.dotPos.toNat)

def plainText (number : ScannedNumber) : Bytes :=
  (if number.negative then [minus] else []) ++ number.plainInteger ++
    (if number.plainFraction = [] then [] else dot :: number.plainFraction)

end ScannedNumber

/-- The text `emit_number_c14n` appends. -/
def numberText (token : Bytes) : Except Failure Bytes :=
  if token = [] then .error (.invalid "")
  else
    match scanNumber token with
    | .error failure => .error failure
    | .ok number =>
      if number.digits.length = 0 ∨ ScannedNumber.maxDigits < number.digits.length then
        .error ⟨.bounds, "number too large"⟩
      else if ∀ digit ∈ number.digits, digit = zeroDigit then .ok [zeroDigit]
      else if number.outLength < 0 ∨ ScannedNumber.maxOut < number.outLength then
        .error ⟨.bounds, "number expansion too large"⟩
      else .ok number.plainText

def emitNumber (token : Bytes) : Emitter := fun buffer => do
  let text ← numberText token
  bufAppend buffer text

/-- The loops of `emit_array` and `emit_object`: a comma in front of every entry
but the first. -/
def emitSeparated : Bool → List Emitter → Emitter
  | _, [], buffer => .ok buffer
  | first, emit :: rest, buffer => do
    let buffer ← if first then .ok buffer else bufAppend buffer [comma]
    let buffer ← emit buffer
    emitSeparated false rest buffer

def emitMember (member : Bytes × Emitter) : Emitter := fun buffer => do
  let buffer ← emitString member.1 buffer
  let buffer ← bufAppend buffer [colon]
  member.2 buffer

mutual

def emitValue : Tree → Emitter
  | .null => fun buffer => bufAppend buffer literalNull
  | .bool value => fun buffer => bufAppend buffer (if value then literalTrue else literalFalse)
  | .number token => emitNumber token
  | .string text => emitString text
  | .array items => fun buffer => do
    let buffer ← bufAppend buffer [openBracket]
    let buffer ← emitSeparated true (itemEmitters items) buffer
    bufAppend buffer [closeBracket]
  | .object members => fun buffer => do
    let buffer ← bufAppend buffer [openBrace]
    -- The order of `pair_cmp`. Members with equal keys keep their order, as
    -- they do under the merge sort behind the C library's `qsort`.
    let buffer ← emitSeparated true
      ((sortByKey lexLE (memberEmitters members)).map emitMember) buffer
    bufAppend buffer [closeBrace]

def itemEmitters : List Tree → List Emitter
  | [] => []
  | item :: rest => emitValue item :: itemEmitters rest

def memberEmitters : List (Bytes × Tree) → List (Bytes × Emitter)
  | [] => []
  | (key, value) :: rest => (key, emitValue value) :: memberEmitters rest

end

/-- `agent_json_c14n_canonicalize`. The buffer also holds a zero byte that is not
part of the output. -/
def canonicalize (input : Bytes) : Except Failure Bytes := do
  let tree ← parseText input
  let output ← emitValue tree []
  let _ ← bufAppend output [0]
  return output

example : canonicalize (ascii " [1.50e1, -0.0, 12e-3, \"\\u0041\\n\"]") =
    .ok (ascii "[15,0,0.012,\"A\\n\"]") := by decide +kernel

end AgentC.Json

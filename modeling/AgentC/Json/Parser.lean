import AgentC.Json.Tree

/-! # The JSON parser

The parse phase of `core/src/agent_json_c14n.c`. A parser takes the bytes that
are left and returns a result with the bytes behind it. The source recurses
without a limit; here the recursion is on a number that the length of the text
always covers. -/

namespace AgentC.Json

structure Failure where
  status : Status
  message : String
deriving DecidableEq, Repr

def Failure.invalid (message : String) : Failure := ⟨.invalidArgument, message⟩

abbrev Parsed (α : Type) := Except Failure (α × Bytes)

/-- The largest capacity `buf_reserve` grows a buffer to. -/
def bufferLimit : Nat := 2 ^ 31

def bufAppend (buffer chunk : Bytes) : Except Failure Bytes :=
  if buffer.length + chunk.length ≤ bufferLimit then .ok (buffer ++ chunk)
  else .error ⟨.bounds, ""⟩

def quote : UInt8 := 34
def backslash : UInt8 := 92
def openBracket : UInt8 := 91
def closeBracket : UInt8 := 93
def openBrace : UInt8 := 123
def closeBrace : UInt8 := 125
def comma : UInt8 := 44
def colon : UInt8 := 58
def minus : UInt8 := 45
def plus : UInt8 := 43
def dot : UInt8 := 46
def letterU : UInt8 := 117

def isWhite (byte : UInt8) : Bool :=
  byte == 32 || byte == 9 || byte == 13 || byte == 10

def skipWs (input : Bytes) : Bytes :=
  input.dropWhile isWhite

def hexVal (byte : UInt8) : Option Nat :=
  if 48 ≤ byte ∧ byte ≤ 57 then some (byte.toNat - 48)
  else if 97 ≤ byte ∧ byte ≤ 102 then some (10 + (byte.toNat - 97))
  else if 65 ≤ byte ∧ byte ≤ 70 then some (10 + (byte.toNat - 65))
  else none

def hexQuad (h0 h1 h2 h3 : UInt8) : Option Nat :=
  match hexVal h0, hexVal h1, hexVal h2, hexVal h3 with
  | some d0, some d1, some d2, some d3 => some (d0 * 4096 + d1 * 256 + d2 * 16 + d3)
  | _, _, _, _ => none

def isHighSurrogate (unit : Nat) : Bool :=
  0xD800 ≤ unit && unit ≤ 0xDBFF

def isLowSurrogate (unit : Nat) : Bool :=
  0xDC00 ≤ unit && unit ≤ 0xDFFF

def surrogatePair (high low : Nat) : Nat :=
  0x10000 + (high - 0xD800) * 1024 + (low - 0xDC00)

def utf8Codepoint (cp : Nat) : Bytes :=
  if cp ≤ 0x7F then [UInt8.ofNat cp]
  else if cp ≤ 0x7FF then [UInt8.ofNat (0xC0 + cp / 64), UInt8.ofNat (0x80 + cp % 64)]
  else if cp ≤ 0xFFFF then
    [UInt8.ofNat (0xE0 + cp / 4096), UInt8.ofNat (0x80 + cp / 64 % 64),
      UInt8.ofNat (0x80 + cp % 64)]
  else
    [UInt8.ofNat (0xF0 + cp / 262144), UInt8.ofNat (0x80 + cp / 4096 % 64),
      UInt8.ofNat (0x80 + cp / 64 % 64), UInt8.ofNat (0x80 + cp % 64)]

def simpleEscape (letter : UInt8) : Option UInt8 :=
  if letter = quote ∨ letter = backslash ∨ letter = 47 then some letter
  else if letter = 98 then some 8
  else if letter = 102 then some 12
  else if letter = 110 then some 10
  else if letter = 114 then some 13
  else if letter = 116 then some 9
  else none

/-- The low surrogate that an escape at the front of `input` spells, if any. -/
def lowEscape : Bytes → Option Nat
  | b0 :: b1 :: g0 :: g1 :: g2 :: g3 :: _ =>
    if b0 = backslash ∧ b1 = letterU then (hexQuad g0 g1 g2 g3).filter isLowSurrogate else none
  | _ => none

/-- The code point of an escaped unit, joined with the escape behind it when
the two are a surrogate pair, and the bytes left. -/
def joinUnit (unit : Nat) (input : Bytes) : Nat × Bytes :=
  match lowEscape input with
  | some low => if isHighSurrogate unit then (surrogatePair unit low, input.drop 6) else (unit, input)
  | none => (unit, input)

def parseCharacter : Bytes → Parsed Bytes
  | [] => .error (.invalid "unterminated string")
  | byte :: rest =>
    if byte = backslash then
      match rest with
      | [] => .error (.invalid "unterminated escape")
      | letter :: rest =>
        match simpleEscape letter with
        | some decoded => .ok ([decoded], rest)
        | none =>
          if letter = letterU then
            match rest with
            | h0 :: h1 :: h2 :: h3 :: rest =>
              match hexQuad h0 h1 h2 h3 with
              | none => .error (.invalid "invalid \\u escape")
              | some unit =>
                .ok (utf8Codepoint (joinUnit unit rest).1, (joinUnit unit rest).2)
            | _ => .error (.invalid "short \\u escape")
          else .error (.invalid "invalid escape")
    else if byte < 32 then .error (.invalid "control char in string")
    else .ok ([byte], rest)

/-- The loop of `parse_json_string` behind the opening quote. -/
def parseStringBody : Nat → Bytes → Bytes → Parsed Bytes
  | 0, _, _ => .error ⟨.internal, "out of fuel"⟩
  | fuel + 1, text, input =>
    if input.head? = some quote then .ok (text, input.tail)
    else
      match parseCharacter input with
      | .error failure => .error failure
      | .ok (decoded, rest) =>
        match bufAppend text decoded with
        | .error failure => .error failure
        | .ok text => parseStringBody fuel text rest

/-- `parse_json_string`, with the opening quote already taken. -/
def parseString (input : Bytes) : Parsed Bytes :=
  parseStringBody (input.length + 1) [] input

def takeDigits (input : Bytes) : Bytes × Bytes :=
  (input.takeWhile isDigit, input.dropWhile isDigit)

def takeMinus (input : Bytes) : Bytes × Bytes :=
  if input.head? = some minus then ([minus], input.tail) else ([], input)

def takeInteger (input : Bytes) : Parsed Bytes :=
  match input with
  | [] => .error (.invalid "expected number")
  | byte :: rest =>
    if byte = zeroDigit then .ok ([zeroDigit], rest)
    else if isDigit byte then .ok (takeDigits input)
    else .error (.invalid "invalid number")

def takeFraction (input : Bytes) : Parsed Bytes :=
  if input.head? = some dot then
    if input.tail.head?.any isDigit then
      .ok (dot :: (takeDigits input.tail).1, (takeDigits input.tail).2)
    else .error (.invalid "invalid number fraction")
  else .ok ([], input)

def takeExponentSign (input : Bytes) : Bytes × Bytes :=
  match input with
  | [] => ([], [])
  | byte :: rest => if byte = plus ∨ byte = minus then ([byte], rest) else ([], input)

def takeExponent (input : Bytes) : Parsed Bytes :=
  match input with
  | [] => .ok ([], [])
  | byte :: rest =>
    if isExponentMark byte then
      let (sign, digits) := takeExponentSign rest
      if digits.head?.any isDigit then
        .ok (byte :: (sign ++ (takeDigits digits).1), (takeDigits digits).2)
      else .error (.invalid "invalid number exponent")
    else .ok ([], input)

def parseNumberToken (input : Bytes) : Parsed Bytes :=
  let (sign, rest) := takeMinus input
  match takeInteger rest with
  | .error failure => .error failure
  | .ok (integer, rest) =>
    match takeFraction rest with
    | .error failure => .error failure
    | .ok (fraction, rest) =>
      match takeExponent rest with
      | .error failure => .error failure
      | .ok (exponent, rest) => .ok (sign ++ integer ++ fraction ++ exponent, rest)

def literalTrue : Bytes := ascii "true"
def literalFalse : Bytes := ascii "false"
def literalNull : Bytes := ascii "null"

def parseLiteral (literal : Bytes) (tree : Tree) (input : Bytes) : Parsed Tree :=
  if input.take literal.length = literal then .ok (tree, input.drop literal.length)
  else .error (.invalid "invalid literal")

def parseScalar (byte : UInt8) (input : Bytes) : Parsed Tree :=
  if byte = 116 then parseLiteral literalTrue (.bool true) input
  else if byte = 102 then parseLiteral literalFalse (.bool false) input
  else if byte = 110 then parseLiteral literalNull .null input
  else if byte = minus ∨ isDigit byte = true then
    match parseNumberToken input with
    | .error failure => .error failure
    | .ok (token, rest) => .ok (.number token, rest)
  else .error (.invalid "unexpected token")

def parseKey (input : Bytes) : Parsed Bytes :=
  match skipWs input with
  | [] => .error (.invalid "expected object key string")
  | byte :: rest =>
    if byte = quote then
      match parseString rest with
      | .error failure => .error failure
      | .ok (key, rest) =>
        if (skipWs rest).head? = some colon then .ok (key, (skipWs rest).tail)
        else .error (.invalid "expected : in object")
    else .error (.invalid "expected object key string")

mutual

def parseValue : Nat → Bytes → Parsed Tree
  | 0, _ => .error ⟨.internal, "out of fuel"⟩
  | fuel + 1, input =>
    match skipWs input with
    | [] => .error (.invalid "unexpected end of input")
    | byte :: rest =>
      if byte = quote then
        match parseString rest with
        | .error failure => .error failure
        | .ok (text, rest) => .ok (.string text, rest)
      else if byte = openBrace then
        if (skipWs rest).head? = some closeBrace then .ok (.object [], (skipWs rest).tail)
        else parseMembers fuel [] rest
      else if byte = openBracket then
        if (skipWs rest).head? = some closeBracket then .ok (.array [], (skipWs rest).tail)
        else parseItems fuel [] rest
      else parseScalar byte (byte :: rest)

/-- The loop of `parse_array`. -/
def parseItems : Nat → List Tree → Bytes → Parsed Tree
  | 0, _, _ => .error ⟨.internal, "out of fuel"⟩
  | fuel + 1, items, input =>
    match parseValue fuel (skipWs input) with
    | .error failure => .error failure
    | .ok (item, rest) =>
      if (skipWs rest).head? = some comma then
        parseItems fuel (items ++ [item]) (skipWs rest).tail
      else if (skipWs rest).head? = some closeBracket then
        .ok (.array (items ++ [item]), (skipWs rest).tail)
      else .error (.invalid "expected , or ] in array")

/-- The loop of `parse_object`. -/
def parseMembers : Nat → List (Bytes × Tree) → Bytes → Parsed Tree
  | 0, _, _ => .error ⟨.internal, "out of fuel"⟩
  | fuel + 1, members, input =>
    match parseKey input with
    | .error failure => .error failure
    | .ok (key, rest) =>
      match parseValue fuel (skipWs rest) with
      | .error failure => .error failure
      | .ok (value, rest) =>
        if (skipWs rest).head? = some comma then
          parseMembers fuel (members ++ [(key, value)]) (skipWs rest).tail
        else if (skipWs rest).head? = some closeBrace then
          .ok (.object (members ++ [(key, value)]), (skipWs rest).tail)
        else .error (.invalid "expected , or \x7d in object")

end

/-- The parse phase of `agent_json_c14n_canonicalize`. -/
def parseText (input : Bytes) : Except Failure Tree :=
  if input.length = 0 then .error (.invalid "invalid arguments")
  else
    match parseValue (input.length + 1) input with
    | .error failure => .error failure
    | .ok (tree, rest) =>
      if skipWs rest = [] then .ok tree
      else .error (.invalid "trailing junk after JSON value")

end AgentC.Json

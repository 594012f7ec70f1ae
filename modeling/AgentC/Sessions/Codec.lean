import AgentC.Sessions.Session

/-! # The text form of a session

`core/src/agent_session_codec.c`: one line for each message, in which the content is
escaped. Memory allocation is taken to succeed. -/

namespace AgentC.Sessions

open AgentC.ToolLoop (Role)

def tab : UInt8 := 9
def lineFeed : UInt8 := 10
def carriageReturn : UInt8 := 13
def backslash : UInt8 := 92

/-- `kHex` -/
def hexDigits : Bytes := ascii "0123456789ABCDEF"

/-- The body of the loop of `agent_escape_content`. -/
def escapeByte (byte : UInt8) : Bytes :=
  if byte = backslash then ascii "\\\\"
  else if byte = lineFeed then ascii "\\n"
  else if byte = carriageReturn then ascii "\\r"
  else if byte = tab then ascii "\\t"
  else if byte < 0x20 ∨ byte = 0x7F then
    ascii "\\x" ++
      [hexDigits.getD ((byte >>> 4) &&& 0xF).toNat 0, hexDigits.getD (byte &&& 0xF).toNat 0]
  else [byte]

def escapeContent (content : Bytes) : Bytes :=
  content.flatMap escapeByte

def hexValue (c : UInt8) : Option UInt8 :=
  if 48 ≤ c ∧ c ≤ 57 then some (c - 48)
  else if 97 ≤ c ∧ c ≤ 102 then some (10 + (c - 97))
  else if 65 ≤ c ∧ c ≤ 70 then some (10 + (c - 65))
  else none

def hexByte : Bytes → Option (UInt8 × Bytes)
  | high :: low :: rest =>
    match hexValue high, hexValue low with
    | some high, some low => some ((high <<< 4) ||| low, rest)
    | _, _ => none
  | _ => none

/-- The byte that is named behind a backslash, and the text behind its name. -/
def escapedByte : Bytes → Option (UInt8 × Bytes)
  | [] => none
  | esc :: rest =>
    if esc = backslash then some (backslash, rest)
    else if esc = 110 then some (lineFeed, rest)
    else if esc = 114 then some (carriageReturn, rest)
    else if esc = 116 then some (tab, rest)
    else if esc = 120 then hexByte rest
    else none

theorem hexByte_length {text rest : Bytes} {byte : UInt8}
    (found : hexByte text = some (byte, rest)) : rest.length ≤ text.length := by
  rw [hexByte.eq_def] at found
  split at found
  · next high low behind =>
    split at found
    · cases found
      simp only [List.length_cons]
      omega
    · cases found
  · cases found

theorem escapedByte_length {text rest : Bytes} {byte : UInt8}
    (found : escapedByte text = some (byte, rest)) : rest.length < text.length := by
  cases text with
  | nil => cases found
  | cons esc text =>
    have hex := @hexByte_length text rest byte
    grind [escapedByte]

def unescapeContent (text : Bytes) : Except Status Bytes :=
  match text with
  | [] => .ok []
  | byte :: rest =>
    if byte ≠ backslash then (unescapeContent rest).map (byte :: ·)
    else
      match found : escapedByte rest with
      | none => .error .internal
      | some (byte, rest) => (unescapeContent rest).map (byte :: ·)
termination_by text.length
decreasing_by
  · exact Nat.lt_succ_self _
  · exact (escapedByte_length found).trans (Nat.lt_succ_self _)

def encodeMessage (message : Message) : Bytes :=
  ascii "M\t" ++ message.role.text ++ [tab] ++ escapeContent message.content ++ [lineFeed]

def encodeV1 (session : Session) : Bytes :=
  ascii "AGENT_SESSION\t1\n" ++ session.messages.flatMap encodeMessage

/-- `agent_line_trim_cr` -/
def trimCr (line : Bytes) : Bytes :=
  if line.getLast? = some carriageReturn then line.dropLast else line

def isBlankLine (line : Bytes) : Bool :=
  line.all isSpace

def roleFromString (text : Bytes) : Option Role :=
  if cString text = ascii "system" then some .system
  else if cString text = ascii "user" then some .user
  else if cString text = ascii "assistant" then some .assistant
  else if cString text = ascii "tool" then some .tool
  else none

/-- The bytes before the first line feed, without a carriage return at their end, and the
bytes behind it. -/
def nextLine (data : Bytes) : Bytes × Bytes :=
  (trimCr (data.takeWhile (· != lineFeed)), (data.dropWhile (· != lineFeed)).tail)

/-- The body of the loop of `agent_session_codec_decode_v1`. -/
def decodeLine (session : Session) (line : Bytes) : Except Status Session :=
  if line.isEmpty || isBlankLine line then .ok session
  else if line.head? = some 35 then .ok session
  else if line.length < 4 ∨ (line)[0]? ≠ some 77 ∨ (line)[1]? ≠ some tab then .error .internal
  else
    let role := (line.drop 2).takeWhile (· != tab)
    match (line.drop 2).dropWhile (· != tab) with
    | [] => .error .internal
    | _ :: content =>
      if role.length = 0 ∨ role.length > 32 then .error .internal
      else
        match roleFromString role with
        | none => .error .internal
        | some role =>
          match unescapeContent content with
          | .error status => .error status
          | .ok content =>
            match session.addMessage role content plentiful with
            | (.ok, session, _) => .ok session
            | (status, _, _) => .error status

theorem nextLine_length (data : Bytes) (more : data.isEmpty = false) :
    (nextLine data).2.length < data.length := by
  have parts := congrArg List.length (List.takeWhile_append_dropWhile (p := (· != lineFeed))
    (l := data))
  rw [List.length_append] at parts
  have positive : 0 < data.length := by
    rw [List.length_pos_iff]
    intro empty
    rw [empty] at more
    cases more
  rw [nextLine, List.length_tail]
  omega

/-- The loop of `agent_session_codec_decode_v1`. -/
def decodeLines (session : Session) (data : Bytes) : Except Status Session :=
  if _more : data.isEmpty = false then
    match decodeLine session (nextLine data).1 with
    | .error status => .error status
    | .ok session => decodeLines session (nextLine data).2
  else .ok session
termination_by data.length
decreasing_by exact nextLine_length data ‹_›

def decodeV1 (data : Bytes) : Except Status Session :=
  if (nextLine data).1 ≠ ascii "AGENT_SESSION\t1" then .error .internal
  else decodeLines create (nextLine data).2

end AgentC.Sessions

import AgentC.Json.Rendering
import AgentC.Streaming.Decoder

/-! # The writers of JSON strings

Besides the canonicalizer two modules write strings into JSON texts: the tool loop
(`core/src/agent_tool_loop_json.c`) and the stream decoder. -/

namespace AgentC.ToolLoop

def hexNibble (value : Nat) : UInt8 :=
  if value < 10 then UInt8.ofNat (48 + value) else UInt8.ofNat (87 + value)

def escapedU4 (value : Nat) : Bytes :=
  ascii "\\u" ++ [hexNibble (value / 4096 % 16), hexNibble (value / 256 % 16),
    hexNibble (value / 16 % 16), hexNibble (value % 16)]

def jsonEscapeByte (byte : UInt8) : Bytes :=
  if byte = 92 then ascii "\\\\"
  else if byte = 34 then ascii "\\\""
  else if byte = 10 then ascii "\\n"
  else if byte = 13 then ascii "\\r"
  else if byte = 9 then ascii "\\t"
  else if byte < 0x20 then escapedU4 byte.toNat
  else [byte]

/-- `tl_json_escape_into` -/
def jsonEscape (text : Bytes) : Bytes :=
  text.flatMap jsonEscapeByte

/-- `tl_json_append_string_field`; the flag is `*io_first`. -/
def appendStringField (buffer key value : Bytes) (first : Bool) : Bytes × Bool :=
  let buffer := if first then buffer else buffer ++ ascii ","
  (buffer ++ ascii "\"" ++ key ++ ascii "\":\"" ++ jsonEscape value ++ ascii "\"", false)

end AgentC.ToolLoop

namespace AgentC.Json

def quoted (body : Bytes) : Bytes := quote :: (body ++ [quote])

theorem appendStringField_eq (buffer key value : Bytes) (first : Bool) :
    (ToolLoop.appendStringField buffer key value first).1 =
      buffer ++ (if first then [] else [comma]) ++ quoted key ++ [colon] ++
        quoted (ToolLoop.jsonEscape value) := by
  have comma : ascii "," = [comma] := rfl
  have single : ascii "\"" = [quote] := rfl
  have between : ascii "\":\"" = [quote, colon, quote] := rfl
  cases first <;> simp [ToolLoop.appendStringField, quoted, comma, single, between]

theorem kvString_eq (key : String) (value : Bytes) : Streaming.kvString key value =
      quoted (ascii key) ++ [colon] ++ quoted (Streaming.jsonEscape value) := by
  have single : ascii "\"" = [quote] := rfl
  have between : ascii "\":\"" = [quote, colon, quote] := rfl
  simp [Streaming.kvString, quoted, single, between]

/-- `parse_json_string`, with its opening quote. -/
def parseJsonString (input : Bytes) : Parsed Bytes :=
  match input with
  | [] => .error (.invalid "expected string")
  | byte :: rest =>
    if byte = quote then parseString rest else .error (.invalid "expected string")

/-- No quote in the text closes the string, and none behind it is escaped. -/
def QuoteFree : Bool → Bytes → Prop
  | escaped, [] => escaped = false
  | escaped, byte :: rest =>
    (escaped = true ∨ byte ≠ quote) ∧ QuoteFree (!escaped && byte == backslash) rest

def Quoted (written : Bytes) : Prop :=
  ∃ body, written = quoted body ∧ QuoteFree false body ∧ ∀ byte ∈ written, ¬byte < 32

variable {byte : UInt8} {rest body text : Bytes} {h0 h1 h2 h3 : UInt8}

theorem quoteFree_plain (notQuote : byte ≠ quote) (notBackslash : byte ≠ backslash)
    (free : QuoteFree false rest) : QuoteFree false (byte :: rest) := by
  refine ⟨.inr notQuote, ?_⟩
  rw [beq_false_of_ne notBackslash]
  exact free

theorem quoteFree_escape (letter : UInt8) (free : QuoteFree false rest) :
    QuoteFree false (backslash :: letter :: rest) :=
  ⟨.inr (by decide), .inl rfl, free⟩

theorem ordinary_of_hexVal {digit : Nat} (isDigit : hexVal byte = some digit) :
    byte ≠ quote ∧ byte ≠ backslash ∧ ¬byte < 32 := by
  have known : (hexVal byte).isSome = true := by rw [isDigit]; rfl
  revert known
  exact @forall_byte (fun byte => (hexVal byte).isSome = true →
    byte ≠ quote ∧ byte ≠ backslash ∧ ¬byte < 32) (by decide +kernel) byte

theorem ordinary_of_hexQuad {unit : Nat} (quad : hexQuad h0 h1 h2 h3 = some unit) :
    ∀ byte ∈ [h0, h1, h2, h3], byte ≠ quote ∧ byte ≠ backslash ∧ ¬byte < 32 := by
  rw [hexQuad] at quad
  split at quad
  · next first second third fourth =>
    simp only [List.forall_mem_cons]
    exact ⟨ordinary_of_hexVal first, ordinary_of_hexVal second, ordinary_of_hexVal third,
      ordinary_of_hexVal fourth, List.forall_mem_nil _⟩
  · cases quad

theorem printable_of_simpleEscape {letter decoded : UInt8}
    (known : simpleEscape letter = some decoded) : ¬letter < 32 := by
  have known : (simpleEscape letter).isSome = true := by rw [known]; rfl
  revert known
  exact @forall_byte (fun letter => (simpleEscape letter).isSome = true → ¬letter < 32)
    (by decide +kernel) letter

theorem quoteFree_unicode {unit : Nat} (quad : hexQuad h0 h1 h2 h3 = some unit)
    (free : QuoteFree false rest) :
    QuoteFree false (backslash :: letterU :: h0 :: h1 :: h2 :: h3 :: rest) := by
  have ordinary := ordinary_of_hexQuad quad
  simp only [List.forall_mem_cons] at ordinary
  rcases ordinary with ⟨first, second, third, fourth, nothing⟩
  exact quoteFree_escape letterU (quoteFree_plain first.1 first.2.1 (quoteFree_plain second.1
    second.2.1 (quoteFree_plain third.1 third.2.1 (quoteFree_plain fourth.1 fourth.2.1 free))))

theorem StringBody.quoteFree {text : Bytes} (spelled : StringBody body text) :
    QuoteFree false body := by
  induction spelled with
  | nil => rfl
  | plain notQuote notBackslash printable rest induction =>
    exact quoteFree_plain notQuote notBackslash induction
  | escape known rest induction => exact quoteFree_escape _ induction
  | unicode quad alone rest induction => exact quoteFree_unicode quad induction
  | surrogates highQuad isHigh lowQuad isLow rest induction =>
    exact quoteFree_unicode highQuad (quoteFree_unicode lowQuad induction)

theorem printable_unicode {unit : Nat} (quad : hexQuad h0 h1 h2 h3 = some unit)
    (printable : ∀ byte ∈ rest, ¬byte < 32) :
    ∀ byte ∈ backslash :: letterU :: h0 :: h1 :: h2 :: h3 :: rest, ¬byte < 32 := by
  have ordinary := ordinary_of_hexQuad quad
  simp only [List.forall_mem_cons] at ordinary ⊢
  rcases ordinary with ⟨first, second, third, fourth, nothing⟩
  exact ⟨by decide, by decide, first.2.2, second.2.2, third.2.2, fourth.2.2, printable⟩

theorem StringBody.printable {text : Bytes} (spelled : StringBody body text) :
    ∀ byte ∈ body, ¬byte < 32 := by
  induction spelled with
  | nil => exact List.forall_mem_nil _
  | plain notQuote notBackslash printable rest induction =>
    exact List.forall_mem_cons.mpr ⟨printable, induction⟩
  | escape known rest induction =>
    exact List.forall_mem_cons.mpr ⟨by decide,
      List.forall_mem_cons.mpr ⟨printable_of_simpleEscape known, induction⟩⟩
  | unicode quad alone rest induction => exact printable_unicode quad induction
  | surrogates highQuad isHigh lowQuad isLow rest induction =>
    exact printable_unicode highQuad (printable_unicode lowQuad induction)

theorem StringBody.quoted {text : Bytes} (spelled : StringBody body text) :
    Quoted (quoted body) := by
  refine ⟨body, rfl, spelled.quoteFree, ?_⟩
  rw [Json.quoted]
  refine List.forall_mem_cons.mpr ⟨by decide, ?_⟩
  intro byte member
  rcases List.mem_append.mp member with inBody | last
  · exact spelled.printable byte inBody
  · rw [List.mem_singleton.mp last]
    decide

theorem yields_parseJsonString (spelled : StringBody body text) :
    Yields (parseJsonString (quoted body)) (text.length ≤ bufferLimit) (text, []) :=
  yields_parseString spelled []

theorem stringBody_jsonEscapeByte (rest : StringBody body text) :
    StringBody (Streaming.jsonEscapeByte byte ++ body) (byte :: text) := by
  rw [Streaming.jsonEscapeByte]
  split
  · next equal => exact equal ▸ .escape rfl rest
  · next notBackslash =>
    split
    · next equal => exact equal ▸ .escape rfl rest
    · next notQuote =>
      split
      · next equal => exact equal ▸ .escape rfl rest
      · split
        · next equal => exact equal ▸ .escape rfl rest
        · split
          · next equal => exact equal ▸ .escape rfl rest
          · split
            · next control => exact .control control rest
            · next printable => exact .plain notQuote notBackslash printable rest

theorem stringBody_jsonEscape (text : Bytes) : StringBody (Streaming.jsonEscape text) text := by
  induction text with
  | nil => exact .nil
  | cons byte rest induction => exact stringBody_jsonEscapeByte induction

theorem jsonEscape_toolLoop (text : Bytes) :
    ToolLoop.jsonEscape text = Streaming.jsonEscape text := rfl

theorem length_utf8Codepoint_le (cp : Nat) : (utf8Codepoint cp).length ≤ 4 := by
  rw [utf8Codepoint]
  split
  · exact Nat.succ_le_succ (Nat.zero_le _)
  · split
    · exact Nat.succ_le_succ (Nat.succ_le_succ (Nat.zero_le _))
    · split
      · exact Nat.le_succ 3
      · exact Nat.le_refl 4

theorem StringBody.length_le (spelled : StringBody body text) : text.length ≤ body.length := by
  induction spelled with
  | nil => exact Nat.le_refl _
  | plain notQuote notBackslash printable rest induction => exact Nat.succ_le_succ induction
  | escape =>
    simp only [List.length_cons]
    omega
  | @unicode h0 h1 h2 h3 unit body text quad alone rest induction =>
    have short := length_utf8Codepoint_le unit
    simp only [List.length_append, List.length_cons]
    omega
  | @surrogates h0 h1 h2 h3 g0 g1 g2 g3 high low body text highQuad isHigh lowQuad isLow rest
      induction =>
    have short := length_utf8Codepoint_le (surrogatePair high low)
    simp only [List.length_append, List.length_cons]
    omega

theorem emitString_eq_ok {buffer result : Bytes} (emitted : emitString text buffer = .ok result) :
    ∃ body, StringBody body text ∧ result = buffer ++ quoted body ∧ text.length ≤ bufferLimit := by
  have bounded : buffer.length ≤ bufferLimit := by
    have emitted := emitted
    rw [emitString, bind_eq_ok] at emitted
    rcases emitted with ⟨opened, first, rest⟩
    have fits := (bufAppend_eq_ok.mp first).1
    omega
  rcases (appends_emitString text buffer result bounded).mp emitted with ⟨possible, fits, equal⟩
  rcases spellsString_quotedText text with ⟨body, spelled, written⟩
  have length := spelled.length_le
  rw [written, List.length_cons, List.length_append] at fits
  exact ⟨body, spelled, by rw [equal, written]; rfl, by omega⟩

/-- Strings are read back as they were: what any of the three writers wrote is one string
without raw control characters, and the parser gives back what was written, as long as
that fits into its buffer. -/
theorem string_writers_undone (text : Bytes) :
    (∀ buffer result, emitString text buffer = .ok result →
      ∃ written, result = buffer ++ written ∧ Quoted written ∧
        parseJsonString written = .ok (text, [])) ∧
    ∀ escape ∈ [ToolLoop.jsonEscape, Streaming.jsonEscape],
      Quoted (quoted (escape text)) ∧
        (text.length ≤ bufferLimit → parseJsonString (quoted (escape text)) = .ok (text, [])) := by
  constructor
  · intro buffer result emitted
    rcases emitString_eq_ok emitted with ⟨body, spelled, equal, fits⟩
    exact ⟨quoted body, equal, spelled.quoted, (yields_parseJsonString spelled).ok_of_fits fits⟩
  · have spelled := stringBody_jsonEscape text
    simp only [List.forall_mem_cons, jsonEscape_toolLoop]
    have undone := And.intro spelled.quoted (yields_parseJsonString spelled).ok_of_fits
    exact ⟨undone, undone, List.forall_mem_nil _⟩

def mixedText : Bytes := [0x5c, 0x22, 0x00, 0x0a, 0x1f, 0x5c, 0x6e, 0xff, 0x80]

theorem string_writers_undone_sample :
    parseJsonString (quoted (ToolLoop.jsonEscape mixedText)) = .ok (mixedText, []) :=
  ((string_writers_undone mixedText).2 ToolLoop.jsonEscape (List.mem_cons_self ..)).2
    (by rw [bufferLimit]; decide)

/-- The parser refuses a string of one byte too many. -/
theorem too_long_string_is_lost :
    ∃ failure, parseJsonString (quoted (ToolLoop.jsonEscape (letters (bufferLimit + 1)))) =
      .error failure := by
  have spelled := stringBody_jsonEscape (letters (bufferLimit + 1))
  rw [jsonEscape_toolLoop]
  rcases yields_parseJsonString spelled with read | refused
  · rw [letters, List.length_replicate] at read
    exact absurd read.1 (Nat.not_succ_le_self _)
  · exact refused.2

end AgentC.Json

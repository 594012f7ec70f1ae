import AgentC.Json.Parser

/-! # JSON texts

The grammar of JSON over bytes, stated without the parser: which texts spell a
tree. The parser is then shown to accept exactly these texts. -/

namespace AgentC.Json

def White (text : Bytes) : Prop := AllIn isWhite text

/-- The parts of a number. An empty fraction or exponent is absent. -/
structure NumberParts where
  negative : Bool
  integer : Bytes
  fraction : Bytes
  mark : UInt8 := 101
  exponentSign : Bytes := []
  exponent : Bytes := []

namespace NumberParts

def signText (parts : NumberParts) : Bytes :=
  if parts.negative then [minus] else []

def fractionText (parts : NumberParts) : Bytes :=
  if parts.fraction = [] then [] else dot :: parts.fraction

def exponentText (parts : NumberParts) : Bytes :=
  if parts.exponent = [] then [] else parts.mark :: (parts.exponentSign ++ parts.exponent)

def text (parts : NumberParts) : Bytes :=
  parts.signText ++ parts.integer ++ parts.fractionText ++ parts.exponentText

/-- No leading zeros, digits only, and a sign only in front of an exponent. -/
structure Valid (parts : NumberParts) : Prop where
  integer : NoLeadingZero parts.integer
  integerDigits : AllIn isDigit parts.integer
  fractionDigits : AllIn isDigit parts.fraction
  mark : isExponentMark parts.mark = true
  exponentSign : parts.exponentSign = [] ∨ parts.exponentSign = [plus] ∨
    parts.exponentSign = [minus]
  exponentDigits : AllIn isDigit parts.exponent

end NumberParts

def IsNumber (token : Bytes) : Prop :=
  ∃ parts : NumberParts, parts.Valid ∧ token = parts.text

/-- `StringBody body text`: between quotes, `body` stands for `text`. -/
inductive StringBody : Bytes → Bytes → Prop
  | nil : StringBody [] []
  | plain {byte : UInt8} {body text : Bytes} (notQuote : byte ≠ quote)
      (notBackslash : byte ≠ backslash) (printable : ¬byte < 32) (rest : StringBody body text) :
      StringBody (byte :: body) (byte :: text)
  | escape {letter decoded : UInt8} {body text : Bytes}
      (known : simpleEscape letter = some decoded) (rest : StringBody body text) :
      StringBody (backslash :: letter :: body) (decoded :: text)
  | unicode {h0 h1 h2 h3 : UInt8} {unit : Nat} {body text : Bytes}
      (quad : hexQuad h0 h1 h2 h3 = some unit)
      (alone : isHighSurrogate unit = false ∨ lowEscape body = none)
      (rest : StringBody body text) :
      StringBody (backslash :: letterU :: h0 :: h1 :: h2 :: h3 :: body)
        (utf8Codepoint unit ++ text)
  | surrogates {h0 h1 h2 h3 g0 g1 g2 g3 : UInt8} {high low : Nat} {body text : Bytes}
      (highQuad : hexQuad h0 h1 h2 h3 = some high) (isHigh : isHighSurrogate high = true)
      (lowQuad : hexQuad g0 g1 g2 g3 = some low) (isLow : isLowSurrogate low = true)
      (rest : StringBody body text) :
      StringBody (backslash :: letterU :: h0 :: h1 :: h2 :: h3 ::
          backslash :: letterU :: g0 :: g1 :: g2 :: g3 :: body)
        (utf8Codepoint (surrogatePair high low) ++ text)

def SpellsString (decoded text : Bytes) : Prop :=
  ∃ body, StringBody body decoded ∧ text = quote :: (body ++ [quote])

mutual

/-- `Spells tree text`: the text, without white space around it, is the tree. -/
def Spells : Tree → Bytes → Prop
  | .null, text => text = literalNull
  | .bool value, text => text = if value then literalTrue else literalFalse
  | .number token, text => IsNumber token ∧ text = token
  | .string decoded, text => SpellsString decoded text
  | .array items, text =>
    ∃ inside, SpellsItems items inside ∧ text = openBracket :: (inside ++ [closeBracket])
  | .object members, text =>
    ∃ inside, SpellsMembers members inside ∧ text = openBrace :: (inside ++ [closeBrace])

def SpellsItems : List Tree → Bytes → Prop
  | [], inside => White inside
  | item :: rest, inside => ∃ before text after, White before ∧ Spells item text ∧ White after ∧
      (rest = [] ∧ inside = before ++ text ++ after ∨
        rest ≠ [] ∧ ∃ more, SpellsItems rest more ∧
          inside = before ++ text ++ after ++ comma :: more)

def SpellsMembers : List (Bytes × Tree) → Bytes → Prop
  | [], inside => White inside
  | (key, value) :: rest, inside => ∃ before name beforeColon afterColon text after,
      White before ∧ SpellsString key name ∧ White beforeColon ∧ White afterColon ∧
      Spells value text ∧ White after ∧
      (rest = [] ∧ inside =
          before ++ name ++ beforeColon ++ colon :: (afterColon ++ text ++ after) ∨
        rest ≠ [] ∧ ∃ more, SpellsMembers rest more ∧ inside =
          before ++ name ++ beforeColon ++ colon :: (afterColon ++ text ++ after ++ comma :: more))

end

def SpellsText (tree : Tree) (input : Bytes) : Prop :=
  ∃ before text after, White before ∧ Spells tree text ∧ White after ∧
    input = before ++ text ++ after

mutual

def Tree.StringsFit : Tree → Prop
  | .string text => text.length ≤ bufferLimit
  | .array items => StringsFitItems items
  | .object members => StringsFitMembers members
  | _ => True

def StringsFitItems : List Tree → Prop
  | [] => True
  | item :: rest => item.StringsFit ∧ StringsFitItems rest

def StringsFitMembers : List (Bytes × Tree) → Prop
  | [] => True
  | (key, value) :: rest =>
    key.length ≤ bufferLimit ∧ value.StringsFit ∧ StringsFitMembers rest

end

theorem skipWs_append {before rest : Bytes} (white : White before) (stops : StopsAt isWhite rest) :
    skipWs (before ++ rest) = rest :=
  dropWhile_append_of_stop white stops

theorem skipWs_of_stop {rest : Bytes} (stops : StopsAt isWhite rest) : skipWs rest = rest :=
  skipWs_append (allIn_nil _) stops

theorem exists_skipWs (input : Bytes) : ∃ before, White before ∧ input = before ++ skipWs input :=
  ⟨input.takeWhile isWhite, allIn_takeWhile isWhite input,
    (List.takeWhile_append_dropWhile).symm⟩

theorem stopsAt_skipWs (input : Bytes) : StopsAt isWhite (skipWs input) :=
  stopsAt_dropWhile isWhite input

theorem lowEscape_of_ne_backslash {byte : UInt8} (other : byte ≠ backslash) (rest : Bytes) :
    lowEscape (byte :: rest) = none := by
  rw [lowEscape.eq_def]
  split
  · next equal =>
    cases equal
    exact if_neg fun both => other both.1
  · rfl

theorem lowEscape_of_ne_letterU {letter : UInt8} (other : letter ≠ letterU) (rest : Bytes) :
    lowEscape (backslash :: letter :: rest) = none := by
  rw [lowEscape.eq_def]
  split
  · next equal =>
    cases equal
    exact if_neg fun both => other both.2
  · rfl

theorem simpleEscape_letterU : simpleEscape letterU = none := by decide

theorem ne_letterU_of_simpleEscape {letter decoded : UInt8}
    (known : simpleEscape letter = some decoded) : letter ≠ letterU := by
  intro equal
  rw [equal, simpleEscape_letterU] at known
  exact nomatch known

/-- Whether a body starts with the escape of a low surrogate does not depend on
what stands behind its closing quote. -/
theorem lowEscape_append {body decoded : Bytes} (spelled : StringBody body decoded)
    (rest : Bytes) : lowEscape (body ++ quote :: rest) = lowEscape body := by
  cases spelled with
  | nil => exact lowEscape_of_ne_backslash (by decide) rest
  | plain notQuote notBackslash printable spelled =>
    rw [List.cons_append, lowEscape_of_ne_backslash notBackslash,
      lowEscape_of_ne_backslash notBackslash]
  | escape known spelled =>
    have other := ne_letterU_of_simpleEscape known
    rw [List.cons_append, List.cons_append, lowEscape_of_ne_letterU other,
      lowEscape_of_ne_letterU other]
  | unicode => rfl
  | surrogates => rfl

end AgentC.Json

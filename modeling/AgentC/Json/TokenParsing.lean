import AgentC.Json.Grammar

/-! # Parsing strings and numbers

The functions that read one string or one number accept exactly what the
grammar spells, except for strings that overflow a buffer. -/

namespace AgentC.Json

/-- A parser's answer where the grammar spells `expected`: success exactly when
the strings fit. -/
def Yields {α : Type} (parsed : Parsed α) (fits : Prop) (expected : α × Bytes) : Prop :=
  (fits ∧ parsed = .ok expected) ∨ (¬fits ∧ ∃ failure, parsed = .error failure)

namespace Yields

variable {α : Type} {parsed : Parsed α} {fits : Prop} {expected : α × Bytes}

theorem ok_of_fits (yields : Yields parsed fits expected) (fitting : fits) :
    parsed = .ok expected := by
  rcases yields with success | failed
  · exact success.2
  · exact absurd fitting failed.1

theorem congr {other : Prop} (yields : Yields parsed fits expected) (same : fits ↔ other) :
    Yields parsed other expected := by
  rw [Yields, same] at yields
  exact yields

end Yields

variable {chunk : Bytes} {byte : UInt8} {rest input text : Bytes} {unit low : Nat}

theorem bufAppend_of_fits {buffer : Bytes} (fits : buffer.length + chunk.length ≤ bufferLimit) :
    bufAppend buffer chunk = .ok (buffer ++ chunk) :=
  if_pos fits

theorem bufAppend_eq_ok {buffer result : Bytes} : bufAppend buffer chunk = .ok result ↔
      buffer.length + chunk.length ≤ bufferLimit ∧ result = buffer ++ chunk := by
  rw [bufAppend]
  split
  · next fits => exact ⟨fun equal => ⟨fits, (Except.ok.inj equal).symm⟩, fun both => by rw [both.2]⟩
  · next exceeds => exact ⟨fun equal => (nomatch equal), fun both => absurd both.1 exceeds⟩

theorem parseCharacter_plain (notBackslash : byte ≠ backslash) (printable : ¬byte < 32)
    (rest : Bytes) : parseCharacter (byte :: rest) = .ok ([byte], rest) := by
  rw [parseCharacter.eq_def]
  exact (if_neg notBackslash).trans (if_neg printable)

theorem parseCharacter_escape {letter decoded : UInt8}
    (known : simpleEscape letter = some decoded) (rest : Bytes) :
    parseCharacter (backslash :: letter :: rest) = .ok ([decoded], rest) := by
  simp only [parseCharacter, if_true, known]

theorem parseCharacter_unicode {h0 h1 h2 h3 : UInt8} (quad : hexQuad h0 h1 h2 h3 = some unit)
    (rest : Bytes) : parseCharacter (backslash :: letterU :: h0 :: h1 :: h2 :: h3 :: rest) =
      .ok (utf8Codepoint (joinUnit unit rest).1, (joinUnit unit rest).2) := by
  simp only [parseCharacter, if_true, simpleEscape_letterU, quad]

theorem joinUnit_alone (alone : isHighSurrogate unit = false ∨ lowEscape rest = none) :
    joinUnit unit rest = (unit, rest) := by
  rw [joinUnit]
  rcases alone with notHigh | noLow
  · split
    · rw [notHigh]
      rfl
    · rfl
  · rw [noLow]

theorem lowEscape_surrogate {g0 g1 g2 g3 : UInt8} (lowQuad : hexQuad g0 g1 g2 g3 = some low)
    (isLow : isLowSurrogate low = true) (rest : Bytes) :
    lowEscape (backslash :: letterU :: g0 :: g1 :: g2 :: g3 :: rest) = some low := by
  simp [lowEscape, lowQuad, isLow, Option.filter]

theorem joinUnit_pair {high : Nat} (isHigh : isHighSurrogate high = true)
    (escaped : lowEscape input = some low) :
    joinUnit high input = (surrogatePair high low, input.drop 6) := by
  rw [joinUnit, escaped]
  exact if_pos isHigh

theorem yields_parseStringBody_step {fuel : Nat} {out next : Bytes}
    (unclosed : input.head? ≠ some quote) (character : parseCharacter input = .ok (chunk, next))
    (later : (out ++ chunk).length ≤ bufferLimit → Yields (parseStringBody fuel (out ++ chunk) next)
        ((out ++ chunk).length + text.length ≤ bufferLimit) (out ++ chunk ++ text, rest)) :
    Yields (parseStringBody (fuel + 1) out input)
      (out.length + (chunk ++ text).length ≤ bufferLimit) (out ++ (chunk ++ text), rest) := by
  rw [parseStringBody, if_neg unclosed, character]
  simp only [List.length_append] at later ⊢
  by_cases fits : out.length + chunk.length ≤ bufferLimit
  · rw [bufAppend_of_fits fits, ← List.append_assoc]
    exact (later fits).congr (by omega)
  · rw [bufAppend, if_neg fits]
    exact .inr ⟨by omega, _, rfl⟩

theorem yields_parseStringBody {body text : Bytes} (spelled : StringBody body text) :
    ∀ {fuel : Nat} {out : Bytes} (rest : Bytes), body.length < fuel → out.length ≤ bufferLimit →
      Yields (parseStringBody fuel out (body ++ quote :: rest))
        (out.length + text.length ≤ bufferLimit) (out ++ text, rest) := by
  induction spelled with
  | nil =>
    intro fuel out rest enough bounded
    rcases fuel with _ | fuel
    · omega
    · refine .inl ⟨bounded, ?_⟩
      rw [List.append_nil]
      rfl
  | plain notQuote notBackslash printable spelled induction =>
    intro fuel out rest enough bounded
    rcases fuel with _ | fuel
    · omega
    · apply yields_parseStringBody_step (by simpa using notQuote)
        (parseCharacter_plain notBackslash printable _)
      intro bounded
      exact induction rest (by simpa using enough) bounded
  | escape known spelled induction =>
    intro fuel out rest enough bounded
    rcases fuel with _ | fuel
    · omega
    · apply yields_parseStringBody_step (by simp [backslash, quote])
        (parseCharacter_escape known _)
      intro bounded
      exact induction rest (by simp at enough; omega) bounded
  | @unicode h0 h1 h2 h3 unit body text quad alone spelled induction =>
    intro fuel out rest enough bounded
    rcases fuel with _ | fuel
    · omega
    · have single : joinUnit unit (body ++ quote :: rest) = (unit, body ++ quote :: rest) :=
        joinUnit_alone (by rwa [lowEscape_append spelled])
      have character := parseCharacter_unicode quad (body ++ quote :: rest)
      rw [single] at character
      apply yields_parseStringBody_step (by simp [backslash, quote]) character
      intro bounded
      exact induction rest (by simp at enough; omega) bounded
  | @surrogates h0 h1 h2 h3 g0 g1 g2 g3 high low body text highQuad isHigh lowQuad isLow spelled
      induction =>
    intro fuel out rest enough bounded
    rcases fuel with _ | fuel
    · omega
    · have character := parseCharacter_unicode highQuad
        (backslash :: letterU :: g0 :: g1 :: g2 :: g3 :: (body ++ quote :: rest))
      rw [joinUnit_pair isHigh (lowEscape_surrogate lowQuad isLow _)] at character
      apply yields_parseStringBody_step (by simp [backslash, quote]) character
      intro bounded
      exact induction rest (by simp at enough; omega) bounded

theorem yields_parseString {body : Bytes} (spelled : StringBody body text) (rest : Bytes) :
    Yields (parseString (body ++ quote :: rest)) (text.length ≤ bufferLimit) (text, rest) := by
  have yields := @yields_parseStringBody body text spelled
    ((body ++ quote :: rest).length + 1) [] rest (by simp only [List.length_append]; omega) (Nat.zero_le _)
  rw [List.length_nil, Nat.zero_add] at yields
  exact yields

theorem exists_of_lowEscape (escaped : lowEscape input = some low) :
    ∃ g0 g1 g2 g3 rest, input = backslash :: letterU :: g0 :: g1 :: g2 :: g3 :: rest ∧
      hexQuad g0 g1 g2 g3 = some low ∧ isLowSurrogate low = true := by
  rw [lowEscape.eq_def] at escaped
  split at escaped
  · next b0 b1 g0 g1 g2 g3 rest =>
    split at escaped
    · next introduced =>
      rw [Option.filter_eq_some_iff] at escaped
      rw [introduced.1, introduced.2]
      exact ⟨g0, g1, g2, g3, rest, rfl, escaped.1, escaped.2⟩
    · cases escaped
  · cases escaped

theorem stringBody_joinUnit {h0 h1 h2 h3 : UInt8} (quad : hexQuad h0 h1 h2 h3 = some unit)
    (input : Bytes) : ∃ front, backslash :: letterU :: h0 :: h1 :: h2 :: h3 :: input =
        front ++ (joinUnit unit input).2 ∧
      ∀ body text rest, (joinUnit unit input).2 = body ++ quote :: rest → StringBody body text →
        StringBody (front ++ body) (utf8Codepoint (joinUnit unit input).1 ++ text) := by
  by_cases alone : isHighSurrogate unit = false ∨ lowEscape input = none
  · rw [joinUnit_alone alone]
    refine ⟨[backslash, letterU, h0, h1, h2, h3], rfl, fun body text rest split spelled => ?_⟩
    rw [show input = body ++ quote :: rest from split, lowEscape_append spelled] at alone
    exact .unicode quad alone spelled
  · rw [not_or, Bool.not_eq_false] at alone
    rcases Option.ne_none_iff_exists'.mp alone.2 with ⟨low, escaped⟩
    rw [joinUnit_pair alone.1 escaped]
    rcases exists_of_lowEscape escaped with ⟨g0, g1, g2, g3, rest, equal, lowQuad, isLow⟩
    subst equal
    exact ⟨[backslash, letterU, h0, h1, h2, h3, backslash, letterU, g0, g1, g2, g3], rfl,
      fun body text rest _ spelled => .surrogates quad alone.1 lowQuad isLow spelled⟩

theorem stringBody_of_parseCharacter {next : Bytes} (unclosed : input.head? ≠ some quote)
    (character : parseCharacter input = .ok (chunk, next)) : ∃ front, input = front ++ next ∧
      ∀ body text rest, next = body ++ quote :: rest → StringBody body text →
        StringBody (front ++ body) (chunk ++ text) := by
  rw [parseCharacter.eq_def] at character
  split at character
  · exact nomatch character
  · next byte rest =>
    split at character
    · next escaped =>
      split at character
      · exact nomatch character
      · next letter rest =>
        split at character
        · next decoded known =>
          cases character
          exact ⟨[byte, letter], rfl, fun body text rest _ spelled =>
            escaped ▸ .escape known spelled⟩
        · split at character
          · next isUnicode =>
            split at character
            · next h0 h1 h2 h3 rest =>
              split at character
              · exact nomatch character
              · next unit quad =>
                cases character
                subst escaped isUnicode
                exact stringBody_joinUnit quad rest
            · exact nomatch character
          · exact nomatch character
    · next notBackslash =>
      split at character
      · exact nomatch character
      · next printable =>
        cases character
        refine ⟨[byte], rfl, fun body text rest _ spelled => ?_⟩
        exact .plain (fun equal => unclosed (by rw [equal]; rfl)) notBackslash printable
          spelled

theorem stringBody_of_parseStringBody {fuel : Nat} {out result : Bytes}
    (parsed : parseStringBody fuel out input = .ok (result, rest)) :
    ∃ body text, StringBody body text ∧ result = out ++ text ∧ input = body ++ quote :: rest := by
  induction fuel generalizing out input with
  | zero => exact nomatch parsed
  | succ fuel induction =>
    rw [parseStringBody] at parsed
    split at parsed
    · next closed =>
      cases parsed
      rcases input with _ | ⟨byte, input⟩
      · exact nomatch closed
      · refine ⟨[], [], .nil, (List.append_nil _).symm, ?_⟩
        rw [Option.some.inj closed]
        rfl
    · next unclosed =>
      split at parsed
      · exact nomatch parsed
      · next chunk next character =>
        split at parsed
        · exact nomatch parsed
        · next longer appended =>
          rcases induction parsed with ⟨body, text, spelled, equal, split⟩
          rcases stringBody_of_parseCharacter unclosed character with
            ⟨front, inputEq, extend⟩
          refine ⟨front ++ body, chunk ++ text, extend body text rest split spelled, ?_, ?_⟩
          · rw [equal, (bufAppend_eq_ok.mp appended).2, List.append_assoc]
          · rw [inputEq, split, List.append_assoc]

theorem stringBody_of_parseString (parsed : parseString input = .ok (text, rest)) :
    ∃ body, StringBody body text ∧ input = body ++ quote :: rest := by
  rcases stringBody_of_parseStringBody parsed with ⟨body, decoded, spelled, equal, split⟩
  rw [List.nil_append] at equal
  exact ⟨body, equal ▸ spelled, split⟩

def isNumberByte (byte : UInt8) : Bool :=
  isDigit byte || byte == dot || isExponentMark byte

theorem takeDigits_append {digits rest : Bytes} (all : AllIn isDigit digits)
    (stops : StopsAt isDigit rest) : takeDigits (digits ++ rest) = (digits, rest) := by
  rw [takeDigits, takeWhile_append_of_stop all stops, dropWhile_append_of_stop all stops]

theorem takeMinus_append {parts : NumberParts} (unsigned : rest.head? ≠ some minus) :
    takeMinus (parts.signText ++ rest) = (parts.signText, rest) := by
  rw [NumberParts.signText]
  split
  · rfl
  · exact if_neg unsigned

theorem ne_minus_of_isDigit (digit : isDigit byte = true) : byte ≠ minus := by
  intro equal
  rw [equal] at digit
  exact nomatch digit

theorem eq_of_isExponentMark (mark : isExponentMark byte = true) : byte = 101 ∨ byte = 69 := by
  simpa [isExponentMark] using mark

theorem isNumberByte_eq_false : isNumberByte byte = false ↔
      isDigit byte = false ∧ byte ≠ dot ∧ isExponentMark byte = false := by
  simp [isNumberByte, and_assoc]

namespace NumberParts

variable {parts : NumberParts} {rest : Bytes}

theorem Valid.integer_unsigned (valid : parts.Valid) (rest : Bytes) :
    (parts.integer ++ rest).head? ≠ some minus := by
  rcases list : parts.integer with _ | ⟨first, others⟩
  · exact absurd list valid.integer.ne_nil
  · intro equal
    have digit := valid.integerDigits first (list ▸ List.mem_cons_self ..)
    exact ne_minus_of_isDigit digit (Option.some.inj equal)

theorem Valid.exponentText_stops (valid : parts.Valid) (stops : StopsAt isNumberByte rest)
    (byte : UInt8) (first : (parts.exponentText ++ rest).head? = some byte) :
    isDigit byte = false ∧ byte ≠ dot := by
  rw [exponentText] at first
  split at first
  · have outside := isNumberByte_eq_false.mp (stops byte first)
    exact ⟨outside.1, outside.2.1⟩
  · rw [List.cons_append, List.head?_cons, Option.some.injEq] at first
    rcases eq_of_isExponentMark valid.mark with lower | upper
    · rw [← first, lower]
      decide
    · rw [← first, upper]
      decide

theorem Valid.fractionText_stops (valid : parts.Valid) (stops : StopsAt isNumberByte rest) :
    StopsAt isDigit (parts.fractionText ++ (parts.exponentText ++ rest)) := by
  intro byte first
  rw [fractionText] at first
  split at first
  · exact (valid.exponentText_stops stops byte first).1
  · rw [List.cons_append, List.head?_cons, Option.some.injEq] at first
    rw [← first]
    rfl

theorem Valid.takeInteger_append (valid : parts.Valid) (stops : StopsAt isDigit rest) :
    takeInteger (parts.integer ++ rest) = .ok (parts.integer, rest) := by
  rcases valid.integer with equal | ⟨first, others, equal, nonzero⟩
  · rw [equal]
    rfl
  · have digits := valid.integerDigits
    rw [equal] at digits ⊢
    rw [List.cons_append, takeInteger, if_neg nonzero, if_pos (allIn_cons.mp digits).1,
      ← List.cons_append, takeDigits_append digits stops]

theorem head?_any_isDigit {digits : Bytes} (all : AllIn isDigit digits) (nonempty : digits ≠ [])
    (rest : Bytes) : (digits ++ rest).head?.any isDigit = true := by
  rcases digits with _ | ⟨first, others⟩
  · exact absurd rfl nonempty
  · exact (allIn_cons.mp all).1

theorem Valid.takeFraction_append (valid : parts.Valid)
    (stops : ∀ byte, rest.head? = some byte → isDigit byte = false ∧ byte ≠ dot) :
    takeFraction (parts.fractionText ++ rest) = .ok (parts.fractionText, rest) := by
  rw [fractionText, takeFraction]
  split
  · next absent =>
    rw [List.nil_append, if_neg fun equal => (stops dot equal).2 rfl]
  · next present =>
    rw [List.cons_append, List.head?_cons, if_pos rfl, List.tail_cons,
      head?_any_isDigit valid.fractionDigits present,
      takeDigits_append valid.fractionDigits fun byte first => (stops byte first).1]
    rfl

theorem Valid.takeExponentSign_append (valid : parts.Valid) (present : parts.exponent ≠ []) :
    takeExponentSign (parts.exponentSign ++ (parts.exponent ++ rest)) =
      (parts.exponentSign, parts.exponent ++ rest) := by
  rcases valid.exponentSign with none | positive | negative
  · rcases list : parts.exponent with _ | ⟨first, others⟩
    · exact absurd list present
    · have digit := valid.exponentDigits first (list ▸ List.mem_cons_self ..)
      rw [none, List.nil_append, List.cons_append, takeExponentSign, if_neg]
      intro signed
      rcases signed with equal | equal <;> rw [equal] at digit <;> exact nomatch digit
  · rw [positive]
    rfl
  · rw [negative]
    rfl

theorem Valid.takeExponent_append (valid : parts.Valid) (stops : StopsAt isNumberByte rest) :
    takeExponent (parts.exponentText ++ rest) = .ok (parts.exponentText, rest) := by
  have stopsDigit : StopsAt isDigit rest := fun byte first =>
    (isNumberByte_eq_false.mp (stops byte first)).1
  rw [exponentText]
  split
  · rcases rest with _ | ⟨byte, rest⟩
    · rfl
    · rw [List.nil_append, takeExponent,
        (isNumberByte_eq_false.mp (stops byte rfl)).2.2]
      rfl
  · next present =>
    rw [List.cons_append, List.append_assoc, takeExponent, if_pos valid.mark,
      valid.takeExponentSign_append present]
    simp only [head?_any_isDigit valid.exponentDigits present,
      takeDigits_append valid.exponentDigits stopsDigit, if_true]

theorem Valid.parseNumberToken_append (valid : parts.Valid) (stops : StopsAt isNumberByte rest) :
    parseNumberToken (parts.text ++ rest) = .ok (parts.text, rest) := by
  simp only [parseNumberToken, text, List.append_assoc,
    takeMinus_append (valid.integer_unsigned _),
    valid.takeInteger_append (valid.fractionText_stops stops),
    valid.takeFraction_append (valid.exponentText_stops stops), valid.takeExponent_append stops]

end NumberParts

theorem takeMinus_eq (input : Bytes) :
    ∃ negative : Bool, (takeMinus input).1 = (if negative then [minus] else []) ∧
      input = (takeMinus input).1 ++ (takeMinus input).2 := by
  rw [takeMinus]
  split
  · next signed =>
    rcases input with _ | ⟨byte, rest⟩
    · exact nomatch signed
    · cases signed
      exact ⟨true, rfl, rfl⟩
  · exact ⟨false, rfl, rfl⟩

theorem append_of_takeDigits (input : Bytes) :
    input = (takeDigits input).1 ++ (takeDigits input).2 :=
  List.takeWhile_append_dropWhile.symm

theorem takeDigits_ne_nil (some : input.head?.any isDigit = true) : (takeDigits input).1 ≠ [] := by
  rcases input with _ | ⟨byte, rest⟩
  · exact nomatch some
  · have digit : isDigit byte = true := some
    rw [takeDigits, List.takeWhile_cons, if_pos digit]
    exact nofun

theorem integer_of_takeInteger {integer : Bytes} (taken : takeInteger input = .ok (integer, rest)) :
    NoLeadingZero integer ∧ AllIn isDigit integer ∧ input = integer ++ rest := by
  rw [takeInteger.eq_def] at taken
  split at taken
  · cases taken
  · next byte others =>
    split at taken
    · next isZero =>
      cases taken
      exact ⟨.inl rfl, by simp [AllIn, isDigit, zeroDigit], by rw [isZero]; rfl⟩
    · next nonzero =>
      split at taken
      · next digit =>
        cases taken
        refine ⟨.inr ⟨byte, others.takeWhile isDigit, ?_, nonzero⟩,
          allIn_takeWhile isDigit _, append_of_takeDigits _⟩
        rw [List.takeWhile_cons, if_pos digit]
      · cases taken

theorem fraction_of_takeFraction {fraction : Bytes}
    (taken : takeFraction input = .ok (fraction, rest)) :
    ∃ digits, AllIn isDigit digits ∧ fraction = (if digits = [] then [] else dot :: digits) ∧
      input = fraction ++ rest := by
  rw [takeFraction] at taken
  split at taken
  · next dotted =>
    split at taken
    · next digit =>
      cases taken
      refine ⟨_, allIn_takeWhile isDigit _, (if_neg (takeDigits_ne_nil digit)).symm, ?_⟩
      rcases input with _ | ⟨byte, others⟩
      · exact nomatch dotted
      · cases dotted
        exact congrArg (dot :: ·) (append_of_takeDigits others)
    · exact nomatch taken
  · cases taken
    exact ⟨[], allIn_nil _, rfl, rfl⟩

theorem takeExponentSign_eq (input : Bytes) :
    ((takeExponentSign input).1 = [] ∨ (takeExponentSign input).1 = [plus] ∨
        (takeExponentSign input).1 = [minus]) ∧
      input = (takeExponentSign input).1 ++ (takeExponentSign input).2 := by
  rw [takeExponentSign.eq_def]
  split
  · exact ⟨.inl rfl, rfl⟩
  · next byte rest =>
    split
    · next signed =>
      rcases signed with equal | equal <;> simp [equal]
    · exact ⟨.inl rfl, rfl⟩

theorem exponent_of_takeExponent {exponent : Bytes}
    (taken : takeExponent input = .ok (exponent, rest)) :
    ∃ mark sign digits, isExponentMark mark = true ∧
      (sign = [] ∨ sign = [plus] ∨ sign = [minus]) ∧ AllIn isDigit digits ∧
      exponent = (if digits = [] then [] else mark :: (sign ++ digits)) ∧
      input = exponent ++ rest := by
  rw [takeExponent.eq_def] at taken
  split at taken
  · cases taken
    exact ⟨101, [], [], rfl, .inl rfl, allIn_nil _, rfl, rfl⟩
  · next byte others =>
    split at taken
    · next mark =>
      have sign := takeExponentSign_eq others
      simp only at taken
      split at taken
      · next digit =>
        cases taken
        refine ⟨byte, _, _, mark, sign.1, allIn_takeWhile isDigit _,
          (if_neg (takeDigits_ne_nil digit)).symm, ?_⟩
        rw [List.cons_append, List.append_assoc, ← append_of_takeDigits, ← sign.2]
      · exact nomatch taken
    · cases taken
      exact ⟨101, [], [], rfl, .inl rfl, allIn_nil _, rfl, rfl⟩

theorem isNumber_of_parseNumberToken {token : Bytes}
    (parsed : parseNumberToken input = .ok (token, rest)) :
    IsNumber token ∧ input = token ++ rest := by
  rcases takeMinus_eq input with ⟨negative, sign, inputEq⟩
  simp only [parseNumberToken] at parsed
  split at parsed
  · exact nomatch parsed
  · next integer afterInteger integerTaken =>
    split at parsed
    · exact nomatch parsed
    · next fraction afterFraction fractionTaken =>
      split at parsed
      · exact nomatch parsed
      · next exponent afterExponent exponentTaken =>
        cases parsed
        rcases integer_of_takeInteger integerTaken with ⟨shape, digits, integerEq⟩
        rcases fraction_of_takeFraction fractionTaken with
          ⟨fractionDigits, allFraction, fractionText, fractionEq⟩
        rcases exponent_of_takeExponent exponentTaken with
          ⟨mark, exponentSign, exponentDigits, isMark, signs, allExponent, exponentText,
            exponentEq⟩
        refine ⟨⟨⟨negative, integer, fractionDigits, mark, exponentSign, exponentDigits⟩,
          ⟨shape, digits, allFraction, isMark, signs, allExponent⟩, ?_⟩, ?_⟩
        · rw [sign, fractionText, exponentText]
          rfl
        · rw [exponentEq] at fractionEq
          rw [fractionEq] at integerEq
          rw [integerEq] at inputEq
          simpa only [List.append_assoc] using inputEq

end AgentC.Json

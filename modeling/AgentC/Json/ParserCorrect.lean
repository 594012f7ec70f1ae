import AgentC.Json.TokenParsing

/-! # The parser and the grammar

The parser accepts a text exactly when the grammar spells a tree by it, with
strings that fit into the parser's buffers, and returns that tree. -/

namespace AgentC.Json

/-! ## First bytes -/

def startsNumber (byte : UInt8) : Bool :=
  byte == minus || isDigit byte

theorem first_of_isNumber {token : Bytes} (number : IsNumber token) :
    ∃ first others, token = first :: others ∧ startsNumber first = true := by
  rcases number with ⟨parts, valid, equal⟩
  rcases list : parts.integer with _ | ⟨first, others⟩
  · exact absurd list valid.integer.ne_nil
  · have digit := valid.integerDigits first (list ▸ List.mem_cons_self ..)
    rw [NumberParts.text, NumberParts.signText, list] at equal
    split at equal
    · exact ⟨_, _, equal, rfl⟩
    · exact ⟨_, _, equal, by simp [startsNumber, digit]⟩

/-- The bytes that do not end white space or a container. -/
def startsValue (byte : UInt8) : Bool :=
  !isWhite byte && byte != closeBracket && byte != closeBrace

variable {first byte : UInt8} {tree : Tree} {text rest : Bytes} {fuel : Nat} {before input : Bytes}

variable {members : List (Bytes × Tree)}

theorem ne_of_numberStart (starts : startsNumber first = true) (other : startsNumber byte = false) :
    first ≠ byte := by
  intro equal
  rw [equal, other] at starts
  exact nomatch starts

theorem startsValue_of_numberStart (starts : startsNumber first = true) :
    startsValue first = true := by
  have notBracket : first ≠ closeBracket := ne_of_numberStart starts rfl
  have notBrace : first ≠ closeBrace := ne_of_numberStart starts rfl
  have notWhite : isWhite first = false := by
    simp only [isWhite, Bool.or_eq_false_iff, beq_eq_false_iff_ne]
    exact ⟨⟨⟨ne_of_numberStart starts rfl, ne_of_numberStart starts rfl⟩,
      ne_of_numberStart starts rfl⟩, ne_of_numberStart starts rfl⟩
  simp [startsValue, notWhite, notBracket, notBrace]

theorem first_of_spells (spelled : Spells tree text) :
    ∃ first others, text = first :: others ∧ startsValue first = true := by
  rcases tree with _ | value | token | decoded | items | members <;> rw [Spells] at spelled
  · exact ⟨_, _, spelled, rfl⟩
  · cases value
    · exact ⟨_, _, spelled, rfl⟩
    · exact ⟨_, _, spelled, rfl⟩
  · rcases first_of_isNumber spelled.1 with ⟨first, others, equal, start⟩
    exact ⟨first, others, spelled.2.trans equal, startsValue_of_numberStart start⟩
  · rcases spelled with ⟨body, _, equal⟩
    exact ⟨_, _, equal, rfl⟩
  · rcases spelled with ⟨inside, _, equal⟩
    exact ⟨_, _, equal, rfl⟩
  · rcases spelled with ⟨inside, _, equal⟩
    exact ⟨_, _, equal, rfl⟩

theorem stopsAt_of_spells (spelled : Spells tree text) (rest : Bytes) :
    StopsAt isWhite (text ++ rest) := by
  rcases first_of_spells spelled with ⟨first, others, equal, starts⟩
  rw [equal, List.cons_append, stopsAt_cons]
  simp only [startsValue, Bool.and_eq_true, Bool.not_eq_true'] at starts
  exact starts.1.1

/-! ## Every spelled text is parsed -/

theorem skipWs_skipWs (input : Bytes) : skipWs (skipWs input) = skipWs input :=
  skipWs_of_stop (stopsAt_skipWs input)

theorem parseValue_skipWs (fuel : Nat) (input : Bytes) :
    parseValue fuel (skipWs input) = parseValue fuel input := by
  cases fuel with
  | zero => rfl
  | succ fuel => rw [parseValue, parseValue, skipWs_skipWs]

theorem parseLiteral_append (literal : Bytes) (tree : Tree) (rest : Bytes) :
    parseLiteral literal tree (literal ++ rest) = .ok (tree, rest) := by
  rw [parseLiteral, List.take_left, if_pos rfl, List.drop_left]

theorem parseScalar_of_number {token others : Bytes} (number : IsNumber token)
    (starts : startsNumber first = true) (equal : token ++ rest = first :: others)
    (stops : StopsAt isNumberByte rest) :
    parseScalar first (first :: others) = .ok (.number token, rest) := by
  rcases number with ⟨parts, valid, isText⟩
  have parsed : parseNumberToken (first :: others) = .ok (token, rest) := by
    rw [← equal, isText, valid.parseNumberToken_append stops]
  rw [parseScalar, if_neg (ne_of_numberStart starts rfl), if_neg (ne_of_numberStart starts rfl),
    if_neg (ne_of_numberStart starts rfl), if_pos (by simpa [startsNumber] using starts), parsed]

def Completes (tree : Tree) : Prop :=
  ∀ (text : Bytes) (fuel : Nat) (rest : Bytes), Spells tree text → text.length < fuel →
    StopsAt isNumberByte rest → Yields (parseValue fuel (text ++ rest)) tree.StringsFit (tree, rest)

theorem parseValue_of_first {others : Bytes} (starts : startsValue first = true)
    (notQuote : first ≠ quote) (notBrace : first ≠ openBrace) (notBracket : first ≠ openBracket) :
    parseValue (fuel + 1) (first :: others) = parseScalar first (first :: others) := by
  simp only [startsValue, Bool.and_eq_true, Bool.not_eq_true'] at starts
  rw [parseValue, skipWs_of_stop (stopsAt_cons.mpr starts.1.1)]
  simp only [if_neg notQuote, if_neg notBrace, if_neg notBracket]

theorem parseValue_quote (fuel : Nat) (rest : Bytes) :
    parseValue (fuel + 1) (quote :: rest) =
      match parseString rest with
      | .error failure => .error failure
      | .ok (text, rest) => .ok (.string text, rest) := by
  rw [parseValue, skipWs_of_stop (stopsAt_cons.mpr rfl)]
  rfl

theorem parseValue_openBracket (fuel : Nat) (rest : Bytes) :
    parseValue (fuel + 1) (openBracket :: rest) =
      if (skipWs rest).head? = some closeBracket then .ok (.array [], (skipWs rest).tail)
      else parseItems fuel [] rest := by
  rw [parseValue, skipWs_of_stop (stopsAt_cons.mpr rfl)]
  rfl

theorem parseValue_openBrace (fuel : Nat) (rest : Bytes) :
    parseValue (fuel + 1) (openBrace :: rest) =
      if (skipWs rest).head? = some closeBrace then .ok (.object [], (skipWs rest).tail)
      else parseMembers fuel [] rest := by
  rw [parseValue, skipWs_of_stop (stopsAt_cons.mpr rfl)]
  rfl

theorem completes_null : Completes .null := by
  intro text fuel rest spelled enough stops
  rcases fuel with _ | fuel
  · omega
  · rw [Spells] at spelled
    rw [spelled]
    exact .inl ⟨trivial, parseLiteral_append literalNull .null rest⟩

theorem completes_bool (value : Bool) : Completes (.bool value) := by
  intro text fuel rest spelled enough stops
  rcases fuel with _ | fuel
  · omega
  · rw [Spells] at spelled
    rw [spelled]
    cases value
    · exact .inl ⟨trivial, parseLiteral_append literalFalse (.bool false) rest⟩
    · exact .inl ⟨trivial, parseLiteral_append literalTrue (.bool true) rest⟩

theorem completes_number (token : Bytes) : Completes (.number token) := by
  intro text fuel rest spelled enough stops
  rcases fuel with _ | fuel
  · omega
  · rw [Spells] at spelled
    rcases first_of_isNumber spelled.1 with ⟨first, others, equal, start⟩
    have parsed := parseScalar_of_number spelled.1 start
      (show token ++ rest = first :: (others ++ rest) by rw [equal]; rfl) stops
    refine .inl ⟨trivial, ?_⟩
    rw [spelled.2, equal, List.cons_append, parseValue_of_first (startsValue_of_numberStart start)
      (ne_of_numberStart start rfl) (ne_of_numberStart start rfl) (ne_of_numberStart start rfl),
      parsed, equal]

theorem completes_string (decoded : Bytes) : Completes (.string decoded) := by
  intro text fuel rest spelled enough stops
  rcases fuel with _ | fuel
  · omega
  · rw [Spells] at spelled
    rcases spelled with ⟨body, bodySpelled, equal⟩
    rw [equal, List.cons_append, List.append_assoc, List.singleton_append, parseValue_quote]
    rcases yields_parseString bodySpelled rest with success | failed
    · rw [success.2]
      exact .inl ⟨success.1, rfl⟩
    · rcases failed.2 with ⟨failure, failing⟩
      rw [failing]
      exact .inr ⟨failed.1, failure, rfl⟩

/-! ### Items -/

theorem not_numberByte_of_white (white : isWhite byte = true) : isNumberByte byte = false := by
  simp only [isWhite, Bool.or_eq_true, beq_iff_eq] at white
  rcases white with ((equal | equal) | equal) | equal <;> rw [equal] <;> rfl

theorem stopsAt_white_append {after tail : Bytes} (white : White after)
    (stops : StopsAt isNumberByte tail) : StopsAt isNumberByte (after ++ tail) := by
  rcases after with _ | ⟨byte, after⟩
  · exact stops
  · exact stopsAt_cons.mpr (not_numberByte_of_white (allIn_cons.mp white).1)

theorem skipWs_value {tail : Bytes} (white : White before) (spelled : Spells tree text) :
    skipWs (before ++ (text ++ tail)) = text ++ tail :=
  skipWs_append white (stopsAt_of_spells spelled tail)

theorem yields_parseItems_step {fuel : Nat} {items : List Tree} {item : Tree}
    {before text after tail : Bytes} {byte : UInt8} {fits : Prop} {expected : Tree × Bytes}
    (complete : Completes item) (whiteBefore : White before) (spelled : Spells item text)
    (enough : text.length < fuel) (whiteAfter : White after) (notWhite : isWhite byte = false)
    (notNumber : isNumberByte byte = false)
    (later : Yields
      (if byte = comma then parseItems fuel (items ++ [item]) tail
        else if byte = closeBracket then .ok (.array (items ++ [item]), tail)
        else .error (.invalid "expected , or ] in array")) fits expected) :
    Yields (parseItems (fuel + 1) items (before ++ (text ++ (after ++ byte :: tail))))
      (item.StringsFit ∧ fits) expected := by
  have stops : StopsAt isNumberByte (after ++ byte :: tail) :=
    stopsAt_white_append whiteAfter (stopsAt_cons.mpr notNumber)
  rw [parseItems, skipWs_value whiteBefore spelled]
  rcases complete text fuel (after ++ byte :: tail) spelled enough stops with success | failed
  · rw [success.2]
    simp only [skipWs_append whiteAfter (stopsAt_cons.mpr notWhite), List.head?_cons,
      List.tail_cons, Option.some.injEq]
    exact later.congr ⟨fun fitting => ⟨success.1, fitting⟩, fun fitting => fitting.2⟩
  · rcases failed.2 with ⟨failure, failing⟩
    rw [failing]
    exact .inr ⟨fun fitting => failed.1 fitting.1, failure, rfl⟩

theorem yields_parseItems {items : List Tree} (complete : ∀ item ∈ items, Completes item)
    (nonempty : items ≠ []) {inside : Bytes} {parsed : List Tree} (rest : Bytes)
    (spelled : SpellsItems items inside) (enough : inside.length + 1 < fuel) :
    Yields (parseItems fuel parsed (inside ++ closeBracket :: rest)) (StringsFitItems items)
      (.array (parsed ++ items), rest) := by
  induction items generalizing inside fuel parsed with
  | nil => exact absurd rfl nonempty
  | cons item others induction =>
    rcases fuel with _ | fuel
    · omega
    rw [SpellsItems] at spelled
    rcases spelled with ⟨before, text, after, whiteBefore, spelled, whiteAfter, more⟩
    have completeItem := complete item (List.mem_cons_self ..)
    rcases more with ⟨last, equal⟩ | ⟨notLast, more, spelledMore, equal⟩
    · subst last equal
      simp only [List.length_append] at enough
      simp only [List.append_assoc]
      apply yields_parseItems_step completeItem whiteBefore spelled (by omega) whiteAfter rfl rfl
      exact .inl ⟨trivial, rfl⟩
    · subst equal
      simp only [List.length_append, List.length_cons] at enough
      simp only [List.append_assoc, List.cons_append]
      apply yields_parseItems_step completeItem whiteBefore spelled (by omega) whiteAfter rfl rfl
      rw [if_pos rfl, List.append_cons parsed item others]
      exact induction (fun other member => complete other (List.mem_cons_of_mem _ member))
        notLast spelledMore (by omega)

theorem unclosed_of_spells (white : White before) (spelled : Spells tree text) (rest : Bytes) :
    (skipWs (before ++ (text ++ rest))).head? ≠ some closeBracket := by
  rw [skipWs_value white spelled]
  rcases first_of_spells spelled with ⟨first, others, equal, starts⟩
  rw [equal, List.cons_append, List.head?_cons, Ne, Option.some.injEq]
  intro closed
  rw [closed] at starts
  exact nomatch starts

theorem completes_array {items : List Tree} (complete : ∀ item ∈ items, Completes item) :
    Completes (.array items) := by
  intro text fuel rest spelled enough stops
  rcases fuel with _ | fuel
  · omega
  rw [Spells] at spelled
  rcases spelled with ⟨inside, spelledInside, equal⟩
  subst equal
  simp only [List.length_cons, List.length_append, List.length_nil] at enough
  rw [List.cons_append, List.append_assoc, List.singleton_append, parseValue_openBracket]
  rcases items with _ | ⟨item, others⟩
  · rw [SpellsItems] at spelledInside
    rw [skipWs_append spelledInside (stopsAt_cons.mpr rfl)]
    exact .inl ⟨trivial, rfl⟩
  · rw [if_neg, ← List.nil_append (item :: others)]
    · exact yields_parseItems complete nofun rest spelledInside (by omega)
    · rw [SpellsItems] at spelledInside
      rcases spelledInside with ⟨before, text, after, white, spelled, _, more⟩
      rcases more with ⟨_, equal⟩ | ⟨_, more, _, equal⟩ <;>
        · rw [equal]
          simp only [List.append_assoc]
          exact unclosed_of_spells white spelled _

theorem yields_parseKey {key name beforeColon : Bytes} (whiteBefore : White before)
    (spelled : SpellsString key name) (whiteColon : White beforeColon) (rest : Bytes) :
    Yields (parseKey (before ++ (name ++ (beforeColon ++ colon :: rest))))
      (key.length ≤ bufferLimit) (key, rest) := by
  rcases spelled with ⟨body, spelled, equal⟩
  subst equal
  rw [parseKey, List.cons_append, skipWs_append whiteBefore (stopsAt_cons.mpr rfl),
    List.append_assoc, List.singleton_append]
  simp only [if_true]
  rcases yields_parseString spelled (beforeColon ++ colon :: rest) with success | failed
  · rw [success.2]
    simp only [skipWs_append whiteColon (stopsAt_cons.mpr (rfl : isWhite colon = false)),
      List.head?_cons, List.tail_cons, if_true]
    exact .inl ⟨success.1, rfl⟩
  · rcases failed.2 with ⟨failure, failing⟩
    rw [failing]
    exact .inr ⟨failed.1, failure, rfl⟩

theorem yields_parseMembers_step {fuel : Nat} {members : List (Bytes × Tree)} {key : Bytes}
    {value : Tree} {before name beforeColon afterColon text after tail : Bytes} {byte : UInt8}
    {fits : Prop} {expected : Tree × Bytes} (complete : Completes value)
    (whiteBefore : White before) (spelledKey : SpellsString key name)
    (whiteColon : White beforeColon) (whiteValue : White afterColon) (spelled : Spells value text)
    (enough : text.length < fuel) (whiteAfter : White after) (notWhite : isWhite byte = false)
    (notNumber : isNumberByte byte = false)
    (later : Yields
      (if byte = comma then parseMembers fuel (members ++ [(key, value)]) tail
        else if byte = closeBrace then .ok (.object (members ++ [(key, value)]), tail)
        else .error (.invalid "expected , or \x7d in object")) fits expected) :
    Yields (parseMembers (fuel + 1) members (before ++ (name ++ (beforeColon ++
        colon :: (afterColon ++ (text ++ (after ++ byte :: tail)))))))
      (key.length ≤ bufferLimit ∧ value.StringsFit ∧ fits) expected := by
  have stops : StopsAt isNumberByte (after ++ byte :: tail) :=
    stopsAt_white_append whiteAfter (stopsAt_cons.mpr notNumber)
  rw [parseMembers]
  rcases yields_parseKey whiteBefore spelledKey whiteColon
    (afterColon ++ (text ++ (after ++ byte :: tail))) with keyRead | keyFailed
  · rw [keyRead.2]
    simp only [skipWs_value whiteValue spelled]
    rcases complete text fuel (after ++ byte :: tail) spelled enough stops with success | failed
    · rw [success.2]
      simp only [skipWs_append whiteAfter (stopsAt_cons.mpr notWhite), List.head?_cons,
        List.tail_cons, Option.some.injEq]
      exact later.congr ⟨fun fitting => ⟨keyRead.1, success.1, fitting⟩,
        fun fitting => fitting.2.2⟩
    · rcases failed.2 with ⟨failure, failing⟩
      rw [failing]
      exact .inr ⟨fun fitting => failed.1 fitting.2.1, failure, rfl⟩
  · rcases keyFailed.2 with ⟨failure, failing⟩
    rw [failing]
    exact .inr ⟨fun fitting => keyFailed.1 fitting.1, failure, rfl⟩

theorem yields_parseMembers (complete : ∀ member ∈ members, Completes member.2)
    (nonempty : members ≠ []) {inside : Bytes} {parsed : List (Bytes × Tree)} (rest : Bytes)
    (spelled : SpellsMembers members inside) (enough : inside.length + 1 < fuel) :
    Yields (parseMembers fuel parsed (inside ++ closeBrace :: rest)) (StringsFitMembers members)
      (.object (parsed ++ members), rest) := by
  induction members generalizing inside fuel parsed with
  | nil => exact absurd rfl nonempty
  | cons member others induction =>
    rcases member with ⟨key, value⟩
    rcases fuel with _ | fuel
    · omega
    rw [SpellsMembers] at spelled
    rcases spelled with ⟨before, name, beforeColon, afterColon, text, after, whiteBefore,
      spelledKey, whiteColon, whiteValue, spelled, whiteAfter, more⟩
    have completeValue := complete (key, value) (List.mem_cons_self ..)
    rcases more with ⟨last, equal⟩ | ⟨notLast, more, spelledMore, equal⟩
    · subst last equal
      simp only [List.length_append, List.length_cons] at enough
      simp only [List.append_assoc, List.cons_append]
      apply yields_parseMembers_step completeValue whiteBefore spelledKey whiteColon whiteValue
        spelled (by omega) whiteAfter rfl rfl
      exact .inl ⟨trivial, rfl⟩
    · subst equal
      simp only [List.length_append, List.length_cons] at enough
      simp only [List.append_assoc, List.cons_append]
      apply yields_parseMembers_step completeValue whiteBefore spelledKey whiteColon whiteValue
        spelled (by omega) whiteAfter rfl rfl
      rw [if_pos rfl, List.append_cons parsed (key, value) others]
      exact induction (fun other member => complete other (List.mem_cons_of_mem _ member))
        notLast spelledMore (by omega)

theorem completes_object (complete : ∀ member ∈ members, Completes member.2) :
    Completes (.object members) := by
  intro text fuel rest spelled enough stops
  rcases fuel with _ | fuel
  · omega
  rw [Spells] at spelled
  rcases spelled with ⟨inside, spelledInside, equal⟩
  subst equal
  simp only [List.length_cons, List.length_append, List.length_nil] at enough
  rw [List.cons_append, List.append_assoc, List.singleton_append, parseValue_openBrace]
  rcases members with _ | ⟨member, others⟩
  · rw [SpellsMembers] at spelledInside
    rw [skipWs_append spelledInside (stopsAt_cons.mpr rfl)]
    exact .inl ⟨trivial, rfl⟩
  · rw [if_neg, ← List.nil_append (member :: others)]
    · exact yields_parseMembers complete nofun rest spelledInside (by omega)
    · rcases member with ⟨key, value⟩
      rw [SpellsMembers] at spelledInside
      rcases spelledInside with ⟨before, name, beforeColon, afterColon, text, after, white,
        ⟨body, _, quoted⟩, _, _, _, _, more⟩
      rcases more with ⟨_, equal⟩ | ⟨_, more, _, equal⟩ <;>
        · rw [equal, quoted]
          simp only [List.append_assoc, List.cons_append]
          rw [skipWs_append white (stopsAt_cons.mpr rfl)]
          exact fun closed => nomatch closed

theorem completes (tree : Tree) : Completes tree := by
  induction tree using Tree.inductionOn with
  | null => exact completes_null
  | bool value => exact completes_bool value
  | number token => exact completes_number token
  | string decoded => exact completes_string decoded
  | array items induction => exact completes_array induction
  | object members induction => exact completes_object induction

/-! ## Every parsed text is spelled -/

theorem exists_of_head? (first : (skipWs input).head? = some byte) :
    ∃ before, White before ∧ input = before ++ byte :: (skipWs input).tail := by
  rcases exists_skipWs input with ⟨before, white, equal⟩
  rw [List.eq_cons_of_mem_head? first] at equal
  exact ⟨before, white, equal⟩

theorem spells_of_parseLiteral {literal : Bytes} {result : Tree}
    (parsed : parseLiteral literal tree input = .ok (result, rest)) :
    result = tree ∧ input = literal ++ rest := by
  rw [parseLiteral] at parsed
  split at parsed
  · next front =>
    cases parsed
    have whole := (List.take_append_drop literal.length input).symm
    rw [front] at whole
    exact ⟨rfl, whole⟩
  · exact nomatch parsed

theorem spells_of_parseScalar (parsed : parseScalar byte input = .ok (tree, rest)) :
    ∃ text, Spells tree text ∧ input = text ++ rest := by
  rw [parseScalar] at parsed
  split at parsed
  · rcases spells_of_parseLiteral parsed with ⟨isTrue, equal⟩
    exact ⟨literalTrue, by rw [isTrue, Spells]; rfl, equal⟩
  · split at parsed
    · rcases spells_of_parseLiteral parsed with ⟨isFalse, equal⟩
      exact ⟨literalFalse, by rw [isFalse, Spells]; rfl, equal⟩
    · split at parsed
      · rcases spells_of_parseLiteral parsed with ⟨isNull, equal⟩
        exact ⟨literalNull, by rw [isNull, Spells], equal⟩
      · split at parsed
        · split at parsed
          · exact nomatch parsed
          · next token rest numberParsed =>
            cases parsed
            rcases isNumber_of_parseNumberToken numberParsed with ⟨number, equal⟩
            exact ⟨token, by rw [Spells]; exact ⟨number, rfl⟩, equal⟩
        · exact nomatch parsed

theorem spells_of_parseKey {key : Bytes} (parsed : parseKey input = .ok (key, rest)) :
    ∃ before name beforeColon, White before ∧ SpellsString key name ∧ White beforeColon ∧
      input = before ++ name ++ beforeColon ++ colon :: rest := by
  rw [parseKey] at parsed
  split at parsed
  · exact nomatch parsed
  · next byte afterQuote skipped =>
    split at parsed
    · next quoted =>
      split at parsed
      · exact nomatch parsed
      · next text afterString stringParsed =>
        split at parsed
        · next colonFollows =>
          cases parsed
          rcases exists_skipWs input with ⟨before, white, inputEq⟩
          rcases stringBody_of_parseString stringParsed with ⟨body, spelled, bodyEq⟩
          rcases exists_of_head? colonFollows with ⟨beforeColon, whiteColon, colonEq⟩
          refine ⟨before, quote :: (body ++ [quote]), beforeColon, white,
            ⟨body, spelled, rfl⟩, whiteColon, ?_⟩
          rw [skipped, quoted, bodyEq, colonEq] at inputEq
          simpa using inputEq
        · exact nomatch parsed
    · exact nomatch parsed

/-- What a successful call with this much fuel says about its input. -/
structure Sound (fuel : Nat) : Prop where
  value : ∀ {input tree rest}, parseValue fuel input = .ok (tree, rest) →
    ∃ before text, White before ∧ Spells tree text ∧ input = before ++ (text ++ rest)
  items : ∀ {parsed input tree rest}, parseItems fuel parsed input = .ok (tree, rest) →
    ∃ items inside, items ≠ [] ∧ tree = .array (parsed ++ items) ∧ SpellsItems items inside ∧
      input = inside ++ closeBracket :: rest
  members : ∀ {parsed input tree rest}, parseMembers fuel parsed input = .ok (tree, rest) →
    ∃ members inside, members ≠ [] ∧ tree = .object (parsed ++ members) ∧
      SpellsMembers members inside ∧ input = inside ++ closeBrace :: rest

theorem Sound.value_succ (sound : Sound fuel)
    (parsed : parseValue (fuel + 1) input = .ok (tree, rest)) :
    ∃ before text, White before ∧ Spells tree text ∧ input = before ++ (text ++ rest) := by
  rcases exists_skipWs input with ⟨before, white, inputEq⟩
  rw [parseValue] at parsed
  split at parsed
  · exact nomatch parsed
  · next byte behind skipped =>
    rw [skipped] at inputEq
    split at parsed
    · next quoted =>
      split at parsed
      · exact nomatch parsed
      · next decoded rest stringParsed =>
        cases parsed
        rcases stringBody_of_parseString stringParsed with ⟨body, spelled, bodyEq⟩
        refine ⟨before, quote :: (body ++ [quote]), white, ?_, ?_⟩
        · rw [Spells]
          exact ⟨body, spelled, rfl⟩
        · rw [inputEq, quoted, bodyEq]
          simp
    · split at parsed
      · next opened =>
        split at parsed
        · next closed =>
          cases parsed
          rcases exists_of_head? closed with ⟨inside, whiteInside, insideEq⟩
          refine ⟨before, openBrace :: (inside ++ [closeBrace]), white, ?_, ?_⟩
          · rw [Spells]
            exact ⟨inside, by rwa [SpellsMembers], rfl⟩
          · rw [insideEq, opened] at inputEq
            simpa using inputEq
        · rcases sound.members parsed with ⟨members, inside, _, equal, spelled, insideEq⟩
          refine ⟨before, openBrace :: (inside ++ [closeBrace]), white, ?_, ?_⟩
          · rw [equal, List.nil_append, Spells]
            exact ⟨inside, spelled, rfl⟩
          · rw [inputEq, insideEq, opened]
            simp
      · split at parsed
        · next opened =>
          split at parsed
          · next closed =>
            cases parsed
            rcases exists_of_head? closed with ⟨inside, whiteInside, insideEq⟩
            refine ⟨before, openBracket :: (inside ++ [closeBracket]), white, ?_, ?_⟩
            · rw [Spells]
              exact ⟨inside, by rwa [SpellsItems], rfl⟩
            · rw [insideEq, opened] at inputEq
              simpa using inputEq
          · rcases sound.items parsed with ⟨items, inside, _, equal, spelled, insideEq⟩
            refine ⟨before, openBracket :: (inside ++ [closeBracket]), white, ?_, ?_⟩
            · rw [equal, List.nil_append, Spells]
              exact ⟨inside, spelled, rfl⟩
            · rw [inputEq, insideEq, opened]
              simp
        · rcases spells_of_parseScalar parsed with ⟨text, spelled, equal⟩
          exact ⟨before, text, white, spelled, by rw [inputEq, equal]⟩

theorem Sound.items_succ (sound : Sound fuel) {parsed : List Tree}
    (success : parseItems (fuel + 1) parsed input = .ok (tree, rest)) :
    ∃ items inside, items ≠ [] ∧ tree = .array (parsed ++ items) ∧ SpellsItems items inside ∧
      input = inside ++ closeBracket :: rest := by
  rw [parseItems, parseValue_skipWs] at success
  split at success
  · exact nomatch success
  · next item afterItem itemParsed =>
    rcases sound.value itemParsed with ⟨before, text, white, spelled, inputEq⟩
    split at success
    · next separated =>
      rcases exists_of_head? separated with ⟨after, whiteAfter, afterEq⟩
      rcases sound.items success with ⟨items, inside, nonempty, equal, spelledMore, insideEq⟩
      refine ⟨item :: items, before ++ text ++ after ++ comma :: inside, nofun, ?_, ?_, ?_⟩
      · rw [equal, List.append_assoc, List.singleton_append]
      · rw [SpellsItems]
        exact ⟨before, text, after, white, spelled, whiteAfter,
          .inr ⟨nonempty, inside, spelledMore, rfl⟩⟩
      · rw [afterEq, insideEq] at inputEq
        simpa using inputEq
    · split at success
      · next closed =>
        cases success
        rcases exists_of_head? closed with ⟨after, whiteAfter, afterEq⟩
        refine ⟨[item], before ++ text ++ after, nofun, rfl, ?_, ?_⟩
        · rw [SpellsItems]
          exact ⟨before, text, after, white, spelled, whiteAfter, .inl ⟨rfl, rfl⟩⟩
        · rw [afterEq] at inputEq
          simpa using inputEq
      · exact nomatch success

theorem Sound.members_succ (sound : Sound fuel) {parsed : List (Bytes × Tree)}
    (success : parseMembers (fuel + 1) parsed input = .ok (tree, rest)) :
    ∃ members inside, members ≠ [] ∧ tree = .object (parsed ++ members) ∧
      SpellsMembers members inside ∧ input = inside ++ closeBrace :: rest := by
  rw [parseMembers] at success
  split at success
  · exact nomatch success
  · next key afterKey keyParsed =>
    rcases spells_of_parseKey keyParsed with
      ⟨before, name, beforeColon, whiteBefore, spelledKey, whiteColon, keyEq⟩
    rw [parseValue_skipWs] at success
    split at success
    · exact nomatch success
    · next value afterValue valueParsed =>
      rcases sound.value valueParsed with ⟨afterColon, text, whiteValue, spelled, valueEq⟩
      split at success
      · next separated =>
        rcases exists_of_head? separated with ⟨after, whiteAfter, afterEq⟩
        rcases sound.members success with
          ⟨members, inside, nonempty, equal, spelledMore, insideEq⟩
        refine ⟨(key, value) :: members, before ++ name ++ beforeColon ++
          colon :: (afterColon ++ text ++ after ++ comma :: inside), nofun, ?_, ?_, ?_⟩
        · rw [equal, List.append_assoc, List.singleton_append]
        · rw [SpellsMembers]
          exact ⟨before, name, beforeColon, afterColon, text, after, whiteBefore, spelledKey,
            whiteColon, whiteValue, spelled, whiteAfter,
            .inr ⟨nonempty, inside, spelledMore, rfl⟩⟩
        · rw [valueEq, afterEq, insideEq] at keyEq
          simpa using keyEq
      · split at success
        · next closed =>
          cases success
          rcases exists_of_head? closed with ⟨after, whiteAfter, afterEq⟩
          refine ⟨[(key, value)], before ++ name ++ beforeColon ++
            colon :: (afterColon ++ text ++ after), nofun, rfl, ?_, ?_⟩
          · rw [SpellsMembers]
            exact ⟨before, name, beforeColon, afterColon, text, after, whiteBefore,
              spelledKey, whiteColon, whiteValue, spelled, whiteAfter, .inl ⟨rfl, rfl⟩⟩
          · rw [valueEq, afterEq] at keyEq
            simpa using keyEq
        · exact nomatch success

theorem sound (fuel : Nat) : Sound fuel := by
  induction fuel with
  | zero => constructor <;> (intros; contradiction)
  | succ fuel induction =>
    exact ⟨induction.value_succ, induction.items_succ, induction.members_succ⟩

/-! ## Whole texts -/

theorem spellsText_of_parseText (parsed : parseText input = .ok tree) : SpellsText tree input := by
  rw [parseText] at parsed
  split at parsed
  · exact nomatch parsed
  · split at parsed
    · exact nomatch parsed
    · next result rest valueParsed =>
      split at parsed
      · next finished =>
        cases parsed
        rcases (sound _).value valueParsed with ⟨before, text, white, spelled, equal⟩
        rcases exists_skipWs rest with ⟨after, whiteAfter, afterEq⟩
        rw [finished, List.append_nil] at afterEq
        rw [afterEq, ← List.append_assoc] at equal
        exact ⟨before, text, after, white, spelled, whiteAfter, equal⟩
      · exact nomatch parsed

theorem parseText_of_spellsText (spelled : SpellsText tree input) :
    (tree.StringsFit ∧ parseText input = .ok tree) ∨
      (¬tree.StringsFit ∧ ∃ failure, parseText input = .error failure) := by
  rcases spelled with ⟨before, text, after, whiteBefore, spelled, whiteAfter, equal⟩
  rcases first_of_spells spelled with ⟨first, others, textEq, _⟩
  have nonempty : input.length ≠ 0 := by
    rw [equal, textEq]
    simp
  have stops : StopsAt isNumberByte after := by
    rw [← List.append_nil after]
    exact stopsAt_white_append whiteAfter fun _ absent => nomatch absent
  have skipped : skipWs input = text ++ after := by
    rw [equal, List.append_assoc]
    exact skipWs_value whiteBefore spelled
  have finished : skipWs after = [] := by
    rw [← List.append_nil after]
    exact skipWs_append whiteAfter fun _ absent => nomatch absent
  have enough : text.length < input.length + 1 := by
    rw [equal]
    simp only [List.length_append]
    omega
  rw [parseText, if_neg nonempty, ← parseValue_skipWs, skipped]
  rcases completes tree text (input.length + 1) after spelled enough stops with success | failed
  · rw [success.2]
    exact .inl ⟨success.1, if_pos finished⟩
  · rcases failed.2 with ⟨failure, failing⟩
    rw [failing]
    exact .inr ⟨failed.1, failure, rfl⟩

theorem parseText_eq_ok : parseText input = .ok tree ↔ SpellsText tree input ∧ tree.StringsFit := by
  constructor
  · intro parsed
    have spelled := spellsText_of_parseText parsed
    rcases parseText_of_spellsText spelled with success | failed
    · exact ⟨spelled, success.1⟩
    · rcases failed.2 with ⟨failure, failing⟩
      rw [parsed] at failing
      exact nomatch failing
  · intro both
    rcases parseText_of_spellsText both.1 with success | failed
    · exact success.2
    · exact absurd both.2 failed.1

theorem eq_of_spellsText {other : Tree} (parsed : parseText input = .ok tree)
    (spelled : SpellsText other input) : other = tree := by
  rcases parseText_of_spellsText spelled with success | failed
  · rw [parsed] at success
    exact (Except.ok.inj success.2).symm
  · rcases failed.2 with ⟨failure, failing⟩
    rw [parsed] at failing
    exact nomatch failing

/-- The parser accepts exactly the JSON texts in which every string fits into a buffer, and
the tree it returns is the only one that the text denotes. -/
theorem parser_accepts_json (input : Bytes) :
    ((∃ tree, parseText input = .ok tree) ↔ ∃ tree, SpellsText tree input ∧ tree.StringsFit) ∧
      ∀ tree, parseText input = .ok tree → ∀ other, SpellsText other input ↔ other = tree := by
  constructor
  · constructor
    · intro accepted
      rcases accepted with ⟨tree, parsed⟩
      exact ⟨tree, parseText_eq_ok.mp parsed⟩
    · intro spelled
      rcases spelled with ⟨tree, spelled⟩
      exact ⟨tree, parseText_eq_ok.mpr spelled⟩
  · intro tree parsed other
    constructor
    · exact eq_of_spellsText parsed
    · intro equal
      rw [equal]
      exact spellsText_of_parseText parsed

def surrogateText : Bytes := ascii " [\"\\ud83d\\ude00\", -1.5e3]"

theorem parser_accepts_json_sample :
    ∃ tree, SpellsText tree surrogateText ∧ tree.StringsFit := by
  have accepted : (parseText surrogateText).isOk = true := by decide +kernel
  refine (parser_accepts_json surrogateText).1.mp ?_
  cases parsed : parseText surrogateText with
  | ok tree => exact ⟨tree, rfl⟩
  | error failure =>
    rw [parsed] at accepted
    cases accepted

def letters (n : Nat) : Bytes := List.replicate n 97

theorem stringBody_letters (n : Nat) : StringBody (letters n) (letters n) := by
  induction n with
  | zero => exact .nil
  | succ n induction => exact .plain (by decide) (by decide) (by decide) induction

/-- One byte too many between quotes. -/
def tooLongText : Bytes := quote :: (letters (bufferLimit + 1) ++ [quote])

theorem too_long_is_refused :
    (∃ tree, SpellsText tree tooLongText) ∧ ¬∃ tree, parseText tooLongText = .ok tree := by
  have spelled : SpellsText (.string (letters (bufferLimit + 1))) tooLongText := by
    refine ⟨[], tooLongText, [], allIn_nil _, ?_, allIn_nil _, ?_⟩
    · rw [Spells]
      exact ⟨_, stringBody_letters _, rfl⟩
    · rw [List.nil_append, List.append_nil]
  refine ⟨⟨_, spelled⟩, ?_⟩
  intro accepted
  rcases accepted with ⟨tree, parsed⟩
  have fits := (parseText_eq_ok.mp parsed).2
  rw [← eq_of_spellsText parsed spelled, Tree.StringsFit, letters, List.length_replicate] at fits
  exact Nat.not_succ_le_self _ fits

end AgentC.Json

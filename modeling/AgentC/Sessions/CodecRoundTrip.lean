import AgentC.Sessions.Codec

/-! # A session survives its text form -/

namespace AgentC.Sessions

open AgentC.ToolLoop (Role)

variable (byte : UInt8) {line : Bytes} (rest : Bytes) (session : Session) (message : Message)

theorem hexDigits_value :
    hexValue (hexDigits.getD ((byte >>> 4) &&& 0xF).toNat 0) = some (byte >>> 4) ∧
      hexValue (hexDigits.getD (byte &&& 0xF).toNat 0) = some (byte &&& 0xF) ∧
      ((byte >>> 4) <<< 4 ||| (byte &&& 0xF)) = byte := by
  revert byte
  exact forall_byte (by decide +kernel)

theorem unescape_plain {byte : UInt8} (plain : byte ≠ backslash) (rest : Bytes) :
    unescapeContent (byte :: rest) = (unescapeContent rest).map (byte :: ·) := by
  rw [unescapeContent, if_pos plain]

theorem unescape_escaped {text rest : Bytes} {byte : UInt8}
    (found : escapedByte text = some (byte, rest)) :
    unescapeContent (backslash :: text) = (unescapeContent rest).map (byte :: ·) := by
  rw [unescapeContent, if_neg (by decide)]
  split
  · next missing =>
    rw [missing] at found
    cases found
  · next other otherRest same =>
    rw [same] at found
    cases found
    rfl

theorem escapedByte_hex : escapedByte (120 :: hexDigits.getD ((byte >>> 4) &&& 0xF).toNat 0 ::
      hexDigits.getD (byte &&& 0xF).toNat 0 :: rest) = some (byte, rest) := by
  have values := hexDigits_value byte
  have shape : ∀ high low, escapedByte (120 :: high :: low :: rest) =
      hexByte (high :: low :: rest) := fun _ _ => rfl
  rw [shape, hexByte, values.1, values.2.1]
  simp only [values.2.2]

theorem unescape_escapeByte :
    unescapeContent (escapeByte byte ++ rest) = (unescapeContent rest).map (byte :: ·) := by
  rw [escapeByte]
  split
  · next same =>
    rw [same]
    exact unescape_escaped rfl
  split
  · next same =>
    rw [same]
    exact unescape_escaped rfl
  split
  · next same =>
    rw [same]
    exact unescape_escaped rfl
  split
  · next same =>
    rw [same]
    exact unescape_escaped rfl
  split
  · exact unescape_escaped (escapedByte_hex byte rest)
  · next plain _ _ _ _ => exact unescape_plain plain rest

theorem unescape_escapeContent (content : Bytes) :
    unescapeContent (escapeContent content) = .ok content := by
  induction content with
  | nil => rw [escapeContent, List.flatMap_nil, unescapeContent]
  | cons byte rest induction =>
    have parts : escapeContent (byte :: rest) = escapeByte byte ++ escapeContent rest :=
      List.flatMap_cons
    rw [parts, unescape_escapeByte, induction]
    rfl

def insideLine (byte : UInt8) : Bool :=
  byte != lineFeed && byte != carriageReturn

theorem allIn_escapeByte : AllIn insideLine (escapeByte byte) := by
  have listed : (escapeByte byte).all insideLine = true := by
    revert byte
    exact forall_byte (by decide +kernel)
  exact List.all_eq_true.mp listed

theorem allIn_escapeContent (content : Bytes) : AllIn insideLine (escapeContent content) := by
  intro byte member
  rcases List.mem_flatMap.mp member with ⟨source, _, within⟩
  exact allIn_escapeByte source byte within

theorem trimCr_eq_self (inside : AllIn insideLine line) : trimCr line = line := by
  rw [trimCr, if_neg]
  intro last
  have within := inside carriageReturn (List.mem_of_getLast? last)
  exact absurd within (by decide)

theorem nextLine_append (inside : AllIn insideLine line) (rest : Bytes) :
    nextLine (line ++ lineFeed :: rest) = (line, rest) := by
  have noFeed : AllIn (· != lineFeed) line := by
    intro byte member
    exact (Bool.and_eq_true_iff.mp (inside byte member)).1
  have stops : StopsAt (· != lineFeed) (lineFeed :: rest) := stopsAt_cons.mpr (by decide)
  rw [nextLine, takeWhile_append_of_stop noFeed stops, dropWhile_append_of_stop noFeed stops,
    trimCr_eq_self inside]
  rfl

theorem decodeLines_append (inside : AllIn insideLine line) (session : Session) (rest : Bytes) :
    decodeLines session (line ++ lineFeed :: rest) =
      (decodeLine session line).bind fun session => decodeLines session rest := by
  have more : (line ++ lineFeed :: rest).isEmpty = false := by
    rw [List.isEmpty_eq_false_iff]
    simp
  rw [decodeLines, dif_pos more, nextLine_append inside]
  cases decodeLine session line <;> rfl

def messageLine (message : Message) : Bytes :=
  ascii "M\t" ++ (message.role.text ++ tab :: escapeContent message.content)

theorem encodeMessage_eq (rest : Bytes) :
    encodeMessage message ++ rest = messageLine message ++ lineFeed :: rest := by
  simp [encodeMessage, messageLine]

theorem allIn_messageLine : AllIn insideLine (messageLine message) := by
  have role : AllIn insideLine message.role.text := by
    apply List.all_eq_true.mp
    cases message.role <;> decide
  have start : AllIn insideLine (ascii "M\t") := List.all_eq_true.mp (by decide)
  rw [messageLine, allIn_append, allIn_append, allIn_cons]
  exact ⟨start, role, by decide, allIn_escapeContent message.content⟩

theorem roleFromString_text (role : Role) : roleFromString role.text = some role := by
  cases role <;> decide

theorem role_text_length (role : Role) : 0 < role.text.length ∧ role.text.length ≤ 32 := by
  cases role <;> decide

theorem decodeLine_messageLine :
    decodeLine session (messageLine message) =
      match session.addMessage message.role message.content plentiful with
      | (.ok, session, _) => .ok session
      | (status, _, _) => .error status := by
  have role := role_text_length message.role
  have noTab : AllIn (· != tab) message.role.text := by
    apply List.all_eq_true.mp
    cases message.role <;> decide
  have stops : StopsAt (· != tab) (tab :: escapeContent message.content) :=
    stopsAt_cons.mpr (by decide)
  have filled : ((messageLine message).isEmpty || isBlankLine (messageLine message)) = false := rfl
  have comment : (messageLine message).head? ≠ some 35 := by
    intro same
    exact absurd (Option.some.inj same) (by decide)
  have proper : ¬((messageLine message).length < 4 ∨ (messageLine message)[0]? ≠ some 77 ∨
      (messageLine message)[1]? ≠ some tab) := by
    have length : 4 ≤ (messageLine message).length := by
      rw [messageLine, List.length_append, List.length_append, List.length_cons]
      have start : (ascii "M\t").length = 2 := rfl
      omega
    intro wrong
    rcases wrong with short | first | second
    · omega
    · exact first rfl
    · exact second rfl
  have behind : (messageLine message).drop 2 =
      message.role.text ++ tab :: escapeContent message.content := rfl
  rw [decodeLine, filled, if_neg (by decide), if_neg comment, if_neg proper]
  rw [behind, takeWhile_append_of_stop noTab stops, dropWhile_append_of_stop noTab stops]
  simp only [roleFromString_text, unescape_escapeContent]
  refine (if_neg ?_).trans rfl
  omega

/-- A message that `addMessage` has made. -/
def Message.Added (message : Message) : Prop :=
  cString message.content = message.content ∧ message.parts = []

theorem decodeLines_encodeMessages (messages : List Message)
    (added : ∀ message ∈ messages, message.Added) (session : Session) :
    ∃ decoded, decodeLines session (messages.flatMap encodeMessage) = .ok decoded ∧
      decoded.messages = session.messages ++ messages := by
  induction messages generalizing session with
  | nil =>
    refine ⟨session, ?_, (List.append_nil _).symm⟩
    rw [List.flatMap_nil, decodeLines, dif_neg (by decide)]
  | cons message rest induction =>
    have plenty : ∀ call, plentiful.succeeds call = true := fun _ => rfl
    rcases Session.addMessage_of_plenty plenty session message.role message.content with
      ⟨next, heap, adding, messages⟩
    have first := added message (List.mem_cons_self ..)
    have same : ({ role := message.role, content := cString message.content } : Message) =
        message := by
      rw [first.1, ← first.2]
    rcases induction (fun other member => added other (List.mem_cons_of_mem _ member)) next with
      ⟨decoded, decoding, decodedMessages⟩
    refine ⟨decoded, ?_, ?_⟩
    · rw [List.flatMap_cons, encodeMessage_eq, decodeLines_append (allIn_messageLine message),
        decodeLine_messageLine, adding]
      exact decoding
    · rw [decodedMessages, messages, same, List.append_assoc, List.singleton_append]

theorem decodeV1_encodeV1 (added : ∀ message ∈ session.messages, message.Added) :
    ∃ decoded, decodeV1 (encodeV1 session) = .ok decoded ∧ decoded.messages = session.messages := by
  have header : encodeV1 session =
      ascii "AGENT_SESSION\t1" ++ lineFeed :: session.messages.flatMap encodeMessage := by
    have line : ascii "AGENT_SESSION\t1\n" = ascii "AGENT_SESSION\t1" ++ [lineFeed] := by decide
    rw [encodeV1, line, List.append_assoc, List.singleton_append]
  have inside : AllIn insideLine (ascii "AGENT_SESSION\t1") := List.all_eq_true.mp (by decide)
  rw [decodeV1, header, nextLine_append inside, if_neg (not_not_intro rfl)]
  exact decodeLines_encodeMessages session.messages added create

/-- A call of `agent_session_add_message`. -/
structure Addition where
  role : Role
  content : Bytes
  heap : Heap

def addAll (additions : List Addition) (session : Session) : Session :=
  match additions with
  | [] => session
  | addition :: rest =>
    addAll rest (session.addMessage addition.role addition.content addition.heap).2.1

theorem addMessage_added {session : Session} (added : ∀ message ∈ session.messages, message.Added)
    (role : Role) (content : Bytes) (heap : Heap) :
    ∀ message ∈ (session.addMessage role content heap).2.1.messages, message.Added := by
  rw [Session.addMessage]
  split
  · exact added
  · next grown _ _ =>
    simp only
    split
    · rw [grown.property.1]
      exact added
    · intro message member
      rcases List.mem_append.mp member with old | new
      · exact added message old
      · rw [List.mem_singleton.mp new]
        exact ⟨cString_cString content, rfl⟩

theorem addAll_added (additions : List Addition) (session : Session)
    (added : ∀ message ∈ session.messages, message.Added) :
    ∀ message ∈ (addAll additions session).messages, message.Added := by
  induction additions generalizing session with
  | nil => exact added
  | cons addition rest induction =>
    exact induction _ (addMessage_added added addition.role addition.content addition.heap)

/-- What any calls of `agent_session_add_message` have built is read back from its text. -/
theorem codec_roundTrip (additions : List Addition) :
    ∃ decoded, decodeV1 (encodeV1 (addAll additions create)) = .ok decoded ∧
      decoded.messages = (addAll additions create).messages :=
  decodeV1_encodeV1 _ (addAll_added additions create fun _ member => nomatch member)

end AgentC.Sessions

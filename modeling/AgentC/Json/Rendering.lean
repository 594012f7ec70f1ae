import AgentC.Foundation.Fallible
import AgentC.Json.ParserCorrect
import AgentC.Json.PlainNumbers

/-! # What is emitted

The emitter writes the rendering of the normal form of a tree: numbers in plain
form, members sorted by key. A rendering spells the tree it was made from. -/

namespace AgentC.Json

/-- The emitter appends `text`: it succeeds exactly when that is possible and
the buffer can take the text. -/
def Appends (emit : Emitter) (possible : Prop) (text : Bytes) : Prop :=
  ∀ buffer result, buffer.length ≤ bufferLimit →
    (emit buffer = .ok result ↔
      possible ∧ buffer.length + text.length ≤ bufferLimit ∧ result = buffer ++ text)

namespace Appends

variable {emit next : Emitter} {possible nextPossible : Prop} {text nextText : Bytes}

theorem congr {other : Prop} {otherText : Bytes} (appends : Appends emit possible text)
    (same : possible ↔ other) (sameText : text = otherText) : Appends emit other otherText := by
  rw [Appends, same, sameText] at appends
  exact appends

theorem andThen (appends : Appends emit possible text)
    (nextAppends : Appends next nextPossible nextText) :
    Appends (fun buffer => emit buffer >>= next) (possible ∧ nextPossible) (text ++ nextText) := by
  intro buffer result bounded
  rw [bind_eq_ok]
  constructor
  · intro found
    rcases found with ⟨middle, written, rest⟩
    rcases (appends buffer middle bounded).mp written with ⟨holds, fits, equal⟩
    rw [← List.length_append, ← equal] at fits
    rcases (nextAppends middle result fits).mp rest with ⟨nextHolds, nextFits, nextEqual⟩
    rw [equal, List.length_append, Nat.add_assoc, ← List.length_append] at nextFits
    exact ⟨⟨holds, nextHolds⟩, nextFits, by rw [nextEqual, equal, List.append_assoc]⟩
  · intro conditions
    rcases conditions with ⟨⟨holds, nextHolds⟩, fits, equal⟩
    rw [List.length_append] at fits
    have written := (appends buffer (buffer ++ text) bounded).mpr ⟨holds, by omega, rfl⟩
    refine ⟨buffer ++ text, written, ?_⟩
    rw [nextAppends (buffer ++ text) result (by rw [List.length_append]; omega)]
    exact ⟨nextHolds, by rw [List.length_append]; omega, by rw [equal, List.append_assoc]⟩

end Appends

theorem appends_bufAppend (chunk : Bytes) :
    Appends (fun buffer => bufAppend buffer chunk) True chunk := by
  intro buffer result bounded
  rw [bufAppend_eq_ok, true_and]

theorem appends_nothing : Appends (fun buffer => .ok buffer) True [] := by
  intro buffer result bounded
  rw [Except.ok.injEq, List.append_nil, List.length_nil, true_and]
  exact ⟨fun equal => ⟨bounded, equal.symm⟩, fun equal => equal.2.symm⟩

def quotedText (text : Bytes) : Bytes :=
  quote :: (text.flatMap escapeByte ++ [quote])

variable (text : Bytes) {token : Bytes} {items : List Tree} {members : List (Bytes × Tree)}
variable {tree : Tree}

theorem appends_emitEscaped : Appends (emitEscaped text) True (text.flatMap escapeByte) := by
  induction text with
  | nil => exact appends_nothing
  | cons byte rest induction =>
    exact ((appends_bufAppend (escapeByte byte)).andThen induction).congr (and_self_iff) rfl

theorem appends_emitString : Appends (emitString text) True (quotedText text) :=
  ((appends_bufAppend [quote]).andThen
    ((appends_emitEscaped text).andThen (appends_bufAppend [quote]))).congr (by simp) rfl

theorem hexQuad_control (byte : UInt8) (control : byte < 32) :
    hexQuad (hexDigit (byte.toNat / 4096 % 16)) (hexDigit (byte.toNat / 256 % 16))
      (hexDigit (byte.toNat / 16 % 16)) (hexDigit (byte.toNat % 16)) = some byte.toNat ∧
      utf8Codepoint byte.toNat = [byte] ∧ isHighSurrogate byte.toNat = false := by
  revert control
  exact @forall_byte (fun byte => byte < 32 → hexQuad (hexDigit (byte.toNat / 4096 % 16))
    (hexDigit (byte.toNat / 256 % 16)) (hexDigit (byte.toNat / 16 % 16))
    (hexDigit (byte.toNat % 16)) = some byte.toNat ∧ utf8Codepoint byte.toNat = [byte] ∧
      isHighSurrogate byte.toNat = false) (by decide +kernel) byte

theorem StringBody.control {byte : UInt8} {body text : Bytes} (control : byte < 32)
    (rest : StringBody body text) : StringBody (hexU16 byte.toNat ++ body) (byte :: text) := by
  rcases hexQuad_control byte control with ⟨quad, utf8, notHigh⟩
  have spelled := StringBody.unicode quad (.inl notHigh) rest
  rw [utf8] at spelled
  exact spelled

theorem stringBody_escapeByte {byte : UInt8} {body text : Bytes} (rest : StringBody body text) :
    StringBody (escapeByte byte ++ body) (byte :: text) := by
  rw [escapeByte]
  split
  · next special =>
    exact .escape (by rcases special with equal | equal <;> rw [equal] <;> rfl) rest
  · next ordinary =>
    rw [not_or] at ordinary
    split
    · next equal => exact equal ▸ .escape rfl rest
    · split
      · next equal => exact equal ▸ .escape rfl rest
      · split
        · next equal => exact equal ▸ .escape rfl rest
        · split
          · next equal => exact equal ▸ .escape rfl rest
          · split
            · next equal => exact equal ▸ .escape rfl rest
            · split
              · next control => exact .control control rest
              · next printable => exact .plain ordinary.1 ordinary.2 printable rest

theorem spellsString_quotedText : SpellsString text (quotedText text) := by
  refine ⟨text.flatMap escapeByte, ?_, rfl⟩
  induction text with
  | nil => exact .nil
  | cons byte rest induction => exact stringBody_escapeByte induction

def Writable (token : Bytes) : Prop :=
  ∃ text, numberText token = .ok text

/-- The text written for a number, if any. -/
def normalToken (token : Bytes) : Bytes :=
  match numberText token with
  | .ok text => text
  | .error _ => token

theorem Writable.numberText_eq (writable : Writable token) :
    numberText token = .ok (normalToken token) := by
  rcases writable with ⟨text, written⟩
  rw [normalToken, written]

theorem appends_emitNumber (token : Bytes) :
    Appends (emitNumber token) (Writable token) (normalToken token) := by
  intro buffer result bounded
  rw [emitNumber, bind_eq_ok]
  constructor
  · intro found
    rcases found with ⟨text, written, appended⟩
    have writable : Writable token := ⟨text, written⟩
    rw [writable.numberText_eq, Except.ok.injEq] at written
    rw [← written] at appended
    exact ⟨writable, bufAppend_eq_ok.mp appended⟩
  · intro conditions
    exact ⟨normalToken token, conditions.1.numberText_eq, bufAppend_eq_ok.mpr conditions.2⟩

theorem exists_plainForm (number : IsNumber token) (writable : Writable token) :
    ∃ negative integer fraction, PlainForm negative integer fraction ∧
      normalToken token = (plainParts negative integer fraction).text ∧
      plainValue negative integer fraction = tokenValue token :=
  plainForm_of_numberText number writable.numberText_eq

theorem isNumber_normalToken (number : IsNumber token) (writable : Writable token) :
    IsNumber (normalToken token) := by
  rcases exists_plainForm number writable with ⟨_, _, _, plain, equal, _⟩
  exact ⟨_, plain.valid, equal⟩

theorem tokenValue_normalToken (number : IsNumber token) (writable : Writable token) :
    tokenValue (normalToken token) = tokenValue token := by
  rcases exists_plainForm number writable with ⟨_, _, _, plain, equal, value⟩
  rw [equal, plain.tokenValue_text, value]

theorem normalToken_eq_of_value {other : Bytes} (number : IsNumber token)
    (otherNumber : IsNumber other) (writable : Writable token) (otherWritable : Writable other)
    (value : tokenValue token = tokenValue other) : normalToken token = normalToken other := by
  rcases exists_plainForm number writable with ⟨_, _, _, plain, equal, plainEq⟩
  rcases exists_plainForm otherNumber otherWritable with ⟨_, _, _, otherPlain, otherEqual, otherEq⟩
  rcases plain.eq_of_value otherPlain (by rw [plainEq, otherEq, value]) with ⟨sign, integer, fraction⟩
  rw [equal, otherEqual, sign, integer, fraction]

mutual

def Tree.numbers : Tree → List Bytes
  | .number token => [token]
  | .array items => numbersOfItems items
  | .object members => numbersOfMembers members
  | _ => []

def numbersOfItems : List Tree → List Bytes
  | [] => []
  | item :: rest => item.numbers ++ numbersOfItems rest

def numbersOfMembers : List (Bytes × Tree) → List Bytes
  | [] => []
  | (_, value) :: rest => value.numbers ++ numbersOfMembers rest

end

mutual

def Tree.normal : Tree → Tree
  | .number token => .number (normalToken token)
  | .array items => .array (normalItems items)
  | .object members => .object (sortByKey lexLE (normalMembers members))
  | .null => .null
  | .bool value => .bool value
  | .string text => .string text

def normalItems : List Tree → List Tree
  | [] => []
  | item :: rest => item.normal :: normalItems rest

def normalMembers : List (Bytes × Tree) → List (Bytes × Tree)
  | [] => []
  | (key, value) :: rest => (key, value.normal) :: normalMembers rest

end

def separated : List Bytes → Bytes
  | [] => []
  | text :: rest => text ++ rest.flatMap fun next => comma :: next

def memberText (key text : Bytes) : Bytes :=
  quotedText key ++ colon :: text

mutual

def Tree.render : Tree → Bytes
  | .null => literalNull
  | .bool value => if value then literalTrue else literalFalse
  | .number token => token
  | .string text => quotedText text
  | .array items => openBracket :: (separated (renderItems items) ++ [closeBracket])
  | .object members => openBrace :: (separated (renderMembers members) ++ [closeBrace])

def renderItems : List Tree → List Bytes
  | [] => []
  | item :: rest => item.render :: renderItems rest

def renderMembers : List (Bytes × Tree) → List Bytes
  | [] => []
  | (key, value) :: rest => memberText key value.render :: renderMembers rest

end

theorem mem_numbersOfItems :
    token ∈ numbersOfItems items ↔ ∃ item ∈ items, token ∈ item.numbers := by
  induction items with
  | nil => simp [numbersOfItems]
  | cons item rest induction => simp [numbersOfItems, induction]

theorem mem_numbersOfMembers :
    token ∈ numbersOfMembers members ↔ ∃ member ∈ members, token ∈ member.2.numbers := by
  induction members with
  | nil => simp [numbersOfMembers]
  | cons member rest induction => simp [numbersOfMembers, induction]

theorem normalItems_eq_map (items : List Tree) : normalItems items = items.map Tree.normal := by
  induction items with
  | nil => rfl
  | cons item rest induction => rw [normalItems, induction, List.map_cons]

theorem normalMembers_eq_map (members : List (Bytes × Tree)) :
    normalMembers members = members.map fun member => (member.1, member.2.normal) := by
  induction members with
  | nil => rfl
  | cons member rest induction => rw [normalMembers, induction, List.map_cons]

theorem renderItems_eq_map (items : List Tree) : renderItems items = items.map Tree.render := by
  induction items with
  | nil => rfl
  | cons item rest induction => rw [renderItems, induction, List.map_cons]

theorem renderMembers_eq_map (members : List (Bytes × Tree)) :
    renderMembers members = members.map fun member => memberText member.1 member.2.render := by
  induction members with
  | nil => rfl
  | cons member rest induction => rw [renderMembers, induction, List.map_cons]

theorem itemEmitters_eq_map (items : List Tree) : itemEmitters items = items.map emitValue := by
  induction items with
  | nil => rfl
  | cons item rest induction => rw [itemEmitters, induction, List.map_cons]

theorem memberEmitters_eq_map (members : List (Bytes × Tree)) :
    memberEmitters members = members.map fun member => (member.1, emitValue member.2) := by
  induction members with
  | nil => rfl
  | cons member rest induction => rw [memberEmitters, induction, List.map_cons]

theorem appends_emitSeparated_rest {α : Type} {entries : List α} {emit : α → Emitter}
    {possible : α → Prop} {text : α → Bytes}
    (appends : ∀ entry ∈ entries, Appends (emit entry) (possible entry) (text entry)) :
    Appends (emitSeparated false (entries.map emit)) (∀ entry ∈ entries, possible entry)
      ((entries.map text).flatMap fun next => comma :: next) := by
  induction entries with
  | nil => exact appends_nothing.congr (by simp) rfl
  | cons entry rest induction =>
    have first := appends entry (List.mem_cons_self ..)
    have later := induction fun other member => appends other (List.mem_cons_of_mem _ member)
    exact ((appends_bufAppend [comma]).andThen (first.andThen later)).congr (by simp) rfl

theorem appends_emitSeparated {α : Type} {entries : List α} {emit : α → Emitter}
    {possible : α → Prop} {text : α → Bytes}
    (appends : ∀ entry ∈ entries, Appends (emit entry) (possible entry) (text entry)) :
    Appends (emitSeparated true (entries.map emit)) (∀ entry ∈ entries, possible entry)
      (separated (entries.map text)) := by
  cases entries with
  | nil => exact appends_nothing.congr (by simp) rfl
  | cons entry rest =>
    have first := appends entry (List.mem_cons_self ..)
    have later := appends_emitSeparated_rest
      fun other member => appends other (List.mem_cons_of_mem entry member)
    exact (first.andThen later).congr (by simp) rfl

theorem appends_emitMember {key text : Bytes} {emit : Emitter} {possible : Prop}
    (appends : Appends emit possible text) :
    Appends (emitMember (key, emit)) possible (memberText key text) :=
  ((appends_emitString key).andThen ((appends_bufAppend [colon]).andThen appends)).congr
    (by simp) rfl

theorem appends_emitValue (tree : Tree) :
    Appends (emitValue tree) (∀ token ∈ tree.numbers, Writable token) tree.normal.render := by
  induction tree using Tree.inductionOn with
  | null => exact (appends_bufAppend literalNull).congr (by simp [Tree.numbers]) rfl
  | bool value => exact (appends_bufAppend _).congr (by simp [Tree.numbers]) rfl
  | number token => exact (appends_emitNumber token).congr (by simp [Tree.numbers]) rfl
  | string text => exact (appends_emitString text).congr (by simp [Tree.numbers]) rfl
  | array items induction =>
    have inside := appends_emitSeparated induction
    rw [← itemEmitters_eq_map] at inside
    refine ((appends_bufAppend [openBracket]).andThen
      (inside.andThen (appends_bufAppend [closeBracket]))).congr ?_ ?_
    · simp only [Tree.numbers, mem_numbersOfItems, true_and, and_true]
      exact ⟨fun each token found => by
        rcases found with ⟨item, member, inItem⟩
        exact each item member token inItem,
        fun all item member token inItem => all token ⟨item, member, inItem⟩⟩
    · simp only [Tree.normal, Tree.render, renderItems_eq_map, normalItems_eq_map, List.map_map]
      rfl
  | object members induction =>
    have each : ∀ member ∈ sortByKey lexLE members,
        Appends (emitMember (member.1, emitValue member.2))
          (∀ token ∈ member.2.numbers, Writable token)
          (memberText member.1 member.2.normal.render) :=
      fun member found => appends_emitMember (induction member (mem_sortByKey.mp found))
    have emitters : (sortByKey lexLE members).map
        (fun member => emitMember (member.1, emitValue member.2)) =
        (sortByKey lexLE (memberEmitters members)).map emitMember := by
      rw [memberEmitters_eq_map, sortByKey_map, List.map_map]
      rfl
    have inside := appends_emitSeparated each
    rw [emitters] at inside
    refine ((appends_bufAppend [openBrace]).andThen
      (inside.andThen (appends_bufAppend [closeBrace]))).congr ?_ ?_
    · simp only [Tree.numbers, mem_numbersOfMembers, mem_sortByKey, true_and, and_true]
      exact ⟨fun each token found => by
        rcases found with ⟨member, isMember, inMember⟩
        exact each member isMember token inMember,
        fun all member isMember token inMember => all token ⟨member, isMember, inMember⟩⟩
    · simp only [Tree.normal, Tree.render, renderMembers_eq_map, normalMembers_eq_map,
        sortByKey_map, List.map_map]
      rfl

theorem separated_cons_cons (next : Bytes) (rest : List Bytes) :
    separated (text :: next :: rest) = text ++ comma :: separated (next :: rest) := by
  simp [separated]

theorem spellsItems_separated (spelled : ∀ item ∈ items, Spells item item.render) :
    SpellsItems items (separated (items.map Tree.render)) := by
  induction items with
  | nil => exact allIn_nil _
  | cons item rest induction =>
    have first := spelled item (List.mem_cons_self ..)
    rw [SpellsItems]
    refine ⟨[], item.render, [], allIn_nil _, first, allIn_nil _, ?_⟩
    rcases rest with _ | ⟨next, rest⟩
    · exact .inl ⟨rfl, by simp [separated]⟩
    · refine .inr ⟨List.cons_ne_nil _ _, _, induction fun other member =>
        spelled other (List.mem_cons_of_mem _ member), ?_⟩
      simp only [List.map_cons, separated_cons_cons, List.nil_append, List.append_nil]

theorem spellsMembers_separated (spelled : ∀ member ∈ members, Spells member.2 member.2.render) :
    SpellsMembers members
      (separated (members.map fun member => memberText member.1 member.2.render)) := by
  induction members with
  | nil => exact allIn_nil _
  | cons member rest induction =>
    rcases member with ⟨key, value⟩
    have first := spelled (key, value) (List.mem_cons_self ..)
    rw [SpellsMembers]
    refine ⟨[], quotedText key, [], [], value.render, [], allIn_nil _,
      spellsString_quotedText key, allIn_nil _, allIn_nil _, first, allIn_nil _, ?_⟩
    rcases rest with _ | ⟨next, rest⟩
    · exact .inl ⟨rfl, by simp [separated, memberText]⟩
    · refine .inr ⟨List.cons_ne_nil _ _, _, induction fun other member =>
        spelled other (List.mem_cons_of_mem _ member), ?_⟩
      simp [separated_cons_cons, memberText]

theorem spells_render (numbers : ∀ token ∈ tree.numbers, IsNumber token) :
    Spells tree tree.render := by
  induction tree using Tree.inductionOn with
  | null => rw [Spells]; rfl
  | bool value => rw [Spells]; rfl
  | number token =>
    rw [Spells]
    exact ⟨numbers token (List.mem_singleton.mpr rfl), rfl⟩
  | string text =>
    rw [Spells]
    exact spellsString_quotedText text
  | array items induction =>
    rw [Spells, Tree.render, renderItems_eq_map]
    refine ⟨_, spellsItems_separated fun item member => induction item member ?_, rfl⟩
    intro token inItem
    exact numbers token (mem_numbersOfItems.mpr ⟨item, member, inItem⟩)
  | object members induction =>
    rw [Spells, Tree.render, renderMembers_eq_map]
    refine ⟨_, spellsMembers_separated fun member isMember => induction member isMember ?_, rfl⟩
    intro token inMember
    exact numbers token (mem_numbersOfMembers.mpr ⟨member, isMember, inMember⟩)

theorem spells_item {inside : Bytes} (spelled : SpellsItems items inside) :
    ∀ item ∈ items, ∃ text, Spells item text := by
  induction items generalizing inside with
  | nil => exact fun _ member => nomatch member
  | cons first rest induction =>
    intro item member
    rw [SpellsItems] at spelled
    rcases spelled with ⟨before, text, after, _, spelledFirst, _, more⟩
    rcases List.mem_cons.mp member with equal | later
    · exact ⟨text, equal ▸ spelledFirst⟩
    · rcases more with ⟨empty, _⟩ | ⟨_, more, spelledMore, _⟩
      · rw [empty] at later
        exact nomatch later
      · exact induction spelledMore item later

theorem spells_member {inside : Bytes} (spelled : SpellsMembers members inside) :
    ∀ member ∈ members, ∃ text, Spells member.2 text := by
  induction members generalizing inside with
  | nil => exact fun _ member => nomatch member
  | cons first rest induction =>
    intro member isMember
    rcases first with ⟨key, value⟩
    rw [SpellsMembers] at spelled
    rcases spelled with ⟨_, _, _, _, text, _, _, _, _, _, spelledFirst, _, more⟩
    rcases List.mem_cons.mp isMember with equal | later
    · exact ⟨text, equal ▸ spelledFirst⟩
    · rcases more with ⟨empty, _⟩ | ⟨_, more, spelledMore, _⟩
      · rw [empty] at later
        exact nomatch later
      · exact induction spelledMore member later

theorem isNumber_of_spells {text : Bytes} (spelled : Spells tree text) :
    ∀ token ∈ tree.numbers, IsNumber token := by
  induction tree using Tree.inductionOn generalizing text with
  | null => rintro _ ⟨⟩
  | bool value => rintro _ ⟨⟩
  | number other =>
    intro token member
    rw [Spells] at spelled
    rw [Tree.numbers, List.mem_singleton] at member
    exact member ▸ spelled.1
  | string decoded => rintro _ ⟨⟩
  | array items induction =>
    intro token member
    rw [Spells] at spelled
    rcases spelled with ⟨inside, spelledInside, _⟩
    rcases mem_numbersOfItems.mp member with ⟨item, isItem, inItem⟩
    rcases spells_item spelledInside item isItem with ⟨text, spelledItem⟩
    exact induction item isItem spelledItem token inItem
  | object members induction =>
    intro token member
    rw [Spells] at spelled
    rcases spelled with ⟨inside, spelledInside, _⟩
    rcases mem_numbersOfMembers.mp member with ⟨owner, isMember, inOwner⟩
    rcases spells_member spelledInside owner isMember with ⟨text, spelledOwner⟩
    exact induction owner isMember spelledOwner token inOwner

theorem mem_numbers_normal :
    token ∈ tree.normal.numbers ↔ ∃ original ∈ tree.numbers, token = normalToken original := by
  induction tree using Tree.inductionOn with
  | null => simp [Tree.normal, Tree.numbers]
  | bool value => simp [Tree.normal, Tree.numbers]
  | number other => simp [Tree.normal, Tree.numbers]
  | string text => simp [Tree.normal, Tree.numbers]
  | array items induction =>
    simp only [Tree.normal, Tree.numbers, normalItems_eq_map, mem_numbersOfItems, List.mem_map]
    constructor
    · intro found
      rcases found with ⟨normal, ⟨item, member, equal⟩, inNormal⟩
      subst equal
      rcases (induction item member).mp inNormal with ⟨original, inItem, equal⟩
      exact ⟨original, ⟨item, member, inItem⟩, equal⟩
    · intro found
      rcases found with ⟨original, ⟨item, member, inItem⟩, equal⟩
      exact ⟨item.normal, ⟨item, member, rfl⟩, (induction item member).mpr ⟨original, inItem, equal⟩⟩
  | object members induction =>
    simp only [Tree.normal, Tree.numbers, normalMembers_eq_map, mem_numbersOfMembers,
      mem_sortByKey, List.mem_map]
    constructor
    · intro found
      rcases found with ⟨normal, ⟨member, isMember, equal⟩, inNormal⟩
      subst equal
      rcases (induction member isMember).mp inNormal with ⟨original, inMember, equal⟩
      exact ⟨original, ⟨member, isMember, inMember⟩, equal⟩
    · intro found
      rcases found with ⟨original, ⟨member, isMember, inMember⟩, equal⟩
      exact ⟨(member.1, member.2.normal), ⟨member, isMember, rfl⟩,
        (induction member isMember).mpr ⟨original, inMember, equal⟩⟩

theorem stringsFitItems_iff : StringsFitItems items ↔ ∀ item ∈ items, item.StringsFit := by
  induction items with
  | nil => simp [StringsFitItems]
  | cons item rest induction => simp [StringsFitItems, induction]

theorem stringsFitMembers_iff : StringsFitMembers members ↔
      ∀ member ∈ members, member.1.length ≤ bufferLimit ∧ member.2.StringsFit := by
  induction members with
  | nil => simp [StringsFitMembers]
  | cons member rest induction => simp [StringsFitMembers, induction, and_assoc]

theorem stringsFit_normal (fits : tree.StringsFit) : tree.normal.StringsFit := by
  induction tree using Tree.inductionOn with
  | null => exact trivial
  | bool value => exact trivial
  | number token => exact trivial
  | string text => exact fits
  | array items induction =>
    rw [Tree.StringsFit, stringsFitItems_iff] at fits
    rw [Tree.normal, Tree.StringsFit, stringsFitItems_iff, normalItems_eq_map]
    intro normal member
    rcases List.mem_map.mp member with ⟨item, isItem, equal⟩
    exact equal ▸ induction item isItem (fits item isItem)
  | object members induction =>
    rw [Tree.StringsFit, stringsFitMembers_iff] at fits
    rw [Tree.normal, Tree.StringsFit, stringsFitMembers_iff, normalMembers_eq_map]
    intro normal member
    rcases List.mem_map.mp (mem_sortByKey.mp member) with ⟨original, isMember, equal⟩
    have originalFits := fits original isMember
    exact equal ▸ ⟨originalFits.1, induction original isMember originalFits.2⟩

theorem normal_normal
    (stable : ∀ token ∈ tree.numbers, normalToken (normalToken token) = normalToken token) :
    tree.normal.normal = tree.normal := by
  induction tree using Tree.inductionOn with
  | null => rfl
  | bool value => rfl
  | number token =>
    rw [Tree.normal, Tree.normal, stable token (List.mem_singleton.mpr rfl)]
  | string text => rfl
  | array items induction =>
    simp only [Tree.normal, normalItems_eq_map, List.map_map]
    congr 1
    apply List.map_congr_left
    intro item member
    apply induction item member
    intro token inItem
    exact stable token (mem_numbersOfItems.mpr ⟨item, member, inItem⟩)
  | object members induction =>
    rw [Tree.normal, Tree.normal, normalMembers_eq_map (sortByKey lexLE _), sortByKey_map,
      sortByKey_of_sorted (sorted_sortByKey _), normalMembers_eq_map members, sortByKey_map,
      List.map_map]
    congr 1
    apply List.map_congr_left
    intro member found
    have isMember := mem_sortByKey.mp found
    have same := induction member isMember fun token inMember =>
      stable token (mem_numbersOfMembers.mpr ⟨member, isMember, inMember⟩)
    simp only [Function.comp_apply, same]

end AgentC.Json

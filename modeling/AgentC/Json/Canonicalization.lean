import AgentC.Json.Rendering
import Mathlib.Algebra.Order.Field.Basic

/-! # Canonicalization

Two accepted texts have the same canonical output exactly when they denote the
same value, and an output is accepted again exactly when its numbers have few
enough digits. -/

namespace AgentC.Json

def Denotes (input : Bytes) (value : Value) : Prop :=
  ∃ tree, SpellsText tree input ∧ tree.denote = value

def DistinctText (input : Bytes) : Prop :=
  ∀ tree, SpellsText tree input → tree.DistinctKeys

variable {input : Bytes} {tree : Tree}

theorem canonicalize_eq_ok {output : Bytes} :
    canonicalize input = .ok output ↔ ∃ tree, parseText input = .ok tree ∧
      (∀ token ∈ tree.numbers, Writable token) ∧ tree.normal.render.length < bufferLimit ∧
      output = tree.normal.render := by
  rw [canonicalize, bind_eq_ok]
  apply exists_congr
  intro tree
  rw [bind_eq_ok]
  apply and_congr_right
  intro parsed
  constructor
  · intro found
    rcases found with ⟨text, emitted, terminated⟩
    rcases (appends_emitValue tree [] text (Nat.zero_le _)).mp emitted with ⟨writable, _, equal⟩
    rcases bind_eq_ok.mp terminated with ⟨buffer, appended, returned⟩
    cases returned
    rw [List.nil_append] at equal
    subst equal
    exact ⟨writable, (bufAppend_eq_ok.mp appended).1, rfl⟩
  · intro conditions
    rcases conditions with ⟨writable, short, equal⟩
    subst equal
    have emitted := (appends_emitValue tree [] tree.normal.render (Nat.zero_le _)).mpr
      ⟨writable, by rw [List.length_nil, Nat.zero_add]; exact short.le, rfl⟩
    exact ⟨tree.normal.render, emitted,
      bind_eq_ok.mpr ⟨_, bufAppend_of_fits short, rfl⟩⟩

theorem isNumber_of_parseText {input : Bytes} (parsed : parseText input = .ok tree) :
    ∀ token ∈ tree.numbers, IsNumber token := by
  rcases spellsText_of_parseText parsed with ⟨before, text, after, _, spelled, _, _⟩
  exact isNumber_of_spells spelled

theorem parseText_render {input : Bytes} (parsed : parseText input = .ok tree)
    (writable : ∀ token ∈ tree.numbers, Writable token) :
    parseText tree.normal.render = .ok tree.normal := by
  have numbers : ∀ token ∈ tree.normal.numbers, IsNumber token := by
    intro token member
    rcases mem_numbers_normal.mp member with ⟨original, inTree, equal⟩
    rw [equal]
    exact isNumber_normalToken (isNumber_of_parseText parsed original inTree)
      (writable original inTree)
  rw [parseText_eq_ok]
  refine ⟨⟨[], tree.normal.render, [], allIn_nil _, spells_render numbers, allIn_nil _, ?_⟩,
    stringsFit_normal (parseText_eq_ok.mp parsed).2⟩
  rw [List.append_nil, List.nil_append]

/-- The trees the canonicalizer gets to see: their numbers can be written. -/
structure Wellformed (tree : Tree) : Prop where
  number : ∀ token ∈ tree.numbers, IsNumber token
  writable : ∀ token ∈ tree.numbers, Writable token
  distinct : tree.DistinctKeys

namespace Wellformed

theorem item {items : List Tree} (wellformed : Wellformed (.array items)) {item : Tree}
    (member : item ∈ items) : Wellformed item where
  number token found := wellformed.number token (mem_numbersOfItems.mpr ⟨item, member, found⟩)
  writable token found := wellformed.writable token (mem_numbersOfItems.mpr ⟨item, member, found⟩)
  distinct := distinctKeysItems_iff.mp wellformed.distinct item member

theorem member {members : List (Bytes × Tree)} (wellformed : Wellformed (.object members))
    {member : Bytes × Tree} (found : member ∈ members) : Wellformed member.2 where
  number token inside :=
    wellformed.number token (mem_numbersOfMembers.mpr ⟨member, found, inside⟩)
  writable token inside :=
    wellformed.writable token (mem_numbersOfMembers.mpr ⟨member, found, inside⟩)
  distinct := distinctKeysMembers_iff.mp wellformed.distinct.2 member found

end Wellformed

theorem map_fst_normalMembers (members : List (Bytes × Tree)) :
    (normalMembers members).map Prod.fst = members.map Prod.fst := by
  rw [normalMembers_eq_map, List.map_map]
  rfl

theorem mem_normalMembers {members : List (Bytes × Tree)} {key : Bytes} {normal : Tree} :
    (key, normal) ∈ normalMembers members ↔
      ∃ tree, (key, tree) ∈ members ∧ tree.normal = normal := by
  rw [normalMembers_eq_map, List.mem_map]
  constructor
  · intro found
    rcases found with ⟨⟨name, tree⟩, isMember, equal⟩
    cases equal
    exact ⟨tree, isMember, rfl⟩
  · intro found
    rcases found with ⟨tree, isMember, equal⟩
    exact ⟨(key, tree), isMember, by rw [equal]⟩

theorem denote_normal (wellformed : Wellformed tree) : tree.normal.denote = tree.denote := by
  induction tree using Tree.inductionOn with
  | null => rfl
  | bool value => rfl
  | number token =>
    have member : token ∈ (Tree.number token).numbers := List.mem_singleton.mpr rfl
    rw [Tree.normal, Tree.denote, Tree.denote,
      tokenValue_normalToken (wellformed.number token member) (wellformed.writable token member)]
  | string text => rfl
  | array items induction =>
    simp only [Tree.normal, Tree.denote, denoteItems_eq_map, normalItems_eq_map, List.map_map]
    congr 1
    exact List.map_congr_left fun item member => induction item member (wellformed.item member)
  | object members induction =>
    have distinct := wellformed.distinct.1
    have normalDistinct : ((sortByKey lexLE (normalMembers members)).map Prod.fst).Nodup := by
      apply nodup_sortByKey
      rwa [map_fst_normalMembers]
    rw [Tree.normal, Tree.denote, Tree.denote]
    congr 1
    funext key
    apply Option.ext
    intro value
    simp only [denoteMembers_eq_some normalDistinct, denoteMembers_eq_some distinct,
      mem_sortByKey, mem_normalMembers]
    constructor
    · intro found
      rcases found with ⟨normal, ⟨tree, isMember, equal⟩, denotes⟩
      subst equal
      rw [induction (key, tree) isMember (wellformed.member isMember)] at denotes
      exact ⟨tree, isMember, denotes⟩
    · intro found
      rcases found with ⟨tree, isMember, denotes⟩
      refine ⟨tree.normal, ⟨tree, isMember, rfl⟩, ?_⟩
      rw [induction (key, tree) isMember (wellformed.member isMember), denotes]

theorem normalItems_eq_of_denote {items others : List Tree}
    (normal : ∀ item ∈ items, ∀ other ∈ others, item.denote = other.denote →
      item.normal = other.normal) (same : items.map Tree.denote = others.map Tree.denote) :
    items.map Tree.normal = others.map Tree.normal := by
  induction items generalizing others with
  | nil =>
    cases others with
    | nil => rfl
    | cons => exact nomatch same
  | cons item items induction =>
    cases others with
    | nil => exact nomatch same
    | cons other others =>
      rw [List.map_cons, List.map_cons, List.cons.injEq] at same ⊢
      refine ⟨normal item (List.mem_cons_self ..) other (List.mem_cons_self ..) same.1, ?_⟩
      apply induction _ same.2
      intro item member other otherMember
      exact normal item (List.mem_cons_of_mem _ member) other
        (List.mem_cons_of_mem _ otherMember)

theorem mem_normalMembers_of_denote {members others : List (Bytes × Tree)}
    (distinct : (members.map Prod.fst).Nodup) (otherDistinct : (others.map Prod.fst).Nodup)
    (same : denoteMembers members = denoteMembers others)
    (normal : ∀ {key tree other}, (key, tree) ∈ members → (key, other) ∈ others →
      tree.denote = other.denote → tree.normal = other.normal)
    {member : Bytes × Tree} (found : member ∈ normalMembers members) :
    member ∈ normalMembers others := by
  rcases member with ⟨key, result⟩
  rcases mem_normalMembers.mp found with ⟨tree, isMember, equal⟩
  have stored := (denoteMembers_eq_some distinct).mpr ⟨tree, isMember, rfl⟩
  rw [same] at stored
  rcases (denoteMembers_eq_some otherDistinct).mp stored with ⟨other, isOther, denotes⟩
  exact mem_normalMembers.mpr
    ⟨other, isOther, by rw [← normal isMember isOther denotes.symm, equal]⟩

theorem normal_eq_of_denote {other : Tree} (wellformed : Wellformed tree)
    (otherWellformed : Wellformed other) (same : tree.denote = other.denote) :
    tree.normal = other.normal := by
  induction tree using Tree.inductionOn generalizing other with
  | null => cases other <;> simp_all [Tree.denote, Tree.normal]
  | bool value => cases other <;> simp_all [Tree.denote, Tree.normal]
  | string text => cases other <;> simp_all [Tree.denote, Tree.normal]
  | number token =>
    cases other with
    | number otherToken =>
      rw [Tree.denote, Tree.denote, Value.number.injEq] at same
      have member : token ∈ (Tree.number token).numbers := List.mem_singleton.mpr rfl
      have otherMember : otherToken ∈ (Tree.number otherToken).numbers :=
        List.mem_singleton.mpr rfl
      rw [Tree.normal, Tree.normal, normalToken_eq_of_value (wellformed.number token member)
        (otherWellformed.number otherToken otherMember) (wellformed.writable token member)
        (otherWellformed.writable otherToken otherMember) same]
    | _ => cases same
  | array items induction =>
    cases other with
    | array others =>
      rw [Tree.denote, Tree.denote, Value.array.injEq, denoteItems_eq_map,
        denoteItems_eq_map] at same
      rw [Tree.normal, Tree.normal, normalItems_eq_map, normalItems_eq_map,
        normalItems_eq_of_denote _ same]
      intro item member other otherMember
      exact induction item member (wellformed.item member) (otherWellformed.item otherMember)
    | _ => cases same
  | object members induction =>
    cases other with
    | object others =>
      rw [Tree.denote, Tree.denote, Value.object.injEq] at same
      have distinct := wellformed.distinct.1
      have otherDistinct := otherWellformed.distinct.1
      rw [Tree.normal, Tree.normal, sortByKey_unique (by rwa [map_fst_normalMembers])
        (by rwa [map_fst_normalMembers])]
      intro member
      constructor
      · apply mem_normalMembers_of_denote distinct otherDistinct same
        intro key tree other isMember isOther
        exact induction (key, tree) isMember (wellformed.member isMember)
          (otherWellformed.member isOther)
      · apply mem_normalMembers_of_denote otherDistinct distinct same.symm
        intro key tree other isOther isMember denotes
        exact (induction (key, other) isMember (wellformed.member isMember)
          (otherWellformed.member isOther) denotes.symm).symm
    | _ => cases same

theorem wellformed_of_parseText (parsed : parseText input = .ok tree)
    (writable : ∀ token ∈ tree.numbers, Writable token) (distinct : DistinctText input) :
    Wellformed tree :=
  ⟨isNumber_of_parseText parsed, writable, distinct tree (spellsText_of_parseText parsed)⟩

/-- Canonical outputs are equal exactly when the texts denote the same value. -/
theorem canonicalize_canonical {left right leftOutput rightOutput : Bytes}
    (leftAccepted : canonicalize left = .ok leftOutput)
    (rightAccepted : canonicalize right = .ok rightOutput)
    (leftDistinct : DistinctText left) (rightDistinct : DistinctText right) :
    leftOutput = rightOutput ↔ ∃ value, Denotes left value ∧ Denotes right value := by
  rcases canonicalize_eq_ok.mp leftAccepted with ⟨leftTree, leftParsed, leftWritable, _, leftEq⟩
  rcases canonicalize_eq_ok.mp rightAccepted with
    ⟨rightTree, rightParsed, rightWritable, _, rightEq⟩
  have leftWellformed := wellformed_of_parseText leftParsed leftWritable leftDistinct
  have rightWellformed := wellformed_of_parseText rightParsed rightWritable rightDistinct
  constructor
  · intro same
    have normal : leftTree.normal = rightTree.normal := by
      have leftAgain := parseText_render leftParsed leftWritable
      have rightAgain := parseText_render rightParsed rightWritable
      rw [← leftEq, same, rightEq, rightAgain] at leftAgain
      exact (Except.ok.inj leftAgain).symm
    have denotes : leftTree.denote = rightTree.denote := by
      rw [← denote_normal leftWellformed, normal, denote_normal rightWellformed]
    exact ⟨leftTree.denote, ⟨leftTree, spellsText_of_parseText leftParsed, rfl⟩,
      ⟨rightTree, spellsText_of_parseText rightParsed, denotes.symm⟩⟩
  · intro found
    rcases found with ⟨value, ⟨leftSpelled, spellsLeft, leftValue⟩,
      ⟨rightSpelled, spellsRight, rightValue⟩⟩
    rw [eq_of_spellsText leftParsed spellsLeft] at leftValue
    rw [eq_of_spellsText rightParsed spellsRight] at rightValue
    rw [leftEq, rightEq, normal_eq_of_denote leftWellformed rightWellformed
      (leftValue.trans rightValue.symm)]

def sampleSpelling : Bytes := ascii "\x7b\"b\":1.0, \"a\":\"A\"\x7d"
def sampleOtherSpelling : Bytes := ascii "\x7b\"a\":\"\\u0041\",\"b\":10e-1\x7d"

theorem canonicalize_sampleSpelling :
    canonicalize sampleSpelling = .ok (ascii "\x7b\"a\":\"A\",\"b\":1\x7d") := by decide +kernel

theorem canonicalize_sampleOtherSpelling :
    canonicalize sampleOtherSpelling = .ok (ascii "\x7b\"a\":\"A\",\"b\":1\x7d") := by
  decide +kernel

theorem distinctText_of_accepted {output : Bytes} (accepted : canonicalize input = .ok output)
    (distinct : ∀ tree ∈ (parseText input).toOption, tree.DistinctKeys) : DistinctText input := by
  rcases canonicalize_eq_ok.mp accepted with ⟨tree, parsed, _⟩
  intro other spelled
  rw [eq_of_spellsText parsed spelled]
  exact distinct tree (by rw [parsed]; rfl)

theorem canonicalize_canonical_sample :
    ∃ value, Denotes sampleSpelling value ∧ Denotes sampleOtherSpelling value :=
  (canonicalize_canonical canonicalize_sampleSpelling canonicalize_sampleOtherSpelling
    (distinctText_of_accepted canonicalize_sampleSpelling (by decide +kernel))
    (distinctText_of_accepted canonicalize_sampleOtherSpelling (by decide +kernel))).mp rfl

/-- The number can be written without an exponent and with as many digits as the
canonicalizer accepts. -/
def PlainFits (token : Bytes) : Prop :=
  ∃ integer fraction, integer ≠ [] ∧ AllIn isDigit integer ∧ AllIn isDigit fraction ∧
    integer.length + fraction.length ≤ ScannedNumber.maxDigits ∧
    |tokenValue token| = decimalValue integer fraction

/-- A written number is accepted again exactly when its plain form is short. -/
theorem writable_normalToken_iff {token : Bytes} (number : IsNumber token)
    (writable : Writable token) : Writable (normalToken token) ↔ PlainFits token := by
  rcases exists_plainForm number writable with
    ⟨negative, integer, fraction, plain, equal, value⟩
  have written := plain.numberText_text
  rw [equal]
  constructor
  · intro writableAgain
    refine ⟨integer, fraction, plain.decimal.noLeadingZero.ne_nil, plain.decimal.integerDigits,
      plain.decimal.fractionDigits, ?_, by rw [← value, abs_plainValue]⟩
    by_contra tooLong
    rcases writableAgain with ⟨text, again⟩
    rw [written, if_neg tooLong] at again
    exact nomatch again
  · intro fits
    rcases fits with
      ⟨otherInteger, otherFraction, nonempty, integerDigits, fractionDigits, short, otherValue⟩
    rw [← value, abs_plainValue] at otherValue
    have shorter := plain.decimal.length_le integerDigits fractionDigits nonempty otherValue.symm
    exact ⟨_, written.trans (if_pos (shorter.trans short))⟩

theorem normalToken_normalToken {token : Bytes} (number : IsNumber token)
    (writable : Writable token) (again : Writable (normalToken token)) :
    normalToken (normalToken token) = normalToken token := by
  rcases exists_plainForm number writable with ⟨negative, integer, fraction, plain, equal, _⟩
  have written := plain.numberText_text
  rw [equal] at again ⊢
  rcases again with ⟨text, again⟩
  rw [written] at again
  split at again
  · next short => rw [normalToken, written, if_pos short]
  · cases again

theorem canonicalize_render_iff {input : Bytes} (parsed : parseText input = .ok tree)
    (writable : ∀ token ∈ tree.numbers, Writable token)
    (short : tree.normal.render.length < bufferLimit) :
    canonicalize tree.normal.render = .ok tree.normal.render ↔
      ∀ token ∈ tree.numbers, PlainFits token := by
  have numbers := isNumber_of_parseText parsed
  have parsedAgain := parseText_render parsed writable
  rw [canonicalize_eq_ok]
  constructor
  · intro found
    rcases found with ⟨again, sameParse, writableAgain, _, _⟩
    rw [parsedAgain, Except.ok.injEq] at sameParse
    intro token member
    apply (writable_normalToken_iff (numbers token member) (writable token member)).mp
    apply writableAgain
    rw [← sameParse]
    exact mem_numbers_normal.mpr ⟨token, member, rfl⟩
  · intro fits
    have writableAgain : ∀ token ∈ tree.numbers, Writable (normalToken token) :=
      fun token member => (writable_normalToken_iff (numbers token member)
        (writable token member)).mpr (fits token member)
    have stable : tree.normal.normal = tree.normal :=
      normal_normal fun token member => normalToken_normalToken (numbers token member)
        (writable token member) (writableAgain token member)
    refine ⟨tree.normal, parsedAgain, ?_, by rwa [stable], by rw [stable]⟩
    intro token member
    rcases mem_numbers_normal.mp member with ⟨original, inTree, equal⟩
    exact equal ▸ writableAgain original inTree

theorem decimalValue_lt {integer fraction : Bytes} (integerDigits : AllIn isDigit integer)
    (fractionDigits : AllIn isDigit fraction) :
    decimalValue integer fraction < 10 ^ (integer.length + fraction.length) := by
  have bound := digitsValue_lt (allIn_append.mpr ⟨integerDigits, fractionDigits⟩)
  rw [List.length_append] at bound
  calc decimalValue integer fraction
      ≤ digitsValue (integer ++ fraction) :=
        div_le_self (Nat.cast_nonneg _) (one_le_pow₀ (by norm_num))
    _ < 10 ^ (integer.length + fraction.length) := by exact_mod_cast bound

def hugeInteger : Bytes := ascii "1e5000"

def hugeParts : NumberParts := ⟨false, ascii "1", [], 101, [], ascii "5000"⟩

theorem hugeParts_valid : hugeParts.Valid where
  integer := .inr ⟨49, [], rfl, by decide⟩
  integerDigits := by simp [AllIn, hugeParts, ascii, isDigit]
  fractionDigits := allIn_nil _
  mark := rfl
  exponentSign := .inl rfl
  exponentDigits := by simp [AllIn, hugeParts, ascii, isDigit]

theorem hugeParts_text : hugeParts.text = hugeInteger := rfl

theorem hugeInteger_isNumber : IsNumber hugeInteger :=
  ⟨hugeParts, hugeParts_valid, hugeParts_text.symm⟩

theorem parseText_hugeInteger : parseText hugeInteger = .ok (.number hugeInteger) := by
  rw [parseText_eq_ok]
  refine ⟨⟨[], hugeInteger, [], allIn_nil _, ?_, allIn_nil _, rfl⟩, trivial⟩
  rw [Spells]
  exact ⟨hugeInteger_isNumber, rfl⟩

def hugeScanned : ScannedNumber := ⟨false, ascii "1", [], 5000⟩

theorem numberText_hugeInteger : numberText hugeInteger = .ok hugeScanned.plainText := by
  have scanned : scanNumber hugeInteger = .ok hugeScanned := by decide +kernel
  rw [numberText, if_neg (by decide), scanned]
  simp only
  rw [if_neg (by decide), if_neg (by decide), if_neg (by decide)]

theorem length_hugeInteger : hugeScanned.plainText.length = 5001 := by
  have integer : hugeScanned.plainInteger = ascii "1" ++ List.replicate 5000 zeroDigit := by
    rw [ScannedNumber.plainInteger, if_neg (by decide), if_pos (by decide)]
    rfl
  have fraction : hugeScanned.plainFraction = [] := by
    rw [ScannedNumber.plainFraction, if_neg (by decide), if_pos (by decide)]
  rw [ScannedNumber.plainText, integer, fraction, if_pos rfl, List.append_nil, List.length_append,
    List.length_append, List.length_replicate]
  rfl

theorem not_plainFits_hugeInteger : ¬PlainFits hugeInteger := by
  intro fits
  rcases fits with ⟨integer, fraction, _, integerDigits, fractionDigits, short, value⟩
  have hugeValue : tokenValue hugeInteger = 10 ^ 5000 := by
    have exponent : hugeParts.exponentNumber - hugeParts.fraction.length = 5000 := by
      decide +kernel
    have digits : digitsValue (hugeParts.integer ++ hugeParts.fraction) = 1 := rfl
    have positive : ¬hugeParts.negative = true := Bool.false_ne_true
    rw [← hugeParts_text, hugeParts_valid.tokenValue_text, exponent, digits, Nat.cast_one, one_mul,
      if_neg positive, one_mul]
    exact zpow_ofNat 10 5000
  have bound := decimalValue_lt integerDigits fractionDigits
  rw [← value, hugeValue, abs_of_nonneg (by positivity)] at bound
  have smaller : (10 : ℚ) ^ (integer.length + fraction.length) ≤ 10 ^ 4096 :=
    pow_le_pow_right₀ (by norm_num) short
  have larger : (10 : ℚ) ^ 4096 ≤ 10 ^ 5000 := pow_le_pow_right₀ (by norm_num) (by norm_num)
  exact absurd (bound.trans_le smaller) (not_lt.mpr larger)

end AgentC.Json

import AgentC.Json.Pointer

/-! # What JSON pointers select

The evaluation of a pointer by RFC 6901, and when `json_pointer_get` agrees with
it. -/

namespace AgentC.Json

/-- A value of the JSON library, which counts the items of an array with 32 bits. -/
structure Document where
  root : Tree
  arrays_fit : ∀ place items, root.locate place = some (.array items) → items.length < 2 ^ 32

def Document.part (document : Document) {step : Step} {inner : Tree}
    (located : document.root.part step = some inner) : Document where
  root := inner
  arrays_fit place items found := by
    apply document.arrays_fit (step :: place)
    rw [Tree.locate, located]
    exact found

namespace Rfc6901

/-- A reference token without its escapes. Every tilde has to begin one. -/
def decodeToken : Bytes → Option Bytes
  | 126 :: 48 :: rest => (decodeToken rest).map (126 :: ·)
  | 126 :: 49 :: rest => (decodeToken rest).map (47 :: ·)
  | 126 :: _ => none
  | byte :: rest => (decodeToken rest).map (byte :: ·)
  | [] => some []

/-- `0`, or digits without a leading zero. -/
def isIndex (token : Bytes) : Bool :=
  token = [zeroDigit] ∨ token ≠ [] ∧ token.head? ≠ some zeroDigit ∧ token.all isDigit

def child (tree : Tree) (token : Bytes) : Option Tree :=
  match tree with
  | .object _ => tree.member token
  | .array items => if isIndex token then items[digitsValue token]? else none
  | _ => none

def tokens (pointer : Bytes) : Option (List Bytes) :=
  match pointer with
  | [] => some []
  | first :: path => if first = 47 then (path.splitOn 47).mapM decodeToken else none

def evaluate (root : Tree) (pointer : Bytes) : Option Tree :=
  (tokens pointer).bind fun tokens => tokens.foldlM child root

end Rfc6901

open Rfc6901

variable {token : Bytes} {inner : Tree}

theorem unescapeSegment_of_decodeToken {segment : Bytes}
    (decoded : decodeToken segment = some token) : unescapeSegment segment = token := by
  induction segment using decodeToken.induct generalizing token with
  | case1 rest induction =>
    rw [decodeToken, Option.map_eq_some_iff] at decoded
    rcases decoded with ⟨tail, decoded, rfl⟩
    rw [unescapeSegment, induction decoded]
  | case2 rest induction =>
    rw [decodeToken, Option.map_eq_some_iff] at decoded
    rcases decoded with ⟨tail, decoded, rfl⟩
    rw [unescapeSegment, induction decoded]
  | case3 rest noTilde noSlash =>
    rw [decodeToken] at decoded
    · exact nomatch decoded
    · exact noTilde
    · exact noSlash
  | case4 byte rest noTilde noSlash plain induction =>
    rw [decodeToken, Option.map_eq_some_iff] at decoded
    · rcases decoded with ⟨tail, decoded, rfl⟩
      rw [unescapeSegment, induction decoded]
      · exact noTilde
      · exact noSlash
    · exact noTilde
    · exact noSlash
    · exact plain
  | case5 =>
    rw [decodeToken] at decoded
    cases decoded
    rfl

theorem digits_of_isIndex (spelled : isIndex token = true) : token ≠ [] ∧ AllIn isDigit token := by
  rw [isIndex, decide_eq_true_iff] at spelled
  rcases spelled with zero | ⟨given, -, digits⟩
  · subst zero
    refine ⟨nofun, fun byte member => ?_⟩
    rw [List.mem_singleton.mp member]
    rfl
  · exact ⟨given, List.all_eq_true.mp digits⟩

theorem arrayIndex_of_isIndex (spelled : isIndex token = true)
    (bounded : digitsValue token < 2 ^ 32) : arrayIndex token = some (digitsValue token) := by
  rcases digits_of_isIndex spelled with ⟨given, digits⟩
  have text : cString token = token := by
    rw [cString, List.takeWhile_eq_self_iff]
    intro byte member
    have bounds := digit_bounds (digits byte member)
    exact bne_iff_ne.mpr fun zero => absurd bounds.1 (by rw [zero]; decide)
  cases token with
  | nil => exact absurd rfl given
  | cons first rest =>
    have bounds := digit_bounds (digits first (List.mem_cons_self ..))
    have noSpace : isSpace first = false := by
      rw [isSpace]
      simp only [Bool.or_eq_false_iff, Bool.and_eq_false_iff, decide_eq_false_iff_not,
        UInt8.le_iff_toNat_le, beq_eq_false_iff_ne, ne_eq]
      refine ⟨.inr (fun small => ?_), fun blank => ?_⟩
      · have : (13 : UInt8).toNat = 13 := rfl
        omega
      · rw [blank] at bounds
        exact absurd bounds.1 (by decide)
    have signless : ∀ sign : UInt8, sign.toNat < 48 → ¬(first :: rest).head? = some sign := by
      intro sign small same
      cases Option.some.inj same
      omega
    have unspaced : (first :: rest).dropWhile isSpace = first :: rest := by
      rw [List.dropWhile_cons, noSpace]
      rfl
    have all : (first :: rest).takeWhile isDigit = first :: rest :=
      List.takeWhile_eq_self_iff.mpr digits
    have none : (first :: rest).dropWhile isDigit = [] :=
      List.dropWhile_eq_nil_iff.mpr digits
    have minus := signless 45 (by decide)
    have plus := signless 43 (by decide)
    rw [arrayIndex]
    simp only [text, unspaced, minus, plus, decide_false, Bool.or_false, all, none, if_false,
      Bool.false_eq_true, List.isEmpty_cons, List.isEmpty_nil, Bool.not_true]
    congr 1
    rw [Nat.min_eq_left (by omega), Nat.mod_eq_of_lt bounded]

variable {document : Document}

/-- The code takes every step that the standard takes. -/
theorem child_of_evaluated (selected : Rfc6901.child document.root token = some inner) :
    document.root.child token = some inner := by
  cases is : document.root with
  | object members =>
    rw [is] at selected
    exact selected
  | array items =>
    rw [is, Rfc6901.child] at selected
    split at selected
    · next spelled =>
      have there := (List.getElem?_eq_some_iff.mp selected).1
      have fits := document.arrays_fit [] items (congrArg some is)
      rw [Tree.child, arrayIndex_of_isIndex spelled (there.trans fits), Option.bind_some]
      exact selected
    · cases selected
  | _ =>
    rw [is] at selected
    cases selected

theorem part_of_child {tree : Tree} (selected : tree.child token = some inner) :
    ∃ step, tree.part step = some inner := by
  cases tree with
  | object members => exact ⟨.member token, selected⟩
  | array items =>
    rcases Option.bind_eq_some_iff.mp selected with ⟨index, -, there⟩
    exact ⟨.item index, there⟩
  | _ => exact nomatch selected

def Leads : Tree → List Bytes → Prop
  | _, [] => True
  | tree, segment :: path =>
    ∃ inner, tree.child (unescapeSegment segment) = some inner ∧ Leads inner path

/-- The escapes of a segment are complete, and at an array it spells the index of
an item. -/
def Spelled (tree : Tree) (segment : Bytes) : Prop :=
  (decodeToken segment).isSome ∧
    ∀ items, tree = .array items → isIndex (unescapeSegment segment) = true ∧
      digitsValue (unescapeSegment segment) < items.length

def SpelledAlong : Tree → List Bytes → Prop
  | _, [] => True
  | tree, segment :: path =>
    Spelled tree segment ∧
      ∀ inner, tree.child (unescapeSegment segment) = some inner → SpelledAlong inner path

def evaluateSegment (tree : Tree) (segment : Bytes) : Option Tree :=
  (decodeToken segment).bind (Rfc6901.child tree)

theorem evaluate_path (root : Tree) (path : Bytes) :
    evaluate root (47 :: path) = (path.splitOn 47).foldlM evaluateSegment root := by
  rw [evaluate, tokens, if_pos rfl]
  generalize path.splitOn 47 = segments
  induction segments generalizing root with
  | nil => rfl
  | cons segment segments induction =>
    rw [List.mapM_cons, List.foldlM_cons, evaluateSegment]
    cases decodeToken segment with
    | none => rfl
    | some token =>
      simp only [Option.bind_eq_bind, Option.bind_some, Option.pure_def] at induction ⊢
      cases selected : Rfc6901.child root token with
      | none =>
        cases segments.mapM decodeToken with
        | none => rfl
        | some rest => simp only [Option.bind_some, List.foldlM_cons, selected]; rfl
      | some inner =>
        rw [Option.bind_some, ← induction inner]
        cases segments.mapM decodeToken with
        | none => rfl
        | some rest => simp only [Option.bind_some, List.foldlM_cons, selected]; rfl

theorem jsonPointerGet_path (root : Tree) (path : Bytes) :
    jsonPointerGet root (47 :: path) =
      (path.splitOn 47).foldlM (fun tree segment => tree.child (unescapeSegment segment)) root := by
  rw [jsonPointerGet, if_neg (by decide)]

section Walks

variable {document : Document} {segment : Bytes} {segments : List Bytes}

theorem child_of_evaluateSegment (selected : evaluateSegment document.root segment = some inner) :
    document.root.child (unescapeSegment segment) = some inner := by
  rcases Option.bind_eq_some_iff.mp selected with ⟨token, decoded, selected⟩
  rw [unescapeSegment_of_decodeToken decoded]
  exact child_of_evaluated selected

theorem evaluateSegment_eq_some_iff
    (selected : document.root.child (unescapeSegment segment) = some inner) :
    evaluateSegment document.root segment = some inner ↔ Spelled document.root segment := by
  constructor
  · intro evaluated
    rcases Option.bind_eq_some_iff.mp evaluated with ⟨token, decoded, evaluated⟩
    rw [Spelled, unescapeSegment_of_decodeToken decoded, decoded]
    refine ⟨rfl, fun items is => ?_⟩
    rw [is, Rfc6901.child] at evaluated
    split at evaluated
    · next spelled => exact ⟨spelled, (List.getElem?_eq_some_iff.mp evaluated).1⟩
    · exact nomatch evaluated
  · rintro ⟨escaped, spelled⟩
    rcases Option.isSome_iff_exists.mp escaped with ⟨token, decoded⟩
    rw [unescapeSegment_of_decodeToken decoded] at selected spelled
    rw [evaluateSegment, decoded, Option.bind_some]
    rw [Tree.child.eq_def] at selected
    split at selected
    · next members is => rw [is] at selected ⊢; exact selected
    · next items is =>
      have fits := document.arrays_fit [] items (congrArg some is)
      have index := spelled items is
      rw [arrayIndex_of_isIndex index.1 (index.2.trans fits), Option.bind_some] at selected
      rw [is, Rfc6901.child, if_pos index.1]
      exact selected
    · exact nomatch selected

end Walks

variable {segments : List Bytes}

theorem foldlM_child_of_evaluated {found : Tree}
    (evaluated : segments.foldlM evaluateSegment document.root = some found) :
    segments.foldlM (fun tree segment => tree.child (unescapeSegment segment)) document.root =
      some found := by
  induction segments generalizing document with
  | nil => exact evaluated
  | cons segment segments induction =>
    rw [List.foldlM_cons] at evaluated ⊢
    rcases Option.bind_eq_some_iff.mp evaluated with ⟨inner, selected, evaluated⟩
    have step := child_of_evaluateSegment selected
    rcases part_of_child step with ⟨part, located⟩
    rw [step]
    exact @induction (document.part located) evaluated

theorem leads_iff {tree : Tree} :
    Leads tree segments ↔ ∃ found,
      segments.foldlM (fun tree segment => tree.child (unescapeSegment segment)) tree =
        some found := by
  induction segments generalizing tree with
  | nil => exact ⟨fun _ => ⟨tree, rfl⟩, fun _ => trivial⟩
  | cons segment segments induction =>
    simp only [Leads, List.foldlM_cons, induction]
    constructor
    · rintro ⟨inner, selected, found, rest⟩
      exact ⟨found, Option.bind_eq_some_iff.mpr ⟨inner, selected, rest⟩⟩
    · rintro ⟨found, evaluated⟩
      rcases Option.bind_eq_some_iff.mp evaluated with ⟨inner, selected, rest⟩
      exact ⟨inner, selected, found, rest⟩

/-- On a path that leads somewhere the standard gets as far as the code exactly
when every segment is spelled. -/
theorem evaluates_iff_spelledAlong {found : Tree}
    (leads : segments.foldlM (fun tree segment => tree.child (unescapeSegment segment))
      document.root = some found) :
    segments.foldlM evaluateSegment document.root = some found ↔
      SpelledAlong document.root segments := by
  induction segments generalizing document with
  | nil => exact ⟨fun _ => trivial, fun _ => leads⟩
  | cons segment segments induction =>
    rw [List.foldlM_cons] at leads ⊢
    rcases Option.bind_eq_some_iff.mp leads with ⟨inner, selected, rest⟩
    rcases part_of_child selected with ⟨part, located⟩
    have further := @induction (document.part located) rest
    rw [SpelledAlong]
    constructor
    · intro evaluated
      rcases Option.bind_eq_some_iff.mp evaluated with ⟨reached, step, evaluated⟩
      have same : inner = reached :=
        Option.some.inj (selected.symm.trans (child_of_evaluateSegment step))
      subst same
      refine ⟨(evaluateSegment_eq_some_iff selected).mp step, fun other also => ?_⟩
      cases Option.some.inj (selected.symm.trans also)
      exact further.mp evaluated
    · rintro ⟨spelled, along⟩
      have step := (evaluateSegment_eq_some_iff selected).mpr spelled
      exact Option.bind_eq_some_iff.mpr ⟨inner, step, further.mpr (along inner selected)⟩

/-- `json_pointer_get` returns what the standard selects, and fails where it fails,
exactly on the pointers that lead nowhere or are spelled as the standard wants
it. -/
theorem jsonPointerGet_eq_evaluate_iff (document : Document) (pointer : Bytes) :
    jsonPointerGet document.root pointer = evaluate document.root pointer ↔
      ∀ path, pointer = 47 :: path → Leads document.root (path.splitOn 47) →
        SpelledAlong document.root (path.splitOn 47) := by
  cases pointer with
  | nil => exact ⟨fun _ _ is => (nomatch is), fun _ => rfl⟩
  | cons first path =>
    by_cases slash : first = 47
    · subst slash
      rw [jsonPointerGet_path, evaluate_path]
      constructor
      · intro same other is leads
        cases is
        rcases leads_iff.mp leads with ⟨found, reached⟩
        rw [reached] at same
        exact (evaluates_iff_spelledAlong reached).mp same.symm
      · intro spelled
        cases reached : (path.splitOn 47).foldlM
            (fun tree segment => tree.child (unescapeSegment segment)) document.root with
        | some found =>
          have along := spelled path rfl (leads_iff.mpr ⟨found, reached⟩)
          exact ((evaluates_iff_spelledAlong reached).mpr along).symm
        | none =>
          cases evaluated : (path.splitOn 47).foldlM evaluateSegment document.root with
          | none => rfl
          | some found =>
            exact nomatch reached.symm.trans (foldlM_child_of_evaluated evaluated)
    · have noPointer : jsonPointerGet document.root (first :: path) = none := by
        rw [jsonPointerGet, if_pos slash]
      have noTokens : evaluate document.root (first :: path) = none := by
        rw [evaluate, tokens, if_neg slash]
        rfl
      rw [noPointer, noTokens]
      refine ⟨fun _ other is => ?_, fun _ => rfl⟩
      cases is
      exact absurd rfl slash

def sampleDocument : Document where
  root := .array [.bool true]
  arrays_fit place items located := by
    cases place with
    | nil =>
      cases located
      exact Nat.one_lt_two_pow (by decide)
    | cons step place =>
      cases step with
      | member key => exact nomatch located
      | item index =>
        cases index with
        | zero =>
          cases place with
          | nil => exact nomatch located
          | cons inner place => cases inner <;> exact nomatch located
        | succ index => exact nomatch located

/-- The code reads `00`, `+0` and 2³² as the index 0. -/
theorem leading_zero_selects :
    jsonPointerGet sampleDocument.root (ascii "/00") = some (.bool true) ∧
      evaluate sampleDocument.root (ascii "/00") = none :=
  ⟨rfl, rfl⟩

end AgentC.Json

import AgentC.Json.Values

/-! # JSON pointers

`json_pointer_get` of `daemon/src/json_util.cpp`. -/

namespace AgentC.Json

inductive Step where
  | member (key : Bytes)
  | item (index : Nat)
deriving DecidableEq

namespace Tree

def part (tree : Tree) : Step → Option Tree
  | .member key => tree.member key
  | .item index =>
    match tree with
    | .array items => items[index]?
    | _ => none

def locate : List Step → Tree → Option Tree
  | [], tree => some tree
  | step :: place, tree => (tree.part step).bind (locate place)

theorem array_or_object_of_part {tree inner : Tree} {step : Step}
    (located : tree.part step = some inner) :
    (∃ items, tree = .array items) ∨ ∃ members, tree = .object members := by
  cases tree with
  | array items => exact .inl ⟨items, rfl⟩
  | object members => exact .inr ⟨members, rfl⟩
  | _ => cases step <;> exact nomatch located

end Tree

/-- `~0` and `~1` of a segment, read from the left. -/
def unescapeSegment : Bytes → Bytes
  | 126 :: 48 :: rest => 126 :: unescapeSegment rest
  | 126 :: 49 :: rest => 47 :: unescapeSegment rest
  | byte :: rest => byte :: unescapeSegment rest
  | [] => []

/-- The index that `strtoll` and the checks behind it make of a segment. The number
saturates, and is then cut to 32 bits. -/
def arrayIndex (segment : Bytes) : Option Nat :=
  let text := cString segment
  let unspaced := text.dropWhile isSpace
  let negative := unspaced.head? = some 45
  let digits := if negative || unspaced.head? = some 43 then unspaced.tail else unspaced
  let value := digitsValue (digits.takeWhile isDigit)
  if segment.isEmpty then none
  else if (digits.takeWhile isDigit).isEmpty then
    -- Without digits the end of the number is the start of the segment.
    if text.isEmpty then some 0 else none
  else if !(digits.dropWhile isDigit).isEmpty then none
  else if negative then if value = 0 then some 0 else none
  else some (min value (2 ^ 63 - 1) % 2 ^ 32)

def Tree.child (tree : Tree) (segment : Bytes) : Option Tree :=
  match tree with
  | .object _ => tree.member segment
  | .array items => (arrayIndex segment).bind fun index => items[index]?
  | _ => none

def jsonPointerGet (root : Tree) (pointer : Bytes) : Option Tree :=
  match pointer with
  | [] => some root
  | first :: path =>
    if first ≠ 47 then none
    else (path.splitOn 47).foldlM (fun tree segment => tree.child (unescapeSegment segment)) root

example : jsonPointerGet (.object [(ascii "a/b", .array [.null, .bool true])]) (ascii "/a~1b/1") =
    some (.bool true) :=
  rfl

end AgentC.Json

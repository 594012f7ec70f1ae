import AgentC.Foundation.Decimals

/-! # JSON trees and the values they denote

`Tree` is the parse tree of `core/src/agent_json_c14n.c`: strings are decoded,
numbers are kept as they were written and objects keep their pairs in order.
`Value` is what a tree means: numbers are rationals and objects are finite maps
from byte strings. -/

namespace AgentC.Json

inductive Tree
  | null
  | bool (value : Bool)
  | number (token : Bytes)
  | string (text : Bytes)
  | array (items : List Tree)
  | object (members : List (Bytes × Tree))

theorem Tree.inductionOn {motive : Tree → Prop} (tree : Tree) (null : motive .null)
    (bool : ∀ value, motive (.bool value)) (number : ∀ token, motive (.number token))
    (string : ∀ text, motive (.string text))
    (array : ∀ items, (∀ item ∈ items, motive item) → motive (.array items))
    (object : ∀ members : List (Bytes × Tree),
      (∀ member ∈ members, motive member.2) → motive (.object members)) : motive tree := by
  refine @Tree.rec motive (fun items => ∀ item ∈ items, motive item)
    (fun members => ∀ member ∈ members, motive member.2) (fun member => motive member.2)
    null bool number string array object ?_ ?_ ?_ ?_ (fun _ _ value => value) tree
  · exact fun _ member => nomatch member
  · intro first rest firstHolds restHold
    exact List.forall_mem_cons.mpr ⟨firstHolds, restHold⟩
  · exact fun _ member => nomatch member
  · intro first rest firstHolds restHold
    exact List.forall_mem_cons.mpr ⟨firstHolds, restHold⟩

def isExponentMark (byte : UInt8) : Bool :=
  byte == 101 || byte == 69

/-- The exponent of a number token: everything behind its mark. -/
def exponentValue (exponent : Bytes) : Int :=
  match exponent with
  | [] => 0
  | sign :: digits =>
    if sign = 45 then -(digitsValue digits : Int)
    else if sign = 43 then digitsValue digits
    else digitsValue exponent

def tokenValue (token : Bytes) : ℚ :=
  let magnitude := if token.head? = some 45 then token.tail else token
  let mantissa := magnitude.takeWhile fun byte => !isExponentMark byte
  let exponent := (magnitude.dropWhile fun byte => !isExponentMark byte).tail
  let integer := mantissa.takeWhile isDigit
  let fraction := (mantissa.dropWhile isDigit).tail
  (if token.head? = some 45 then -1 else 1) *
    (digitsValue (integer ++ fraction) * 10 ^ (exponentValue exponent - fraction.length))

inductive Value
  | null
  | bool (value : Bool)
  | number (value : ℚ)
  | string (text : Bytes)
  | array (items : List Value)
  | object (members : Bytes → Option Value)

mutual

def Tree.denote : Tree → Value
  | .null => .null
  | .bool value => .bool value
  | .number token => .number (tokenValue token)
  | .string text => .string text
  | .array items => .array (denoteItems items)
  | .object members => .object (denoteMembers members)

def denoteItems : List Tree → List Value
  | [] => []
  | item :: rest => item.denote :: denoteItems rest

def denoteMembers : List (Bytes × Tree) → Bytes → Option Value
  | [], _ => none
  | (name, value) :: rest, key =>
    if name = key then some value.denote else denoteMembers rest key

end

mutual

def Tree.DistinctKeys : Tree → Prop
  | .array items => DistinctKeysItems items
  | .object members => (members.map Prod.fst).Nodup ∧ DistinctKeysMembers members
  | _ => True

def DistinctKeysItems : List Tree → Prop
  | [] => True
  | item :: rest => item.DistinctKeys ∧ DistinctKeysItems rest

def DistinctKeysMembers : List (Bytes × Tree) → Prop
  | [] => True
  | (_, value) :: rest => value.DistinctKeys ∧ DistinctKeysMembers rest

end

mutual

def Tree.decideDistinctKeys : (tree : Tree) → Decidable tree.DistinctKeys
  | .array items => decideDistinctKeysItems items
  | .object members =>
    @instDecidableAnd _ _ (inferInstanceAs (Decidable (members.map Prod.fst).Nodup))
      (decideDistinctKeysMembers members)
  | .null => .isTrue trivial
  | .bool _ => .isTrue trivial
  | .number _ => .isTrue trivial
  | .string _ => .isTrue trivial

def decideDistinctKeysItems : (items : List Tree) → Decidable (DistinctKeysItems items)
  | [] => .isTrue trivial
  | item :: rest =>
    @instDecidableAnd _ _ item.decideDistinctKeys (decideDistinctKeysItems rest)

def decideDistinctKeysMembers :
    (members : List (Bytes × Tree)) → Decidable (DistinctKeysMembers members)
  | [] => .isTrue trivial
  | (_, value) :: rest =>
    @instDecidableAnd _ _ value.decideDistinctKeys (decideDistinctKeysMembers rest)

end

instance : DecidablePred Tree.DistinctKeys := Tree.decideDistinctKeys

theorem distinctKeysItems_iff {items : List Tree} :
    DistinctKeysItems items ↔ ∀ item ∈ items, item.DistinctKeys := by
  induction items with
  | nil => simp [DistinctKeysItems]
  | cons item rest induction => simp [DistinctKeysItems, induction]

variable {members : List (Bytes × Tree)}

theorem distinctKeysMembers_iff :
    DistinctKeysMembers members ↔ ∀ member ∈ members, member.2.DistinctKeys := by
  induction members with
  | nil => simp [DistinctKeysMembers]
  | cons member rest induction => simp [DistinctKeysMembers, induction]

theorem denoteItems_eq_map (items : List Tree) : denoteItems items = items.map Tree.denote := by
  induction items with
  | nil => rfl
  | cons item rest induction => rw [denoteItems, induction, List.map_cons]

theorem denoteMembers_eq_some (distinct : (members.map Prod.fst).Nodup) {key : Bytes}
    {value : Value} : denoteMembers members key = some value ↔
      ∃ tree, (key, tree) ∈ members ∧ tree.denote = value := by
  induction members with
  | nil => simp [denoteMembers]
  | cons member rest induction =>
    rcases member with ⟨name, tree⟩
    rw [List.map_cons, List.nodup_cons] at distinct
    rw [denoteMembers]
    split
    · next same =>
      subst same
      constructor
      · intro found
        exact ⟨tree, List.mem_cons_self .., Option.some.inj found⟩
      · intro found
        rcases found with ⟨other, member, denotes⟩
        rcases List.mem_cons.mp member with equal | later
        · cases equal
          rw [denotes]
        · exact absurd (List.mem_map_of_mem later) distinct.1
    · next different =>
      rw [induction distinct.2]
      constructor
      · intro found
        rcases found with ⟨other, member, denotes⟩
        exact ⟨other, List.mem_cons_of_mem _ member, denotes⟩
      · intro found
        rcases found with ⟨other, member, denotes⟩
        rcases List.mem_cons.mp member with equal | later
        · cases equal
          exact absurd rfl different
        · exact ⟨other, later, denotes⟩

end AgentC.Json

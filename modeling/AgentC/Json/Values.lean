import AgentC.Foundation.ByteOrder
import AgentC.Json.Tree

/-! # JSON values of the daemon

`Json::Value` as the handlers of the daemon read and change it, and the check
of `daemon/src/json_schema_subset.cpp`. An object is the list of its members in
the order of their keys. -/

namespace AgentC.Json

/-- What the JSON library makes of number tokens. -/
structure NumberLibrary where
  /-- `asInt64` of a number that fits, or the unsigned value taken as signed. -/
  int64 : Bytes → Option Int
  isIntegral : Bytes → Bool
  /-- `==` of two numbers. -/
  same : Bytes → Bytes → Bool

/-- `std::to_string` -/
def decimalInt (value : Int) : Bytes :=
  if value < 0 then 45 :: decimal value.natAbs else decimal value.natAbs

namespace Tree

/-- `isMember` and `operator[]` -/
def member (tree : Tree) (key : Bytes) : Option Tree :=
  match tree with
  | .object members => (members.find? fun entry => entry.1 = key).map Prod.snd
  | _ => none

def isObject : Tree → Bool
  | .object _ => true
  | _ => false

def isArray : Tree → Bool
  | .array _ => true
  | _ => false

def text (tree : Tree) (key : Bytes) : Bytes :=
  match tree.member key with
  | some (.string text) => text
  | _ => []

def boolMember (tree : Tree) (key : Bytes) : Option Bool :=
  match tree.member key with
  | some (.bool value) => some value
  | _ => none

def objectMember (tree : Tree) (key : Bytes) : Option Tree :=
  (tree.member key).filter isObject

def removeMember (tree : Tree) (key : Bytes) : Tree :=
  match tree with
  | .object members => .object (members.filter fun entry => entry.1 ≠ key)
  | other => other

/-- Assignment through `operator[]`. -/
def setMember (tree : Tree) (key : Bytes) (value : Tree) : Tree :=
  match tree with
  | .object members =>
    .object ((members.filter fun entry => entry.1 ≠ key).orderedInsert
      (fun left right => lexLE left.1 right.1) (key, value))
  | other => other

/-- An object with the given members, set one after the other. -/
def ofMembers (members : List (Bytes × Tree)) : Tree :=
  members.foldl (fun tree entry => tree.setMember entry.1 entry.2) (.object [])

def ofOptionalMembers (members : List (Bytes × Option Tree)) : Tree :=
  ofMembers (members.filterMap fun entry => entry.2.map (Prod.mk entry.1))

section Assignment

variable {Entry : Type} {before : Entry → Entry → Prop} [DecidableRel before]
  {sought : Entry → Bool} {entry : Entry} {entries : List Entry}

theorem find?_orderedInsert_of_not (other : sought entry = false) :
    (entries.orderedInsert before entry).find? sought = entries.find? sought := by
  induction entries with
  | nil => rw [List.orderedInsert, List.find?_cons, other]
  | cons first entries induction =>
    rw [List.orderedInsert]
    split
    · rw [List.find?_cons, other]
    · rw [List.find?_cons, List.find?_cons, induction]

theorem find?_orderedInsert_self (here : sought entry = true)
    (others : ∀ other ∈ entries, sought other = false) :
    (entries.orderedInsert before entry).find? sought = some entry := by
  induction entries with
  | nil => rw [List.orderedInsert, List.find?_cons, here]
  | cons first entries induction =>
    rw [List.orderedInsert]
    split
    · rw [List.find?_cons, here]
    · rw [List.find?_cons, others first (List.mem_cons_self ..)]
      exact induction fun other member => others other (List.mem_cons_of_mem first member)

end Assignment

section Members

variable {tree value : Tree} {key other : Bytes}

theorem member_removeMember_of_ne (different : other ≠ key) :
    (tree.removeMember key).member other = tree.member other := by
  cases tree with
  | object members =>
    simp only [removeMember, member, List.find?_filter]
    congr 2
    funext entry
    by_cases here : entry.1 = other
    · simp [here, different]
    · simp [here]
  | _ => rfl

theorem member_setMember_of_ne (different : other ≠ key) :
    (tree.setMember key value).member other = tree.member other := by
  cases tree with
  | object members =>
    have removed := @member_removeMember_of_ne (.object members) key other different
    simp only [removeMember, member] at removed
    simp only [setMember, member]
    rw [find?_orderedInsert_of_not, removed]
    exact decide_eq_false different.symm
  | _ => rfl

theorem member_setMember (object : tree.isObject = true) :
    (tree.setMember key value).member key = some value := by
  cases tree with
  | object members =>
    simp only [setMember, member]
    rw [find?_orderedInsert_self]
    · rfl
    · exact decide_eq_true rfl
    · intro entry there
      exact decide_eq_false (of_decide_eq_true (List.mem_filter.mp there).2)
  | _ => exact nomatch object

theorem isObject_setMember : (tree.setMember key value).isObject = tree.isObject := by
  cases tree <;> rfl

theorem isObject_removeMember : (tree.removeMember key).isObject = tree.isObject := by
  cases tree <;> rfl

theorem isObject_ofMembers (members : List (Bytes × Tree)) :
    (ofMembers members).isObject = true := by
  have kept : ∀ (members : List (Bytes × Tree)) (tree : Tree), tree.isObject = true →
      (members.foldl (fun tree entry => tree.setMember entry.1 entry.2) tree).isObject = true := by
    intro members
    induction members with
    | nil => exact fun tree object => object
    | cons entry members induction =>
      intro tree object
      exact induction _ (isObject_setMember.trans object)
  exact kept members _ rfl

theorem member_foldl_setMember {key : Bytes} {members : List (Bytes × Tree)} {tree : Tree}
    (others : key ∉ members.map Prod.fst) :
    (members.foldl (fun tree entry => tree.setMember entry.1 entry.2) tree).member key =
      tree.member key := by
  induction members generalizing tree with
  | nil => rfl
  | cons entry members induction =>
    rw [List.map_cons, List.mem_cons, not_or] at others
    rw [List.foldl_cons, induction others.2]
    exact member_setMember_of_ne others.1

theorem member_ofMembers (front rest : List (Bytes × Tree)) {key : Bytes} {value : Tree}
    (others : key ∉ rest.map Prod.fst) :
    (ofMembers (front ++ (key, value) :: rest)).member key = some value := by
  rw [ofMembers, List.foldl_append, List.foldl_cons, member_foldl_setMember others]
  exact member_setMember (isObject_ofMembers front)

variable {members : List (Bytes × Option Tree)}

theorem key_mem_of_present {key : Bytes}
    (present : key ∈ (members.filterMap fun entry => entry.2.map (Prod.mk entry.1)).map Prod.fst) :
    key ∈ members.map Prod.fst := by
  rcases List.mem_map.mp present with ⟨found, listed, rfl⟩
  rcases List.mem_filterMap.mp listed with ⟨entry, member, written⟩
  rcases Option.map_eq_some_iff.mp written with ⟨value, _, rfl⟩
  exact List.mem_map_of_mem member

theorem member_ofOptionalMembers {key : Bytes} {value : Option Tree}
    (distinct : (members.map Prod.fst).Nodup) (listed : (key, value) ∈ members) :
    (ofOptionalMembers members).member key = value := by
  rcases List.append_of_mem listed with ⟨front, rest, split⟩
  rw [split, List.map_append, List.map_cons, List.nodup_middle, List.nodup_cons,
    ← List.map_append] at distinct
  have others : key ∉ ((front ++ rest).filterMap fun entry =>
      entry.2.map (Prod.mk entry.1)).map Prod.fst := fun present =>
    distinct.1 (key_mem_of_present present)
  rw [split, ofOptionalMembers, List.filterMap_append]
  cases value with
  | none =>
    rw [List.filterMap_cons_none rfl, ← List.filterMap_append, ofMembers,
      member_foldl_setMember others]
    rfl
  | some value =>
    rw [List.filterMap_append, List.map_append, List.mem_append, not_or] at others
    rw [List.filterMap_cons]
    exact member_ofMembers _ _ others.2

theorem objectMember_setMember (inside : tree.isObject = true) (object : value.isObject = true) :
    (tree.setMember key value).objectMember key = some value := by
  rw [objectMember, member_setMember inside, Option.filter, if_pos object]

theorem isObject_of_objectMember (found : tree.objectMember key = some value) :
    tree.isObject = true ∧ value.isObject = true := by
  rw [objectMember, Option.filter_eq_some_iff] at found
  refine ⟨?_, found.2⟩
  cases tree with
  | object members => rfl
  | _ => cases found.1

end Members

end Tree

mutual

/-- `==` of two values. -/
def Tree.same (numbers : NumberLibrary) : Tree → Tree → Bool
  | .null, .null => true
  | .bool left, .bool right => left == right
  | .number left, .number right => numbers.same left right
  | .string left, .string right => left == right
  | .array left, .array right => sameItems numbers left right
  | .object left, .object right => sameMembers numbers left right
  | _, _ => false

def sameItems (numbers : NumberLibrary) : List Tree → List Tree → Bool
  | [], [] => true
  | left :: lefts, right :: rights => left.same numbers right && sameItems numbers lefts rights
  | _, _ => false

def sameMembers (numbers : NumberLibrary) : List (Bytes × Tree) → List (Bytes × Tree) → Bool
  | [], [] => true
  | (leftKey, left) :: lefts, (rightKey, right) :: rights =>
    leftKey == rightKey && left.same numbers right && sameMembers numbers lefts rights
  | _, _ => false

end

mutual

def Tree.decideEq : (left right : Tree) → Decidable (left = right)
  | .null, .null => isTrue rfl
  | .bool left, .bool right => decidable_of_decidable_of_eq (Tree.bool.injEq left right).symm
  | .number left, .number right => decidable_of_decidable_of_eq (Tree.number.injEq left right).symm
  | .string left, .string right => decidable_of_decidable_of_eq (Tree.string.injEq left right).symm
  | .array left, .array right =>
    have := decideItems left right
    decidable_of_decidable_of_eq (Tree.array.injEq left right).symm
  | .object left, .object right =>
    have := decideMembers left right
    decidable_of_decidable_of_eq (Tree.object.injEq left right).symm
  | .null, .bool _ | .null, .number _ | .null, .string _ | .null, .array _ | .null, .object _ =>
    isFalse nofun
  | .bool _, .null | .bool _, .number _ | .bool _, .string _ | .bool _, .array _
  | .bool _, .object _ => isFalse nofun
  | .number _, .null | .number _, .bool _ | .number _, .string _ | .number _, .array _
  | .number _, .object _ => isFalse nofun
  | .string _, .null | .string _, .bool _ | .string _, .number _ | .string _, .array _
  | .string _, .object _ => isFalse nofun
  | .array _, .null | .array _, .bool _ | .array _, .number _ | .array _, .string _
  | .array _, .object _ => isFalse nofun
  | .object _, .null | .object _, .bool _ | .object _, .number _ | .object _, .string _
  | .object _, .array _ => isFalse nofun

def decideItems : (left right : List Tree) → Decidable (left = right)
  | [], [] => isTrue rfl
  | [], _ :: _ | _ :: _, [] => isFalse nofun
  | left :: lefts, right :: rights =>
    have := left.decideEq right
    have := decideItems lefts rights
    decidable_of_decidable_of_eq (List.cons.injEq left lefts right rights).symm

def decideMembers : (left right : List (Bytes × Tree)) → Decidable (left = right)
  | [], [] => isTrue rfl
  | [], _ :: _ | _ :: _, [] => isFalse nofun
  | (leftKey, left) :: lefts, (rightKey, right) :: rights =>
    have := left.decideEq right
    have := decideMembers lefts rights
    decidable_of_iff (leftKey = rightKey ∧ left = right ∧ lefts = rights) <| by
      rw [List.cons.injEq, Prod.mk.injEq, and_assoc]

end

section Schemas

variable (numbers : NumberLibrary)

/-- `json_value_type_matches_string`; an unknown type matches everything. -/
def typeMatches (type : Bytes) : Tree → Bool
  | .object _ => type ∉ [ascii "array", ascii "string", ascii "boolean", ascii "integer",
      ascii "number", ascii "null"]
  | .array _ => type ∉ [ascii "object", ascii "string", ascii "boolean", ascii "integer",
      ascii "number", ascii "null"]
  | .string _ => type ∉ [ascii "object", ascii "array", ascii "boolean", ascii "integer",
      ascii "number", ascii "null"]
  | .bool _ => type ∉ [ascii "object", ascii "array", ascii "string", ascii "integer",
      ascii "number", ascii "null"]
  | .number token =>
    type ∉ [ascii "object", ascii "array", ascii "string", ascii "boolean", ascii "null"] ∧
      (type = ascii "integer" → numbers.isIntegral token)
  | .null => type ∉ [ascii "object", ascii "array", ascii "string", ascii "boolean",
      ascii "integer", ascii "number"]

def enumError (schema value : Tree) (path : Bytes) : Option Bytes :=
  match schema.member (ascii "enum") with
  | some (.array alternatives) =>
    if alternatives ≠ [] ∧ ¬alternatives.any fun alternative => alternative.same numbers value then
      some (ascii "schema enum mismatch at " ++ path)
    else none
  | _ => none

def schemaType (schema : Tree) : Bytes :=
  schema.text (ascii "type")

def typeMismatch (path expected : Bytes) : Bytes :=
  ascii "schema type mismatch at " ++ path ++ ascii " (expected " ++ expected ++ ascii ")"

def typeError (schema value : Tree) (path : Bytes) : Option Bytes :=
  if schemaType schema ≠ [] ∧ ¬typeMatches numbers (schemaType schema) value then
    some (typeMismatch path (schemaType schema))
  else none

def isObjectSchema (schema : Tree) : Bool :=
  if schemaType schema = [] then
    (schema.member (ascii "properties")).isSome || (schema.member (ascii "required")).isSome ||
      (schema.member (ascii "additionalProperties")).isSome
  else schemaType schema = ascii "object"

def isArraySchema (schema : Tree) : Bool :=
  if schemaType schema = [] then (schema.member (ascii "items")).isSome
  else schemaType schema = ascii "array"

def requiredError (schema : Tree) (members : List (Bytes × Tree)) (path : Bytes) : Option Bytes :=
  match schema.member (ascii "required") with
  | some (.array keys) =>
    keys.findSome? fun entry =>
      match entry with
      | .string key =>
        if key ≠ [] ∧ ((Tree.object members).member key).isNone then
          some (ascii "missing required property at " ++ path ++ ascii ": " ++ key)
        else none
      | _ => none
  | _ => none

def additionalError (schema : Tree) (members : List (Bytes × Tree)) (path : Bytes) :
    Option Bytes :=
  if schema.boolMember (ascii "additionalProperties") = some false then
    members.findSome? fun entry =>
      match schema.objectMember (ascii "properties") with
      | none => some (ascii "unknown property at " ++ path ++ ascii ": " ++ entry.1)
      | some properties =>
        if (properties.member entry.1).isNone then
          some (ascii "unknown property at " ++ path ++ ascii ": " ++ entry.1)
        else none
  else none

mutual

/-- `json_schema_subset_validate_best_effort`: the error, if there is one. -/
def schemaError (schema : Tree) (path : Bytes) : Tree → Option Bytes
  | .object members =>
    if schema.isObject then
      (enumError numbers schema (.object members) path).or <|
        (typeError numbers schema (.object members) path).or <|
          (if isObjectSchema schema then
            (requiredError schema members path).or <|
              (additionalError schema members path).or <|
                match schema.objectMember (ascii "properties") with
                | some properties => memberErrors properties path members
                | none => none
          else none).or <|
            if isArraySchema schema then some (typeMismatch path (ascii "array")) else none
    else none
  | .array items =>
    if schema.isObject then
      (enumError numbers schema (.array items) path).or <|
        (typeError numbers schema (.array items) path).or <|
          (if isObjectSchema schema then some (typeMismatch path (ascii "object")) else none).or <|
            if isArraySchema schema then
              match schema.objectMember (ascii "items") with
              | some item => itemErrors item path 0 items
              | none => none
            else none
    else none
  | value =>
    if schema.isObject then
      (enumError numbers schema value path).or <|
        (typeError numbers schema value path).or <|
          (if isObjectSchema schema then some (typeMismatch path (ascii "object")) else none).or <|
            if isArraySchema schema then some (typeMismatch path (ascii "array")) else none
    else none

def memberErrors (properties : Tree) (path : Bytes) : List (Bytes × Tree) → Option Bytes
  | [] => none
  | (key, value) :: rest =>
    (match properties.objectMember key with
      | some schema =>
        schemaError schema (if path = [] then key else path ++ ascii "." ++ key) value
      | none => none).or (memberErrors properties path rest)

def itemErrors (schema : Tree) (path : Bytes) : Nat → List Tree → Option Bytes
  | _, [] => none
  | index, item :: rest =>
    (schemaError schema (path ++ ascii "[" ++ decimal index ++ ascii "]") item).or
      (itemErrors schema path (index + 1) rest)

end

end Schemas

end AgentC.Json

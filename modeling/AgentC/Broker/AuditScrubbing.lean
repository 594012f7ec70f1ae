import AgentC.Foundation.EntryMaps
import AgentC.Foundation.GoStrings
import AgentC.Json.Canonicalization
import AgentC.Json.Values

/-! # Scrubbing of audit rows

`scrubJSONForAudit` of `internal/broker/orchestrate.go`: what is stored of requests and
responses. The maps of a decoded document are scrubbed in place while a loop goes over them
in an order of its own. -/

namespace AgentC.Broker.AuditScrubbing

open AgentC.Json (Tree)

/-- What `json.Unmarshal` makes of a document. A map is the list of its entries in the order
of their keys. -/
inductive AnyValue (Number : Type)
  | null
  | bool (value : Bool)
  | number (value : Number)
  | string (text : Bytes)
  | array (items : List (AnyValue Number))
  | object (entries : List (Bytes × AnyValue Number))

abbrev AnyMap (Number : Type) := List (Bytes × AnyValue Number)

/-- What is used of `encoding/json`, with its `float64` numbers. -/
structure EncodingJson (Number : Type) where
  /-- The tree of a text, if its syntax is that of JSON. -/
  syntaxTree : Bytes → Option Tree
  /-- `strconv.ParseFloat`, for numbers in the range of a `float64`. -/
  parseFloat : Bytes → Option Number
  marshal : AnyValue Number → Option Bytes

/-- `maxNestingDepth` -/
def maxNestingDepth : Nat := 10000

mutual

def nestingOf : Tree → Nat
  | .array items => itemsNesting items + 1
  | .object members => membersNesting members + 1
  | _ => 0

def itemsNesting : List Tree → Nat
  | [] => 0
  | item :: rest => max (nestingOf item) (itemsNesting rest)

def membersNesting : List (Bytes × Tree) → Nat
  | [] => 0
  | (_, value) :: rest => max (nestingOf value) (membersNesting rest)

end

section Decoding

variable {Number : Type} (parseFloat : Bytes → Option Number)

mutual

def decodeValue : Tree → Option (AnyValue Number)
  | .null => some .null
  | .bool value => some (.bool value)
  | .number token => (parseFloat token).map .number
  | .string text => some (.string text)
  | .array items => (decodeItems items).map .array
  | .object members =>
    (decodeMembers members).map fun members => .object (EntryMap.assignAll lexLE members)

def decodeItems : List Tree → Option (List (AnyValue Number))
  | [] => some []
  | item :: rest => do
    let item ← decodeValue item
    let rest ← decodeItems rest
    return item :: rest

def decodeMembers : List (Bytes × Tree) → Option (List (Bytes × AnyValue Number))
  | [] => some []
  | (key, value) :: rest => do
    let value ← decodeValue value
    let rest ← decodeMembers rest
    return (key, value) :: rest

end

end Decoding

variable {Number : Type}

def EncodingJson.unmarshal (json : EncodingJson Number) (raw : Bytes) :
    Option (AnyValue Number) := do
  let tree ← json.syntaxTree raw
  if maxNestingDepth < nestingOf tree then none else decodeValue json.parseFloat tree

section Keys

variable (lower : LowerCase)

def keyOf (key : Bytes) : Bytes :=
  lower.lower (trimSpace key)

def secretKeys : List Bytes :=
  [ascii "api_key", ascii "authorization", ascii "x-agentd-authorization", ascii "token",
    ascii "password", ascii "secret"]

def droppedKeys : List Bytes :=
  [ascii "trace_text", ascii "http_body", ascii "events"]

def redacted : AnyValue Number :=
  .string (ascii "[redacted]")

/-- One turn of the loop of `scrubValue` over a map. The value that stands with the key has
been scrubbed. -/
def scrubEntry (entries : AnyMap Number) (visited : Bytes × AnyValue Number) : AnyMap Number :=
  if keyOf lower visited.1 ∈ secretKeys then
    EntryMap.assign lexLE visited.1 redacted entries
  else if keyOf lower visited.1 ∈ droppedKeys then EntryMap.delete visited.1 entries
  else EntryMap.assign lexLE visited.1 visited.2 entries

/-- The place of a value in a document: the indices and keys that lead to it. -/
abbrev Place := List (Nat ⊕ Bytes)

/-- The orders in which the loops over the maps of a document go. -/
structure IterationOrders (Number : Type) where
  order : Place → AnyMap Number → AnyMap Number
  perm : ∀ place entries, (order place entries).Perm entries

variable (orders : IterationOrders Number)

mutual

/-- `scrubValue`, at a place. -/
def scrubValue (place : Place) : AnyValue Number → AnyValue Number
  | .array items => .array (scrubItems place 0 items)
  | .object entries =>
    .object ((orders.order place (scrubChildren place entries)).foldl (scrubEntry lower) entries)
  | other => other

def scrubItems (place : Place) (index : Nat) : List (AnyValue Number) → List (AnyValue Number)
  | [] => []
  | item :: rest =>
    scrubValue (place ++ [.inl index]) item :: scrubItems place (index + 1) rest

def scrubChildren (place : Place) : AnyMap Number → AnyMap Number
  | [] => []
  | (key, value) :: rest =>
    (key, scrubValue (place ++ [.inr key]) value) :: scrubChildren place rest

end

def maxAuditBytes : Nat := 256 * 1024

def scrubJSONForAudit (json : EncodingJson Number) (raw : Bytes) : Bytes :=
  match json.unmarshal raw with
  | none => ascii "\x7b\x7d"
  | some value =>
    match json.marshal (scrubValue lower orders [] value) with
    | none => ascii "\x7b\x7d"
    | some out =>
      if out = [] then ascii "\x7b\x7d"
      else if maxAuditBytes < out.length then
        ascii "\x7b\"ok\":true,\"truncated\":true\x7d"
      else out

def Hides (key : Bytes) : Prop :=
  keyOf lower key ∈ secretKeys ∨ keyOf lower key ∈ droppedKeys

instance (key : Bytes) : Decidable (Hides lower key) :=
  inferInstanceAs (Decidable (_ ∨ _))

mutual

/-- The document with nothing under the keys that hide. -/
def blanked : Tree → Tree
  | .array items => .array (blankedItems items)
  | .object members => .object (blankedMembers members)
  | other => other

def blankedItems : List Tree → List Tree
  | [] => []
  | item :: rest => blanked item :: blankedItems rest

def blankedMembers : List (Bytes × Tree) → List (Bytes × Tree)
  | [] => []
  | (key, value) :: rest =>
    (key, if Hides lower key then .null else blanked value) :: blankedMembers rest

end

/-- The documents differ only in the values under keys that hide them. -/
def DifferInHidden (left right : Tree) : Prop :=
  blanked lower left = blanked lower right

instance (left right : Tree) : Decidable (DifferInHidden lower left right) :=
  Tree.decideEq (blanked lower left) (blanked lower right)

mutual

def veiled : AnyValue Number → AnyValue Number
  | .array items => .array (veiledItems items)
  | .object entries => .object (veiledEntries entries)
  | other => other

def veiledItems : List (AnyValue Number) → List (AnyValue Number)
  | [] => []
  | item :: rest => veiled item :: veiledItems rest

def veiledEntries : AnyMap Number → AnyMap Number
  | [] => []
  | (key, value) :: rest =>
    (key, if Hides lower key then .null else veiled value) :: veiledEntries rest

end

def outcome (visited : Bytes × AnyValue Number) : Option (AnyValue Number) :=
  if keyOf lower visited.1 ∈ secretKeys then some redacted
  else if keyOf lower visited.1 ∈ droppedKeys then none
  else some visited.2

mutual

def scrubbed : AnyValue Number → AnyValue Number
  | .array items => .array (scrubbedItems items)
  | .object entries => .object (scrubbedEntries entries)
  | other => other

def scrubbedItems : List (AnyValue Number) → List (AnyValue Number)
  | [] => []
  | item :: rest => scrubbed item :: scrubbedItems rest

def scrubbedEntries : AnyMap Number → AnyMap Number
  | [] => []
  | (key, value) :: rest =>
    ((outcome lower (key, scrubbed value)).map (Prod.mk key)).toList ++ scrubbedEntries rest

end

end Keys

mutual

def DistinctKeys : AnyValue Number → Prop
  | .array items => DistinctItems items
  | .object entries => (EntryMap.keys entries).Nodup ∧ DistinctEntries entries
  | _ => True

def DistinctItems : List (AnyValue Number) → Prop
  | [] => True
  | item :: rest => DistinctKeys item ∧ DistinctItems rest

def DistinctEntries : AnyMap Number → Prop
  | [] => True
  | (_, value) :: rest => DistinctKeys value ∧ DistinctEntries rest

end

theorem AnyValue.inductionOn {motive : AnyValue Number → Prop} (value : AnyValue Number)
    (null : motive .null) (bool : ∀ value, motive (.bool value))
    (number : ∀ value, motive (.number value)) (string : ∀ text, motive (.string text))
    (array : ∀ items, (∀ item ∈ items, motive item) → motive (.array items))
    (object : ∀ entries : AnyMap Number,
      (∀ entry ∈ entries, motive entry.2) → motive (.object entries)) : motive value := by
  refine @AnyValue.rec Number motive (fun items => ∀ item ∈ items, motive item)
    (fun entries => ∀ entry ∈ entries, motive entry.2) (fun entry => motive entry.2)
    null bool number string array object ?_ ?_ ?_ ?_ (fun _ _ value => value) value
  · exact fun _ member => nomatch member
  · intro first rest firstHolds restHold
    exact List.forall_mem_cons.mpr ⟨firstHolds, restHold⟩
  · exact fun _ member => nomatch member
  · intro first rest firstHolds restHold
    exact List.forall_mem_cons.mpr ⟨firstHolds, restHold⟩

theorem distinctItems_iff {items : List (AnyValue Number)} :
    DistinctItems items ↔ ∀ item ∈ items, DistinctKeys item := by
  induction items with
  | nil => exact ⟨fun _ => nofun, fun _ => trivial⟩
  | cons item rest induction => rw [DistinctItems, List.forall_mem_cons, induction]

variable {entries : AnyMap Number} {value : AnyValue Number} {tree : Tree}

theorem distinctEntries_iff :
    DistinctEntries entries ↔ ∀ entry ∈ entries, DistinctKeys entry.2 := by
  induction entries with
  | nil => exact ⟨fun _ => nofun, fun _ => trivial⟩
  | cons entry rest induction => rw [DistinctEntries, List.forall_mem_cons, induction]

section Lists

variable (lower : LowerCase)

theorem veiledItems_eq_map (items : List (AnyValue Number)) :
    veiledItems lower items = items.map (veiled lower) := by
  induction items with
  | nil => rfl
  | cons item rest induction => rw [veiledItems, List.map_cons, induction]

def veiledUnder (key : Bytes) (value : AnyValue Number) : AnyValue Number :=
  if Hides lower key then .null else veiled lower value

theorem veiledEntries_eq_map (entries : AnyMap Number) :
    veiledEntries lower entries =
      entries.map fun entry => (entry.1, veiledUnder lower entry.1 entry.2) := by
  induction entries with
  | nil => rfl
  | cons entry rest induction => rw [veiledEntries, List.map_cons, induction]; rfl

theorem scrubbedItems_eq_map (items : List (AnyValue Number)) :
    scrubbedItems lower items = items.map (scrubbed lower) := by
  induction items with
  | nil => rfl
  | cons item rest induction => rw [scrubbedItems, List.map_cons, induction]

theorem scrubbedEntries_eq (entries : AnyMap Number) :
    scrubbedEntries lower entries = entries.filterMap fun entry =>
      (outcome lower (entry.1, scrubbed lower entry.2)).map (Prod.mk entry.1) := by
  induction entries with
  | nil => rfl
  | cons entry rest induction =>
    rw [scrubbedEntries, List.filterMap_cons, induction]
    cases outcome lower (entry.1, scrubbed lower entry.2) <;> rfl

end Lists

section Orders

variable (lower : LowerCase) (orders : IterationOrders Number)

theorem scrubEntry_turns :
    EntryMap.Turns (scrubEntry lower) (outcome lower : Bytes × AnyValue Number → _) := by
  intro entries visited present
  rw [scrubEntry, outcome]
  split
  · exact EntryMap.assign_of_mem present redacted
  · split
    · rfl
    · exact EntryMap.assign_of_mem present visited.2

theorem scrubItems_eq {items : List (AnyValue Number)}
    (each : ∀ item ∈ items, ∀ place, scrubValue lower orders place item = scrubbed lower item)
    (place : Place) (index : Nat) :
    scrubItems lower orders place index items = scrubbedItems lower items := by
  induction items generalizing index with
  | nil => rfl
  | cons item rest induction =>
    rw [List.forall_mem_cons] at each
    rw [scrubItems, scrubbedItems, each.1, induction each.2]

theorem scrubChildren_eq
    (each : ∀ entry ∈ entries, ∀ place,
      scrubValue lower orders place entry.2 = scrubbed lower entry.2) (place : Place) :
    scrubChildren lower orders place entries =
      entries.map fun entry => (entry.1, scrubbed lower entry.2) := by
  induction entries with
  | nil => rfl
  | cons entry rest induction =>
    rw [List.forall_mem_cons] at each
    rw [scrubChildren, List.map_cons, each.1, induction each.2]

/-- Whatever orders the loops go in, every entry is scrubbed on its own. -/
theorem scrubValue_eq (distinct : DistinctKeys value) (place : Place) :
    scrubValue lower orders place value = scrubbed lower value := by
  induction value using AnyValue.inductionOn generalizing place with
  | array items induction =>
    have each := distinctItems_iff.mp distinct
    rw [scrubValue, scrubbed,
      scrubItems_eq lower orders fun item member => induction item member (each item member)]
  | object entries induction =>
    have each := distinctEntries_iff.mp distinct.2
    have children := scrubChildren_eq lower orders
      (fun entry member => induction entry member (each entry member)) place
    have loop := EntryMap.foldl_turns (scrubEntry_turns lower)
      (orders.perm place (scrubChildren lower orders place entries))
      (by rw [children]; exact EntryMap.keys_map (fun _ => scrubbed lower) entries) distinct.1
    rw [scrubValue, scrubbed, loop, children, List.filterMap_map, scrubbedEntries_eq]
    rfl
  | _ => rfl

end Orders

section Decoded

variable (lower : LowerCase) {parseFloat : Bytes → Option Number}

variable {values : List (AnyValue Number)} {members : List (Bytes × Tree)}

theorem decodeItems_cons_eq_some {item : Tree} {rest : List Tree}
    (decoded : decodeItems parseFloat (item :: rest) = some values) :
    ∃ first others, decodeValue parseFloat item = some first ∧
      decodeItems parseFloat rest = some others ∧ values = first :: others := by
  rw [decodeItems] at decoded
  rcases Option.bind_eq_some_iff.mp decoded with ⟨first, decodedFirst, continued⟩
  rcases Option.bind_eq_some_iff.mp continued with ⟨others, decodedOthers, done⟩
  exact ⟨first, others, decodedFirst, decodedOthers, (Option.some.inj done).symm⟩

theorem decodeMembers_cons_eq_some {member : Bytes × Tree} {rest : List (Bytes × Tree)}
    (decoded : decodeMembers parseFloat (member :: rest) = some entries) :
    ∃ first others, decodeValue parseFloat member.2 = some first ∧
      decodeMembers parseFloat rest = some others ∧ entries = (member.1, first) :: others := by
  rw [decodeMembers] at decoded
  rcases Option.bind_eq_some_iff.mp decoded with ⟨first, decodedFirst, continued⟩
  rcases Option.bind_eq_some_iff.mp continued with ⟨others, decodedOthers, done⟩
  exact ⟨first, others, decodedFirst, decodedOthers, (Option.some.inj done).symm⟩

theorem mem_decodeItems {items : List Tree} (decoded : decodeItems parseFloat items = some values) :
    ∀ value ∈ values, ∃ item ∈ items, decodeValue parseFloat item = some value := by
  induction items generalizing values with
  | nil =>
    cases decoded
    exact nofun
  | cons item rest induction =>
    rcases decodeItems_cons_eq_some decoded with ⟨first, others, decodedFirst, decodedOthers, rfl⟩
    refine List.forall_mem_cons.mpr ⟨⟨item, List.mem_cons_self, decodedFirst⟩, ?_⟩
    intro value member
    rcases induction decodedOthers value member with ⟨other, inRest, decodedOther⟩
    exact ⟨other, List.mem_cons_of_mem item inRest, decodedOther⟩

theorem mem_decodeMembers (decoded : decodeMembers parseFloat members = some entries) :
    ∀ entry ∈ entries, ∃ member ∈ members, decodeValue parseFloat member.2 = some entry.2 := by
  induction members generalizing entries with
  | nil =>
    cases decoded
    exact nofun
  | cons member rest induction =>
    rcases decodeMembers_cons_eq_some decoded with ⟨first, others, decodedFirst, decodedOthers, rfl⟩
    refine List.forall_mem_cons.mpr ⟨⟨member, List.mem_cons_self, decodedFirst⟩, ?_⟩
    intro entry inOthers
    rcases induction decodedOthers entry inOthers with ⟨other, inRest, decodedOther⟩
    exact ⟨other, List.mem_cons_of_mem member inRest, decodedOther⟩

theorem distinctKeys_of_decode (decoded : decodeValue parseFloat tree = some value) :
    DistinctKeys value := by
  induction tree using Tree.inductionOn generalizing value with
  | array items induction =>
    rw [decodeValue] at decoded
    rcases Option.map_eq_some_iff.mp decoded with ⟨values, decodedItems, rfl⟩
    apply distinctItems_iff.mpr
    intro value member
    rcases mem_decodeItems decodedItems value member with ⟨item, inItems, decodedItem⟩
    exact induction item inItems decodedItem
  | object members induction =>
    rw [decodeValue] at decoded
    rcases Option.map_eq_some_iff.mp decoded with ⟨entries, decodedMembers, rfl⟩
    refine ⟨EntryMap.nodup_assignAll entries, distinctEntries_iff.mpr ?_⟩
    intro entry member
    have inEntries := EntryMap.mem_assignAll entry member
    rcases mem_decodeMembers decodedMembers entry inEntries with ⟨named, inMembers, decodedMember⟩
    exact induction named inMembers decodedMember
  | number token =>
    rcases Option.map_eq_some_iff.mp decoded with ⟨_, _, rfl⟩
    trivial
  | _ =>
    cases decoded
    trivial

theorem decodeItems_blanked {items : List Tree}
    (each : ∀ item ∈ items, ∀ {value : AnyValue Number}, decodeValue parseFloat item = some value →
      decodeValue parseFloat (blanked lower item) = some (veiled lower value))
    (decoded : decodeItems parseFloat items = some values) :
    decodeItems parseFloat (blankedItems lower items) = some (veiledItems lower values) := by
  induction items generalizing values with
  | nil =>
    cases decoded
    rfl
  | cons item rest induction =>
    rw [List.forall_mem_cons] at each
    rcases decodeItems_cons_eq_some decoded with ⟨first, others, decodedFirst, decodedOthers, rfl⟩
    rw [blankedItems, decodeItems, each.1 decodedFirst, induction each.2 decodedOthers]
    rfl

theorem decodeMembers_blanked (each : ∀ member ∈ members, ∀ {value : AnyValue Number},
      decodeValue parseFloat member.2 = some value →
        decodeValue parseFloat (blanked lower member.2) = some (veiled lower value))
    (decoded : decodeMembers parseFloat members = some entries) :
    decodeMembers parseFloat (blankedMembers lower members) =
      some (veiledEntries lower entries) := by
  induction members generalizing entries with
  | nil =>
    cases decoded
    rfl
  | cons member rest induction =>
    rw [List.forall_mem_cons] at each
    rcases decodeMembers_cons_eq_some decoded with ⟨first, others, decodedFirst, decodedOthers, rfl⟩
    have under : decodeValue parseFloat
        (if Hides lower member.1 then .null else blanked lower member.2) =
          some (if Hides lower member.1 then .null else veiled lower first) := by
      split
      · rfl
      · exact each.1 decodedFirst
    rw [blankedMembers, decodeMembers, under, induction each.2 decodedOthers]
    rfl

theorem decode_blanked (decoded : decodeValue parseFloat tree = some value) :
    decodeValue parseFloat (blanked lower tree) = some (veiled lower value) := by
  induction tree using Tree.inductionOn generalizing value with
  | array items induction =>
    rw [decodeValue] at decoded
    rcases Option.map_eq_some_iff.mp decoded with ⟨values, decodedItems, rfl⟩
    rw [blanked, decodeValue, decodeItems_blanked lower induction decodedItems]
    rfl
  | object members induction =>
    rw [decodeValue] at decoded
    rcases Option.map_eq_some_iff.mp decoded with ⟨entries, decodedMembers, rfl⟩
    rw [blanked, decodeValue, decodeMembers_blanked lower induction decodedMembers, veiled,
      veiledEntries_eq_map, veiledEntries_eq_map, EntryMap.map_assignAll]
    rfl
  | number token =>
    rcases Option.map_eq_some_iff.mp decoded with ⟨number, _, rfl⟩
    exact decoded
  | _ =>
    cases decoded
    rfl

theorem outcome_of_hides {key : Bytes} (hides : Hides lower key)
    (value other : AnyValue Number) : outcome lower (key, value) = outcome lower (key, other) := by
  rw [outcome, outcome]
  rcases hides with secret | dropped
  · rw [if_pos secret, if_pos secret]
  · rw [if_pos dropped, if_pos dropped]

theorem scrubbed_veiled (value : AnyValue Number) :
    scrubbed lower (veiled lower value) = scrubbed lower value := by
  induction value using AnyValue.inductionOn with
  | array items induction =>
    rw [veiled, scrubbed, scrubbed, scrubbedItems_eq_map, scrubbedItems_eq_map,
      veiledItems_eq_map, List.map_map]
    exact congrArg _ (List.map_congr_left induction)
  | object entries induction =>
    rw [veiled, scrubbed, scrubbed, scrubbedEntries_eq, scrubbedEntries_eq,
      veiledEntries_eq_map, List.filterMap_map]
    apply congrArg
    apply List.filterMap_congr
    intro entry member
    rw [Function.comp_apply, veiledUnder]
    apply congrArg
    split
    · next hides => exact outcome_of_hides lower hides _ _
    · rw [induction entry member]
  | _ => rfl

end Decoded

theorem decode_of_unmarshal {json : EncodingJson Number} {raw : Bytes}
    (document : json.syntaxTree raw = some tree) (accepted : json.unmarshal raw = some value) :
    decodeValue json.parseFloat tree = some value := by
  rw [EncodingJson.unmarshal, document] at accepted
  change (if maxNestingDepth < nestingOf tree then none else decodeValue json.parseFloat tree) =
    some value at accepted
  split at accepted
  · cases accepted
  · exact accepted

/-- What is scrubbed of a document is decided by the blanked one. -/
theorem scrubbed_eq_of_differInHidden {parseFloat : Bytes → Option Number} {lower : LowerCase}
    {otherTree : Tree} (same : DifferInHidden lower tree otherTree) {other : AnyValue Number}
    (decoded : decodeValue parseFloat tree = some value)
    (otherDecoded : decodeValue parseFloat otherTree = some other) :
    scrubbed lower value = scrubbed lower other := by
  have veiled := decode_blanked lower decoded
  rw [show blanked lower tree = blanked lower otherTree from same,
    decode_blanked lower otherDecoded] at veiled
  rw [← scrubbed_veiled lower value, ← scrubbed_veiled lower other, Option.some.inj veiled]

/-- The rows of two documents that differ only in what their keys hide are the same, whatever
orders the loops go in, if `json.Unmarshal` accepts both documents or neither. -/
theorem audit_hides_secrets (json : EncodingJson Number) (lower : LowerCase)
    (orders otherOrders : IterationOrders Number) {raw other : Bytes} {tree otherTree : Tree}
    (document : json.syntaxTree raw = some tree)
    (otherDocument : json.syntaxTree other = some otherTree)
    (same : DifferInHidden lower tree otherTree)
    (accepted : (json.unmarshal raw).isSome = (json.unmarshal other).isSome) :
    scrubJSONForAudit lower orders json raw = scrubJSONForAudit lower otherOrders json other := by
  rw [scrubJSONForAudit, scrubJSONForAudit]
  cases first : json.unmarshal raw with
  | none =>
    rw [first, Option.isSome_none, eq_comm, Option.isSome_eq_false_iff, Option.isNone_iff_eq_none]
      at accepted
    rw [accepted]
  | some value =>
    rw [first, Option.isSome_some, eq_comm, Option.isSome_iff_exists] at accepted
    rcases accepted with ⟨otherValue, second⟩
    have decoded := decode_of_unmarshal document first
    have otherDecoded := decode_of_unmarshal otherDocument second
    rw [second]
    dsimp only
    rw [scrubValue_eq lower orders (distinctKeys_of_decode decoded) [],
      scrubValue_eq lower otherOrders (distinctKeys_of_decode otherDecoded) [],
      scrubbed_eq_of_differInHidden same decoded otherDecoded]

def inOrder : IterationOrders Number where
  order _ entries := entries
  perm _ entries := List.Perm.refl entries

def backwards : IterationOrders Number where
  order _ entries := entries.reverse
  perm _ entries := entries.reverse_perm

mutual

def treeOf : AnyValue Nat → Tree
  | .null => .null
  | .bool value => .bool value
  | .number value => .number (decimal value)
  | .string text => .string text
  | .array items => .array (itemTrees items)
  | .object entries => .object (memberTrees entries)

def itemTrees : List (AnyValue Nat) → List Tree
  | [] => []
  | item :: rest => treeOf item :: itemTrees rest

def memberTrees : AnyMap Nat → List (Bytes × Tree)
  | [] => []
  | (key, value) :: rest => (key, treeOf value) :: memberTrees rest

end

/-- A version that reads no numbers but those of a few digits. -/
def shortNumbers : EncodingJson Nat where
  syntaxTree raw := (Json.parseText raw).toOption
  parseFloat token :=
    if token.all isDigit ∧ token.length ≤ 15 then some (digitsValue token) else none
  marshal value := some (treeOf value).render

def numberedRequest : Bytes :=
  ascii "\x7b\"id\":7,\"auth\":[\x7b\" Token\":12\x7d],\"events\":[1]\x7d"

def textRequest : Bytes :=
  ascii "\x7b\"id\":7,\"auth\":[\x7b\" Token\":\"s\"\x7d],\"events\":\x7b\x7d\x7d"

def requestTree (raw : Bytes) : Tree :=
  (shortNumbers.syntaxTree raw).getD .null

theorem syntaxTree_request {raw : Bytes} (valid : (shortNumbers.syntaxTree raw).isSome = true) :
    shortNumbers.syntaxTree raw = some (requestTree raw) := by
  rcases Option.isSome_iff_exists.mp valid with ⟨tree, parsed⟩
  rw [requestTree, parsed, Option.getD_some]

theorem audit_hides_secrets_sample :
    scrubJSONForAudit .asciiOnly inOrder shortNumbers numberedRequest =
      scrubJSONForAudit .asciiOnly backwards shortNumbers textRequest :=
  audit_hides_secrets shortNumbers .asciiOnly inOrder backwards
    (syntaxTree_request (by decide +kernel)) (syntaxTree_request (by decide +kernel))
    (by decide +kernel) (by decide +kernel)

example : scrubJSONForAudit .asciiOnly backwards shortNumbers textRequest =
    ascii "\x7b\"auth\":[\x7b\" Token\":\"[redacted]\"\x7d],\"id\":7\x7d" := by
  decide +kernel

/-- A token that `json.Unmarshal` refuses, a number out of range, makes the row empty. -/
theorem refused_token_shows : ¬∀ (raw other : Bytes) (tree otherTree : Tree),
    shortNumbers.syntaxTree raw = some tree → shortNumbers.syntaxTree other = some otherTree →
      DifferInHidden .asciiOnly tree otherTree →
        scrubJSONForAudit .asciiOnly inOrder shortNumbers raw =
          scrubJSONForAudit .asciiOnly inOrder shortNumbers other := by
  intro always
  have same := always (ascii "\x7b\"token\":1e999\x7d") (ascii "\x7b\"token\":7\x7d") _ _
    (syntaxTree_request (by decide +kernel)) (syntaxTree_request (by decide +kernel))
    (by decide +kernel)
  exact absurd same (by decide +kernel)

end AgentC.Broker.AuditScrubbing

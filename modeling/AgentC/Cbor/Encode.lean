import AgentC.Cbor.Item
import AgentC.Foundation.BigEndian
import AgentC.Foundation.Fallible

/-! # The daemon's encoder

`daemon/src/cbor_encode.cpp`. What the source appends to `out` is returned. -/

namespace AgentC.Cbor

/-- `append_ai_u64`; `major` is already shifted. -/
def appendAi (major : UInt8) (n : Nat) : Bytes :=
  if n < 24 then [major ||| UInt8.ofNat n]
  else if n ≤ 0xff then [major ||| 24, UInt8.ofNat n]
  else if n ≤ 0xffff then (major ||| 25) :: beBytes 2 n
  else if n ≤ 0xffffffff then (major ||| 26) :: beBytes 4 n
  else (major ||| 27) :: beBytes 8 n

def encodeText (text : Bytes) : Bytes :=
  appendAi majorText text.length ++ text

/-- The branches for `isInt64` and `isUInt64`. -/
def encodeInteger (number : Integer64) : Bytes :=
  if number.value ≤ 2 ^ 63 - 1 then
    if 0 ≤ number.value then appendAi majorUint number.value.toNat
    else appendAi majorNegative (-1 - number.value).toNat
  else appendAi majorUint number.value.toNat

def encodeReal (bits : UInt64) : Bytes :=
  0xfb :: beBytes 8 bits.toNat

def encodeBool (value : Bool) : Bytes :=
  [if value then 0xf5 else 0xf4]

def checkDepth (depth : Nat) : Except String Unit :=
  if 64 < depth then .error "cbor: max depth exceeded" else .ok ()

/-- The loop of `encode_array` over its encoded items. -/
def appendItems : List (Except String Bytes) → Except String Bytes
  | [] => .ok []
  | item :: rest => do
    let bytes ← item
    let more ← appendItems rest
    return bytes ++ more

/-- The loop of `encode_object` over its sorted keys. -/
def appendMembers : List (Bytes × Except String Bytes) → Except String Bytes
  | [] => .ok []
  | (key, value) :: rest => do
    let bytes ← value
    let more ← appendMembers rest
    return encodeText key ++ bytes ++ more

mutual

def encodeAny : Item → Nat → Except String Bytes
  | .null, depth => do
    checkDepth depth
    return [0xf6]
  | .bool value, depth => do
    checkDepth depth
    return encodeBool value
  | .real bits, depth => do
    checkDepth depth
    return encodeReal bits
  | .integer number, depth => do
    checkDepth depth
    return encodeInteger number
  | .string text, depth => do
    checkDepth depth
    return encodeText text
  | .array items, depth => do
    checkDepth depth
    let body ← appendItems (encodeItems items (depth + 1))
    return appendAi majorArray items.length ++ body
  | .object members, depth => do
    checkDepth depth
    let body ← appendMembers (sortByKey lengthFirstLE (encodeValues members (depth + 1)))
    return appendAi majorMap members.length ++ body

def encodeItems : List Item → Nat → List (Except String Bytes)
  | [], _ => []
  | item :: rest, depth => encodeAny item depth :: encodeItems rest depth

def encodeValues : List (Bytes × Item) → Nat → List (Bytes × Except String Bytes)
  | [], _ => []
  | (key, value) :: rest, depth => (key, encodeAny value depth) :: encodeValues rest depth

end

/-- `cbor_encode_json_value`. -/
def cborEncode (item : Item) : Except String Bytes := do
  let bytes ← encodeAny item 0
  if 4 * 1024 * 1024 < bytes.length then .error "cbor: encoded body too large"
  else return bytes

mutual

def Item.encoding : Item → Bytes
  | .null => [0xf6]
  | .bool value => encodeBool value
  | .real bits => encodeReal bits
  | .integer number => encodeInteger number
  | .string text => encodeText text
  | .array items => appendAi majorArray items.length ++ (encodings items).flatten
  | .object members => appendAi majorMap members.length ++
      (sortByKey lengthFirstLE (memberEncodings members)).flatMap fun member =>
        encodeText member.1 ++ member.2

def encodings : List Item → List Bytes
  | [] => []
  | item :: rest => item.encoding :: encodings rest

def memberEncodings : List (Bytes × Item) → List (Bytes × Bytes)
  | [] => []
  | (key, value) :: rest => (key, value.encoding) :: memberEncodings rest

end

theorem appendAi_ne_nil (major : UInt8) (n : Nat) : appendAi major n ≠ [] := by
  rw [appendAi]
  split
  · exact nofun
  · split
    · exact nofun
    · split
      · exact nofun
      · split
        · exact nofun
        · exact nofun

variable (items : List Item) (members : List (Bytes × Item)) (encode : Item → Except String Bytes)
variable {item : Item}

theorem encodeItems_eq_map (depth : Nat) :
    encodeItems items depth = items.map fun item => encodeAny item depth := by
  induction items with
  | nil => rfl
  | cons item rest induction => rw [encodeItems, induction, List.map_cons]

theorem encodeValues_eq_map (depth : Nat) :
    encodeValues members depth = members.map fun member =>
      (member.1, encodeAny member.2 depth) := by
  induction members with
  | nil => rfl
  | cons member rest induction => rw [encodeValues, induction, List.map_cons]

theorem encodings_eq_map : encodings items = items.map Item.encoding := by
  induction items with
  | nil => rfl
  | cons item rest induction => rw [encodings, induction, List.map_cons]

theorem memberEncodings_eq_map :
    memberEncodings members = members.map fun member => (member.1, member.2.encoding) := by
  induction members with
  | nil => rfl
  | cons member rest induction => rw [memberEncodings, induction, List.map_cons]

theorem encoding_object :
    (Item.object members).encoding = appendAi majorMap members.length ++
      (sortByKey lengthFirstLE members).flatMap fun member =>
        encodeText member.1 ++ member.2.encoding := by
  rw [Item.encoding, memberEncodings_eq_map, sortByKey_map, List.flatMap_map]

theorem encoding_array : (Item.array items).encoding =
      appendAi majorArray items.length ++ items.flatMap Item.encoding := by
  rw [Item.encoding, encodings_eq_map]
  rfl

theorem checkDepth_eq_ok {depth : Nat} {result : Unit} :
    checkDepth depth = .ok result ↔ depth ≤ 64 := by
  rw [checkDepth]
  split
  · next deep => exact ⟨fun equal => (nomatch equal), fun shallow => absurd deep (by omega)⟩
  · next shallow => exact ⟨fun _ => by omega, fun _ => rfl⟩

theorem appendItems_eq_ok {entries : List Item}
    (each : ∀ entry ∈ entries, ∀ bytes, encode entry = .ok bytes → bytes = entry.encoding)
    {body : Bytes} (appended : appendItems (entries.map encode) = .ok body) :
    body = entries.flatMap Item.encoding := by
  induction entries generalizing body with
  | nil =>
    cases appended
    rfl
  | cons entry rest induction =>
    rw [List.map_cons, appendItems, bind_eq_ok] at appended
    rcases appended with ⟨bytes, encoded, rest⟩
    rcases bind_eq_ok.mp rest with ⟨more, appended, equal⟩
    cases equal
    rw [each entry (List.mem_cons_self ..) bytes encoded,
      induction (fun other member => each other (List.mem_cons_of_mem _ member)) appended]
    rfl

variable {entries : List (Bytes × Item)}

theorem appendMembers_eq_ok
    (each : ∀ entry ∈ entries, ∀ bytes, encode entry.2 = .ok bytes → bytes = entry.2.encoding)
    {body : Bytes}
    (appended : appendMembers (entries.map fun entry => (entry.1, encode entry.2)) = .ok body) :
    body = entries.flatMap fun entry => encodeText entry.1 ++ entry.2.encoding := by
  induction entries generalizing body with
  | nil =>
    cases appended
    rfl
  | cons entry rest induction =>
    rw [List.map_cons, appendMembers, bind_eq_ok] at appended
    rcases appended with ⟨bytes, encoded, rest⟩
    rcases bind_eq_ok.mp rest with ⟨more, appended, equal⟩
    cases equal
    rw [each entry (List.mem_cons_self ..) bytes encoded,
      induction (fun other member => each other (List.mem_cons_of_mem _ member)) appended]
    rfl

theorem encodeAny_eq_ok {depth : Nat} {bytes : Bytes} (encoded : encodeAny item depth = .ok bytes) :
    bytes = item.encoding := by
  induction item using Item.inductionOn generalizing depth bytes with
  | null =>
    rcases bind_eq_ok.mp encoded with ⟨_, _, equal⟩
    cases equal
    rfl
  | bool value =>
    rcases bind_eq_ok.mp encoded with ⟨_, _, equal⟩
    cases equal
    rfl
  | integer number =>
    rcases bind_eq_ok.mp encoded with ⟨_, _, equal⟩
    cases equal
    rfl
  | real bits =>
    rcases bind_eq_ok.mp encoded with ⟨_, _, equal⟩
    cases equal
    rfl
  | string text =>
    rcases bind_eq_ok.mp encoded with ⟨_, _, equal⟩
    cases equal
    rfl
  | array items induction =>
    rcases bind_eq_ok.mp encoded with ⟨_, _, rest⟩
    rcases bind_eq_ok.mp rest with ⟨body, appended, equal⟩
    cases equal
    rw [encodeItems_eq_map] at appended
    rw [encoding_array, appendItems_eq_ok (fun item => encodeAny item (depth + 1))
      (fun entry member bytes encoded => induction entry member encoded) appended]
  | object members induction =>
    rcases bind_eq_ok.mp encoded with ⟨_, _, rest⟩
    rcases bind_eq_ok.mp rest with ⟨body, appended, equal⟩
    cases equal
    rw [encodeValues_eq_map, sortByKey_map fun value => encodeAny value (depth + 1)] at appended
    rw [encoding_object, appendMembers_eq_ok (fun value => encodeAny value (depth + 1))
      (fun entry member bytes encoded => induction entry (mem_sortByKey.mp member) encoded)
      appended]

theorem cborEncode_eq_ok {bytes : Bytes} (encoded : cborEncode item = .ok bytes) :
    bytes = item.encoding := by
  rcases bind_eq_ok.mp encoded with ⟨result, encoded, sized⟩
  split at sized
  · exact nomatch sized
  · cases sized
    exact encodeAny_eq_ok encoded

theorem appendItems_of_ok {entries : List Item} {encode : Item → Except String Bytes}
    (each : ∀ entry ∈ entries, encode entry = .ok entry.encoding) :
    appendItems (entries.map encode) = .ok (entries.flatMap Item.encoding) := by
  induction entries with
  | nil => rfl
  | cons entry rest induction =>
    have first := each entry (List.mem_cons_self ..)
    have later := induction fun other member => each other (List.mem_cons_of_mem _ member)
    rw [List.map_cons, appendItems, first, later]
    rfl

theorem appendMembers_of_ok (each : ∀ entry ∈ entries, encode entry.2 = .ok entry.2.encoding) :
    appendMembers (entries.map fun entry => (entry.1, encode entry.2)) =
      .ok (entries.flatMap fun entry => encodeText entry.1 ++ entry.2.encoding) := by
  induction entries with
  | nil => rfl
  | cons entry rest induction =>
    have first := each entry (List.mem_cons_self ..)
    have later := induction fun other member => each other (List.mem_cons_of_mem _ member)
    rw [List.map_cons, appendMembers, first, later]
    rfl

theorem encodeAny_of_shallow {depth : Nat} (shallow : item.height + depth ≤ 64) :
    encodeAny item depth = .ok item.encoding := by
  have checked : checkDepth depth = .ok () := checkDepth_eq_ok.mpr (by omega)
  induction item using Item.inductionOn generalizing depth with
  | null =>
    rw [encodeAny, checked]
    rfl
  | bool value =>
    rw [encodeAny, checked]
    rfl
  | integer number =>
    rw [encodeAny, checked]
    rfl
  | real bits =>
    rw [encodeAny, checked]
    rfl
  | string text =>
    rw [encodeAny, checked]
    rfl
  | array items induction =>
    rw [Item.height] at shallow
    have each : ∀ item ∈ items, encodeAny item (depth + 1) = .ok item.encoding := by
      intro item member
      have bound := height_le_of_mem_items member
      exact induction item member (by omega) (checkDepth_eq_ok.mpr (by omega))
    rw [encodeAny, checked, encodeItems_eq_map, appendItems_of_ok each, encoding_array]
    rfl
  | object members induction =>
    rw [Item.height] at shallow
    have each : ∀ member ∈ sortByKey lengthFirstLE members,
        encodeAny member.2 (depth + 1) = .ok member.2.encoding := by
      intro member isMember
      have bound := height_le_of_mem_members (mem_sortByKey.mp isMember)
      exact induction member (mem_sortByKey.mp isMember) (by omega)
        (checkDepth_eq_ok.mpr (by omega))
    rw [encodeAny, checked, encodeValues_eq_map,
      sortByKey_map fun value => encodeAny value (depth + 1),
      appendMembers_of_ok (fun value => encodeAny value (depth + 1)) each, encoding_object]
    rfl

theorem cborEncode_of_shallow (shallow : item.height ≤ 64)
    (short : item.encoding.length ≤ 4 * 1024 * 1024) : cborEncode item = .ok item.encoding := by
  rw [cborEncode, encodeAny_of_shallow shallow]
  exact if_neg (by omega)

/-! ## Data items of definite length

Byte strings that are one data item, whatever the width of their heads, the order of
their keys and the types that occur in them. Indefinite lengths are left out. -/

def majorBytes : UInt8 := 0x40
def majorTag : UInt8 := 0xc0
def majorSimple : UInt8 := 0xe0

/-- A head: the major type with a number, in any of the widths that hold it. -/
inductive IsHead (major : UInt8) : Nat → Bytes → Prop
  | short {n : Nat} (small : n < 24) : IsHead major n [major ||| UInt8.ofNat n]
  | wide {n ai width : Nat} (listed : (ai, width) ∈ [(24, 1), (25, 2), (26, 4), (27, 8)])
      (bounded : n < 256 ^ width) :
      IsHead major n ((major ||| UInt8.ofNat ai) :: beBytes width n)

/-- One data item. The containers and tags in it are nested at most `levels` deep, and
the number of entries of every container satisfies a condition. -/
inductive DefiniteItem (few : Nat → Prop) : Nat → Bytes → Prop
  | number {levels n : Nat} {head : Bytes}
      (isHead : IsHead majorUint n head ∨ IsHead majorNegative n head) :
      DefiniteItem few levels head
  | string {levels : Nat} {head content : Bytes}
      (isHead : IsHead majorBytes content.length head ∨ IsHead majorText content.length head) :
      DefiniteItem few levels (head ++ content)
  | array {levels : Nat} {head : Bytes} {items : List Bytes}
      (isHead : IsHead majorArray items.length head) (isFew : few items.length)
      (each : ∀ item ∈ items, DefiniteItem few levels item) :
      DefiniteItem few (levels + 1) (head ++ items.flatten)
  | map {levels : Nat} {head : Bytes} {pairs : List (Bytes × Bytes)}
      (isHead : IsHead majorMap pairs.length head) (isFew : few pairs.length)
      (keys : ∀ pair ∈ pairs, DefiniteItem few levels pair.1)
      (values : ∀ pair ∈ pairs, DefiniteItem few levels pair.2) :
      DefiniteItem few (levels + 1) (head ++ pairs.flatMap fun pair => pair.1 ++ pair.2)
  | tag {levels n : Nat} {head item : Bytes} (isHead : IsHead majorTag n head)
      (tagged : DefiniteItem few levels item) : DefiniteItem few (levels + 1) (head ++ item)
  | simple {levels n : Nat} {head : Bytes} (isHead : IsHead majorSimple n head) :
      DefiniteItem few levels head

variable {few : Nat → Prop}

theorem DefiniteItem.mono {levels more : Nat} {item : Bytes}
    (definite : DefiniteItem few levels item) (le : levels ≤ more) :
    DefiniteItem few more item := by
  induction definite generalizing more with
  | number isHead => exact .number isHead
  | string isHead => exact .string isHead
  | array isHead isFew each induction =>
    rcases Nat.exists_eq_add_of_lt le with ⟨rest, equal⟩
    subst equal
    exact .array isHead isFew fun item member => induction item member (by omega)
  | map isHead isFew keys values keysInduction valuesInduction =>
    rcases Nat.exists_eq_add_of_lt le with ⟨rest, equal⟩
    subst equal
    exact .map isHead isFew (fun pair member => keysInduction pair member (by omega))
      fun pair member => valuesInduction pair member (by omega)
  | tag isHead tagged induction =>
    rcases Nat.exists_eq_add_of_lt le with ⟨rest, equal⟩
    subst equal
    exact .tag isHead (induction (by omega))
  | simple isHead => exact .simple isHead

/-- A member: the head of its key, the key and its value. -/
structure TextEntry where
  keyHead : Bytes
  key : Bytes
  value : Bytes

def TextEntry.bytes (entry : TextEntry) : Bytes :=
  entry.keyHead ++ entry.key ++ entry.value

/-- A map with these members. -/
structure TextMap (few : Nat → Prop) (levels : Nat) (entries : List TextEntry)
    (bytes : Bytes) : Prop where
  layout : ∃ head, IsHead majorMap entries.length head ∧
    bytes = head ++ entries.flatMap TextEntry.bytes
  isFew : few entries.length
  keys : ∀ entry ∈ entries, IsHead majorText entry.key.length entry.keyHead
  values : ∀ entry ∈ entries, DefiniteItem few levels entry.value

theorem TextMap.definite {levels : Nat} {entries : List TextEntry} {bytes : Bytes}
    (textMap : TextMap few levels entries bytes) : DefiniteItem few (levels + 1) bytes := by
  rcases textMap.layout with ⟨head, isHead, equal⟩
  have pairs : entries.flatMap TextEntry.bytes =
      (entries.map fun entry => (entry.keyHead ++ entry.key, entry.value)).flatMap
        fun pair => pair.1 ++ pair.2 := by
    rw [List.flatMap_map]
    rfl
  rw [equal, pairs]
  refine .map ?_ ?_ ?_ ?_
  · rw [List.length_map]
    exact isHead
  · rw [List.length_map]
    exact textMap.isFew
  · intro pair member
    rcases List.mem_map.mp member with ⟨entry, isEntry, same⟩
    rw [← same]
    exact .string (.inr (textMap.keys entry isEntry))
  · intro pair member
    rcases List.mem_map.mp member with ⟨entry, isEntry, same⟩
    rw [← same]
    exact textMap.values entry isEntry

theorem isHead_appendAi (major : UInt8) {n : Nat} (bounded : n < 2 ^ 64) :
    IsHead major n (appendAi major n) := by
  rw [appendAi]
  split
  · next small => exact .short small
  · split
    · next byte =>
      have single : [UInt8.ofNat n] = beBytes 1 n := by
        rw [beBytes, beBytes, pow_zero, Nat.div_one, Nat.mod_eq_of_lt (by omega)]
      rw [single]
      exact .wide (by decide) (by omega)
    · split
      · exact .wide (by decide) (by omega)
      · split
        · exact .wide (by decide) (by omega)
        · exact .wide (by decide) (by omega)

end AgentC.Cbor

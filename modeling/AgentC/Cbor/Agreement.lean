import AgentC.Cbor.Encode
import AgentC.Cbor.Writer

/-! # Both encoders agree

The core library's writer produces the bytes of the daemon's encoder. -/

namespace AgentC.Cbor

def Writes (write : Write) (bytes : Bytes) : Prop :=
  ∀ writer : Writer, writer.bytes.length + bytes.length ≤ writer.cap →
    ∃ after, write writer = .ok after ∧ after.cap = writer.cap ∧
      after.bytes = writer.bytes ++ bytes

theorem writes_put (chunk : Bytes) : Writes (Writer.put chunk) chunk := by
  intro writer room
  rw [Writer.put, dif_pos room]
  exact ⟨_, rfl, rfl, rfl⟩

theorem writes_nothing : Writes (fun writer => .ok writer) [] := by
  intro writer room
  exact ⟨writer, rfl, rfl, (List.append_nil _).symm⟩

theorem Writes.andThen {first second : Write} {bytes more : Bytes} (writes : Writes first bytes)
    (writesMore : Writes second more) :
    Writes (fun writer => first writer >>= second) (bytes ++ more) := by
  intro writer room
  rw [List.length_append] at room
  rcases writes writer (by omega) with ⟨middle, written, sameCap, middleBytes⟩
  have roomMore : middle.bytes.length + more.length ≤ middle.cap := by
    rw [middleBytes, sameCap, List.length_append]
    omega
  rcases writesMore middle roomMore with ⟨after, writtenMore, sameCapMore, afterBytes⟩
  refine ⟨after, bind_eq_ok.mpr ⟨middle, written, writtenMore⟩, sameCapMore.trans sameCap, ?_⟩
  rw [afterBytes, middleBytes, List.append_assoc]

theorem writes_putAi (major : UInt8) (n : Nat) : Writes (putAi major n) (appendAi major n) := by
  rw [putAi, appendAi]
  split
  · exact writes_put _
  · split
    · exact writes_put _
    · split
      · exact writes_put _
      · split
        · exact writes_put _
        · exact writes_put _

theorem writes_writeText (text : Bytes) : Writes (writeText text) (encodeText text) :=
  (writes_putAi majorText text.length).andThen (writes_put text)

theorem writes_integer (number : Integer64) :
    Writes (if number.value ≤ 2 ^ 63 - 1 then writeInt number.value
      else writeUint number.value.toNat) (encodeInteger number) := by
  simp only [encodeInteger, writeInt, writeUint]
  split
  · split
    · exact writes_putAi _ _
    · exact writes_putAi _ _
  · exact writes_putAi _ _

theorem writes_writeRawCborItem {item : Bytes} (nonempty : item ≠ []) :
    Writes (writeRawCborItem item) item := by
  intro writer room
  rw [writeRawCborItem, if_neg nonempty]
  exact writes_put item writer room

theorem keyLess_iff {left right : Bytes} : keyLess left right = true ↔ ¬lengthFirstLE right left := by
  rw [keyLess, lengthFirstLE]
  by_cases same : left.length = right.length
  · rw [if_neg (not_not.mpr same)]
    split
    · next empty =>
      have leftEmpty := List.length_eq_zero_iff.mp empty
      have rightEmpty := List.length_eq_zero_iff.mp (same.symm.trans empty)
      subst leftEmpty rightEmpty
      decide
    · have swapped := @Std.OrientedCmp.eq_swap Bytes compare _ right left
      rw [lexLE, swapped, same]
      cases compare left right <;> simp [Ordering.swap]
  · rw [if_pos same, decide_eq_true_eq]
    omega

theorem keyEqual_iff {left right : Bytes} : keyEqual left right = true ↔ left = right := by
  rw [keyEqual]
  by_cases same : left.length = right.length
  · rw [if_neg (not_not.mpr same)]
    split
    · next empty =>
      have leftEmpty := List.length_eq_zero_iff.mp empty
      have rightEmpty := List.length_eq_zero_iff.mp (same.symm.trans empty)
      simp [leftEmpty, rightEmpty]
    · exact beq_iff_eq
  · rw [if_pos same]
    exact ⟨fun impossible => (nomatch impossible), fun equal => absurd (congrArg _ equal) same⟩

section Pairs

variable {α : Type}

theorem insertDown_eq_orderedInsert (pair : Bytes × α) (sorted : List (Bytes × α)) :
    insertDown pair sorted = sorted.orderedInsert (fun left right => keyLE lengthFirstLE right left)
      pair := by
  induction sorted with
  | nil => rfl
  | cons last rest induction =>
    rw [insertDown, List.orderedInsert_cons]
    by_cases less : keyLess pair.1 last.1 = true
    · have greater : ¬keyLE lengthFirstLE last pair := keyLess_iff.mp less
      rw [if_pos less, if_neg greater, induction]
    · have le : keyLE lengthFirstLE last pair :=
        not_not.mp fun greater => less (keyLess_iff.mpr greater)
      rw [if_neg less, if_pos le]

variable (pairs : List (Bytes × α))

theorem sortPairs_eq :
    sortPairs pairs = (pairs.reverse.insertionSort fun left right =>
      keyLE lengthFirstLE right left).reverse := by
  rw [sortPairs, List.insertionSort, List.foldr_reverse]
  simp only [insertDown_eq_orderedInsert]

theorem perm_sortPairs : (sortPairs pairs).Perm pairs := by
  rw [sortPairs_eq]
  exact (List.reverse_perm _).trans ((List.perm_insertionSort _ _).trans (List.reverse_perm pairs))

theorem sorted_sortPairs : (sortPairs pairs).Pairwise (keyLE lengthFirstLE) := by
  rw [sortPairs_eq, List.pairwise_reverse]
  have total : Std.Total fun left right : Bytes × α => keyLE lengthFirstLE right left :=
    ⟨fun left right => Std.Total.total right.1 left.1⟩
  have transitive : IsTrans (Bytes × α) fun left right => keyLE lengthFirstLE right left :=
    ⟨fun first second third le ge => IsTrans.trans third.1 second.1 first.1 ge le⟩
  exact List.pairwise_insertionSort _ _

theorem sortPairs_eq_sortByKey {pairs : List (Bytes × α)}
    (distinct : (pairs.map Prod.fst).Nodup) : sortPairs pairs = sortByKey lengthFirstLE pairs := by
  apply eq_of_perm_of_sorted ((perm_sortPairs pairs).trans (perm_sortByKey pairs).symm) _
    (sorted_sortPairs pairs) (sorted_sortByKey pairs)
  exact ((perm_sortPairs pairs).map Prod.fst).nodup_iff.mpr distinct

theorem hasEqualNeighbours_of_distinct {pairs : List (Bytes × α)}
    (distinct : (pairs.map Prod.fst).Nodup) : hasEqualNeighbours pairs = false := by
  induction pairs with
  | nil => rfl
  | cons first rest induction =>
    rw [List.map_cons, List.nodup_cons] at distinct
    cases rest with
    | nil => rfl
    | cons second rest =>
      have different : keyEqual first.1 second.1 = false := by
        rw [Bool.eq_false_iff, Ne, keyEqual_iff]
        intro equal
        exact distinct.1 (equal ▸ List.mem_cons_self ..)
      rw [hasEqualNeighbours, different, induction distinct.2]
      rfl

end Pairs

theorem writes_writePairs {entries : List (Bytes × Item)} {write : Item → Write}
    (each : ∀ entry ∈ entries, Writes (write entry.2) entry.2.encoding) :
    Writes (writePairs (entries.map fun entry => (entry.1, write entry.2)))
      (entries.flatMap fun entry => encodeText entry.1 ++ entry.2.encoding) := by
  induction entries with
  | nil => exact writes_nothing
  | cons entry rest induction =>
    have first := each entry (List.mem_cons_self ..)
    have later := induction fun other member => each other (List.mem_cons_of_mem _ member)
    rw [List.flatMap_cons, List.append_assoc]
    exact (writes_writeText entry.1).andThen (first.andThen later)

/-- The keys of an object that the writer accepts. -/
structure AcceptedKeys (keys : List Bytes) : Prop where
  distinct : keys.Nodup
  few : keys.length ≤ maxMapPairs
  nonempty : ∀ key ∈ keys, key ≠ []

variable {members : List (Bytes × Item)}

theorem writes_writeMapSorted (write : Item → Write)
    (accepted : AcceptedKeys (members.map Prod.fst))
    (each : ∀ member ∈ members, Writes (write member.2) member.2.encoding) :
    Writes (writeMapSorted (members.map fun member => (member.1, write member.2)))
      (Item.object members).encoding := by
  have keys : (members.map fun member => (member.1, write member.2)).map Prod.fst =
      members.map Prod.fst := by
    rw [List.map_map]
    rfl
  have sorted : sortPairs (members.map fun member => (member.1, write member.2)) =
      (sortByKey lengthFirstLE members).map fun member => (member.1, write member.2) := by
    rw [sortPairs_eq_sortByKey (by rw [keys]; exact accepted.distinct), sortByKey_map]
  have few : ¬maxMapPairs < (members.map fun member => (member.1, write member.2)).length := by
    have few := accepted.few
    rw [List.length_map] at few ⊢
    omega
  have named : (members.map fun member => (member.1, write member.2)).any
      (fun pair => pair.1.length == 0) = false := by
    rw [Bool.eq_false_iff, Ne, List.any_eq_true]
    intro found
    rcases found with ⟨pair, isPair, empty⟩
    apply accepted.nonempty pair.1 (by rw [← keys]; exact List.mem_map_of_mem isPair)
    simpa using empty
  have distinct : hasEqualNeighbours
      (sortPairs (members.map fun member => (member.1, write member.2))) = false := by
    apply hasEqualNeighbours_of_distinct
    rw [((perm_sortPairs _).map Prod.fst).nodup_iff, keys]
    exact accepted.distinct
  intro writer room
  rw [writeMapSorted, if_neg few, named, if_neg Bool.false_ne_true, distinct,
    if_neg Bool.false_ne_true, sorted, List.length_map]
  rw [encoding_object] at room ⊢
  exact ((writes_putAi majorMap members.length).andThen (writes_writePairs fun entry member =>
    each entry (mem_sortByKey.mp member))) writer room

theorem encoding_ne_nil (item : Item) : item.encoding ≠ [] := by
  have head := appendAi_ne_nil
  cases item with
  | null => rintro ⟨⟩
  | bool value => rintro ⟨⟩
  | integer number =>
    rw [Item.encoding, encodeInteger]
    split
    · split
      · exact head _ _
      · exact head _ _
    · exact head _ _
  | real bits => rintro ⟨⟩
  | string text => simp [Item.encoding, encodeText, head]
  | array items => simp [Item.encoding, head]
  | object members => simp [Item.encoding, head]

theorem length_le_flatMap {α : Type} {entries : List α} {entry : α} (encode : α → Bytes)
    (member : entry ∈ entries) : (encode entry).length ≤ (entries.flatMap encode).length := by
  induction entries with
  | nil => exact nomatch member
  | cons first rest induction =>
    rw [List.flatMap_cons, List.length_append]
    rcases List.mem_cons.mp member with equal | later
    · rw [equal]
      omega
    · have shorter := induction later
      omega

variable {capacity : Nat}

theorem encodeMembers_eq
    (each : ∀ member ∈ members, Writes (writeItem capacity member.2) member.2.encoding)
    (fits : ∀ member ∈ members, member.2.encoding.length ≤ capacity) :
    encodeMembers capacity members =
      .ok (members.map fun member => (member.1, member.2.encoding)) := by
  induction members with
  | nil => rfl
  | cons member rest induction =>
    have first := each member (List.mem_cons_self ..) (.init capacity)
      (by simpa [Writer.init] using fits member (List.mem_cons_self ..))
    rcases first with ⟨after, written, _, bytes⟩
    have later := induction (fun other found => each other (List.mem_cons_of_mem _ found))
      fun other found => fits other (List.mem_cons_of_mem _ found)
    rw [Writer.init, List.nil_append] at bytes
    rw [encodeMembers, written, later, List.map_cons, ← bytes]
    rfl

theorem writes_writeItems {items : List Item}
    (each : ∀ item ∈ items, Writes (writeItem capacity item) item.encoding) :
    Writes (writeItems capacity items) (items.flatMap Item.encoding) := by
  induction items with
  | nil => exact writes_nothing
  | cons item rest induction =>
    exact (each item (List.mem_cons_self ..)).andThen
      (induction fun other member => each other (List.mem_cons_of_mem _ member))

theorem writes_writeItem {item : Item} (accepted : item.Every (fun _ => True) AcceptedKeys)
    (fits : item.encoding.length ≤ capacity) :
    Writes (writeItem capacity item) item.encoding := by
  induction item using Item.inductionOn with
  | null => exact writes_put _
  | bool value => exact writes_put _
  | integer number => exact writes_integer number
  | real bits => exact writes_put _
  | string text => exact writes_writeText text
  | array items induction =>
    rw [encoding_array] at fits ⊢
    rw [Item.Every, everyItem_iff] at accepted
    have each : ∀ item ∈ items, Writes (writeItem capacity item) item.encoding := by
      intro item member
      apply induction item member (accepted.2 item member)
      have shorter := length_le_flatMap Item.encoding member
      rw [List.length_append] at fits
      omega
    exact (writes_putAi majorArray items.length).andThen (writes_writeItems each)
  | object members induction =>
    rw [Item.Every, everyMember_iff] at accepted
    have memberFits : ∀ member ∈ members, member.2.encoding.length ≤ capacity := by
      intro member isMember
      have isSorted : member ∈ sortByKey lengthFirstLE members := mem_sortByKey.mpr isMember
      have shorter := length_le_flatMap
        (fun member : Bytes × Item => encodeText member.1 ++ member.2.encoding) isSorted
      rw [encoding_object, List.length_append] at fits
      rw [List.length_append] at shorter
      omega
    have each : ∀ member ∈ members,
        Writes (writeItem capacity member.2) member.2.encoding := fun member isMember =>
      induction member isMember (accepted.2 member isMember) (memberFits member isMember)
    have raw := writes_writeMapSorted (fun value => writeRawCborItem value.encoding) accepted.1
      fun member _ => writes_writeRawCborItem (encoding_ne_nil member.2)
    intro writer room
    rcases raw writer room with ⟨after, written, rest⟩
    refine ⟨after, ?_, rest⟩
    rw [writeItem, bind_eq_ok]
    refine ⟨_, encodeMembers_eq each memberFits, ?_⟩
    rw [List.map_map]
    exact written

/-- Where the daemon's encoder accepts a value whose objects have distinct,
non-empty keys and at most 64 members, the writer produces the same bytes. -/
theorem encoders_agree {item : Item} (accepted : item.Every (fun _ => True) AcceptedKeys)
    {bytes : Bytes} (encoded : cborEncode item = .ok bytes) {capacity : Nat}
    (fits : bytes.length ≤ capacity) :
    ∃ writer, writeItem capacity item (.init capacity) = .ok writer ∧ writer.bytes = bytes := by
  have equal := cborEncode_eq_ok encoded
  subst equal
  have room : (Writer.init capacity).bytes.length + item.encoding.length ≤
      (Writer.init capacity).cap := by
    simpa [Writer.init] using fits
  rcases writes_writeItem accepted fits (.init capacity) room with ⟨after, written, _, result⟩
  exact ⟨after, written, by rw [result]; rfl⟩

theorem sample_lower : -2 ^ 63 ≤ (-300 : Int) := by decide

theorem sample_upper : (-300 : Int) < 2 ^ 64 := by decide

def sampleItem : Item :=
  .object [(ascii "ts", .array [.integer ⟨-300, sample_lower, sample_upper⟩, .bool true]),
    (ascii "a", .string (ascii "x"))]

def sampleBytes : Bytes :=
  [0xa2, 0x61, 97, 0x61, 120, 0x62, 116, 115, 0x82, 0x39, 1, 43, 0xf5]

theorem encoders_agree_sample :
    ∃ writer, writeItem 64 sampleItem (.init 64) = .ok writer ∧ writer.bytes = sampleBytes := by
  have accepted : sampleItem.Every (fun _ => True) AcceptedKeys :=
    ⟨⟨by decide, by decide, by decide⟩, ⟨trivial, trivial, trivial, trivial⟩, trivial, trivial⟩
  have encoded : cborEncode sampleItem = .ok sampleBytes := by decide
  exact encoders_agree accepted encoded (by decide)

/-- The writer refuses an empty key, the encoder does not. -/
def emptyKeyItem : Item := .object [([], .null)]

theorem encoders_disagree_on_empty_key :
    emptyKeyItem.Every (fun _ => True) (fun keys => keys.Nodup ∧ keys.length ≤ maxMapPairs) ∧
      cborEncode emptyKeyItem = .ok [0xa1, 0x60, 0xf6] ∧
      ∀ capacity writer, writeItem capacity emptyKeyItem (.init capacity) ≠ .ok writer := by
  refine ⟨⟨⟨by decide, by decide⟩, trivial, trivial⟩, by decide, ?_⟩
  intro capacity writer written
  rw [emptyKeyItem, writeItem, bind_eq_ok] at written
  rcases written with ⟨pairs, encoded, sorted⟩
  rw [encodeMembers, bind_eq_ok] at encoded
  rcases encoded with ⟨value, _, rest⟩
  cases rest
  exact nomatch sorted

/-! ## What a call leaves behind

The calls of `agent_cbor_write_map_sorted` are callbacks. Of a callback it is only
known which bytes it has appended when it succeeds. -/

def Emits (write : Write) (bytes : Bytes) : Prop :=
  ∀ writer after, write writer = .ok after →
    after.cap = writer.cap ∧ after.bytes = writer.bytes ++ bytes

theorem emits_put (chunk : Bytes) : Emits (Writer.put chunk) chunk := by
  intro writer after written
  rw [Writer.put] at written
  split at written
  · cases written
    exact ⟨rfl, rfl⟩
  · exact nomatch written

theorem emits_nothing : Emits (fun writer => .ok writer) [] := by
  intro writer after written
  cases written
  exact ⟨rfl, (List.append_nil _).symm⟩

theorem Emits.andThen {first second : Write} {bytes more : Bytes} (emits : Emits first bytes)
    (emitsMore : Emits second more) :
    Emits (fun writer => first writer >>= second) (bytes ++ more) := by
  intro writer after written
  rcases bind_eq_ok.mp written with ⟨middle, written, writtenMore⟩
  rcases emits writer middle written with ⟨sameCap, middleBytes⟩
  rcases emitsMore middle after writtenMore with ⟨sameCapMore, afterBytes⟩
  refine ⟨sameCapMore.trans sameCap, ?_⟩
  rw [afterBytes, middleBytes, List.append_assoc]

theorem emits_putAi (major : UInt8) (n : Nat) : Emits (putAi major n) (appendAi major n) := by
  rw [putAi, appendAi]
  split
  · exact emits_put _
  · split
    · exact emits_put _
    · split
      · exact emits_put _
      · split
        · exact emits_put _
        · exact emits_put _

theorem emits_writeText (text : Bytes) : Emits (writeText text) (encodeText text) :=
  (emits_putAi majorText text.length).andThen (emits_put text)

structure Emitter where
  write : Write
  bytes : Bytes
  emits : Emits write bytes

def Emitter.text (text : Bytes) : Emitter :=
  ⟨writeText text, encodeText text, emits_writeText text⟩

def Emitter.uint (n : Nat) : Emitter :=
  ⟨writeUint n, appendAi majorUint n, emits_putAi majorUint n⟩

theorem exists_emitter {write : Option Write} {bytes : Option Bytes}
    (emits : Option.Rel Emits write bytes) :
    ∃ emitter : Option Emitter, write = emitter.map Emitter.write ∧
      emitter.map Emitter.bytes = bytes := by
  cases emits with
  | none => exact ⟨none, rfl, rfl⟩
  | some emits => exact ⟨some ⟨_, _, emits⟩, rfl, rfl⟩

/-- A map of encoded values, its keys in the order of the encoders. -/
def mapEncoding (fields : List (Bytes × Bytes)) : Bytes :=
  appendAi majorMap fields.length ++ (sortByKey lengthFirstLE fields).flatMap fun field =>
    encodeText field.1 ++ field.2

theorem encoding_object_eq (members : List (Bytes × Item)) :
    (Item.object members).encoding =
      mapEncoding (members.map fun member => (member.1, member.2.encoding)) := by
  rw [Item.encoding, mapEncoding, memberEncodings_eq_map, List.length_map]

theorem length_mapEncoding (fields : List (Bytes × Bytes)) :
    (mapEncoding fields).length = (appendAi majorMap fields.length).length +
      (fields.flatMap fun field => encodeText field.1 ++ field.2).length := by
  rw [mapEncoding, List.length_append,
    ((perm_sortByKey fields).flatMap_right fun field => encodeText field.1 ++ field.2).length_eq]

theorem mapEncoding_congr {left right : List (Bytes × Bytes)} (permutation : left.Perm right)
    (distinct : (left.map Prod.fst).Nodup) : mapEncoding left = mapEncoding right := by
  have rightDistinct := (permutation.map Prod.fst).nodup_iff.mp distinct
  rw [mapEncoding, mapEncoding, permutation.length_eq,
    sortByKey_unique distinct rightDistinct fun member => permutation.mem_iff]

theorem emits_writePairs (fields : List (Bytes × Emitter)) :
    Emits (writePairs (fields.map fun field => (field.1, field.2.write)))
      (fields.flatMap fun field => encodeText field.1 ++ field.2.bytes) := by
  induction fields with
  | nil => exact emits_nothing
  | cons field rest induction =>
    rw [List.flatMap_cons, List.append_assoc]
    exact (emits_writeText field.1).andThen (field.2.emits.andThen induction)

theorem emits_writeMapSorted {fields : List (Bytes × Emitter)}
    (distinct : (fields.map Prod.fst).Nodup) :
    Emits (writeMapSorted (fields.map fun field => (field.1, field.2.write)))
      (mapEncoding (fields.map fun field => (field.1, field.2.bytes))) := by
  have keys : (fields.map fun field => (field.1, field.2.write)).map Prod.fst =
      fields.map Prod.fst := by
    rw [List.map_map]
    rfl
  have sorted : sortPairs (fields.map fun field => (field.1, field.2.write)) =
      (sortByKey lengthFirstLE fields).map fun field => (field.1, field.2.write) := by
    rw [sortPairs_eq_sortByKey (by rw [keys]; exact distinct), sortByKey_map]
  intro writer after written
  rw [writeMapSorted] at written
  split at written
  · exact nomatch written
  · split at written
    · exact nomatch written
    · split at written
      · exact nomatch written
      · rw [sorted, List.length_map] at written
        rw [mapEncoding, List.length_map, sortByKey_map Emitter.bytes, List.flatMap_map]
        exact (emits_putAi majorMap fields.length).andThen (emits_writePairs _) writer after
          written

/-- The call of `agent_cbor_write_map_sorted` itself. -/
def Emitter.sortedMap (fields : List (Bytes × Emitter))
    (distinct : (fields.map Prod.fst).Nodup) : Emitter :=
  ⟨writeMapSorted (fields.map fun field => (field.1, field.2.write)),
    mapEncoding (fields.map fun field => (field.1, field.2.bytes)), emits_writeMapSorted distinct⟩

end AgentC.Cbor

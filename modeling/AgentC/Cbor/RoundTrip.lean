import AgentC.Cbor.Agreement
import AgentC.Cbor.Decode

/-! # Decoding what was encoded -/

namespace AgentC.Cbor

theorem readBe_beBytes {width value : Nat} (bounded : value < 256 ^ width) (rest : Bytes) :
    readBe width (beBytes width value ++ rest) = .ok (value, rest) := by
  have length := length_beBytes width value
  rw [readBe, if_neg (by rw [List.length_append, length]; omega), List.take_left' length,
    List.drop_left' length, beValue_beBytes bounded]

theorem readBe_one (byte : UInt8) (rest : Bytes) :
    readBe 1 (byte :: rest) = .ok (byte.toNat, rest) := by
  rw [readBe, if_neg (by rw [List.length_cons]; omega)]
  simp [beValue]

/-- What is read back from a head: its major type from the first byte, its number
from the additional information and the bytes behind. -/
def ReadsHead (head : Bytes) (major : UInt8) (n : Nat) (rest : Bytes) : Prop :=
  ∃ ib behind, readBe 1 head = .ok (ib, behind) ∧ ib / 32 = major.toNat / 32 ∧
    readAi (ib % 32) behind = .ok (n, rest)

theorem readsHead_short {major : UInt8} (shifted : major.toNat % 32 = 0) {n : Nat}
    (small : n < 24) (rest : Bytes) :
    ReadsHead ((major ||| UInt8.ofNat n) :: rest) major n rest := by
  refine ⟨major.toNat + n, rest, ?_, by omega, ?_⟩
  · rw [readBe_one, toNat_or shifted (by omega)]
  · rw [show (major.toNat + n) % 32 = n by omega, readAi, if_pos small]

theorem readsHead_wide {major : UInt8} (shifted : major.toNat % 32 = 0) {n width : Nat} (ai : Nat)
    (small : ai < 32) (reads : ∀ input, readAi ai input = readBe width input)
    (bounded : n < 256 ^ width) (rest : Bytes) :
    ReadsHead ((major ||| UInt8.ofNat ai) :: (beBytes width n ++ rest)) major n rest := by
  refine ⟨major.toNat + ai, beBytes width n ++ rest, ?_, by omega, ?_⟩
  · rw [readBe_one, toNat_or shifted small]
  · rw [show (major.toNat + ai) % 32 = ai by omega, reads, readBe_beBytes bounded]

theorem readsHead_appendAi {major : UInt8} (shifted : major.toNat % 32 = 0) {n : Nat}
    (bounded : n < 2 ^ 64) (rest : Bytes) : ReadsHead (appendAi major n ++ rest) major n rest := by
  rw [appendAi]
  split
  · next small => exact readsHead_short shifted small rest
  · split
    · next byte =>
      have single : [UInt8.ofNat n] = beBytes 1 n := by
        rw [beBytes, beBytes, pow_zero, Nat.div_one, Nat.mod_eq_of_lt (by omega)]
      have wide := readsHead_wide shifted 24 (by omega) (fun input => rfl)
        (show n < 256 ^ 1 by omega) rest
      rw [← single] at wide
      exact wide
    · split
      · exact readsHead_wide shifted 25 (by omega) (fun input => rfl) (by omega) rest
      · split
        · exact readsHead_wide shifted 26 (by omega) (fun input => rfl) (by omega) rest
        · exact readsHead_wide shifted 27 (by omega) (fun input => rfl) (by omega) rest

variable {key : Bytes} {members : List (Bytes × Item)} {item : Item}

theorem perm_assign {value : Item} (new : key ∉ members.map Prod.fst) :
    (assign key value members).Perm ((key, value) :: members) := by
  induction members with
  | nil => exact List.Perm.refl _
  | cons member rest induction =>
    rcases member with ⟨name, other⟩
    rw [List.map_cons, List.mem_cons, not_or] at new
    rw [assign]
    split
    · exact List.Perm.refl _
    · next same => exact absurd (Std.LawfulEqCmp.eq_of_compare same) new.1
    · exact ((induction new.2).cons _).trans (List.Perm.swap ..)

theorem sorted_assign {value : Item} (new : key ∉ members.map Prod.fst)
    (sorted : members.Pairwise (keyLE lexLE)) :
    (assign key value members).Pairwise (keyLE lexLE) := by
  induction members with
  | nil => exact List.pairwise_singleton ..
  | cons member rest induction =>
    rcases member with ⟨name, other⟩
    rw [List.map_cons, List.mem_cons, not_or] at new
    rw [assign]
    split
    · next less =>
      have le : lexLE key name := by rw [lexLE, less]; rfl
      rw [List.pairwise_cons] at sorted ⊢
      refine ⟨?_, List.pairwise_cons.mpr sorted⟩
      intro later member
      rcases List.mem_cons.mp member with equal | inRest
      · exact equal ▸ le
      · exact IsTrans.trans key name later.1 le (sorted.1 later inRest)
    · next same => exact absurd (Std.LawfulEqCmp.eq_of_compare same) new.1
    · next greater =>
      have ge : lexLE name key := by
        have swapped := @Std.OrientedCmp.eq_swap Bytes compare _ name key
        rw [lexLE, swapped, greater]
        rfl
      rw [List.pairwise_cons] at sorted ⊢
      refine ⟨?_, induction new.2 sorted.2⟩
      intro later member
      rcases List.mem_cons.mp ((perm_assign new.2).mem_iff.mp member) with equal | inRest
      · exact equal ▸ ge
      · exact sorted.1 later inRest

theorem foldl_assign {entries members : List (Bytes × Item)}
    (distinct : ((members ++ entries).map Prod.fst).Nodup)
    (sorted : members.Pairwise (keyLE lexLE)) :
    (entries.foldl (fun map entry => assign entry.1 entry.2 map) members).Perm
        (members ++ entries) ∧
      (entries.foldl (fun map entry => assign entry.1 entry.2 map) members).Pairwise
        (keyLE lexLE) := by
  induction entries generalizing members with
  | nil => simpa using sorted
  | cons entry rest induction =>
    have moved : (members ++ entry :: rest).Perm (entry :: members ++ rest) :=
      List.perm_middle
    have distinctMoved := (moved.map Prod.fst).nodup_iff.mp distinct
    have new : entry.1 ∉ members.map Prod.fst := by
      rw [List.cons_append, List.map_cons, List.nodup_cons, List.map_append,
        List.mem_append, not_or] at distinctMoved
      exact distinctMoved.1.1
    have assigned : (assign entry.1 entry.2 members).Perm (entry :: members) := perm_assign new
    have appended := assigned.append_right rest
    rcases induction ((appended.map Prod.fst).nodup_iff.mpr distinctMoved)
      (sorted_assign new sorted) with ⟨permutation, ordered⟩
    exact ⟨permutation.trans (appended.trans moved.symm), ordered⟩

theorem foldl_assign_sorted (distinct : (members.map Prod.fst).Nodup)
    (sorted : members.Pairwise (keyLE lexLE)) :
    (sortByKey lengthFirstLE members).foldl (fun map entry => assign entry.1 entry.2 map) [] =
      members := by
  rcases @foldl_assign (sortByKey lengthFirstLE members) [] (nodup_sortByKey distinct)
    List.Pairwise.nil with ⟨permutation, ordered⟩
  exact (eq_of_perm_of_sorted ((permutation.trans (perm_sortByKey members)).symm) distinct sorted
    ordered).symm

section Heads

variable {fuel depth n : Nat} {input rest : Bytes}

theorem decodeItem_uint (reads : ReadsHead input majorUint n rest) :
    decodeItem (fuel + 1) depth input = .ok (decodeUint n, rest) := by
  rcases reads with ⟨ib, behind, first, major, second⟩
  have major : ib / 32 = 0 := major
  simp [decodeItem, first, major, second, bind, Except.bind, pure, Except.pure]

theorem decodeItem_negative (reads : ReadsHead input majorNegative n rest) :
    decodeItem (fuel + 1) depth input = (decodeNegative n).map fun number => (number, rest) := by
  rcases reads with ⟨ib, behind, first, major, second⟩
  have major : ib / 32 = 1 := major
  simp [decodeItem, first, major, second, bind, Except.bind, pure, Except.pure, Except.map]

theorem decodeItem_text (reads : ReadsHead input majorText n rest) :
    decodeItem (fuel + 1) depth input =
      (decodeText n rest).map fun text => (.string text.1, text.2) := by
  rcases reads with ⟨ib, behind, first, major, second⟩
  have major : ib / 32 = 3 := major
  simp [decodeItem, first, major, second, bind, Except.bind, pure, Except.pure, Except.map]

theorem decodeItem_array (reads : ReadsHead input majorArray n rest) (few : n ≤ 100000)
    (shallow : depth < 64) :
    decodeItem (fuel + 1) depth input =
      (decodeItems fuel (depth + 1) n [] rest).map fun items => (.array items.1, items.2) := by
  rcases reads with ⟨ib, behind, first, major, second⟩
  have major : ib / 32 = 4 := major
  have checked : checkContainer n depth "cbor: array too large" = .ok () := by
    rw [checkContainer, if_neg (by omega), if_neg (by omega)]
  simp [decodeItem, first, major, second, checked, bind, Except.bind, pure, Except.pure, Except.map]

theorem decodeItem_map (reads : ReadsHead input majorMap n rest) (few : n ≤ 100000)
    (shallow : depth < 64) :
    decodeItem (fuel + 1) depth input =
      (decodeMembers fuel (depth + 1) n [] rest).map fun members =>
        (.object members.1, members.2) := by
  rcases reads with ⟨ib, behind, first, major, second⟩
  have major : ib / 32 = 5 := major
  have checked : checkContainer n depth "cbor: map too large" = .ok () := by
    rw [checkContainer, if_neg (by omega), if_neg (by omega)]
  simp [decodeItem, first, major, second, checked, bind, Except.bind, pure, Except.pure, Except.map]

theorem decodeItem_simple {byte : UInt8} (simple : byte.toNat / 32 = 7) :
    decodeItem (fuel + 1) depth (byte :: rest) = decodeSimple (byte.toNat % 32) rest := by
  simp [decodeItem, readBe_one, simple, bind, Except.bind]

end Heads

theorem decodeText_append (text rest : Bytes) :
    decodeText text.length (text ++ rest) = .ok (text, rest) := by
  rw [decodeText, if_neg (by rw [List.length_append]; omega), List.take_left, List.drop_left]

/-- The value is read back, wherever its encoding stands and containers may
still be opened. -/
def ReadsBack (item : Item) : Prop :=
  ∀ (fuel depth : Nat) (rest : Bytes), item.encoding.length < 2 ^ 64 → item.height + depth ≤ 64 →
    2 * item.encoding.length ≤ fuel → decodeItem fuel depth (item.encoding ++ rest) = .ok (item, rest)

theorem length_encoding_pos (item : Item) : 0 < item.encoding.length :=
  List.length_pos_iff.mpr (encoding_ne_nil item)

theorem exists_fuel {fuel : Nat} (enough : 2 * item.encoding.length ≤ fuel) :
    ∃ less, fuel = less + 1 := by
  have positive := length_encoding_pos item
  exact ⟨fuel - 1, by omega⟩

theorem readsBack_null : ReadsBack .null := by
  intro fuel depth rest short shallow enough
  rcases exists_fuel enough with ⟨less, equal⟩
  rw [equal]
  exact decodeItem_simple (by decide)

theorem readsBack_bool (value : Bool) : ReadsBack (.bool value) := by
  intro fuel depth rest short shallow enough
  rcases exists_fuel enough with ⟨less, equal⟩
  rw [equal]
  cases value
  · exact decodeItem_simple (by decide)
  · exact decodeItem_simple (by decide)

theorem readsBack_real (bits : UInt64) : ReadsBack (.real bits) := by
  intro fuel depth rest short shallow enough
  rcases exists_fuel enough with ⟨less, equal⟩
  have read : decodeSimple 27 (beBytes 8 bits.toNat ++ rest) = .ok (.real bits, rest) := by
    simp [decodeSimple, readBe_beBytes (show bits.toNat < 256 ^ 8 from bits.toNat_lt), bind,
      Except.bind, pure, Except.pure]
  rw [equal]
  exact (decodeItem_simple (by decide)).trans read

theorem decodeUint_of_nonneg {number : Integer64} (nonnegative : 0 ≤ number.value) :
    decodeUint number.value.toNat = .integer number := by
  have upper := number.upper
  have same : ((number.value.toNat % 2 ^ 64 : Nat) : Int) = number.value := by omega
  rw [decodeUint]
  congr 1
  cases number
  simpa using same

theorem decodeNegative_of_neg {number : Integer64} (negative : ¬0 ≤ number.value) :
    decodeNegative (-1 - number.value).toNat = .ok (.integer number) := by
  have lower := number.lower
  have same : -1 - ((-1 - number.value).toNat : Int) = number.value := by omega
  rw [decodeNegative, dif_pos (by omega)]
  congr 2
  cases number
  simpa using same

theorem readsBack_integer (number : Integer64) : ReadsBack (.integer number) := by
  intro fuel depth rest short shallow enough
  rcases exists_fuel enough with ⟨less, equal⟩
  have lower := number.lower
  have upper := number.upper
  rw [equal, Item.encoding, encodeInteger]
  by_cases nonnegative : 0 ≤ number.value
  · have encoded : (if number.value ≤ 2 ^ 63 - 1 then
          if 0 ≤ number.value then appendAi majorUint number.value.toNat
          else appendAi majorNegative (-1 - number.value).toNat
        else appendAi majorUint number.value.toNat) = appendAi majorUint number.value.toNat := by
      rw [if_pos nonnegative, ite_self]
    rw [encoded, decodeItem_uint (readsHead_appendAi (by decide) (by omega) rest),
      decodeUint_of_nonneg nonnegative]
  · rw [if_pos (by omega), if_neg nonnegative,
      decodeItem_negative (readsHead_appendAi (by decide) (by omega) rest),
      decodeNegative_of_neg nonnegative]
    rfl

theorem readsBack_string (text : Bytes) : ReadsBack (.string text) := by
  intro fuel depth rest short shallow enough
  rcases exists_fuel enough with ⟨less, equal⟩
  rw [Item.encoding, encodeText, List.length_append] at short
  rw [equal, Item.encoding, encodeText, List.append_assoc,
    decodeItem_text (readsHead_appendAi (by decide) (by omega) _), decodeText_append]
  rfl

theorem decodeItems_encodings {items decoded : List Item} {fuel depth : Nat} (rest : Bytes)
    (each : ∀ item ∈ items, ReadsBack item) (short : (items.flatMap Item.encoding).length < 2 ^ 64)
    (shallow : ∀ item ∈ items, item.height + depth ≤ 64)
    (enough : 2 * (items.flatMap Item.encoding).length + 1 ≤ fuel) :
    decodeItems fuel depth items.length decoded (items.flatMap Item.encoding ++ rest) =
      .ok (decoded ++ items, rest) := by
  induction items generalizing fuel decoded with
  | nil =>
    rcases fuel with _ | fuel
    · omega
    · rw [List.append_nil, List.flatMap_nil, List.nil_append, List.length_nil, decodeItems]
  | cons item more induction =>
    rcases fuel with _ | fuel
    · omega
    · have positive := length_encoding_pos item
      rw [List.flatMap_cons, List.length_append] at short enough
      have first := each item (List.mem_cons_self ..) fuel depth
        (more.flatMap Item.encoding ++ rest) (by omega) (shallow item (List.mem_cons_self ..))
        (by omega)
      have later := @induction (decoded ++ [item]) fuel
        (fun other member => each other (List.mem_cons_of_mem _ member)) (by omega)
        (fun other member => shallow other (List.mem_cons_of_mem _ member)) (by omega)
      rw [List.length_cons, List.flatMap_cons, List.append_assoc, decodeItems, first]
      rw [List.append_assoc, List.singleton_append] at later
      exact later

theorem readsBack_array {items : List Item} (few : items.length ≤ 100000)
    (each : ∀ item ∈ items, ReadsBack item) : ReadsBack (.array items) := by
  intro fuel depth rest short shallow enough
  rcases exists_fuel enough with ⟨less, equal⟩
  have head := List.length_pos_iff.mpr (appendAi_ne_nil majorArray items.length)
  rw [encoding_array, List.length_append] at short enough
  rw [Item.height] at shallow
  have body := @decodeItems_encodings items [] less (depth + 1) rest each (by omega)
    (fun item member => by
      have bound := height_le_of_mem_items member
      omega) (by omega)
  rw [equal, encoding_array, List.append_assoc,
    decodeItem_array (readsHead_appendAi (by decide) (by omega) _) few (by omega), body]
  rfl

theorem decodeKey_encodeText (nonempty : key ≠ []) (short : key.length < 2 ^ 64) (rest : Bytes) :
    decodeKey (encodeText key ++ rest) = .ok (key, rest) := by
  rcases @readsHead_appendAi majorText (by decide) key.length short (key ++ rest) with
    ⟨ib, behind, first, major, second⟩
  have major : ib / 32 = 3 := major
  rw [encodeText, List.append_assoc]
  simp [decodeKey, first, major, second, decodeText_append, nonempty, bind, Except.bind, pure,
    Except.pure]

def memberEncoding (member : Bytes × Item) : Bytes :=
  encodeText member.1 ++ member.2.encoding

theorem decodeMembers_encodings {entries members : List (Bytes × Item)} {fuel depth : Nat}
    (rest : Bytes) (each : ∀ entry ∈ entries, ReadsBack entry.2)
    (named : ∀ entry ∈ entries, entry.1 ≠ [])
    (short : (entries.flatMap memberEncoding).length < 2 ^ 64)
    (shallow : ∀ entry ∈ entries, entry.2.height + depth ≤ 64)
    (enough : 2 * (entries.flatMap memberEncoding).length + 1 ≤ fuel) :
    decodeMembers fuel depth entries.length members (entries.flatMap memberEncoding ++ rest) =
      .ok (entries.foldl (fun map entry => assign entry.1 entry.2 map) members, rest) := by
  induction entries generalizing fuel members with
  | nil =>
    rcases fuel with _ | fuel
    · omega
    · rw [List.flatMap_nil, List.nil_append, List.length_nil, decodeMembers, List.foldl_nil]
  | cons entry more induction =>
    rcases fuel with _ | fuel
    · omega
    · have positive := length_encoding_pos entry.2
      rw [List.flatMap_cons, List.length_append, memberEncoding, List.length_append] at short enough
      have keyShort : entry.1.length ≤ (encodeText entry.1).length := by
        rw [encodeText, List.length_append]
        omega
      have key := decodeKey_encodeText (named entry (List.mem_cons_self ..)) (by omega)
        (entry.2.encoding ++ (more.flatMap memberEncoding ++ rest))
      have first := each entry (List.mem_cons_self ..) fuel depth
        (more.flatMap memberEncoding ++ rest) (by omega) (shallow entry (List.mem_cons_self ..))
        (by omega)
      have later := @induction (assign entry.1 entry.2 members) fuel
        (fun other member => each other (List.mem_cons_of_mem _ member))
        (fun other member => named other (List.mem_cons_of_mem _ member)) (by omega)
        (fun other member => shallow other (List.mem_cons_of_mem _ member)) (by omega)
      rw [List.length_cons, List.flatMap_cons, memberEncoding, List.append_assoc,
        List.append_assoc, decodeMembers, key]
      simp only [bind, Except.bind, first]
      exact later

/-- The keys of an object as a `std::map` keeps them. -/
structure StoredKeys (keys : List Bytes) : Prop where
  distinct : keys.Nodup
  sorted : keys.Pairwise lexLE

/-- The keys of an object that the decoder accepts. -/
structure ReadableKeys (keys : List Bytes) : Prop where
  few : keys.length ≤ 100000
  nonempty : ∀ key ∈ keys, key ≠ []

theorem readsBack_object (stored : StoredKeys (members.map Prod.fst))
    (readable : ReadableKeys (members.map Prod.fst))
    (each : ∀ member ∈ members, ReadsBack member.2) : ReadsBack (.object members) := by
  intro fuel depth rest short shallow enough
  rcases exists_fuel enough with ⟨less, equal⟩
  have head := List.length_pos_iff.mpr (appendAi_ne_nil majorMap members.length)
  have few := readable.few
  rw [List.length_map] at few
  have encoded : (Item.object members).encoding = appendAi majorMap members.length ++
      (sortByKey lengthFirstLE members).flatMap memberEncoding := encoding_object members
  have length : (sortByKey lengthFirstLE members).length = members.length :=
    (perm_sortByKey members).length_eq
  have sorted := stored.sorted
  rw [List.pairwise_map] at sorted
  rw [encoded, List.length_append] at short enough
  rw [Item.height] at shallow
  have body := @decodeMembers_encodings (sortByKey lengthFirstLE members) [] less (depth + 1) rest
    (fun entry member => each entry (mem_sortByKey.mp member))
    (fun entry member => readable.nonempty entry.1 (List.mem_map_of_mem (mem_sortByKey.mp member)))
    (by omega)
    (fun entry member => by
      have bound := height_le_of_mem_members (mem_sortByKey.mp member)
      omega) (by omega)
  rw [length, foldl_assign_sorted stored.distinct sorted] at body
  rw [equal, encoded, List.append_assoc,
    decodeItem_map (readsHead_appendAi (by decide) (by omega) _) few (by omega), body]
  rfl

theorem readsBack (stored : item.Every (fun _ => True) StoredKeys)
    (readable : item.Every (fun length => length ≤ 100000) ReadableKeys) : ReadsBack item := by
  induction item using Item.inductionOn with
  | null => exact readsBack_null
  | bool value => exact readsBack_bool value
  | integer number => exact readsBack_integer number
  | real bits => exact readsBack_real bits
  | string text => exact readsBack_string text
  | array items induction =>
    rw [Item.Every, everyItem_iff] at stored readable
    exact readsBack_array readable.1 fun item member =>
      induction item member (stored.2 item member) (readable.2 item member)
  | object members induction =>
    rw [Item.Every, everyMember_iff] at stored readable
    exact readsBack_object stored.1 readable.1 fun member isMember =>
      induction member isMember (stored.2 member isMember) (readable.2 member isMember)

theorem cborDecode_encoding (stored : item.Every (fun _ => True) StoredKeys)
    (readable : item.Every (fun length => length ≤ 100000) ReadableKeys)
    (shallow : item.height ≤ 64) (short : item.encoding.length ≤ 1024 * 1024) :
    cborDecode item.encoding = .ok item := by
  have decoded := readsBack stored readable (2 * item.encoding.length + 1) 0 [] (by omega)
    (by omega) (by omega)
  rw [List.append_nil] at decoded
  rw [cborDecode, if_neg (encoding_ne_nil item), if_neg (by omega), decoded]
  rfl

/-- A value with non-empty keys, with at most 100000 entries in every container and
with containers nested at most 64 deep is decoded from its encoding. -/
theorem decode_encode {item : Item} (stored : item.Every (fun _ => True) StoredKeys)
    (readable : item.Every (fun length => length ≤ 100000) ReadableKeys)
    (shallow : item.height ≤ 64) {bytes : Bytes} (encoded : cborEncode item = .ok bytes)
    (short : bytes.length ≤ 1024 * 1024) : cborDecode bytes = .ok item := by
  have equal := cborEncode_eq_ok encoded
  subst equal
  exact cborDecode_encoding stored readable shallow short

/-- The sample value as a `std::map` keeps it. -/
def storedItem : Item :=
  .object [(ascii "a", .string (ascii "x")),
    (ascii "ts", .array [.integer ⟨-300, sample_lower, sample_upper⟩, .bool true])]

theorem decode_encode_sample : cborDecode sampleBytes = .ok storedItem := by
  have stored : storedItem.Every (fun _ => True) StoredKeys :=
    ⟨⟨by decide, by decide⟩, trivial, ⟨trivial, trivial, trivial, trivial⟩, trivial⟩
  have readable : storedItem.Every (fun length => length ≤ 100000) ReadableKeys :=
    ⟨⟨by decide, by decide⟩, trivial, ⟨by decide, trivial, trivial, trivial⟩, trivial⟩
  have encoded : cborEncode storedItem = .ok sampleBytes := by decide
  exact decode_encode stored readable (by decide) encoded (by decide)

/-- An empty key is encoded, but its encoding is refused. -/
theorem empty_key_not_decoded :
    emptyKeyItem.Every (fun _ => True) StoredKeys ∧
      cborEncode emptyKeyItem = .ok [0xa1, 0x60, 0xf6] ∧
      ∀ item, cborDecode [0xa1, 0x60, 0xf6] ≠ .ok item := by
  have refused : (cborDecode [0xa1, 0x60, 0xf6]).isOk = false := by decide +kernel
  refine ⟨⟨⟨by decide, by decide⟩, trivial, trivial⟩, by decide, ?_⟩
  intro item decoded
  rw [decoded] at refused
  exact nomatch refused

/-! ## Decoded values

Whatever bytes the daemon is sent, the value that it decodes has one encoding, and no other
decoded value has the same. -/

section DecodedValues

variable {key : Bytes} {members : List (Bytes × Item)} {item : Item} {depth : Nat}

theorem mem_of_mem_assign {value : Item} {entry : Bytes × Item}
    (member : entry ∈ assign key value members) : entry = (key, value) ∨ entry ∈ members := by
  induction members with
  | nil => exact .inl (List.mem_singleton.mp member)
  | cons first rest induction =>
    rcases first with ⟨name, other⟩
    rw [assign] at member
    split at member
    · exact List.mem_cons.mp member
    · exact (List.mem_cons.mp member).imp_right (List.mem_cons_of_mem _)
    · rcases List.mem_cons.mp member with here | later
      · exact .inr (here ▸ List.mem_cons_self ..)
      · exact (induction later).imp_right (List.mem_cons_of_mem _)

theorem keys_assign_of_mem {value : Item} (stored : StoredKeys (members.map Prod.fst))
    (known : key ∈ members.map Prod.fst) :
    (assign key value members).map Prod.fst = members.map Prod.fst := by
  induction members with
  | nil => cases known
  | cons first rest induction =>
    rcases first with ⟨name, other⟩
    rcases List.pairwise_cons.mp stored.sorted with ⟨before, sorted⟩
    have equal : key = name → compare key name = .eq := fun same =>
      same ▸ Std.ReflCmp.compare_self
    rw [assign]
    split
    · next less =>
      rcases List.mem_cons.mp known with same | later
      · exact absurd (equal same) (by simp [less])
      · have ge := before key later
        rw [lexLE, @Std.OrientedCmp.eq_swap Bytes compare _ name key, less] at ge
        cases ge
    · next same => rw [List.map_cons, List.map_cons, Std.LawfulEqCmp.eq_of_compare same]
    · next greater =>
      rcases List.mem_cons.mp known with same | later
      · exact absurd (equal same) (by simp [greater])
      · rw [List.map_cons, induction ⟨stored.distinct.of_cons, sorted⟩ later, List.map_cons]

theorem storedKeys_assign {value : Item} (stored : StoredKeys (members.map Prod.fst)) :
    StoredKeys ((assign key value members).map Prod.fst) ∧
      (assign key value members).length ≤ members.length + 1 := by
  by_cases known : key ∈ members.map Prod.fst
  · have same := @keys_assign_of_mem key members value stored known
    have length := congrArg List.length same
    rw [List.length_map, List.length_map] at length
    exact ⟨same ▸ stored, by omega⟩
  · have permutation := @perm_assign key members value known
    have ordered := stored.sorted
    rw [List.pairwise_map] at ordered
    have distinct := (permutation.map Prod.fst).nodup_iff.mpr
      (List.nodup_cons.mpr ⟨known, stored.distinct⟩)
    refine ⟨⟨distinct, ?_⟩, permutation.length_eq.le⟩
    rw [List.pairwise_map]
    exact sorted_assign known ordered

/-- A value as a `std::map` keeps it, within the limits of the decoder when `depth`
containers are open. -/
inductive Decoded : Nat → Item → Prop
  | leaf {depth : Nat} {item : Item} (inside : depth ≤ 64) (flat : item.height = 0) :
      Decoded depth item
  | array {depth : Nat} {items : List Item} (inside : depth < 64) (few : items.length ≤ 100000)
      (each : ∀ item ∈ items, Decoded (depth + 1) item) : Decoded depth (.array items)
  | object {depth : Nat} {members : List (Bytes × Item)} (inside : depth < 64)
      (stored : StoredKeys (members.map Prod.fst)) (readable : ReadableKeys (members.map Prod.fst))
      (each : ∀ member ∈ members, Decoded (depth + 1) member.2) : Decoded depth (.object members)

theorem heightOfItems_le {items : List Item} {bound : Nat}
    (each : ∀ item ∈ items, item.height ≤ bound) : heightOfItems items ≤ bound := by
  induction items with
  | nil => exact Nat.zero_le _
  | cons first rest induction =>
    rcases List.forall_mem_cons.mp each with ⟨here, later⟩
    exact Nat.max_le.mpr ⟨here, induction later⟩

theorem heightOfMembers_le {bound : Nat}
    (each : ∀ member ∈ members, member.2.height ≤ bound) : heightOfMembers members ≤ bound := by
  induction members with
  | nil => exact Nat.zero_le _
  | cons first rest induction =>
    rcases List.forall_mem_cons.mp each with ⟨here, later⟩
    exact Nat.max_le.mpr ⟨here, induction later⟩

theorem Decoded.limits (decoded : Decoded depth item) :
    item.Every (fun _ => True) StoredKeys ∧
      item.Every (fun length => length ≤ 100000) ReadableKeys ∧ item.height + depth ≤ 64 := by
  induction decoded with
  | @leaf depth item inside flat =>
    cases item with
    | array items => cases flat
    | object members => cases flat
    | _ => exact ⟨trivial, trivial, flat ▸ (Nat.zero_add depth).trans_le inside⟩
  | @array depth items inside few _ induction =>
    have height := @heightOfItems_le items (63 - depth) fun item member => by
      have shallow := (induction item member).2.2
      omega
    refine ⟨⟨trivial, everyItem_iff.mpr fun item member => (induction item member).1⟩,
      ⟨few, everyItem_iff.mpr fun item member => (induction item member).2.1⟩, ?_⟩
    rw [Item.height]
    omega
  | @object depth members inside stored readable _ induction =>
    have height := @heightOfMembers_le members (63 - depth) fun member isMember => by
      have shallow := (induction member isMember).2.2
      omega
    refine ⟨⟨stored, everyMember_iff.mpr fun member isMember => (induction member isMember).1⟩,
      ⟨readable, everyMember_iff.mpr fun member isMember => (induction member isMember).2.1⟩, ?_⟩
    rw [Item.height]
    omega

theorem height_of_decodeSimple {ai : Nat} {input rest : Bytes}
    (read : decodeSimple ai input = .ok (item, rest)) : item.height = 0 := by
  rw [decodeSimple] at read
  split_ifs at read
  all_goals first
    | cases read; rfl
    | rcases bind_eq_ok.mp read with ⟨number, _, done⟩
      cases done
      try rfl

theorem height_of_decodeNegative {n : Nat} (read : decodeNegative n = .ok item) :
    item.height = 0 := by
  rw [decodeNegative] at read
  split at read <;> cases read
  rfl

theorem checkContainer_eq_ok {n : Nat} {tooLarge : String} {result : Unit}
    (checked : checkContainer n depth tooLarge = .ok result) : n ≤ 100000 ∧ depth < 64 := by
  rw [checkContainer] at checked
  split_ifs at checked
  omega

theorem decodeKey_ne_nil {input rest : Bytes} (read : decodeKey input = .ok (key, rest)) :
    key ≠ [] := by
  rw [decodeKey] at read
  rcases bind_eq_ok.mp read with ⟨⟨ib, _⟩, _, read⟩
  dsimp only at read
  split_ifs at read
  rcases bind_eq_ok.mp read with ⟨⟨length, _⟩, _, read⟩
  rcases bind_eq_ok.mp read with ⟨⟨name, _⟩, _, read⟩
  dsimp only at read
  split_ifs at read with empty
  cases read
  exact empty

/-- The members that a map has collected. -/
structure Collected (depth : Nat) (members : List (Bytes × Item)) : Prop where
  stored : StoredKeys (members.map Prod.fst)
  each : ∀ member ∈ members, member.1 ≠ [] ∧ Decoded depth member.2

theorem Collected.assign {value : Item} (collected : Collected depth members) (named : key ≠ [])
    (decoded : Decoded depth value) : Collected depth (assign key value members) := by
  refine ⟨(storedKeys_assign collected.stored).1, fun entry member => ?_⟩
  rcases mem_of_mem_assign member with same | earlier
  · exact same ▸ ⟨named, decoded⟩
  · exact collected.each entry earlier

/-- What the recursion returns at a fuel: values, items of an array, members of a map. -/
structure DecodesAt (fuel : Nat) : Prop where
  item : ∀ {depth input item rest}, depth ≤ 64 →
    decodeItem fuel depth input = .ok (item, rest) → Decoded depth item
  items : ∀ {depth n items input decoded rest}, depth ≤ 64 → (∀ item ∈ items, Decoded depth item) →
    decodeItems fuel depth n items input = .ok (decoded, rest) →
      (∀ item ∈ decoded, Decoded depth item) ∧ decoded.length = items.length + n
  members : ∀ {depth n members input decoded rest}, depth ≤ 64 → Collected depth members →
    decodeMembers fuel depth n members input = .ok (decoded, rest) →
      Collected depth decoded ∧ decoded.length ≤ members.length + n

namespace DecodesAt

variable {fuel n : Nat} {input rest : Bytes}

theorem decodeItem_succ (reads : DecodesAt fuel) (inside : depth ≤ 64)
    (read : decodeItem (fuel + 1) depth input = .ok (item, rest)) : Decoded depth item := by
  rw [decodeItem] at read
  rcases bind_eq_ok.mp read with ⟨⟨ib, behind⟩, _, read⟩
  dsimp only at read
  split_ifs at read
  · exact .leaf inside (height_of_decodeSimple read)
  all_goals rcases bind_eq_ok.mp read with ⟨⟨n, behind⟩, _, read⟩
  · cases read
    exact .leaf inside rfl
  · rcases bind_eq_ok.mp read with ⟨number, negative, done⟩
    cases done
    exact .leaf inside (height_of_decodeNegative negative)
  · rw [decodeBytes] at read
    split at read <;> cases read
  · rcases bind_eq_ok.mp read with ⟨⟨text, behind⟩, _, done⟩
    cases done
    exact .leaf inside rfl
  · rcases bind_eq_ok.mp read with ⟨_, checked, read⟩
    rcases bind_eq_ok.mp read with ⟨⟨items, behind⟩, inner, done⟩
    cases done
    rcases checkContainer_eq_ok checked with ⟨few, shallow⟩
    rcases reads.items shallow (List.forall_mem_nil _) inner with ⟨each, length⟩
    exact .array shallow (length.trans_le (by simpa using few)) each
  · rcases bind_eq_ok.mp read with ⟨_, checked, read⟩
    rcases bind_eq_ok.mp read with ⟨⟨members, behind⟩, inner, done⟩
    cases done
    rcases checkContainer_eq_ok checked with ⟨few, shallow⟩
    have nothing : Collected (depth + 1) [] := ⟨⟨List.nodup_nil, .nil⟩, List.forall_mem_nil _⟩
    rcases reads.members shallow nothing inner with ⟨collected, length⟩
    refine .object shallow collected.stored ⟨?_, ?_⟩ fun member isMember =>
      (collected.each member isMember).2
    · rw [List.length_map]
      exact length.trans (by simpa using few)
    · exact List.forall_mem_map.mpr fun member isMember => (collected.each member isMember).1
  · exact reads.item inside read

theorem decodeItems_succ {items decoded : List Item} (reads : DecodesAt fuel) (inside : depth ≤ 64)
    (before : ∀ item ∈ items, Decoded depth item)
    (read : decodeItems (fuel + 1) depth n items input = .ok (decoded, rest)) :
    (∀ item ∈ decoded, Decoded depth item) ∧ decoded.length = items.length + n := by
  cases n with
  | zero =>
    rw [decodeItems] at read
    cases read
    exact ⟨before, rfl⟩
  | succ n =>
    rw [decodeItems] at read
    rcases bind_eq_ok.mp read with ⟨⟨item, behind⟩, first, read⟩
    have here := List.forall_mem_append.mpr
      ⟨before, List.forall_mem_singleton.mpr (reads.item inside first)⟩
    rcases reads.items inside here read with ⟨each, length⟩
    rw [List.length_append, List.length_singleton] at length
    exact ⟨each, by omega⟩

theorem decodeMembers_succ {decoded : List (Bytes × Item)} (reads : DecodesAt fuel)
    (inside : depth ≤ 64) (before : Collected depth members)
    (read : decodeMembers (fuel + 1) depth n members input = .ok (decoded, rest)) :
    Collected depth decoded ∧ decoded.length ≤ members.length + n := by
  cases n with
  | zero =>
    rw [decodeMembers] at read
    cases read
    exact ⟨before, Nat.le_refl _⟩
  | succ n =>
    rw [decodeMembers] at read
    rcases bind_eq_ok.mp read with ⟨⟨key, behind⟩, named, read⟩
    rcases bind_eq_ok.mp read with ⟨⟨value, behind⟩, first, read⟩
    have here := before.assign (decodeKey_ne_nil named) (reads.item inside first)
    have grown := (@storedKeys_assign key members value before.stored).2
    rcases reads.members inside here read with ⟨collected, length⟩
    exact ⟨collected, by omega⟩

theorem all (fuel : Nat) : DecodesAt fuel := by
  induction fuel with
  | zero => constructor <;> simp [decodeItem, decodeItems, decodeMembers]
  | succ fuel induction =>
    exact ⟨induction.decodeItem_succ, induction.decodeItems_succ, induction.decodeMembers_succ⟩

end DecodesAt

theorem decoded_of_cborDecode {input : Bytes} (decoded : cborDecode input = .ok item) :
    Decoded 0 item := by
  rw [cborDecode] at decoded
  split_ifs at decoded
  rcases bind_eq_ok.mp decoded with ⟨⟨value, rest⟩, read, done⟩
  dsimp only at done
  split_ifs at done
  cases done
  exact (DecodesAt.all _).item (by decide) read

theorem Decoded.eq_of_encoding {other : Item} (decoded : Decoded 0 item)
    (otherDecoded : Decoded 0 other) (short : item.encoding.length < 2 ^ 64)
    (same : item.encoding = other.encoding) : item = other := by
  rcases decoded.limits with ⟨stored, readable, shallow⟩
  rcases otherDecoded.limits with ⟨otherStored, otherReadable, otherShallow⟩
  have first := readsBack stored readable _ 0 [] short shallow (Nat.le_refl _)
  have second := readsBack otherStored otherReadable _ 0 [] (same ▸ short) otherShallow
    (Nat.le_refl _)
  rw [same, second] at first
  cases first
  rfl

end DecodedValues

end AgentC.Cbor

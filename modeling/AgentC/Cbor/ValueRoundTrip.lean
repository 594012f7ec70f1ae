import AgentC.Cbor.Agreement
import AgentC.Cbor.SkipExact

/-! # The reader inverts the writer

Values as the calls of the core library write and read them. -/

namespace AgentC.Cbor

/-- What the writer and the reader have calls for. The pairs of a map stand in the
order in which they are written. -/
inductive Value
  | uint (v : UInt64)
  | int (v : Int64)
  | bool (value : Bool)
  | null
  | bytes (content : Bytes)
  | text (content : Bytes)
  /-- A double, as its 64 bits. -/
  | f64 (bits : UInt64)
  | array (items : List Value)
  | map (pairs : List (Value × Value))

theorem Value.inductionOn {motive : Value → Prop} (value : Value) (uint : ∀ v, motive (.uint v))
    (int : ∀ v, motive (.int v)) (bool : ∀ value, motive (.bool value)) (null : motive .null)
    (bytes : ∀ content, motive (.bytes content)) (text : ∀ content, motive (.text content))
    (f64 : ∀ bits, motive (.f64 bits))
    (array : ∀ items, (∀ item ∈ items, motive item) → motive (.array items))
    (map : ∀ pairs : List (Value × Value), (∀ pair ∈ pairs, motive pair.1 ∧ motive pair.2) →
      motive (.map pairs)) : motive value := by
  refine @Value.rec motive (fun items => ∀ item ∈ items, motive item)
    (fun pairs => ∀ pair ∈ pairs, motive pair.1 ∧ motive pair.2)
    (fun pair => motive pair.1 ∧ motive pair.2)
    uint int bool null bytes text f64 array map ?_ ?_ ?_ ?_ (fun _ _ key value => ⟨key, value⟩)
    value
  · exact fun _ member => nomatch member
  · intro first rest firstHolds restHold
    exact List.forall_mem_cons.mpr ⟨firstHolds, restHold⟩
  · exact fun _ member => nomatch member
  · intro first rest firstHolds restHold
    exact List.forall_mem_cons.mpr ⟨firstHolds, restHold⟩

def writeBytes (content : Bytes) : Write := fun writer => do
  let writer ← putAi majorBytes content.length writer
  Writer.put content writer

mutual

def writeValue : Value → Write
  | .uint v => writeUint v.toNat
  | .int v => writeInt v.toInt
  | .bool value => writeBool value
  | .null => writeNull
  | .bytes content => writeBytes content
  | .text content => writeText content
  | .f64 bits => writeF64 bits
  | .array items => fun writer => do
    let writer ← writeArrayStart items.length writer
    writeValues items writer
  | .map pairs => fun writer => do
    let writer ← writeMapStart pairs.length writer
    writeValuePairs pairs writer

def writeValues : List Value → Write
  | [], writer => .ok writer
  | item :: rest, writer => do
    let writer ← writeValue item writer
    writeValues rest writer

def writeValuePairs : List (Value × Value) → Write
  | [], writer => .ok writer
  | (key, value) :: rest, writer => do
    let writer ← writeValue key writer
    let writer ← writeValue value writer
    writeValuePairs rest writer

end

namespace Call

mutual

def readLike : Value → Call Value
  | .uint _ => do return .uint (← readUint)
  | .int _ => do return .int (← readInt)
  | .bool _ => do return .bool (← readBool)
  | .null => do
    readNull
    return .null
  | .bytes _ => do return .bytes (← readBytes)
  | .text _ => do return .text (← readText)
  | .f64 _ => do return .f64 (← readF64)
  | .array items => do
    let n ← readArrayStart
    return .array (← readItemsLike items n)
  | .map pairs => do
    let n ← readMapStart
    return .map (← readPairsLike pairs n)

/-- The loop over the number of items that has been read. -/
def readItemsLike : List Value → Nat → Call (List Value)
  | item :: rest, n + 1 => do
    let read ← readLike item
    return read :: (← readItemsLike rest n)
  | [], _ + 1 => fail .invalidArgument
  | _, 0 => return []

def readPairsLike : List (Value × Value) → Nat → Call (List (Value × Value))
  | (key, value) :: rest, n + 1 => do
    let readKey ← readLike key
    let readValue ← readLike value
    return (readKey, readValue) :: (← readPairsLike rest n)
  | [], _ + 1 => fail .invalidArgument
  | _, 0 => return []

end

end Call

mutual

def Value.Small : Value → Prop
  | .array items => items.length ≤ 4096 ∧ SmallItems items
  | .map pairs => pairs.length ≤ 4096 ∧ SmallPairs pairs
  | _ => True

def SmallItems : List Value → Prop
  | [] => True
  | item :: rest => item.Small ∧ SmallItems rest

def SmallPairs : List (Value × Value) → Prop
  | [] => True
  | (key, value) :: rest => (key.Small ∧ value.Small) ∧ SmallPairs rest

end

variable {items : List Value} {pairs : List (Value × Value)}

theorem smallItems_iff : SmallItems items ↔ ∀ item ∈ items, item.Small := by
  induction items with
  | nil => simp [SmallItems]
  | cons item rest induction => simp [SmallItems, induction]

theorem smallPairs_iff : SmallPairs pairs ↔ ∀ pair ∈ pairs, pair.1.Small ∧ pair.2.Small := by
  induction pairs with
  | nil => simp [SmallPairs]
  | cons pair rest induction => simp [SmallPairs, induction]

mutual

def Value.encoding : Value → Bytes
  | .uint v => appendAi majorUint v.toNat
  | .int v =>
    if 0 ≤ v.toInt then appendAi majorUint v.toInt.toNat
    else appendAi majorNegative (-1 - v.toInt).toNat
  | .bool value => [if value then 0xf5 else 0xf4]
  | .null => [0xf6]
  | .bytes content => appendAi majorBytes content.length ++ content
  | .text content => encodeText content
  | .f64 bits => 0xfb :: beBytes 8 bits.toNat
  | .array items => appendAi majorArray items.length ++ valuesEncoding items
  | .map pairs => appendAi majorMap pairs.length ++ valuePairsEncoding pairs

def valuesEncoding : List Value → Bytes
  | [] => []
  | item :: rest => item.encoding ++ valuesEncoding rest

def valuePairsEncoding : List (Value × Value) → Bytes
  | [] => []
  | (key, value) :: rest => key.encoding ++ (value.encoding ++ valuePairsEncoding rest)

end

theorem emits_writeValues (each : ∀ item ∈ items, Emits (writeValue item) item.encoding) :
    Emits (writeValues items) (valuesEncoding items) := by
  induction items with
  | nil => exact emits_nothing
  | cons item rest induction =>
    exact (each item (List.mem_cons_self ..)).andThen
      (induction fun other member => each other (List.mem_cons_of_mem _ member))

theorem emits_writeValuePairs (each : ∀ pair ∈ pairs, Emits (writeValue pair.1) pair.1.encoding ∧
      Emits (writeValue pair.2) pair.2.encoding) :
    Emits (writeValuePairs pairs) (valuePairsEncoding pairs) := by
  induction pairs with
  | nil => exact emits_nothing
  | cons pair rest induction =>
    have first := each pair (List.mem_cons_self ..)
    exact first.1.andThen (first.2.andThen
      (induction fun other member => each other (List.mem_cons_of_mem _ member)))

theorem emits_writeValue (value : Value) : Emits (writeValue value) value.encoding := by
  induction value using Value.inductionOn with
  | uint v => exact emits_putAi _ _
  | int v =>
    rw [writeValue, writeInt, Value.encoding]
    split
    · exact emits_putAi _ _
    · exact emits_putAi _ _
  | bool value => exact emits_put _
  | null => exact emits_put _
  | bytes content => exact (emits_putAi _ _).andThen (emits_put content)
  | text content => exact emits_writeText content
  | f64 bits => exact emits_put _
  | array items induction => exact (emits_putAi _ _).andThen (emits_writeValues induction)
  | map pairs induction => exact (emits_putAi _ _).andThen (emits_writeValuePairs induction)

namespace Call

variable {reader : CborReader}

def Reads {α : Type} (call : Call α) (piece : Bytes) (value : α) (reader : CborReader) : Prop :=
  reader.Begins piece → call reader = (.ok value, reader.moved piece.length)

variable {piece : Bytes} {major : UInt8} {α : Type} {n : Nat}

theorem Reads.andThen {β : Type} {first : Call α} {next : α → Call β} {value : α} {result : β}
    {more : Bytes} (reads : Reads first piece value reader)
    (readsMore : Reads (next value) more result (reader.moved piece.length)) :
    Reads (first >>= next) (piece ++ more) result reader := by
  intro begins
  rw [bind_ok (reads begins.left), readsMore begins.right, CborReader.moved_moved,
    List.length_append]

theorem Reads.mapped {β : Type} {first : Call α} {value : α}
    (reads : Reads first piece value reader) (f : α → β) :
    Reads (first >>= fun value => pure (f value)) piece (f value) reader := by
  intro begins
  rw [bind_ok (reads begins)]
  rfl

theorem reads_of_head {next : Head → Call α} {result : α} (multiple : major.toNat % 32 = 0)
    (small : n < 2 ^ 64)
    (accepted : ∀ ai after, next ⟨major >>> 5, ai, UInt64.ofNat n⟩ after = (.ok result, after)) :
    Reads (readHead >>= next) (appendAi major n) result reader := by
  intro begins
  rcases readHead_isHead multiple (isHead_appendAi major small) begins with ⟨ai, read⟩
  rw [bind_ok read, accepted]

theorem reads_uint (v : UInt64) : Reads readUint (appendAi majorUint v.toNat) v reader := by
  refine reads_of_head (by decide) v.toNat_lt fun ai after => ?_
  change (Except.ok (UInt64.ofNat v.toNat), after) = _
  rw [UInt64.ofNat_toNat]

theorem int64Max_ge (small : n < 2 ^ 63) : ¬int64Max < UInt64.ofNat n := by
  rw [UInt64.lt_iff_toNat_lt, UInt64.toNat_ofNat', Nat.mod_eq_of_lt (by omega)]
  change ¬2 ^ 63 - 1 < n
  omega

theorem reads_int (v : Int64) : Reads readInt (Value.int v).encoding v reader := by
  have lower := v.le_toInt
  have upper := v.toInt_lt
  rw [Value.encoding]
  split
  · next nonneg =>
    refine reads_of_head (by decide) (by omega) fun ai after => ?_
    change (if int64Max < UInt64.ofNat v.toInt.toNat then fail .limit
      else pure (UInt64.ofNat v.toInt.toNat).toInt64 : Call Int64) after = _
    rw [if_neg (int64Max_ge (by omega)), UInt64.toInt64_ofNat', ← Int64.ofInt_eq_ofNat,
      Int.toNat_of_nonneg nonneg, Int64.ofInt_toInt]
    rfl
  · next negative =>
    refine reads_of_head (by decide) (by omega) fun ai after => ?_
    change (if int64Max < UInt64.ofNat (-1 - v.toInt).toNat then fail .limit
      else pure (-(UInt64.ofNat (-1 - v.toInt).toNat).toInt64 - 1) : Call Int64) after = _
    have value : -(-1 - v.toInt) - 1 = v.toInt := by omega
    rw [if_neg (int64Max_ge (by omega)), UInt64.toInt64_ofNat', ← Int64.ofInt_eq_ofNat,
      Int.toNat_of_nonneg (by omega), ← Int64.ofInt_neg, show (1 : Int64) = Int64.ofInt 1 from rfl,
      ← Int64.ofInt_sub, value, Int64.ofInt_toInt]
    rfl

theorem reads_bool (value : Bool) : Reads readBool [if value then 0xf5 else 0xf4] value reader := by
  intro begins
  cases value with
  | false =>
    have read := @readHead_short reader majorSimple 20 (by decide) (by decide) begins
    rw [readBool, bind_ok read]
    rfl
  | true =>
    have read := @readHead_short reader majorSimple 21 (by decide) (by decide) begins
    rw [readBool, bind_ok read]
    rfl

theorem reads_null : Reads readNull [0xf6] () reader := by
  intro begins
  have read := @readHead_short reader majorSimple 22 (by decide) (by decide) begins
  rw [readNull, bind_ok read]
  rfl

theorem reads_f64 (bits : UInt64) : Reads readF64 (0xfb :: beBytes 8 bits.toNat) bits reader := by
  intro begins
  have read := @readHead_wide reader majorSimple bits.toNat (by decide) 27 8 (by decide)
    bits.toNat_lt begins
  rw [readF64, bind_ok read, List.length_cons, length_beBytes, UInt64.ofNat_toNat]
  rfl

theorem reads_view {content : Bytes} (small : content.length < 2 ^ 64) :
    Reads (readView (UInt64.ofNat content.length)) content content reader := by
  intro begins
  have value : (UInt64.ofNat content.length).toNat = content.length := by
    rw [UInt64.toNat_ofNat', Nat.mod_eq_of_lt small]
  have view : (reader.buf.drop reader.off).take content.length = content := by
    rcases begins.2 with ⟨rest, equal⟩
    rw [← equal, List.take_left]
  rw [readView, if_neg (not_sizeMax_lt _), value, bind_ok (ensure_of_begins begins (Nat.le_refl _))]
  change (Except.ok ((reader.buf.drop reader.off).take content.length),
    reader.moved content.length) = _
  rw [view]

theorem reads_string {next : Head → Call Bytes} {content : Bytes}
    (multiple : major.toNat % 32 = 0) (small : content.length < 2 ^ 64)
    (viewed : ∀ ai, next ⟨major >>> 5, ai, UInt64.ofNat content.length⟩ =
      readView (UInt64.ofNat content.length)) :
    Reads (readHead >>= next) (appendAi major content.length ++ content) content reader := by
  intro begins
  rcases readHead_isHead multiple (isHead_appendAi major small) begins.left with ⟨ai, read⟩
  rw [bind_ok read, viewed, reads_view small begins.right, CborReader.moved_moved,
    List.length_append]

theorem reads_start {next : Head → Call Nat} (multiple : major.toNat % 32 = 0)
    (small : n < 2 ^ 64) (few : n ≤ reader.maxContainerItems)
    (counted : ∀ ai, next ⟨major >>> 5, ai, UInt64.ofNat n⟩ = readContainerCount (UInt64.ofNat n)) :
    Reads (readHead >>= next) (appendAi major n) n reader := by
  intro begins
  have value : (UInt64.ofNat n).toNat = n := by
    rw [UInt64.toNat_ofNat', Nat.mod_eq_of_lt small]
  rcases readHead_isHead multiple (isHead_appendAi major small) begins with ⟨ai, read⟩
  rw [bind_ok read, counted, readContainerCount_of_le (by
    rw [value]
    exact few), value]

/-- Reading like the value gives the value, wherever its bytes stand in a buffer with
the default limits. -/
def ReadsBack (value : Value) : Prop :=
  ∀ reader : CborReader, reader.buf.length < 2 ^ 64 → reader.maxContainerItems = 4096 →
    Reads (readLike value) value.encoding value reader

theorem readsBack_items (each : ∀ item ∈ items, ReadsBack item) :
    ∀ reader : CborReader, reader.buf.length < 2 ^ 64 → reader.maxContainerItems = 4096 →
      Reads (readItemsLike items items.length) (valuesEncoding items) items reader := by
  induction items with
  | nil => exact fun _ _ _ _ => rfl
  | cons item rest induction =>
    intro reader small limit
    refine (each item (List.mem_cons_self ..) reader small limit).andThen ?_
    exact (induction (fun other member => each other (List.mem_cons_of_mem _ member))
      (reader.moved _) small limit).mapped (item :: ·)

theorem readsBack_pairs (each : ∀ pair ∈ pairs, ReadsBack pair.1 ∧ ReadsBack pair.2) :
    ∀ reader : CborReader, reader.buf.length < 2 ^ 64 → reader.maxContainerItems = 4096 →
      Reads (readPairsLike pairs pairs.length) (valuePairsEncoding pairs) pairs reader := by
  induction pairs with
  | nil => exact fun _ _ _ _ => rfl
  | cons pair rest induction =>
    intro reader small limit
    have first := each pair (List.mem_cons_self ..)
    refine (first.1 reader small limit).andThen
      ((first.2 (reader.moved _) small limit).andThen ?_)
    exact (induction (fun other member => each other (List.mem_cons_of_mem _ member))
      ((reader.moved _).moved _) small limit).mapped (pair :: ·)

theorem length_le_of_begins (begins : reader.Begins piece) : piece.length ≤ reader.buf.length := by
  have room := begins.room
  omega

theorem readsBack_of_small {value : Value} (small : value.Small) : ReadsBack value := by
  induction value using Value.inductionOn with
  | uint v => exact fun _ _ _ => (reads_uint v).mapped Value.uint
  | int v => exact fun _ _ _ => (reads_int v).mapped Value.int
  | bool value => exact fun _ _ _ => (reads_bool value).mapped Value.bool
  | null => exact fun _ _ _ => reads_null.mapped fun _ => Value.null
  | bytes content =>
    intro reader bounded _ begins
    have length := length_le_of_begins begins
    rw [Value.encoding, List.length_append] at length
    exact (reads_string (by decide) (by omega) fun _ => rfl).mapped Value.bytes begins
  | text content =>
    intro reader bounded _ begins
    have length := length_le_of_begins begins
    rw [Value.encoding, encodeText, List.length_append] at length
    exact (reads_string (by decide) (by omega) fun _ => rfl).mapped Value.text begins
  | f64 bits => exact fun _ _ _ => (reads_f64 bits).mapped Value.f64
  | array items induction =>
    rw [Value.Small, smallItems_iff] at small
    intro reader bounded limit
    have few : items.length ≤ reader.maxContainerItems := limit ▸ small.1
    refine (reads_start (by decide) (by omega) few fun _ => rfl).andThen ?_
    exact (readsBack_items (fun item member => induction item member (small.2 item member))
      (reader.moved _) bounded limit).mapped Value.array
  | map pairs induction =>
    rw [Value.Small, smallPairs_iff] at small
    intro reader bounded limit
    have few : pairs.length ≤ reader.maxContainerItems := limit ▸ small.1
    refine (reads_start (by decide) (by omega) few fun _ => rfl).andThen ?_
    exact (readsBack_pairs (fun pair member => ⟨(induction pair member).1 (small.2 pair member).1,
      (induction pair member).2 (small.2 pair member).2⟩) (reader.moved _) bounded
        limit).mapped Value.map

/-- What is written into a buffer is read back to its end. -/
theorem read_inverts_write {value : Value} (small : value.Small) {cap : Nat}
    (size : cap < 2 ^ 64) {writer : Writer} (written : writeValue value (.init cap) = .ok writer) :
    readLike value (.init writer.bytes) =
      (.ok value, (CborReader.init writer.bytes).moved writer.bytes.length) := by
  rcases emits_writeValue value _ _ written with ⟨sameCap, bytes⟩
  have isEncoding : writer.bytes = value.encoding := bytes
  have fits := writer.fits
  have isCap : writer.cap = cap := sameCap
  have begins : (CborReader.init writer.bytes).Begins value.encoding :=
    ⟨Nat.zero_le _, isEncoding ▸ List.prefix_rfl⟩
  have bounded : (CborReader.init writer.bytes).buf.length < 2 ^ 64 := by
    change writer.bytes.length < 2 ^ 64
    omega
  rw [readsBack_of_small small _ bounded rfl begins, isEncoding]

def sampleValue : Value :=
  .array [.int (-300), .map [(.bytes [1, 2], .null)]]

theorem small_sampleValue : sampleValue.Small :=
  ⟨by decide, trivial, ⟨by decide, ⟨trivial, trivial⟩, trivial⟩, trivial⟩

theorem read_inverts_write_sample : ∃ writer, writeValue sampleValue (.init 16) = .ok writer ∧
    readLike sampleValue (.init writer.bytes) =
      (.ok sampleValue, (CborReader.init writer.bytes).moved writer.bytes.length) :=
  ⟨⟨16, [0x82, 0x39, 1, 43, 0xa1, 0x42, 1, 2, 0xf6], by decide⟩, rfl,
    read_inverts_write small_sampleValue (show 16 < 2 ^ 64 by decide) rfl⟩

end Call

end AgentC.Cbor

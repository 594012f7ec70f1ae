import AgentC.Cbor.Encode

/-! # The reader with its state

`core/src/agent_cbor_read.c` with the offset, the depth and the limits of the reader,
and with every access to the buffer. `Cbor.Reader` has the same calls on the bytes
behind the offset. -/

namespace AgentC.Cbor

/-- `agent_cbor_reader_t`; the buffer has `len` bytes. -/
structure CborReader where
  buf : Bytes
  off : Nat
  depth : UInt8
  maxDepth : UInt8
  maxContainerItems : Nat
deriving DecidableEq

/-- `agent_cbor_reader_init` -/
def CborReader.init (buf : Bytes) : CborReader :=
  { buf
    off := 0
    depth := 0
    maxDepth := 16
    maxContainerItems := 4096 }

/-- How a call ends without a result. -/
inductive Halt
  | status (code : Status)
  /-- A byte outside of the buffer is read. -/
  | outside
  /-- There are more nested calls than the fuel allows. -/
  | outOfFuel
deriving DecidableEq

/-- A call on a reader, which keeps its state when it fails. -/
def Call (α : Type) : Type :=
  CborReader → Except Halt α × CborReader

instance : Monad Call where
  pure value := fun reader => (.ok value, reader)
  bind first next := fun reader =>
    match first reader with
    | (.ok value, after) => next value after
    | (.error halt, after) => (.error halt, after)

namespace CborReader

def moved (reader : CborReader) (n : Nat) : CborReader :=
  { reader with off := reader.off + n }

def entered (reader : CborReader) : CborReader :=
  { reader with depth := reader.depth + 1 }

def left (reader : CborReader) : CborReader :=
  { reader with depth := reader.depth - 1 }

end CborReader

namespace Call

def fail {α : Type} (code : Status) : Call α :=
  fun reader => (.error (.status code), reader)

def reader : Call CborReader :=
  fun reader => (.ok reader, reader)

def modify (change : CborReader → CborReader) : Call Unit :=
  fun reader => (.ok (), change reader)

def ensure (need : Nat) : Call Unit := fun reader =>
  if reader.buf.length < reader.off then (.error (.status .internal), reader)
  else if reader.buf.length - reader.off < need then (.error (.status .bounds), reader)
  else (.ok (), reader)

/-- `r->buf[r->off++]` -/
def nextByte : Call UInt8 := fun reader =>
  match reader.buf[reader.off]? with
  | some byte => (.ok byte, reader.moved 1)
  | none => (.error .outside, reader)

def readU8 : Call UInt8 := do
  ensure 1
  nextByte

/-- The loop of `read_be_u64`. -/
def shiftIn : Nat → UInt64 → Call UInt64
  | 0, v => pure v
  | n + 1, v => do
    let byte ← nextByte
    shiftIn n ((v <<< 8) ||| byte.toUInt64)

def readBeU64 (nBytes : Nat) : Call UInt64 :=
  if nBytes ≠ 1 ∧ nBytes ≠ 2 ∧ nBytes ≠ 4 ∧ nBytes ≠ 8 then fail .invalidArgument
  else do
    ensure nBytes
    shiftIn nBytes 0

structure Head where
  major : UInt8
  ai : UInt8
  arg : UInt64
deriving DecidableEq

def readArg (major ai : UInt8) (nBytes : Nat) : Call Head := do
  let arg ← readBeU64 nBytes
  return ⟨major, ai, arg⟩

def readHead : Call Head := do
  let b ← readU8
  let major := b >>> 5
  let ai := b &&& 0x1f
  if ai < 24 then return ⟨major, ai, ai.toUInt64⟩
  else if ai = 24 then readArg major ai 1
  else if ai = 25 then readArg major ai 2
  else if ai = 26 then readArg major ai 4
  else if ai = 27 then readArg major ai 8
  else fail .invalidArgument

def sizeMax : UInt64 := 0xffffffffffffffff

def readContainerCount (arg : UInt64) : Call Nat := do
  if sizeMax < arg then fail .limit
  else
    let r ← reader
    if r.maxContainerItems < arg.toNat then fail .limit
    else return arg.toNat

def readUint : Call UInt64 := do
  let head ← readHead
  if head.major ≠ 0 then fail .invalidArgument
  else return head.arg

def int64Max : UInt64 := 0x7fffffffffffffff

def readInt : Call Int64 := do
  let head ← readHead
  if head.major = 0 then
    if int64Max < head.arg then fail .limit
    else return head.arg.toInt64
  else if head.major = 1 then
    if int64Max < head.arg then fail .limit
    else return -head.arg.toInt64 - 1
  else fail .invalidArgument

def readBool : Call Bool := do
  let head ← readHead
  if head.major ≠ 7 then fail .invalidArgument
  else if head.ai = 20 then return false
  else if head.ai = 21 then return true
  else fail .invalidArgument

def readNull : Call Unit := do
  let head ← readHead
  if head.major ≠ 7 then fail .invalidArgument
  else if head.ai ≠ 22 then fail .invalidArgument
  else return ()

/-- A view of the next `n` bytes, behind a check of the size. -/
def readView (arg : UInt64) : Call Bytes := do
  if sizeMax < arg then fail .limit
  else
    ensure arg.toNat
    let r ← reader
    modify (·.moved arg.toNat)
    return (r.buf.drop r.off).take arg.toNat

def readBytes : Call Bytes := do
  let head ← readHead
  if head.major ≠ 2 then fail .invalidArgument
  else readView head.arg

def readText : Call Bytes := do
  let head ← readHead
  if head.major ≠ 3 then fail .invalidArgument
  else readView head.arg

/-- `agent_cbor_read_f64`, with the bits of the number. -/
def readF64 : Call UInt64 := do
  let head ← readHead
  if head.major ≠ 7 then fail .invalidArgument
  else if head.ai ≠ 27 then fail .invalidArgument
  else return head.arg

def readArrayStart : Call Nat := do
  let head ← readHead
  if head.major ≠ 4 then fail .invalidArgument
  else readContainerCount head.arg

def readMapStart : Call Nat := do
  let head ← readHead
  if head.major ≠ 5 then fail .invalidArgument
  else readContainerCount head.arg

def skipN (n : Nat) : Call Unit := do
  ensure n
  modify (·.moved n)

/-- A call inside a container; when it fails, the container is left. -/
def inside (call : Call Unit) : Call Unit := fun reader =>
  match call reader with
  | (.ok value, after) => (.ok value, after)
  | (.error halt, after) => (.error halt, after.left)

def skipItems (skip : Call Unit) : Nat → Call Unit
  | 0 => pure ()
  | n + 1 => do
    inside skip
    skipItems skip n

def skipPairs (skip : Call Unit) : Nat → Call Unit
  | 0 => pure ()
  | n + 1 => do
    inside skip
    inside skip
    skipPairs skip n

def below (call : Call Unit) : Call Unit := do
  let r ← reader
  if r.maxDepth ≤ r.depth then fail .limit
  else
    modify (·.entered)
    call

/-- `agent_cbor_skip_item`; the fuel bounds the number of nested calls. -/
def skipItem : Nat → Call Unit
  | 0 => fun reader => (.error .outOfFuel, reader)
  | fuel + 1 => do
    let head ← readHead
    if head.major = 0 ∨ head.major = 1 then return ()
    else if head.major = 2 ∨ head.major = 3 then
      if sizeMax < head.arg then fail .limit
      else skipN head.arg.toNat
    else if head.major = 4 then
      let n ← readContainerCount head.arg
      below do
        skipItems (skipItem fuel) n
        modify (·.left)
    else if head.major = 5 then
      let n ← readContainerCount head.arg
      below do
        skipPairs (skipItem fuel) n
        modify (·.left)
    else if head.major = 6 then
      below do
        inside (skipItem fuel)
        modify (·.left)
    else if head.major = 7 then return ()
    else fail .invalidArgument

def readItemView (fuel : Nat) : Call Bytes := do
  let r ← reader
  if r.buf.length < r.off then fail .internal
  else
    skipItem fuel
    let after ← reader
    if after.off < r.off then fail .internal
    else return (r.buf.drop r.off).take (after.off - r.off)

end Call

namespace CborReader

def Begins (reader : CborReader) (piece : Bytes) : Prop :=
  reader.off ≤ reader.buf.length ∧ piece <+: reader.buf.drop reader.off

@[simp] theorem moved_moved (reader : CborReader) (first second : Nat) :
    (reader.moved first).moved second = reader.moved (first + second) := by
  simp [moved, Nat.add_assoc]

@[simp] theorem left_entered (reader : CborReader) : reader.entered.left = reader := by
  simp [entered, left]

variable {reader : CborReader} {first second : Bytes}

theorem Begins.left (begins : reader.Begins (first ++ second)) : reader.Begins first :=
  ⟨begins.1, (List.prefix_append first second).trans begins.2⟩

theorem Begins.right (begins : reader.Begins (first ++ second)) :
    (reader.moved first.length).Begins second := by
  rcases begins with ⟨inside, rest, equal⟩
  have total := congrArg List.length equal
  rw [List.length_append, List.length_append, List.length_drop] at total
  refine ⟨?_, rest, ?_⟩
  · change reader.off + first.length ≤ reader.buf.length
    omega
  · change second ++ rest = reader.buf.drop (reader.off + first.length)
    rw [← List.drop_drop, ← equal, List.append_assoc, List.drop_left]

theorem Begins.behind (begins : reader.Begins first) : (reader.moved first.length).Begins [] := by
  rw [← List.append_nil first] at begins
  exact begins.right

theorem Begins.append (begins : reader.Begins first)
    (more : (reader.moved first.length).Begins second) : reader.Begins (first ++ second) := by
  rcases begins with ⟨inside, rest, equal⟩
  rcases more with ⟨_, behind, equalBehind⟩
  refine ⟨inside, behind, ?_⟩
  change second ++ behind = reader.buf.drop (reader.off + first.length) at equalBehind
  rw [← List.drop_drop, ← equal, List.drop_left] at equalBehind
  rw [List.append_assoc, equalBehind, equal]

theorem Begins.room {piece : Bytes} (begins : reader.Begins piece) :
    piece.length ≤ reader.buf.length - reader.off := by
  have length := begins.2.length_le
  rwa [List.length_drop] at length

end CborReader

namespace Call

variable {reader : CborReader}

variable {α β : Type} {next : α → Call β}

theorem bind_apply (first : Call α) (next : α → Call β) (reader : CborReader) :
    (first >>= next) reader =
      match first reader with
      | (.ok value, after) => next value after
      | (.error halt, after) => (.error halt, after) := rfl

theorem bind_ok {first : Call α} {value : α} {after : CborReader}
    (done : first reader = (.ok value, after)) : (first >>= next) reader = next value after := by
  rw [bind_apply, done]

theorem bind_error {first : Call α} {halt : Halt} {after : CborReader}
    (failed : first reader = (.error halt, after)) :
    (first >>= next) reader = (.error halt, after) := by
  rw [bind_apply, failed]

theorem ensure_of_begins {piece : Bytes} (begins : reader.Begins piece) {need : Nat}
    (le : need ≤ piece.length) : ensure need reader = (.ok (), reader) := by
  have room := begins.room
  rw [ensure, if_neg (Nat.not_lt.mpr begins.1), if_neg (by omega)]

theorem nextByte_of_begins {byte : UInt8} {rest : Bytes}
    (begins : reader.Begins (byte :: rest)) : nextByte reader = (.ok byte, reader.moved 1) := by
  rcases begins with ⟨_, behind, equal⟩
  have first : reader.buf[reader.off]? = some byte := by
    rw [← List.head?_drop, ← equal]
    rfl
  rw [nextByte, first]

theorem readU8_of_begins {byte : UInt8} {rest : Bytes}
    (begins : reader.Begins (byte :: rest)) : readU8 reader = (.ok byte, reader.moved 1) := by
  rw [readU8, bind_ok (ensure_of_begins begins (by simp)), nextByte_of_begins begins]

def shifted (v : UInt64) (bytes : Bytes) : UInt64 :=
  bytes.foldl (fun v byte => (v <<< 8) ||| byte.toUInt64) v

theorem shiftIn_of_begins {bytes : Bytes} : ∀ {reader : CborReader} (v : UInt64),
    reader.Begins bytes →
      shiftIn bytes.length v reader = (.ok (shifted v bytes), reader.moved bytes.length) := by
  induction bytes with
  | nil =>
    intro reader v _
    rfl
  | cons byte rest induction =>
    intro reader v begins
    have behind : (reader.moved 1).Begins rest :=
      @CborReader.Begins.right reader [byte] rest begins
    rw [List.length_cons, shiftIn, bind_ok (nextByte_of_begins begins), induction _ behind,
      CborReader.moved_moved, Nat.add_comm]
    rfl

theorem toNat_shiftedByte {v : UInt64} (small : v.toNat < 256 ^ 7) (byte : UInt8) :
    ((v <<< 8) ||| byte.toUInt64).toNat = v.toNat * 256 + byte.toNat := by
  have shiftedUp : (v <<< 8).toNat = 2 ^ 8 * v.toNat := by
    rw [UInt64.toNat_shiftLeft, Nat.shiftLeft_eq]
    change v.toNat * 2 ^ 8 % 2 ^ 64 = 2 ^ 8 * v.toNat
    omega
  rw [UInt64.toNat_or, shiftedUp, UInt8.toNat_toUInt64, ← Nat.two_pow_add_eq_or_of_lt byte.toNat_lt]
  omega

theorem toNat_shifted {bytes : Bytes} : ∀ {v : UInt64} {count : Nat}, v.toNat < 256 ^ count →
    count + bytes.length ≤ 8 → (shifted v bytes).toNat =
      bytes.foldl (fun value byte => value * 256 + byte.toNat) v.toNat := by
  induction bytes with
  | nil => exact fun _ _ => rfl
  | cons byte rest induction =>
    intro v count small fits
    rw [List.length_cons] at fits
    have le : 256 ^ count ≤ 256 ^ 7 := Nat.pow_le_pow_right (by decide) (by omega)
    have step := toNat_shiftedByte (small.trans_le le) byte
    have next : ((v <<< 8) ||| byte.toUInt64).toNat < 256 ^ (count + 1) := by
      have digit := byte.toNat_lt
      rw [step, pow_succ]
      omega
    rw [List.foldl_cons, ← step]
    exact induction next (by omega)

theorem toNat_shifted_zero {bytes : Bytes} (fits : bytes.length ≤ 8) :
    (shifted 0 bytes).toNat = beValue bytes :=
  @toNat_shifted bytes 0 0 (by decide) (by omega)

theorem readBeU64_of_begins {bytes : Bytes} (begins : reader.Begins bytes)
    (width : bytes.length = 1 ∨ bytes.length = 2 ∨ bytes.length = 4 ∨ bytes.length = 8) :
    readBeU64 bytes.length reader = (.ok (shifted 0 bytes), reader.moved bytes.length) := by
  rw [readBeU64, if_neg (by omega), bind_ok (ensure_of_begins begins (Nat.le_refl _)),
    shiftIn_of_begins 0 begins]

theorem begins_take {need : Nat} (inside : reader.off ≤ reader.buf.length)
    (room : need ≤ reader.buf.length - reader.off) :
    ∃ piece : Bytes, piece.length = need ∧ reader.Begins piece := by
  refine ⟨(reader.buf.drop reader.off).take need, ?_, inside, List.take_prefix ..⟩
  rw [List.length_take, List.length_drop, Nat.min_eq_left room]

theorem ensure_cases (need : Nat) (reader : CborReader) :
    (∃ piece : Bytes, piece.length = need ∧ reader.Begins piece ∧
      ensure need reader = (.ok (), reader)) ∨
    ∃ code, ensure need reader = (.error (.status code), reader) := by
  rw [ensure]
  split
  · exact .inr ⟨_, rfl⟩
  · next inside =>
    split
    · exact .inr ⟨_, rfl⟩
    · next room =>
      rcases begins_take (Nat.le_of_not_lt inside) (Nat.le_of_not_lt room) with
        ⟨piece, length, begins⟩
      exact .inl ⟨piece, length, begins, rfl⟩

theorem readBeU64_cases {width : Nat} (listed : width = 1 ∨ width = 2 ∨ width = 4 ∨ width = 8)
    (reader : CborReader) : (∃ piece : Bytes, piece.length = width ∧ reader.Begins piece ∧
      readBeU64 width reader = (.ok (shifted 0 piece), reader.moved width)) ∨
    ∃ code, readBeU64 width reader = (.error (.status code), reader) := by
  rcases ensure_cases width reader with ⟨piece, rfl, begins, _⟩ | ⟨code, failed⟩
  · exact .inl ⟨piece, rfl, begins, readBeU64_of_begins begins listed⟩
  · rw [readBeU64, if_neg (by omega), bind_error failed]
    exact .inr ⟨code, rfl⟩

theorem readU8_cases (reader : CborReader) :
    (∃ byte : UInt8, reader.Begins [byte] ∧ readU8 reader = (.ok byte, reader.moved 1)) ∨
    ∃ code, readU8 reader = (.error (.status code), reader) := by
  rcases ensure_cases 1 reader with ⟨piece, length, begins, _⟩ | ⟨code, failed⟩
  · rcases List.length_eq_one_iff.mp length with ⟨byte, rfl⟩
    exact .inl ⟨byte, begins, readU8_of_begins begins⟩
  · rw [readU8, bind_error failed]
    exact .inr ⟨code, rfl⟩

structure HeadOf (head : Head) (piece : Bytes) : Prop where
  isHead : IsHead (head.major <<< 5) head.arg.toNat piece
  major_lt : head.major < 8

set_option maxRecDepth 2000 in
theorem byte_of_parts : ∀ byte : UInt8,
    ((byte >>> 5) <<< 5) ||| UInt8.ofNat (byte &&& 0x1f).toNat = byte ∧ byte >>> 5 < 8 :=
  forall_byte (by decide)

theorem headOf_short {byte : UInt8} (small : byte &&& 0x1f < 24) :
    HeadOf ⟨byte >>> 5, byte &&& 0x1f, (byte &&& 0x1f).toUInt64⟩ [byte] := by
  have parts := byte_of_parts byte
  refine ⟨?_, parts.2⟩
  have head := @IsHead.short ((byte >>> 5) <<< 5) (byte &&& 0x1f).toNat
    (UInt8.lt_iff_toNat_lt.mp small)
  rwa [parts.1] at head

theorem headOf_wide {byte : UInt8} {ai : Nat} {piece : Bytes}
    (isAi : byte &&& 0x1f = UInt8.ofNat ai)
    (listed : (ai, piece.length) ∈ [(24, 1), (25, 2), (26, 4), (27, 8)]) :
    HeadOf ⟨byte >>> 5, byte &&& 0x1f, shifted 0 piece⟩ (byte :: piece) := by
  have parts := byte_of_parts byte
  have bounds : ai < 256 ∧ piece.length ≤ 8 := by
    simp only [List.mem_cons, Prod.mk.injEq, List.not_mem_nil, or_false] at listed
    omega
  have value := toNat_shifted_zero bounds.2
  refine ⟨?_, parts.2⟩
  have head := @IsHead.wide ((byte >>> 5) <<< 5) (beValue piece) ai piece.length listed
    (beValue_lt piece)
  have sameAi : UInt8.ofNat ai = UInt8.ofNat (byte &&& 0x1f).toNat := by
    rw [isAi, UInt8.ofNat_toNat]
  rw [beBytes_beValue, sameAi, parts.1] at head
  rwa [← value] at head

/-- A call gives a result, or fails further on in the buffer with nothing else changed. -/
def Fails {α : Type} (call : Call α) (reader : CborReader) : Prop :=
  ∃ code n, call reader = (.error (.status code), reader.moved n)

theorem fails_fail (code : Status) (reader : CborReader) : Fails (fail code : Call α) reader :=
  ⟨code, 0, rfl⟩

theorem Fails.behind {first : Call α} {value : α} {n : Nat}
    (done : first reader = (.ok value, reader.moved n))
    (fails : Fails (next value) (reader.moved n)) : Fails (first >>= next) reader := by
  rcases fails with ⟨code, more, failed⟩
  refine ⟨code, n + more, ?_⟩
  rw [bind_ok done, failed, CborReader.moved_moved]

theorem Fails.first {first : Call α} (fails : Fails first reader) (next : α → Call β) :
    Fails (first >>= next) reader := by
  rcases fails with ⟨code, n, failed⟩
  exact ⟨code, n, bind_error failed⟩

theorem readArg_cases (major ai : UInt8) {width : Nat}
    (listed : width = 1 ∨ width = 2 ∨ width = 4 ∨ width = 8) (reader : CborReader) :
    (∃ piece : Bytes, piece.length = width ∧ reader.Begins piece ∧
      readArg major ai width reader = (.ok ⟨major, ai, shifted 0 piece⟩, reader.moved width)) ∨
    Fails (readArg major ai width) reader := by
  rcases readBeU64_cases listed reader with ⟨piece, length, begins, done⟩ | ⟨code, failed⟩
  · exact .inl ⟨piece, length, begins, bind_ok done⟩
  · exact .inr ⟨code, 0, bind_error failed⟩

/-- What `readHead` does behind the first byte. -/
def headBehind (b : UInt8) : Call Head :=
  let major := b >>> 5
  let ai := b &&& 0x1f
  if ai < 24 then pure ⟨major, ai, ai.toUInt64⟩
  else if ai = 24 then readArg major ai 1
  else if ai = 25 then readArg major ai 2
  else if ai = 26 then readArg major ai 4
  else if ai = 27 then readArg major ai 8
  else fail .invalidArgument

theorem readHead_eq : readHead = readU8 >>= headBehind := rfl

theorem headBehind_cases (byte : UInt8) {reader : CborReader} (inside : reader.Begins []) :
    (∃ head piece, HeadOf head (byte :: piece) ∧ reader.Begins piece ∧
      headBehind byte reader = (.ok head, reader.moved piece.length)) ∨
    Fails (headBehind byte) reader := by
  have wide : ∀ ai width, byte &&& 0x1f = UInt8.ofNat ai →
      (ai, width) ∈ [(24, 1), (25, 2), (26, 4), (27, 8)] →
      headBehind byte = readArg (byte >>> 5) (byte &&& 0x1f) width →
      (∃ head piece, HeadOf head (byte :: piece) ∧ reader.Begins piece ∧
        headBehind byte reader = (.ok head, reader.moved piece.length)) ∨
      Fails (headBehind byte) reader := by
    intro ai width isAi listed same
    have widths : width = 1 ∨ width = 2 ∨ width = 4 ∨ width = 8 := by
      simp only [List.mem_cons, Prod.mk.injEq, List.not_mem_nil, or_false] at listed
      omega
    rw [same]
    rcases readArg_cases (byte >>> 5) (byte &&& 0x1f) widths reader with
      ⟨piece, rfl, begins, done⟩ | failed
    · exact .inl ⟨_, piece, headOf_wide isAi listed, begins, done⟩
    · exact .inr failed
  by_cases small : byte &&& 0x1f < 24
  · refine .inl ⟨_, [], headOf_short small, inside, ?_⟩
    rw [headBehind, if_pos small]
    rfl
  · by_cases isByte : byte &&& 0x1f = 24
    · exact wide 24 1 isByte (by decide) (by rw [headBehind, if_neg small, if_pos isByte])
    · by_cases isShort : byte &&& 0x1f = 25
      · exact wide 25 2 isShort (by decide)
          (by rw [headBehind, if_neg small, if_neg isByte, if_pos isShort])
      · by_cases isWord : byte &&& 0x1f = 26
        · exact wide 26 4 isWord (by decide)
            (by rw [headBehind, if_neg small, if_neg isByte, if_neg isShort, if_pos isWord])
        · by_cases isLong : byte &&& 0x1f = 27
          · exact wide 27 8 isLong (by decide) (by
              rw [headBehind, if_neg small, if_neg isByte, if_neg isShort, if_neg isWord,
                if_pos isLong])
          · rw [headBehind, if_neg small, if_neg isByte, if_neg isShort, if_neg isWord,
              if_neg isLong]
            exact .inr (fails_fail _ _)

theorem readHead_cases (reader : CborReader) :
    (∃ head piece, HeadOf head piece ∧ reader.Begins piece ∧
      readHead reader = (.ok head, reader.moved piece.length)) ∨ Fails readHead reader := by
  rw [readHead_eq]
  rcases readU8_cases reader with ⟨byte, begins, done⟩ | ⟨code, failed⟩
  · have inside : (reader.moved 1).Begins [] := begins.behind
    rcases headBehind_cases byte inside with
      ⟨head, piece, headOf, beginsBehind, doneBehind⟩ | failed
    · refine .inl ⟨head, byte :: piece, headOf, begins.append beginsBehind, ?_⟩
      rw [bind_ok done, doneBehind, CborReader.moved_moved, List.length_cons, Nat.add_comm]
    · exact .inr (failed.behind done)
  · exact .inr ⟨code, 0, bind_error failed⟩

section IsHead

variable {major : UInt8} {n : Nat} {piece : Bytes}

theorem parts_or (multiple : major.toNat % 32 = 0) {ai : Nat} (small : ai < 32) :
    (major ||| UInt8.ofNat ai) >>> 5 = major >>> 5 ∧
      (major ||| UInt8.ofNat ai) &&& 0x1f = UInt8.ofNat ai := by
  have sum := toNat_or multiple small
  have low : UInt8.toNat 0x1f = 2 ^ 5 - 1 := rfl
  constructor
  · rw [← UInt8.toNat_inj, UInt8.toNat_shiftRight, UInt8.toNat_shiftRight, sum,
      Nat.shiftRight_eq_div_pow, Nat.shiftRight_eq_div_pow]
    change (major.toNat + ai) / 2 ^ 5 = major.toNat / 2 ^ 5
    omega
  · rw [← UInt8.toNat_inj, UInt8.toNat_and, sum, low, Nat.and_two_pow_sub_one_eq_mod,
      UInt8.toNat_ofNat']
    omega

theorem headBehind_wide {ai width : Nat} {byte : UInt8} (isAi : byte &&& 0x1f = UInt8.ofNat ai)
    (listed : (ai, width) ∈ [(24, 1), (25, 2), (26, 4), (27, 8)]) :
    headBehind byte = readArg (byte >>> 5) (byte &&& 0x1f) width := by
  simp only [List.mem_cons, Prod.mk.injEq, List.not_mem_nil, or_false] at listed
  rw [headBehind, isAi]
  rcases listed with ⟨rfl, rfl⟩ | ⟨rfl, rfl⟩ | ⟨rfl, rfl⟩ | ⟨rfl, rfl⟩
  · rfl
  · rfl
  · rfl
  · rfl

theorem readHead_short (multiple : major.toNat % 32 = 0) (small : n < 24)
    (begins : reader.Begins [major ||| UInt8.ofNat n]) :
    readHead reader = (.ok ⟨major >>> 5, UInt8.ofNat n, UInt64.ofNat n⟩, reader.moved 1) := by
  have parts := parts_or multiple (show n < 32 by omega)
  have isShort : UInt8.ofNat n < 24 := by
    rw [UInt8.lt_iff_toNat_lt, UInt8.toNat_ofNat', Nat.mod_eq_of_lt (by omega)]
    exact small
  have value : (UInt8.ofNat n).toUInt64 = UInt64.ofNat n := by
    rw [← UInt64.toNat_inj, UInt8.toNat_toUInt64, UInt8.toNat_ofNat', UInt64.toNat_ofNat']
    omega
  rw [readHead_eq, bind_ok (readU8_of_begins begins), headBehind, parts.1, parts.2,
    if_pos isShort, value]
  rfl

theorem readHead_wide (multiple : major.toNat % 32 = 0) {ai width : Nat}
    (listed : (ai, width) ∈ [(24, 1), (25, 2), (26, 4), (27, 8)]) (bounded : n < 256 ^ width)
    (begins : reader.Begins ((major ||| UInt8.ofNat ai) :: beBytes width n)) : readHead reader =
      (.ok ⟨major >>> 5, UInt8.ofNat ai, UInt64.ofNat n⟩, reader.moved (width + 1)) := by
  have bounds : ai < 32 ∧ width ≤ 8 ∧ (width = 1 ∨ width = 2 ∨ width = 4 ∨ width = 8) := by
    simp only [List.mem_cons, Prod.mk.injEq, List.not_mem_nil, or_false] at listed
    omega
  have length := length_beBytes width n
  have parts := parts_or multiple bounds.1
  have value : shifted 0 (beBytes width n) = UInt64.ofNat n := by
    have le : 256 ^ width ≤ 256 ^ 8 := Nat.pow_le_pow_right (by decide) bounds.2.1
    rw [← UInt64.toNat_inj, toNat_shifted_zero (by omega), beValue_beBytes bounded,
      UInt64.toNat_ofNat', Nat.mod_eq_of_lt (by omega)]
  have behind : (reader.moved 1).Begins (beBytes width n) :=
    @CborReader.Begins.right reader [major ||| UInt8.ofNat ai] (beBytes width n) begins
  have read := readBeU64_of_begins behind (by omega)
  rw [length, value] at read
  rw [readHead_eq, bind_ok (readU8_of_begins begins), headBehind_wide parts.2 listed, parts.1,
    parts.2, readArg, bind_ok read, CborReader.moved_moved, Nat.add_comm]
  rfl

theorem readHead_isHead (multiple : major.toNat % 32 = 0) (isHead : IsHead major n piece)
    (begins : reader.Begins piece) : ∃ ai,
      readHead reader = (.ok ⟨major >>> 5, ai, UInt64.ofNat n⟩, reader.moved piece.length) := by
  cases isHead with
  | short small => exact ⟨_, readHead_short multiple small begins⟩
  | @wide ai width listed bounded =>
    refine ⟨UInt8.ofNat ai, ?_⟩
    rw [List.length_cons, length_beBytes]
    exact readHead_wide multiple listed bounded begins

theorem IsHead.lt (isHead : IsHead major n piece) : n < 2 ^ 64 := by
  cases isHead with
  | short small => omega
  | @wide ai width listed bounded =>
    have le : 256 ^ width ≤ 256 ^ 8 := by
      apply Nat.pow_le_pow_right (by decide)
      simp only [List.mem_cons, Prod.mk.injEq, List.not_mem_nil, or_false] at listed
      omega
    omega

end IsHead

end Call

end AgentC.Cbor

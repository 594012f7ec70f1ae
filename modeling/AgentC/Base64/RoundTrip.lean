import AgentC.Base64.Decoding

/-! # The base64 round trip -/

namespace AgentC.Base64

variable (a b c : UInt8)

theorem join_lt : (join a b c).toNat < 2 ^ 24 := by
  rw [toNat_join]
  have byteA := a.toNat_lt
  have byteB := b.toNat_lt
  have byteC := c.toNat_lt
  omega

theorem inside18 : (18 : UInt32).toNat < 32 := by decide
theorem inside12 : (12 : UInt32).toNat < 32 := by decide
theorem inside6 : (6 : UInt32).toNat < 32 := by decide
theorem inside0 : (0 : UInt32).toNat < 32 := by decide

theorem valued_letter (v : UInt32) {shift : UInt32} (inside : shift.toNat < 32) :
    0 ≤ b64Val (letter v shift) := by
  rw [b64Val_letter v shift inside]
  exact Int.natCast_nonneg _

theorem trip_letters {v : UInt32} (small : v.toNat < 2 ^ 24) :
    trip (b64Val (letter v 18)) (b64Val (letter v 12)) (b64Val (letter v 6))
      (b64Val (letter v 0)) = v := by
  rw [← UInt32.toNat_inj, toNat_trip (b64Val_lt _) (b64Val_lt _) (b64Val_lt _) (b64Val_lt _),
    b64Val_letter v 18 (by decide), b64Val_letter v 12 (by decide), b64Val_letter v 6 (by decide),
    b64Val_letter v 0 (by decide)]
  simp only [Int.toNat_natCast]
  change v.toNat / 2 ^ 18 % 64 * 2 ^ 18 + v.toNat / 2 ^ 12 % 64 * 2 ^ 12 +
    v.toNat / 2 ^ 6 % 64 * 2 ^ 6 + v.toNat / 2 ^ 0 % 64 = v.toNat
  omega

theorem last_letter : b64Val (letter (join a b 0) 0) = 0 := by
  rw [b64Val_letter _ 0 (by decide), toNat_join]
  change ((_ / 2 ^ 0 % 64 : Nat) : Int) = 0
  have zero : (0 : UInt8).toNat = 0 := rfl
  omega

theorem third_letter : b64Val (letter (join a 0 0) 6) = 0 := by
  rw [b64Val_letter _ 6 (by decide), toNat_join]
  change ((_ / 2 ^ 6 % 64 : Nat) : Int) = 0
  have zero : (0 : UInt8).toNat = 0 := rfl
  omega

theorem byteAt_join :
    byteAt (join a b c) 16 = a ∧ byteAt (join a b c) 8 = b ∧ byteAt (join a b c) 0 = c := by
  have byteA := a.toNat_lt
  have byteB := b.toNat_lt
  have byteC := c.toNat_lt
  refine ⟨byteAt_eq (by decide) ?_, byteAt_eq (by decide) ?_, byteAt_eq (by decide) ?_⟩
  · rw [toNat_join]
    change _ / 2 ^ 16 % 2 ^ 8 = _
    omega
  · rw [toNat_join]
    change _ / 2 ^ 8 % 2 ^ 8 = _
    omega
  · rw [toNat_join]
    change _ / 2 ^ 0 % 2 ^ 8 = _
    omega

/-- The text of `encodeGroups` without its padding. -/
def encodeUnpadded : Bytes → Bytes
  | a :: b :: c :: rest =>
    let v := join a b c
    letter v 18 :: letter v 12 :: letter v 6 :: letter v 0 :: encodeUnpadded rest
  | [a] =>
    let v := join a 0 0
    [letter v 18, letter v 12]
  | [a, b] =>
    let v := join a b 0
    [letter v 18, letter v 12, letter v 6]
  | [] => []

theorem encodeGroups_eq : ∀ bytes : Bytes, encodeGroups bytes =
      encodeUnpadded bytes ++ List.replicate ((3 - bytes.length % 3) % 3) padding
  | a :: b :: c :: rest => by
    have same : (a :: b :: c :: rest).length % 3 = rest.length % 3 := by
      simp only [List.length_cons]
      omega
    rw [encodeGroups, encodeUnpadded, same, encodeGroups_eq rest]
    rfl
  | [_] => rfl
  | [_, _] => rfl
  | [] => rfl

theorem valued_encodeUnpadded : ∀ bytes : Bytes, ∀ c ∈ encodeUnpadded bytes, 0 ≤ b64Val c
  | a :: b :: d :: rest, c, member => by
    simp only [encodeUnpadded, List.mem_cons] at member
    rcases member with rfl | rfl | rfl | rfl | inside
    · exact valued_letter _ (by decide)
    · exact valued_letter _ (by decide)
    · exact valued_letter _ (by decide)
    · exact valued_letter _ (by decide)
    · exact valued_encodeUnpadded rest c inside
  | [a], c, member => by
    simp only [encodeUnpadded, List.mem_cons, List.not_mem_nil, or_false] at member
    rcases member with rfl | rfl
    · exact valued_letter _ (by decide)
    · exact valued_letter _ (by decide)
  | [a, b], c, member => by
    simp only [encodeUnpadded, List.mem_cons, List.not_mem_nil, or_false] at member
    rcases member with rfl | rfl | rfl
    · exact valued_letter _ (by decide)
    · exact valued_letter _ (by decide)
    · exact valued_letter _ (by decide)

theorem length_encodeGroups : ∀ bytes : Bytes,
    (encodeGroups bytes).length = (bytes.length + 2) / 3 * 4
  | a :: b :: c :: rest => by
    rw [encodeGroups]
    simp only [List.length_cons, length_encodeGroups rest]
    omega
  | [_] => by simp [encodeGroups]
  | [_, _] => by simp [encodeGroups]
  | [] => by simp [encodeGroups]

theorem looseVal_letter (v : UInt32) {shift : UInt32} (inside : shift.toNat < 32) :
    looseVal (letter v shift) = b64Val (letter v shift) :=
  if_pos (valued_letter v inside)

theorem Decodes.group {rest out : Bytes} (behind : Decodes rest out) :
    Decodes (letter (join a b c) 18 :: letter (join a b c) 12 :: letter (join a b c) 6 ::
      letter (join a b c) 0 :: rest) (a :: b :: c :: out) := by
  have block := Decodes.block (valued_letter (join a b c) inside18)
    (valued_letter (join a b c) inside12)
    (unscreened_of_valued (valued_letter (join a b c) inside6))
    (unscreened_of_valued (valued_letter (join a b c) inside0)) behind
  have bytes := byteAt_join a b c
  rwa [looseVal_letter _ (by decide), looseVal_letter _ (by decide), trip_letters (join_lt a b c),
    bytes.1, bytes.2.1, bytes.2.2] at block

theorem trip_oneByte :
    trip (b64Val (letter (join a 0 0) 18)) (b64Val (letter (join a 0 0) 12)) 0 0 = join a 0 0 := by
  have value := trip_letters (join_lt a 0 0)
  rwa [third_letter, last_letter] at value

theorem trip_twoBytes : trip (b64Val (letter (join a b 0) 18)) (b64Val (letter (join a b 0) 12))
      (b64Val (letter (join a b 0) 6)) 0 = join a b 0 := by
  have value := trip_letters (join_lt a b 0)
  rwa [last_letter] at value

theorem decodes_encodeGroups : ∀ bytes : Bytes, Decodes (encodeGroups bytes) bytes
  | a :: b :: c :: rest => .group a b c (decodes_encodeGroups rest)
  | [a] => by
    have group := Decodes.twoPads (valued_letter (join a 0 0) inside18)
      (valued_letter (join a 0 0) inside12)
    rwa [trip_oneByte, (byteAt_join a 0 0).1] at group
  | [a, b] => by
    have group := Decodes.onePad (valued_letter (join a b 0) inside18)
      (valued_letter (join a b 0) inside12) (valued_letter (join a b 0) inside6)
    rwa [trip_twoBytes, (byteAt_join a b 0).1, (byteAt_join a b 0).2.1] at group
  | [] => .nil

theorem decodes_encodeUnpadded : ∀ bytes : Bytes, Decodes (encodeUnpadded bytes) bytes
  | a :: b :: c :: rest => .group a b c (decodes_encodeUnpadded rest)
  | [a] => by
    have group := Decodes.two (valued_letter (join a 0 0) inside18)
      (valued_letter (join a 0 0) inside12)
    rwa [trip_oneByte, (byteAt_join a 0 0).1] at group
  | [a, b] => by
    have group := Decodes.three (valued_letter (join a b 0) inside18)
      (valued_letter (join a b 0) inside12) (valued_letter (join a b 0) inside6)
    rwa [trip_twoBytes, (byteAt_join a b 0).1, (byteAt_join a b 0).2.1] at group
  | [] => .nil

theorem rdropWhile_encodeGroups (bytes : Bytes) :
    (encodeGroups bytes).rdropWhile (· == padding) = encodeUnpadded bytes := by
  have padded : AllIn (· == padding)
      (List.replicate ((3 - bytes.length % 3) % 3) padding).reverse := by
    intro c member
    rw [List.reverse_replicate] at member
    exact beq_iff_eq.mpr (List.eq_of_mem_replicate member)
  have stops : StopsAt (· == padding) (encodeUnpadded bytes).reverse := by
    intro c first
    have member := List.mem_reverse.mp (List.mem_of_head? first)
    exact beq_eq_false_iff_ne.mpr
      (ne_padding_of_valued (valued_encodeUnpadded bytes c member))
  rw [List.rdropWhile, encodeGroups_eq, List.reverse_append, dropWhile_append_of_stop padded stops,
    List.reverse_reverse]

theorem encodeLen_eq {n outCap : Nat} (room : (n + 2) / 3 * 4 < outCap) (size : outCap < 2 ^ 64) :
    encodeLen n = (n + 2) / 3 * 4 := by
  have sum : (n + 2) % 2 ^ 64 = n + 2 := Nat.mod_eq_of_lt (by omega)
  rw [encodeLen, sum, Nat.mod_eq_of_lt (by omega)]

/-- With room for the characters and the zero byte behind them, encoding succeeds, and
decoding gives the bytes back, with the padding and without it. -/
theorem base64_round_trip (bytes : Bytes) {outCap : Nat}
    (room : (bytes.length + 2) / 3 * 4 < outCap) (size : outCap < 2 ^ 64) {decodeCap : Nat}
    (decodeRoom : bytes.length ≤ decodeCap) :
    ∃ text, encode bytes outCap = .ok text ∧ text.length = encodeLen bytes.length ∧
      decode text decodeCap = .ok bytes ∧
      decode (text.rdropWhile (· == padding)) decodeCap = .ok bytes := by
  have length := encodeLen_eq room size
  refine ⟨encodeGroups bytes, ?_, ?_, ?_, ?_⟩
  · rw [encode, ensureChars, if_neg (by omega), if_neg (by omega)]
    rfl
  · rw [length, length_encodeGroups]
  · have decodes := decodes_encodeGroups bytes
    exact decode_of_decodes decodes (decodes.length_eq ▸ decodeRoom)
  · have decodes := decodes_encodeUnpadded bytes
    rw [rdropWhile_encodeGroups]
    exact decode_of_decodes decodes (decodes.length_eq ▸ decodeRoom)

theorem base64_round_trip_sample :
    ∃ text, encode [255, 0, 16, 7] 9 = .ok text ∧ text.length = encodeLen 4 ∧
      decode text 4 = .ok [255, 0, 16, 7] ∧
      decode (text.rdropWhile (· == padding)) 4 = .ok [255, 0, 16, 7] :=
  base64_round_trip [255, 0, 16, 7] (by decide) (by decide) (by decide)

end AgentC.Base64

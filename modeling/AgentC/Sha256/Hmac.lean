import AgentC.Sha256.Streaming

/-! # HMAC

`core/src/agent_hmac_sha256.c`, and what RFC 2104 defines. -/

namespace AgentC.Sha256

/-- RFC 2104, for a hash function that takes blocks of a size. -/
def Standard.hmac (hash : Bytes → Bytes) (blockSize : Nat) (key text : Bytes) : Bytes :=
  let fitting := if blockSize < key.length then hash key else key
  let key0 := fitting ++ List.replicate (blockSize - fitting.length) 0
  hash (key0.map (· ^^^ 0x5c) ++ hash (key0.map (· ^^^ 0x36) ++ text))

/-- `memcpy` to the beginning of an array. -/
def copyTo (array bytes : Bytes) : Bytes := bytes ++ array.drop bytes.length

/-- The array `k0`. -/
def keyBlock (key : Bytes) : Bytes :=
  let k0 := List.replicate 64 0
  if 0 < key.length then
    if 64 < key.length then copyTo k0 (Context.init.update key).final else copyTo k0 key
  else k0

/-- `agent_hmac_sha256`. A null pointer is an empty key or message. -/
def agentHmacSha256 (key msg : Bytes) : Bytes :=
  let k0 := keyBlock key
  let ipad := k0.map (· ^^^ 0x36)
  let opad := k0.map (· ^^^ 0x5c)
  let started := Context.init.update ipad
  let inner := (if 0 < msg.length then started.update msg else started).final
  ((Context.init.update opad).update inner).final

theorem length_sha256 (message : Bytes) : (Standard.sha256 message).length = 32 := by
  simp only [Standard.sha256, Standard.digest, List.flatMap_cons, List.flatMap_nil,
    List.length_append, length_beBytes, List.length_nil]

theorem final_update {message : Bytes} (short : message.length < 2 ^ 61) :
    (Context.init.update message).final = Standard.sha256 message :=
  (Context.holds_init.update message).final short

theorem final_update_update {front behind : Bytes} (short : (front ++ behind).length < 2 ^ 61) :
    ((Context.init.update front).update behind).final = Standard.sha256 (front ++ behind) :=
  ((Context.holds_init.update front).update behind).final short

theorem copyTo_zeros {count : Nat} (bytes : Bytes) :
    copyTo (List.replicate count 0) bytes = bytes ++ List.replicate (count - bytes.length) 0 := by
  rw [copyTo, List.drop_replicate]

theorem keyBlock_eq {key : Bytes} (short : key.length < 2 ^ 61) :
    keyBlock key =
      (if 64 < key.length then Standard.sha256 key else key) ++
        List.replicate (64 - (if 64 < key.length then Standard.sha256 key else key).length) 0 := by
  simp only [keyBlock]
  split
  · rw [final_update short]
    split
    · exact copyTo_zeros _
    · exact copyTo_zeros _
  · next none =>
    have empty : key = [] := List.eq_nil_of_length_eq_zero (Nat.eq_zero_of_not_pos none)
    rw [empty]
    rfl

theorem length_keyBlock {key : Bytes} (short : key.length < 2 ^ 61) :
    (keyBlock key).length = 64 := by
  rw [keyBlock_eq short, List.length_append, List.length_replicate]
  split
  · rw [length_sha256]
  · omega

/-- For keys of any length. -/
theorem agentHmacSha256_eq (key msg : Bytes) (short : key.length + msg.length < 2 ^ 60) :
    agentHmacSha256 key msg = Standard.hmac Standard.sha256 64 key msg := by
  have keyShort : key.length < 2 ^ 61 := by omega
  have size := length_keyBlock keyShort
  have inner : (if 0 < msg.length then
        (Context.init.update ((keyBlock key).map (· ^^^ 0x36))).update msg
      else Context.init.update ((keyBlock key).map (· ^^^ 0x36))).final =
      Standard.sha256 ((keyBlock key).map (· ^^^ 0x36) ++ msg) := by
    split
    · apply final_update_update
      rw [List.length_append, List.length_map, size]
      omega
    · next none =>
      have empty : msg = [] := List.eq_nil_of_length_eq_zero (Nat.eq_zero_of_not_pos none)
      rw [empty, List.append_nil]
      apply final_update
      rw [List.length_map, size]
      decide
  simp only [agentHmacSha256, inner]
  rw [final_update_update]
  · rw [keyBlock_eq keyShort]
    rfl
  · rw [List.length_append, List.length_map, size, length_sha256]
    decide

/-- A key that is shorter than a block. -/
theorem agentHmacSha256_eq_sample :
    agentHmacSha256 (ascii "Jefe") (ascii "what do ya want for nothing?") =
        Standard.hmac Standard.sha256 64 (ascii "Jefe") (ascii "what do ya want for nothing?") ∧
      (agentHmacSha256 (ascii "Jefe") (ascii "what do ya want for nothing?")).take 4 =
        [0x5b, 0xdc, 0xc1, 0x46] :=
  ⟨agentHmacSha256_eq _ _ (by decide), by decide +kernel⟩

end AgentC.Sha256

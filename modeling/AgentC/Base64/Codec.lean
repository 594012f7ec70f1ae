import AgentC.Foundation.Fallible
import AgentC.Foundation.BigEndian
import Mathlib.Data.List.GetD

/-! # Base64

`core/src/agent_base64.c`. The pointers are those of buffers of the caller; a call
returns what it writes into the output buffer, without the zero byte behind it. -/

namespace AgentC.Base64

def kB64Alphabet : Bytes :=
  ascii "ABCDEFGHIJKLMNOPQRSTUVWXYZabcdefghijklmnopqrstuvwxyz0123456789+/"

def padding : UInt8 := '='.toUInt8

/-- `agent_base64_encode_len`, in the arithmetic of `size_t`. -/
def encodeLen (n : Nat) : Nat :=
  (n + 2) % 2 ^ 64 / 3 * 4 % 2 ^ 64

def ensureChars (outCap needChars : Nat) : Except Status Unit :=
  if outCap = 0 then .error .invalidArgument
  else if outCap - 1 < needChars then .error .bounds
  else .ok ()

/-- The character for the six bits of `v` from `shift` on. -/
def letter (v shift : UInt32) : UInt8 :=
  kB64Alphabet.getD ((v >>> shift) &&& 0x3f).toNat 0

def join (a b c : UInt8) : UInt32 :=
  (a.toUInt32 <<< 16) ||| (b.toUInt32 <<< 8) ||| c.toUInt32

def encodeGroups : Bytes → Bytes
  | a :: b :: c :: rest =>
    let v := join a b c
    letter v 18 :: letter v 12 :: letter v 6 :: letter v 0 :: encodeGroups rest
  | [a] =>
    let v := join a 0 0
    [letter v 18, letter v 12, padding, padding]
  | [a, b] =>
    let v := join a b 0
    [letter v 18, letter v 12, letter v 6, padding]
  | [] => []

/-- `agent_base64_encode` -/
def encode (input : Bytes) (outCap : Nat) : Except Status Bytes := do
  ensureChars outCap (encodeLen input.length)
  return encodeGroups input

example : encode (ascii "fooba") 9 = .ok (ascii "Zm9vYmE=") := rfl

def b64Val (c : UInt8) : Int :=
  if 65 ≤ c ∧ c ≤ 90 then c.toNat - 65
  else if 97 ≤ c ∧ c ≤ 122 then 26 + (c.toNat - 97)
  else if 48 ≤ c ∧ c ≤ 57 then 52 + (c.toNat - 48)
  else if c = 43 then 62
  else if c = 47 then 63
  else -1

/-- What the scan in front of the decoder refuses: white space and the URL-safe
alphabet. -/
def rejected (c : UInt8) : Bool :=
  c == 32 || c == 10 || c == 13 || c == 9 || c == 45 || c == 95

/-- `pad`: how many of the last two characters are padding. -/
def padCount (text : Bytes) : Nat :=
  (if 1 ≤ text.length ∧ text.getD (text.length - 1) 0 = padding then 1 else 0) +
    (if 2 ≤ text.length ∧ text.getD (text.length - 2) 0 = padding then 1 else 0)

def trip (v0 v1 v2 v3 : Int) : UInt32 :=
  (UInt32.ofNat v0.toNat <<< 18) ||| (UInt32.ofNat v1.toNat <<< 12) |||
    (UInt32.ofNat v2.toNat <<< 6) ||| UInt32.ofNat v3.toNat

/-- The byte of `trip` from `shift` on. -/
def byteAt (trip shift : UInt32) : UInt8 :=
  ((trip >>> shift) &&& 0xff).toUInt8

def decodeBlock (c0 c1 c2 c3 : UInt8) : Except Status Bytes :=
  let v0 := b64Val c0
  let v1 := b64Val c1
  let v2 := if c2 = padding then -2 else b64Val c2
  let v3 := if c3 = padding then -2 else b64Val c3
  if v0 < 0 ∨ v1 < 0 then .error .invalidArgument
  else if v2 < -2 ∨ v3 < -2 then .error .invalidArgument
  else if v2 = -2 ∧ v3 ≠ -2 then .error .invalidArgument
  else if ¬(v3 = -2 ∧ v2 = -2) ∧ v3 = -2 ∧ v2 < 0 then .error .invalidArgument
  else
    let bits := trip v0 v1 (if 0 ≤ v2 then v2 else 0) (if 0 ≤ v3 then v3 else 0)
    .ok (byteAt bits 16 :: ((if c2 ≠ padding then [byteAt bits 8] else []) ++
      (if c3 ≠ padding then [byteAt bits 0] else [])))

def decodeBlocks : Bytes → Except Status (Bytes × Bytes)
  | c0 :: c1 :: c2 :: c3 :: rest => do
    let block ← decodeBlock c0 c1 c2 c3
    let (out, tail) ← decodeBlocks rest
    return (block ++ out, tail)
  | tail => .ok ([], tail)

def decodeTail : Bytes → Except Status Bytes
  | [c0, c1] =>
    if b64Val c0 < 0 ∨ b64Val c1 < 0 then .error .invalidArgument
    else .ok [byteAt (trip (b64Val c0) (b64Val c1) 0 0) 16]
  | [c0, c1, c2] =>
    if b64Val c0 < 0 ∨ b64Val c1 < 0 then .error .invalidArgument
    else if b64Val c2 < 0 then .error .invalidArgument
    else
      let bits := trip (b64Val c0) (b64Val c1) (b64Val c2) 0
      .ok [byteAt bits 16, byteAt bits 8]
  | _ => .ok []

/-- `expected`: the length of the output. -/
def expectedLen (text : Bytes) : Nat :=
  let pad := padCount text
  let mod := text.length % 4
  if pad ≠ 0 then text.length / 4 * 3 - pad
  else text.length / 4 * 3 + (if mod = 2 then 1 else 0) + (if mod = 3 then 2 else 0)

/-- `agent_base64_decode` -/
def decode (text : Bytes) (outCap : Nat) : Except Status Bytes := do
  let pad := padCount text
  let mod := text.length % 4
  if text.any rejected then .error .invalidArgument
  else if pad ≠ 0 ∧ (text.take (text.length - pad)).any (· == padding) then
    .error .invalidArgument
  else if mod = 1 then .error .invalidArgument
  else if pad ≠ 0 ∧ mod ≠ 0 then .error .invalidArgument
  else if outCap < expectedLen text then .error .bounds
  else
    let (out, tail) ← decodeBlocks text
    let last ← (if pad = 0 ∧ mod ≠ 0 then decodeTail tail else .ok [])
    if (out ++ last).length ≠ expectedLen text then .error .internal
    else return out ++ last

example : decode (ascii "Zm9vYmE=") 5 = .ok (ascii "fooba") := by decide
example : decode (ascii "Zm9vYmE") 5 = .ok (ascii "fooba") := by decide

theorem toNat_join (a b c : UInt8) :
    (join a b c).toNat = a.toNat * 2 ^ 16 + b.toNat * 2 ^ 8 + c.toNat := by
  have high : (a.toUInt32 <<< 16).toNat = a.toNat * 2 ^ 16 :=
    toNat_shiftedUp (show a.toUInt32.toNat < 2 ^ 8 from a.toNat_lt) (by decide) (by decide)
  have middle : (b.toUInt32 <<< 8).toNat = b.toNat * 2 ^ 8 :=
    toNat_shiftedUp (show b.toUInt32.toNat < 2 ^ 8 from b.toNat_lt) (by decide) (by decide)
  have low : c.toUInt32.toNat = c.toNat := UInt8.toNat_toUInt32 c
  have byteB := b.toNat_lt
  have byteC := c.toNat_lt
  rw [join, UInt32.toNat_or, UInt32.toNat_or, high, middle, low,
    or_eq_add 16 (Nat.dvd_mul_left ..) (by omega), or_eq_add 8 (by omega) byteC]

theorem toNat_trip {v0 v1 v2 v3 : Int} (b0 : v0 < 64) (b1 : v1 < 64) (b2 : v2 < 64) (b3 : v3 < 64) :
    (trip v0 v1 v2 v3).toNat =
      v0.toNat * 2 ^ 18 + v1.toNat * 2 ^ 12 + v2.toNat * 2 ^ 6 + v3.toNat := by
  have value : ∀ {v : Int}, v < 64 → (UInt32.ofNat v.toNat).toNat = v.toNat := by
    intro v bound
    exact Nat.mod_eq_of_lt (show v.toNat < 2 ^ 32 by omega)
  have sextet : ∀ {v : Int}, v < 64 → (UInt32.ofNat v.toNat).toNat < 2 ^ 6 := by
    intro v bound
    rw [value bound]
    omega
  have first : (UInt32.ofNat v0.toNat <<< 18).toNat = v0.toNat * 2 ^ 18 := by
    rw [toNat_shiftedUp (sextet b0) (by decide) (by decide), value b0]
    rfl
  have second : (UInt32.ofNat v1.toNat <<< 12).toNat = v1.toNat * 2 ^ 12 := by
    rw [toNat_shiftedUp (sextet b1) (by decide) (by decide), value b1]
    rfl
  have third : (UInt32.ofNat v2.toNat <<< 6).toNat = v2.toNat * 2 ^ 6 := by
    rw [toNat_shiftedUp (sextet b2) (by decide) (by decide), value b2]
    rfl
  have upper : v0.toNat * 2 ^ 18 ||| v1.toNat * 2 ^ 12 = v0.toNat * 2 ^ 18 + v1.toNat * 2 ^ 12 :=
    or_eq_add 18 (Nat.dvd_mul_left ..) (by omega)
  have lower : v0.toNat * 2 ^ 18 + v1.toNat * 2 ^ 12 ||| v2.toNat * 2 ^ 6 =
      v0.toNat * 2 ^ 18 + v1.toNat * 2 ^ 12 + v2.toNat * 2 ^ 6 :=
    or_eq_add 12 (by omega) (by omega)
  rw [trip, UInt32.toNat_or, UInt32.toNat_or, UInt32.toNat_or, first, second, third, value b3,
    upper, lower, or_eq_add 6 (by omega) (by omega)]

theorem b64Val_lt : ∀ c : UInt8, b64Val c < 64 :=
  forall_byte (by decide +kernel)

theorem b64Val_getD : ∀ index : Fin 64,
    b64Val (kB64Alphabet.getD index.val 0) = (index.val : Int) := by
  decide +kernel

theorem getD_b64Val : ∀ c : UInt8, 0 ≤ b64Val c → kB64Alphabet.getD (b64Val c).toNat 0 = c :=
  forall_byte (by decide +kernel)

theorem b64Val_nonneg (c : UInt8) : 0 ≤ b64Val c ↔ c ∈ kB64Alphabet := by
  constructor
  · intro valued
    have index : (b64Val c).toNat < kB64Alphabet.length := by
      have bound := b64Val_lt c
      rw [show kB64Alphabet.length = 64 from rfl]
      omega
    rw [← getD_b64Val c valued, List.getD_eq_getElem _ _ index]
    exact List.getElem_mem index
  · intro member
    rcases List.mem_iff_getElem.mp member with ⟨index, bound, rfl⟩
    have value := b64Val_getD ⟨index, bound⟩
    rw [List.getD_eq_getElem _ _ bound] at value
    rw [value]
    exact Int.natCast_nonneg index

theorem b64Val_letter (v shift : UInt32) (inside : shift.toNat < 32) :
    b64Val (letter v shift) = ((v.toNat / 2 ^ shift.toNat % 64 : Nat) : Int) := by
  rw [letter, toNat_field v shift 0x3f 6 rfl inside]
  exact b64Val_getD ⟨v.toNat / 2 ^ shift.toNat % 64, Nat.mod_lt _ (by decide)⟩

theorem byteAt_eq {v shift : UInt32} (inside : shift.toNat < 32) {byte : UInt8}
    (equal : v.toNat / 2 ^ shift.toNat % 2 ^ 8 = byte.toNat) : byteAt v shift = byte := by
  rw [← UInt8.toNat_inj, byteAt, UInt32.toNat_toUInt8, toNat_field v shift 0xff 8 rfl inside, equal]
  exact Nat.mod_eq_of_lt byte.toNat_lt

end AgentC.Base64

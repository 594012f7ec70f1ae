import AgentC.Foundation.Bytes

/-! # Strings as the Go library treats them

`strings.TrimSpace` removes the white space of Unicode from both ends. No
encoding of a white-space character is a part of another character's. -/

namespace AgentC

def spaceEncodings : List Bytes :=
  [[9], [10], [11], [12], [13], [32], [0xC2, 0x85], [0xC2, 0xA0], [0xE1, 0x9A, 0x80],
    [0xE2, 0x80, 0x80], [0xE2, 0x80, 0x81], [0xE2, 0x80, 0x82], [0xE2, 0x80, 0x83],
    [0xE2, 0x80, 0x84], [0xE2, 0x80, 0x85], [0xE2, 0x80, 0x86], [0xE2, 0x80, 0x87],
    [0xE2, 0x80, 0x88], [0xE2, 0x80, 0x89], [0xE2, 0x80, 0x8A], [0xE2, 0x80, 0xA8],
    [0xE2, 0x80, 0xA9], [0xE2, 0x80, 0xAF], [0xE2, 0x81, 0x9F], [0xE3, 0x80, 0x80]]

/-- Drop encodings from the front, at most `steps` of them. -/
def dropEncodings (encodings : List Bytes) : (steps : Nat) → Bytes → Bytes
  | 0, text => text
  | steps + 1, text =>
    match encodings.find? fun encoding => encoding.isPrefixOf text with
    | some encoding => dropEncodings encodings steps (text.drop encoding.length)
    | none => text

def trimSpace (text : Bytes) : Bytes :=
  let front := dropEncodings spaceEncodings text.length text
  (dropEncodings (spaceEncodings.map List.reverse) front.length front.reverse).reverse

example : trimSpace (ascii " \tid \n") = ascii "id" := by decide

section Trimming

variable {encodings : List Bytes} {text : Bytes}

def ClearOf (encodings : List Bytes) (text : Bytes) : Prop :=
  ∀ encoding ∈ encodings, ¬encoding <+: text

theorem find?_of_clearOf (clear : ClearOf encodings text) :
    (encodings.find? fun encoding => encoding.isPrefixOf text) = none := by
  apply List.find?_eq_none.mpr
  intro encoding member found
  exact clear encoding member (List.isPrefixOf_iff_prefix.mp found)

theorem dropEncodings_of_clearOf (clear : ClearOf encodings text) (steps : Nat) :
    dropEncodings encodings steps text = text := by
  cases steps with
  | zero => rfl
  | succ steps => rw [dropEncodings, find?_of_clearOf clear]

theorem clearOf_dropEncodings (nonempty : [] ∉ encodings) {steps : Nat}
    (enough : text.length ≤ steps) : ClearOf encodings (dropEncodings encodings steps text) := by
  induction steps generalizing text with
  | zero =>
    have empty := List.length_eq_zero_iff.mp (Nat.le_zero.mp enough)
    rw [dropEncodings, empty]
    intro encoding member front
    rw [List.prefix_nil.mp front] at member
    exact nonempty member
  | succ steps induction =>
    rw [dropEncodings]
    split
    · next encoding found =>
      have member := List.mem_of_find?_eq_some found
      have longer : 0 < encoding.length := by
        apply List.length_pos_of_ne_nil
        intro empty
        exact nonempty (empty ▸ member)
      apply induction
      rw [List.length_drop]
      omega
    · next missing =>
      intro encoding member front
      exact List.find?_eq_none.mp missing encoding member
        (List.isPrefixOf_iff_prefix.mpr front)

theorem dropEncodings_suffix (steps : Nat) : dropEncodings encodings steps text <:+ text := by
  induction steps generalizing text with
  | zero => exact List.suffix_refl text
  | succ steps induction =>
    rw [dropEncodings]
    split
    · exact induction.trans (List.drop_suffix ..)
    · exact List.suffix_refl text

theorem trimSpace_trimSpace : trimSpace (trimSpace text) = trimSpace text := by
  generalize equation : dropEncodings spaceEncodings text.length text = front
  have clear : ClearOf spaceEncodings front := by
    rw [← equation]
    exact clearOf_dropEncodings (by decide) (Nat.le_refl _)
  generalize backEquation :
    dropEncodings (spaceEncodings.map List.reverse) front.length front.reverse = back
  have clearBack : ClearOf (spaceEncodings.map List.reverse) back := by
    rw [← backEquation]
    exact clearOf_dropEncodings (by decide) (Nat.le_of_eq List.length_reverse)
  have trimmed : trimSpace text = back.reverse := by
    rw [trimSpace, equation, backEquation]
  have inFront : back.reverse <+: front := by
    rw [← List.reverse_suffix, List.reverse_reverse, ← backEquation]
    exact dropEncodings_suffix _
  have clearTrimmed : ClearOf spaceEncodings back.reverse := by
    intro encoding member leading
    exact clear encoding member (leading.trans inFront)
  rw [trimmed, trimSpace, dropEncodings_of_clearOf clearTrimmed, List.reverse_reverse,
    dropEncodings_of_clearOf clearBack]

end Trimming

def lowerByte (byte : UInt8) : UInt8 :=
  if 65 ≤ byte ∧ byte ≤ 90 then byte + 32 else byte

/-- `strings.ToLower`. -/
structure LowerCase where
  lower : Bytes → Bytes
  /-- On ASCII text it lowers the letters. -/
  ascii : ∀ text, (∀ byte ∈ text, byte < 128) → lower text = text.map lowerByte

/-- A version that lowers nothing but the ASCII letters. -/
def LowerCase.asciiOnly : LowerCase where
  lower := List.map lowerByte
  ascii := fun _ _ => rfl

end AgentC

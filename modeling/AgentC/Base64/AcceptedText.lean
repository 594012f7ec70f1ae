import AgentC.Base64.Decoding

/-! # Which texts the base64 decoder takes

A text is base64 when it is characters of the alphabet and the padding of its last
group. The decoder checks the last two places of a full block for nothing but
padding. -/

namespace AgentC.Base64

/-- Characters of the alphabet, with as many padding characters behind them as the
last group needs, or with none. -/
def IsBase64 (text : Bytes) : Prop :=
  ∃ body pad, text = body ++ List.replicate pad padding ∧ (∀ c ∈ body, c ∈ kB64Alphabet) ∧
    pad ≤ 2 ∧ (pad ≠ 0 → text.length % 4 = 0) ∧ (pad = 0 → text.length % 4 ≠ 1)

/-- A text in groups of four, of which the last may be short or padded: characters of
the alphabet, but for the last two places of a group without padding, where a
condition of its own decides. -/
inductive Groups (inner : UInt8 → Prop) : Bytes → Prop
  | nil : Groups inner []
  | two {c0 c1 : UInt8} (first : c0 ∈ kB64Alphabet) (second : c1 ∈ kB64Alphabet) :
      Groups inner [c0, c1]
  | three {c0 c1 c2 : UInt8} (first : c0 ∈ kB64Alphabet) (second : c1 ∈ kB64Alphabet)
      (third : c2 ∈ kB64Alphabet) : Groups inner [c0, c1, c2]
  | twoPads {c0 c1 : UInt8} (first : c0 ∈ kB64Alphabet) (second : c1 ∈ kB64Alphabet) :
      Groups inner [c0, c1, padding, padding]
  | onePad {c0 c1 c2 : UInt8} (first : c0 ∈ kB64Alphabet) (second : c1 ∈ kB64Alphabet)
      (third : c2 ∈ kB64Alphabet) : Groups inner [c0, c1, c2, padding]
  | full {c0 c1 c2 c3 : UInt8} {rest : Bytes} (first : c0 ∈ kB64Alphabet)
      (second : c1 ∈ kB64Alphabet) (third : inner c2) (fourth : inner c3)
      (behind : Groups inner rest) : Groups inner (c0 :: c1 :: c2 :: c3 :: rest)

theorem groups_unscreened_iff {text : Bytes} :
    Groups Unscreened text ↔ ∃ out, Decodes text out := by
  constructor
  · intro groups
    induction groups with
    | nil => exact ⟨_, .nil⟩
    | two first second =>
      rw [← b64Val_nonneg] at first second
      exact ⟨_, .two first second⟩
    | three first second third =>
      rw [← b64Val_nonneg] at first second third
      exact ⟨_, .three first second third⟩
    | twoPads first second =>
      rw [← b64Val_nonneg] at first second
      exact ⟨_, .twoPads first second⟩
    | onePad first second third =>
      rw [← b64Val_nonneg] at first second third
      exact ⟨_, .onePad first second third⟩
    | full first second third fourth _ induction =>
      rw [← b64Val_nonneg] at first second
      rcases induction with ⟨out, behind⟩
      exact ⟨_, .block first second third fourth behind⟩
  · intro decoded
    rcases decoded with ⟨out, decodes⟩
    induction decodes with
    | nil => exact .nil
    | two first second =>
      rw [b64Val_nonneg] at first second
      exact .two first second
    | three first second third =>
      rw [b64Val_nonneg] at first second third
      exact .three first second third
    | twoPads first second =>
      rw [b64Val_nonneg] at first second
      exact .twoPads first second
    | onePad first second third =>
      rw [b64Val_nonneg] at first second third
      exact .onePad first second third
    | block first second third fourth _ induction =>
      rw [b64Val_nonneg] at first second
      exact .full first second third fourth induction

theorem groups_of_alphabet : ∀ {body : Bytes} {pad : Nat}, Shape body pad →
    (∀ c ∈ body, c ∈ kB64Alphabet) → Groups Unscreened (body ++ List.replicate pad padding)
  | c0 :: c1 :: c2 :: c3 :: body, pad, shape, inside =>
    .full (inside c0 (by simp)) (inside c1 (by simp)) (shape.unscreened c2 (by simp))
      (shape.unscreened c3 (by simp))
      (groups_of_alphabet shape.behind fun c member => inside c (by simp [member]))
  | [], pad, shape, _ => by
    rcases (shape.pad_of_short (show 0 < 4 by decide)).2 with none | ⟨some, _⟩
    · rw [none]
      exact .nil
    · exact absurd rfl some
  | [c0], pad, shape, _ => absurd rfl (shape.pad_of_short (show 1 < 4 by decide)).1
  | [c0, c1], pad, shape, inside => by
    rcases (shape.pad_of_short (show 2 < 4 by decide)).2 with none | ⟨_, two⟩
    · rw [none]
      exact .two (inside c0 (by simp)) (inside c1 (by simp))
    · rw [two]
      exact .twoPads (inside c0 (by simp)) (inside c1 (by simp))
  | [c0, c1, c2], pad, shape, inside => by
    rcases (shape.pad_of_short (show 3 < 4 by decide)).2 with none | ⟨_, one⟩
    · rw [none]
      exact .three (inside c0 (by simp)) (inside c1 (by simp)) (inside c2 (by simp))
    · rw [one]
      exact .onePad (inside c0 (by simp)) (inside c1 (by simp)) (inside c2 (by simp))

theorem isBase64_iff {text : Bytes} :
    IsBase64 text ↔ Groups Unscreened text ∧ ∀ c ∈ text, c ≠ padding → c ∈ kB64Alphabet := by
  constructor
  · intro spelled
    rcases spelled with ⟨body, pad, rfl, inside, few, padded, unpadded⟩
    rw [List.length_append, List.length_replicate] at padded unpadded
    have shape : Shape body pad := by
      refine ⟨fun c member => ?_, few, fun none => ?_, padded⟩
      · exact unscreened_of_valued ((b64Val_nonneg c).mpr (inside c member))
      · have several := unpadded none
        rwa [none, Nat.add_zero] at several
    refine ⟨groups_of_alphabet shape inside, fun c member notPadding => ?_⟩
    rcases List.mem_append.mp member with inBody | behind
    · exact inside c inBody
    · exact absurd (List.eq_of_mem_replicate behind) notPadding
  · intro both
    rcases groups_unscreened_iff.mp both.1 with ⟨out, decodes⟩
    rcases decodes.shape with ⟨body, pad, rfl, shape⟩
    refine ⟨body, pad, rfl, fun c member => ?_, shape.few, shape.length.2, fun _ => shape.length.1⟩
    exact both.2 c (List.mem_append_left _ member) (shape.unscreened c member).1

/-- A text in groups of four with a byte that is no base64 in one of the last two
places of a group without padding. -/
def Disguised (text : Bytes) : Prop :=
  Groups Unscreened text ∧ ∃ c ∈ text, c ≠ padding ∧ c ∉ kB64Alphabet

/-- The decoder takes base64 and the disguised texts, and nothing else. -/
theorem decodes_iff_isBase64 {text : Bytes} {outCap : Nat} (room : expectedLen text ≤ outCap) :
    ((∃ out, decode text outCap = .ok out) ↔ IsBase64 text) ↔ ¬Disguised text := by
  have taken : (∃ out, decode text outCap = .ok out) ↔ Groups Unscreened text := by
    rw [groups_unscreened_iff]
    exact exists_congr fun out => decode_eq_ok room
  rw [taken, isBase64_iff]
  constructor
  · intro same disguised
    rcases disguised with ⟨groups, c, member, notPadding, outside⟩
    exact outside ((same.mp groups).2 c member notPadding)
  · intro plain
    constructor
    · intro groups
      refine ⟨groups, fun c member notPadding => ?_⟩
      by_contra outside
      exact plain ⟨groups, c, member, notPadding, outside⟩
    · intro both
      exact both.1

theorem decodes_iff_isBase64_sample :
    ((∃ out, decode (ascii "Zm9v") 3 = .ok out) ↔ IsBase64 (ascii "Zm9v")) ↔
      ¬Disguised (ascii "Zm9v") :=
  decodes_iff_isBase64 (by decide)

/-- `AA!!` is decoded to three zero bytes. -/
theorem decodes_disguised :
    ¬((∃ out, decode (ascii "AA!!") 3 = .ok out) ↔ IsBase64 (ascii "AA!!")) := by
  intro same
  have taken : decode (ascii "AA!!") 3 = .ok [0, 0, 0] := rfl
  have inside := (isBase64_iff.mp (same.mp ⟨_, taken⟩)).2 33 (by decide) (by decide)
  exact absurd inside (by decide)

end AgentC.Base64

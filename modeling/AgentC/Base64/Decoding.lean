import AgentC.Base64.Codec

/-! # What the base64 decoder takes

`Decodes text out` describes the texts that the decoder takes and what it returns for
each of them, group by group. -/

namespace AgentC.Base64

/-- What the decoder takes in the last two places of a full block. -/
def Unscreened (c : UInt8) : Prop :=
  c ≠ padding ∧ rejected c = false

/-- The value of a character in the last two places of a block, where nothing but a
negative value shows that there is none. -/
def looseVal (c : UInt8) : Int :=
  if 0 ≤ b64Val c then b64Val c else 0

inductive Decodes : Bytes → Bytes → Prop
  | nil : Decodes [] []
  | two {c0 c1 : UInt8} (first : 0 ≤ b64Val c0) (second : 0 ≤ b64Val c1) :
      Decodes [c0, c1] [byteAt (trip (b64Val c0) (b64Val c1) 0 0) 16]
  | three {c0 c1 c2 : UInt8} (first : 0 ≤ b64Val c0) (second : 0 ≤ b64Val c1)
      (third : 0 ≤ b64Val c2) :
      Decodes [c0, c1, c2] [byteAt (trip (b64Val c0) (b64Val c1) (b64Val c2) 0) 16,
        byteAt (trip (b64Val c0) (b64Val c1) (b64Val c2) 0) 8]
  | twoPads {c0 c1 : UInt8} (first : 0 ≤ b64Val c0) (second : 0 ≤ b64Val c1) :
      Decodes [c0, c1, padding, padding] [byteAt (trip (b64Val c0) (b64Val c1) 0 0) 16]
  | onePad {c0 c1 c2 : UInt8} (first : 0 ≤ b64Val c0) (second : 0 ≤ b64Val c1)
      (third : 0 ≤ b64Val c2) :
      Decodes [c0, c1, c2, padding] [byteAt (trip (b64Val c0) (b64Val c1) (b64Val c2) 0) 16,
        byteAt (trip (b64Val c0) (b64Val c1) (b64Val c2) 0) 8]
  | block {c0 c1 c2 c3 : UInt8} {rest out : Bytes} (first : 0 ≤ b64Val c0)
      (second : 0 ≤ b64Val c1) (third : Unscreened c2) (fourth : Unscreened c3)
      (behind : Decodes rest out) :
      Decodes (c0 :: c1 :: c2 :: c3 :: rest)
        (byteAt (trip (b64Val c0) (b64Val c1) (looseVal c2) (looseVal c3)) 16 ::
          byteAt (trip (b64Val c0) (b64Val c1) (looseVal c2) (looseVal c3)) 8 ::
          byteAt (trip (b64Val c0) (b64Val c1) (looseVal c2) (looseVal c3)) 0 :: out)

set_option maxRecDepth 2000 in
theorem minusOne_le_b64Val : ∀ c : UInt8, -1 ≤ b64Val c :=
  forall_byte (by decide)

set_option maxRecDepth 2000 in
theorem rejected_of_valued : ∀ c : UInt8, 0 ≤ b64Val c → rejected c = false :=
  forall_byte (by decide)

theorem ne_padding_of_valued {c : UInt8} (valued : 0 ≤ b64Val c) : c ≠ padding := by
  intro isPadding
  rw [isPadding] at valued
  exact absurd valued (by decide)

theorem unscreened_of_valued {c : UInt8} (valued : 0 ≤ b64Val c) : Unscreened c :=
  ⟨ne_padding_of_valued valued, rejected_of_valued c valued⟩

variable {c0 c1 c2 c3 : UInt8} {out tail last front : Bytes} {pad : Nat} {text whole : Bytes}

theorem decodeBlock_full (third : c2 ≠ padding) (fourth : c3 ≠ padding) :
    decodeBlock c0 c1 c2 c3 = .ok out ↔ (0 ≤ b64Val c0 ∧ 0 ≤ b64Val c1) ∧
      [byteAt (trip (b64Val c0) (b64Val c1) (looseVal c2) (looseVal c3)) 16,
        byteAt (trip (b64Val c0) (b64Val c1) (looseVal c2) (looseVal c3)) 8,
        byteAt (trip (b64Val c0) (b64Val c1) (looseVal c2) (looseVal c3)) 0] = out := by
  have lower2 := minusOne_le_b64Val c2
  have lower3 := minusOne_le_b64Val c3
  rw [decodeBlock]
  simp only [if_neg third, if_neg fourth, if_pos third, if_pos fourth]
  by_cases valued : b64Val c0 < 0 ∨ b64Val c1 < 0
  · rw [if_pos valued]
    constructor
    · intro impossible
      exact nomatch impossible
    · intro found
      omega
  · rw [if_neg valued, if_neg (by omega), if_neg (by omega), if_neg (by omega), Except.ok.injEq]
    constructor
    · intro equal
      exact ⟨by omega, equal⟩
    · intro found
      exact found.2

theorem decodeBlock_onePad (third : c2 ≠ padding) : decodeBlock c0 c1 c2 padding = .ok out ↔
      (0 ≤ b64Val c0 ∧ 0 ≤ b64Val c1 ∧ 0 ≤ b64Val c2) ∧
        [byteAt (trip (b64Val c0) (b64Val c1) (b64Val c2) 0) 16,
          byteAt (trip (b64Val c0) (b64Val c1) (b64Val c2) 0) 8] = out := by
  have lower2 := minusOne_le_b64Val c2
  rw [decodeBlock]
  simp only [if_neg third, if_pos third, if_true]
  by_cases valued : 0 ≤ b64Val c0 ∧ 0 ≤ b64Val c1 ∧ 0 ≤ b64Val c2
  · rw [if_neg (by omega), if_neg (by omega), if_neg (by omega), if_neg (by omega),
      if_pos valued.2.2, if_neg (by omega), Except.ok.injEq]
    constructor
    · intro equal
      exact ⟨valued, equal⟩
    · intro found
      exact found.2
  · constructor
    · intro taken
      split at taken
      · exact nomatch taken
      · have absent : b64Val c2 = -1 := by omega
        rw [absent] at taken
        exact nomatch taken
    · intro found
      exact absurd found.1 valued

theorem decodeBlock_twoPads :
    decodeBlock c0 c1 padding padding = .ok out ↔ (0 ≤ b64Val c0 ∧ 0 ≤ b64Val c1) ∧
      [byteAt (trip (b64Val c0) (b64Val c1) 0 0) 16] = out := by
  rw [decodeBlock]
  by_cases valued : b64Val c0 < 0 ∨ b64Val c1 < 0
  · simp only [if_pos valued]
    constructor
    · intro impossible
      exact nomatch impossible
    · intro found
      omega
  · simp only [if_neg valued, if_true]
    constructor
    · intro equal
      exact ⟨by omega, Except.ok.inj equal⟩
    · intro found
      exact congrArg Except.ok found.2

theorem length_decodeBlock (taken : decodeBlock c0 c1 c2 c3 = .ok out) :
    out.length + [c0, c1, c2, c3].count padding = 3 := by
  by_cases third : c2 = padding
  · by_cases fourth : c3 = padding
    · cases third
      cases fourth
      rcases decodeBlock_twoPads.mp taken with ⟨valued, rfl⟩
      simp [ne_padding_of_valued valued.1, ne_padding_of_valued valued.2]
    · cases third
      rw [decodeBlock] at taken
      have unequal := minusOne_le_b64Val c3
      simp only [if_true, if_neg fourth] at taken
      split at taken
      · exact nomatch taken
      · rw [if_neg (by omega), if_pos ⟨trivial, by omega⟩] at taken
        exact nomatch taken
  · by_cases fourth : c3 = padding
    · cases fourth
      rcases (decodeBlock_onePad third).mp taken with ⟨valued, rfl⟩
      simp [ne_padding_of_valued valued.1, ne_padding_of_valued valued.2.1, third]
    · rcases (decodeBlock_full third fourth).mp taken with ⟨valued, rfl⟩
      simp [ne_padding_of_valued valued.1, ne_padding_of_valued valued.2, third, fourth]

theorem length_decodeBlocks : ∀ {text whole tail : Bytes}, decodeBlocks text = .ok (whole, tail) →
      whole.length + text.count padding = text.length / 4 * 3 + tail.count padding ∧
        tail.length = text.length % 4
  | c0 :: c1 :: c2 :: c3 :: rest, whole, tail, taken => by
    rw [decodeBlocks] at taken
    rcases bind_eq_ok.mp taken with ⟨block, ofBlock, taken⟩
    rcases bind_eq_ok.mp taken with ⟨⟨out, last⟩, ofRest, taken⟩
    cases taken
    have behind := length_decodeBlocks ofRest
    have here := length_decodeBlock ofBlock
    have counted : (c0 :: c1 :: c2 :: c3 :: rest).count padding =
        [c0, c1, c2, c3].count padding + rest.count padding :=
      @List.count_append _ _ padding [c0, c1, c2, c3] rest
    rw [counted, List.length_append]
    simp only [List.length_cons]
    omega
  | [], whole, tail, taken => by
    cases taken
    simp
  | [c0], whole, tail, taken => by
    cases taken
    simp
  | [c0, c1], whole, tail, taken => by
    cases taken
    simp
  | [c0, c1, c2], whole, tail, taken => by
    cases taken
    simp

theorem decodeTail_eq_ok (taken : decodeTail tail = .ok last) (short : tail.length < 4)
    (several : tail.length ≠ 1) :
    tail.count padding = 0 ∧
      last.length = (if tail.length = 2 then 1 else 0) + (if tail.length = 3 then 2 else 0) := by
  match tail, taken with
  | [], taken =>
    cases taken
    exact ⟨rfl, rfl⟩
  | [_], _ => exact absurd rfl several
  | [c0, c1], taken =>
    rw [decodeTail] at taken
    split at taken
    · exact nomatch taken
    · next valued =>
      cases taken
      have first : c0 ≠ padding := ne_padding_of_valued (by omega)
      have second : c1 ≠ padding := ne_padding_of_valued (by omega)
      simp [first, second]
  | [c0, c1, c2], taken =>
    rw [decodeTail] at taken
    split at taken
    · exact nomatch taken
    · next valued =>
      split at taken
      · exact nomatch taken
      · next third =>
        cases taken
        have first : c0 ≠ padding := ne_padding_of_valued (by omega)
        have second : c1 ≠ padding := ne_padding_of_valued (by omega)
        have third : c2 ≠ padding := ne_padding_of_valued (by omega)
        simp [first, second, third]
  | _ :: _ :: _ :: _ :: _, _ => exact absurd short (by simp)

theorem padCount_single (c : UInt8) : padCount [c] = if c = padding then 1 else 0 := by
  simp [padCount]

theorem padCount_pair (front : Bytes) (before last : UInt8) :
    padCount (front ++ [before, last]) =
      (if last = padding then 1 else 0) + (if before = padding then 1 else 0) := by
  rw [padCount]
  simp

theorem last_two (text : Bytes) :
    text = [] ∨ (∃ c, text = [c]) ∨ ∃ front before last, text = front ++ [before, last] := by
  rcases List.eq_nil_or_concat text with rfl | ⟨front, last, rfl⟩
  · exact .inl rfl
  · rcases List.eq_nil_or_concat front with rfl | ⟨front, before, rfl⟩
    · exact .inr (.inl ⟨last, rfl⟩)
    · exact .inr (.inr ⟨front, before, last, by simp⟩)

theorem padCount_append (clean : ∀ c ∈ front, c ≠ padding) (few : pad ≤ 2) :
    padCount (front ++ List.replicate pad padding) = pad := by
  match pad, few with
  | 0, _ =>
    rw [List.replicate_zero, List.append_nil]
    rcases last_two front with rfl | ⟨c, rfl⟩ | ⟨front, before, last, rfl⟩
    · rfl
    · rw [padCount_single, if_neg (clean c (List.mem_singleton_self c))]
    · rw [padCount_pair, if_neg (clean last (by simp)), if_neg (clean before (by simp))]
  | 1, _ =>
    rcases List.eq_nil_or_concat front with rfl | ⟨front, before, rfl⟩
    · rfl
    · have joined : front.concat before ++ List.replicate 1 padding =
          front ++ [before, padding] := by simp
      rw [joined, padCount_pair, if_pos rfl, if_neg (clean before (by simp))]
  | 2, _ =>
    rw [show List.replicate 2 padding = [padding, padding] from rfl, padCount_pair,
      if_pos rfl]

theorem split_padding
    (checked : padCount text ≠ 0 → ∀ c ∈ text.take (text.length - padCount text), c ≠ padding) :
    ∃ front, text = front ++ List.replicate (padCount text) padding ∧
      padCount text ≤ 2 ∧ (padCount text ≠ 0 → ∀ c ∈ front, c ≠ padding) := by
  rcases last_two text with rfl | ⟨c, rfl⟩ | ⟨front, before, last, rfl⟩
  · exact ⟨[], rfl, Nat.zero_le 2, fun padded => absurd rfl padded⟩
  · rw [padCount_single]
    by_cases isPadding : c = padding
    · rw [if_pos isPadding, isPadding]
      exact ⟨[], rfl, by decide, fun _ _ member => nomatch member⟩
    · rw [if_neg isPadding]
      exact ⟨[c], rfl, by decide, fun padded => absurd rfl padded⟩
  · rw [padCount_pair] at checked ⊢
    by_cases lastPads : last = padding
    · by_cases beforePads : before = padding
      · rw [if_pos lastPads, if_pos beforePads] at checked ⊢
        rw [lastPads, beforePads]
        refine ⟨front, rfl, by decide, fun _ c member => ?_⟩
        exact checked (by decide) c (by simpa using member)
      · rw [if_pos lastPads, if_neg beforePads] at checked ⊢
        rw [lastPads]
        refine ⟨front ++ [before], by simp, by decide, fun _ c member => ?_⟩
        rcases List.mem_append.mp member with inside | inside
        · refine checked (by decide) c (List.mem_take_iff_getElem.mpr ?_)
          rcases List.mem_iff_getElem.mp inside with ⟨index, bound, rfl⟩
          have within : index < (front ++ [before, last]).length := by simp; omega
          exact ⟨index, by simp; omega, List.getElem_append_left bound⟩
        · rw [List.mem_singleton.mp inside]
          exact beforePads
    · by_cases beforePads : before = padding
      · rw [if_neg lastPads, if_pos beforePads] at checked
        refine absurd beforePads (checked (by decide) before (List.mem_take_iff_getElem.mpr ?_))
        exact ⟨front.length, by simp, by simp⟩
      · rw [if_neg lastPads, if_neg beforePads]
        exact ⟨front ++ [before, last], by simp, by decide, fun padded => absurd rfl padded⟩

/-- A text without its padding, and the number of padding characters behind it. -/
structure Shape (front : Bytes) (pad : Nat) : Prop where
  unscreened : ∀ c ∈ front, Unscreened c
  few : pad ≤ 2
  unpadded : pad = 0 → front.length % 4 ≠ 1
  padded : pad ≠ 0 → (front.length + pad) % 4 = 0

theorem Shape.behind (shape : Shape (c0 :: c1 :: c2 :: c3 :: front) pad) : Shape front pad := by
  refine ⟨fun c member => shape.unscreened c (by simp [member]), shape.few, ?_, ?_⟩
  · intro none
    have several := shape.unpadded none
    simp only [List.length_cons] at several
    omega
  · intro some
    have whole := shape.padded some
    simp only [List.length_cons] at whole
    omega

theorem Shape.pad_of_short (shape : Shape front pad) (short : front.length < 4) :
    front.length ≠ 1 ∧ (pad = 0 ∨ front.length ≠ 0 ∧ pad = 4 - front.length) := by
  have few := shape.few
  by_cases none : pad = 0
  · have several := shape.unpadded none
    exact ⟨by omega, .inl none⟩
  · have whole := shape.padded none
    exact ⟨by omega, .inr ⟨by omega, by omega⟩⟩

theorem Shape.inFront (shape : Shape front pad) (third : Unscreened c2) (fourth : Unscreened c3)
    (first : 0 ≤ b64Val c0) (second : 0 ≤ b64Val c1) :
    Shape (c0 :: c1 :: c2 :: c3 :: front) pad := by
  refine ⟨fun c member => ?_, shape.few, ?_, ?_⟩
  · simp only [List.mem_cons] at member
    rcases member with rfl | rfl | rfl | rfl | inside
    · exact unscreened_of_valued first
    · exact unscreened_of_valued second
    · exact third
    · exact fourth
    · exact shape.unscreened c inside
  · intro none
    have several := shape.unpadded none
    simp only [List.length_cons]
    omega
  · intro some
    have whole := shape.padded some
    simp only [List.length_cons]
    omega

theorem Decodes.shape {out : Bytes} (decodes : Decodes text out) :
    ∃ front pad, text = front ++ List.replicate pad padding ∧ Shape front pad := by
  induction decodes with
  | nil =>
    refine ⟨[], 0, rfl, ?_, by decide, by simp, by simp⟩
    exact fun _ member => nomatch member
  | @two c0 c1 first second =>
    refine ⟨[c0, c1], 0, rfl, ?_, by decide, by simp, by simp⟩
    simp [unscreened_of_valued first, unscreened_of_valued second]
  | @three c0 c1 c2 first second third =>
    refine ⟨[c0, c1, c2], 0, rfl, ?_, by decide, by simp, by simp⟩
    simp [unscreened_of_valued first, unscreened_of_valued second, unscreened_of_valued third]
  | @twoPads c0 c1 first second =>
    refine ⟨[c0, c1], 2, rfl, ?_, by decide, by simp, by simp⟩
    simp [unscreened_of_valued first, unscreened_of_valued second]
  | @onePad c0 c1 c2 first second third =>
    refine ⟨[c0, c1, c2], 1, rfl, ?_, by decide, by simp, by simp⟩
    simp [unscreened_of_valued first, unscreened_of_valued second, unscreened_of_valued third]
  | @block c0 c1 c2 c3 rest out first second third fourth behind induction =>
    rcases induction with ⟨front, pad, rfl, shape⟩
    exact ⟨c0 :: c1 :: c2 :: c3 :: front, pad, rfl, shape.inFront third fourth first second⟩

theorem Decodes.blocks (decodes : Decodes text out) :
    ∃ whole tail last, decodeBlocks text = .ok (whole, tail) ∧ decodeTail tail = .ok last ∧
      whole ++ last = out := by
  induction decodes with
  | nil => exact ⟨[], [], [], rfl, rfl, rfl⟩
  | @two c0 c1 first second =>
    refine ⟨[], [c0, c1], _, rfl, ?_, rfl⟩
    rw [decodeTail, if_neg (by omega)]
  | @three c0 c1 c2 first second third =>
    refine ⟨[], [c0, c1, c2], _, rfl, ?_, rfl⟩
    rw [decodeTail, if_neg (by omega), if_neg (by omega)]
  | @twoPads c0 c1 first second =>
    refine ⟨_, [], [], ?_, rfl, List.append_nil _⟩
    rw [decodeBlocks, decodeBlock_twoPads.mpr ⟨⟨first, second⟩, rfl⟩]
    rfl
  | @onePad c0 c1 c2 first second third =>
    refine ⟨_, [], [], ?_, rfl, List.append_nil _⟩
    rw [decodeBlocks, (decodeBlock_onePad (ne_padding_of_valued third)).mpr
      ⟨⟨first, second, third⟩, rfl⟩]
    rfl
  | @block c0 c1 c2 c3 rest out first second third fourth behind induction =>
    rcases induction with ⟨whole, tail, last, ofBlocks, ofTail, rfl⟩
    refine ⟨_ :: _ :: _ :: whole, tail, last, ?_, ofTail, rfl⟩
    rw [decodeBlocks, (decodeBlock_full third.1 fourth.1).mpr ⟨⟨first, second⟩, rfl⟩, ofBlocks]
    rfl

theorem decodes_of_blocks : ∀ {front : Bytes} {pad : Nat}, Shape front pad →
    ∀ {whole tail last : Bytes},
      decodeBlocks (front ++ List.replicate pad padding) = .ok (whole, tail) →
        decodeTail tail = .ok last → Decodes (front ++ List.replicate pad padding) (whole ++ last)
  | c0 :: c1 :: c2 :: c3 :: front, pad, shape, whole, tail, last, taken, ofTail => by
    have third : Unscreened c2 := shape.unscreened c2 (by simp)
    have fourth : Unscreened c3 := shape.unscreened c3 (by simp)
    simp only [List.cons_append] at taken ⊢
    rw [decodeBlocks] at taken
    rcases bind_eq_ok.mp taken with ⟨block, ofBlock, taken⟩
    rcases bind_eq_ok.mp taken with ⟨⟨out, left⟩, ofRest, taken⟩
    cases taken
    rcases (decodeBlock_full third.1 fourth.1).mp ofBlock with ⟨valued, rfl⟩
    exact .block valued.1 valued.2 third fourth (decodes_of_blocks shape.behind ofRest ofTail)
  | [], pad, shape, whole, tail, last, taken, ofTail => by
    rcases (shape.pad_of_short (show 0 < 4 by decide)).2 with none | ⟨some, _⟩
    · cases none
      cases taken
      cases ofTail
      exact .nil
    · exact absurd rfl some
  | [c0], pad, shape, whole, tail, last, taken, ofTail =>
    absurd rfl (shape.pad_of_short (show 1 < 4 by decide)).1
  | [c0, c1], pad, shape, whole, tail, last, taken, ofTail => by
    rcases (shape.pad_of_short (show 2 < 4 by decide)).2 with none | ⟨_, two⟩
    · cases none
      cases taken
      change decodeTail [c0, c1] = _ at ofTail
      rw [decodeTail] at ofTail
      split at ofTail
      · exact nomatch ofTail
      · next valued =>
        cases ofTail
        exact .two (by omega) (by omega)
    · cases two
      change decodeBlocks [c0, c1, padding, padding] = _ at taken
      rcases bind_eq_ok.mp taken with ⟨block, ofBlock, taken⟩
      cases taken
      cases ofTail
      rcases decodeBlock_twoPads.mp ofBlock with ⟨valued, rfl⟩
      exact .twoPads valued.1 valued.2
  | [c0, c1, c2], pad, shape, whole, tail, last, taken, ofTail => by
    rcases (shape.pad_of_short (show 3 < 4 by decide)).2 with none | ⟨_, one⟩
    · cases none
      cases taken
      change decodeTail [c0, c1, c2] = _ at ofTail
      rw [decodeTail] at ofTail
      split at ofTail
      · exact nomatch ofTail
      · next valued =>
        split at ofTail
        · exact nomatch ofTail
        · next third =>
          cases ofTail
          exact .three (by omega) (by omega) (by omega)
    · cases one
      have third : Unscreened c2 := shape.unscreened c2 (by simp)
      change decodeBlocks [c0, c1, c2, padding] = _ at taken
      rcases bind_eq_ok.mp taken with ⟨block, ofBlock, taken⟩
      cases taken
      cases ofTail
      rcases (decodeBlock_onePad third.1).mp ofBlock with ⟨valued, rfl⟩
      exact .onePad valued.1 valued.2.1 valued.2.2

theorem Shape.count (shape : Shape front pad) :
    (front ++ List.replicate pad padding).count padding = pad := by
  have clean : front.count padding = 0 := by
    rw [List.count_eq_zero]
    intro member
    exact (shape.unscreened padding member).1 rfl
  rw [List.count_append, clean, List.count_replicate_self, Nat.zero_add]

theorem Shape.padCount (shape : Shape front pad) :
    padCount (front ++ List.replicate pad padding) = pad :=
  padCount_append (fun c member => (shape.unscreened c member).1) shape.few

theorem Shape.length (shape : Shape front pad) :
    (front ++ List.replicate pad padding).length % 4 ≠ 1 ∧
      (pad ≠ 0 → (front ++ List.replicate pad padding).length % 4 = 0) := by
  rw [List.length_append, List.length_replicate]
  by_cases none : pad = 0
  · exact ⟨by rw [none]; exact shape.unpadded none, fun some => absurd none some⟩
  · exact ⟨by rw [shape.padded none]; decide, shape.padded⟩

theorem length_of_blocks (taken : decodeBlocks text = .ok (whole, tail))
    (ofTail : decodeTail tail = .ok last) (several : text.length % 4 ≠ 1) :
    (whole ++ last).length + text.count padding = text.length / 4 * 3 +
      ((if text.length % 4 = 2 then 1 else 0) + (if text.length % 4 = 3 then 2 else 0)) := by
  have lengths := length_decodeBlocks taken
  have ends := decodeTail_eq_ok ofTail (by omega) (by omega)
  rw [← lengths.2, ← ends.2, List.length_append]
  omega

theorem expectedLen_of_blocks (shape : Shape front pad)
    (taken : decodeBlocks (front ++ List.replicate pad padding) = .ok (whole, tail))
    (ofTail : decodeTail tail = .ok last) :
    (whole ++ last).length = expectedLen (front ++ List.replicate pad padding) := by
  have lengths := length_of_blocks taken ofTail shape.length.1
  rw [shape.count] at lengths
  rw [expectedLen]
  simp only [shape.padCount]
  by_cases none : pad = 0
  · rw [if_neg (not_not_intro none)]
    omega
  · rw [if_pos none]
    rw [shape.length.2 none] at lengths
    simp only [show (0 : Nat) = 2 ↔ False by decide, show (0 : Nat) = 3 ↔ False by decide,
      if_false] at lengths
    omega

theorem Decodes.length_eq (decodes : Decodes text out) : out.length = expectedLen text := by
  rcases decodes.shape with ⟨front, pad, rfl, shape⟩
  rcases decodes.blocks with ⟨whole, tail, last, ofBlocks, ofTail, rfl⟩
  exact expectedLen_of_blocks shape ofBlocks ofTail

theorem ending_eq (taken : decodeBlocks text = .ok (whole, tail))
    (padded : padCount text ≠ 0 → text.length % 4 = 0) :
    (if padCount text = 0 ∧ text.length % 4 ≠ 0 then decodeTail tail else .ok []) =
      decodeTail tail := by
  have lengths := length_decodeBlocks taken
  split
  · rfl
  · next noTail =>
    have none : tail = [] := by
      apply List.eq_nil_of_length_eq_zero
      rw [lengths.2]
      by_contra some
      exact noTail ⟨by_contra fun pads => some (padded pads), some⟩
    rw [none]
    rfl

theorem decode_of_decodes (decodes : Decodes text out) {outCap : Nat}
    (room : expectedLen text ≤ outCap) : decode text outCap = .ok out := by
  rcases decodes.shape with ⟨front, pad, rfl, shape⟩
  rcases decodes.blocks with ⟨whole, tail, last, ofBlocks, ofTail, rfl⟩
  have screened : (front ++ List.replicate pad padding).any rejected = false := by
    rw [List.any_eq_false]
    intro c member
    rcases List.mem_append.mp member with inside | behind
    · rw [(shape.unscreened c inside).2]
      decide
    · rw [List.eq_of_mem_replicate behind]
      decide
  have atEnd : ((front ++ List.replicate pad padding).take
      ((front ++ List.replicate pad padding).length - pad)).any (· == padding) = false := by
    rw [List.length_append, List.length_replicate, Nat.add_sub_cancel, List.take_left,
      List.any_eq_false]
    intro c member
    rw [beq_eq_false_iff_ne.mpr (shape.unscreened c member).1]
    decide
  have ending := ending_eq ofBlocks (by rw [shape.padCount]; exact shape.length.2)
  have sized := expectedLen_of_blocks shape ofBlocks ofTail
  rw [shape.padCount] at ending
  rw [decode]
  simp only [shape.padCount]
  rw [screened, if_neg Bool.false_ne_true, if_neg (fun both => by rw [atEnd] at both; simp at both),
    if_neg shape.length.1, if_neg (fun both => both.2 (shape.length.2 both.1)),
    if_neg (Nat.not_lt.mpr room), ofBlocks]
  change ((if pad = 0 ∧ (front ++ List.replicate pad padding).length % 4 ≠ 0 then decodeTail tail
    else .ok []) >>= _) = _
  rw [ending, ofTail]
  exact if_neg (not_not_intro sized)

/-- The checks in front of the loop leave a text with its padding at the end, or one
whose output would be too short. -/
theorem decodes_of_decode (screened : ∀ c ∈ text, rejected c = false)
    (atEnd : padCount text ≠ 0 → ∀ c ∈ text.take (text.length - padCount text), c ≠ padding)
    (several : text.length % 4 ≠ 1) (padded : padCount text ≠ 0 → text.length % 4 = 0)
    (taken : (do
      let (whole, tail) ← decodeBlocks text
      let last ← (if padCount text = 0 ∧ text.length % 4 ≠ 0 then decodeTail tail else .ok [])
      if (whole ++ last).length ≠ expectedLen text then .error .internal
      else return whole ++ last) = .ok out) :
    Decodes text out := by
  rcases bind_eq_ok.mp taken with ⟨⟨whole, tail⟩, ofBlocks, taken⟩
  rcases bind_eq_ok.mp taken with ⟨last, ending, taken⟩
  rw [ending_eq ofBlocks padded] at ending
  split at taken
  · exact nomatch taken
  · next sized =>
    cases taken
    rcases split_padding atEnd with ⟨front, splits, few, clean⟩
    have lengths := length_of_blocks ofBlocks ending several
    have noneInFront : ∀ c ∈ front, c ≠ padding := by
      by_cases none : padCount text = 0
      · intro c member isPadding
        have some : 0 < text.count padding := by
          rw [splits, List.count_pos_iff]
          exact List.mem_append_left _ (isPadding ▸ member)
        rw [expectedLen] at sized
        simp only [none] at sized
        rw [if_neg (by decide)] at sized
        omega
      · exact clean none
    have shape : Shape front (padCount text) := by
      refine ⟨fun c member => ⟨noneInFront c member, screened c ?_⟩, few, ?_, ?_⟩
      · rw [splits]
        exact List.mem_append_left _ member
      · intro none
        rw [none, List.replicate_zero, List.append_nil] at splits
        rwa [splits] at several
      · intro some
        have whole := padded some
        have total := congrArg List.length splits
        rw [List.length_append, List.length_replicate] at total
        omega
    rw [splits] at ofBlocks ⊢
    exact decodes_of_blocks shape ofBlocks ending

theorem decode_eq_ok {outCap : Nat} (room : expectedLen text ≤ outCap) :
    decode text outCap = .ok out ↔ Decodes text out := by
  constructor
  · intro taken
    rw [decode] at taken
    split at taken
    · exact nomatch taken
    · next screened =>
      split at taken
      · exact nomatch taken
      · next atEnd =>
        split at taken
        · exact nomatch taken
        · next several =>
          split at taken
          · exact nomatch taken
          · next padded =>
            rw [if_neg (Nat.not_lt.mpr room)] at taken
            exact decodes_of_decode (by simpa using screened)
              (fun some c member isPadding => atEnd ⟨some, List.any_eq_true.mpr
                ⟨c, member, beq_iff_eq.mpr isPadding⟩⟩) several (by omega) taken
  · intro decodes
    exact decode_of_decodes decodes room

end AgentC.Base64

import AgentC.EdgeConsensus.Frame
import AgentC.Foundation.Decimals

/-! # The text of a frame id

A frame id is a node id, a kind, a number and sometimes another node id with colons
between them. Node ids may contain colons too, so that one text can be the id of
frames from two nodes. Here is how. -/

namespace AgentC.EdgeConsensus

def colon : UInt8 := 58

def frameIdEnding (kind : Bytes) (number : UInt64) (suffix : Bytes) : Bytes :=
  kind ++ colon :: (decimal number.toNat ++ if suffix = [] then [] else colon :: suffix)

def NoColon (text : Bytes) : Prop := colon ∉ text

theorem noColon_decimal (value : Nat) : NoColon (decimal value) := by
  intro member
  exact absurd (allIn_decimal value colon member) (by decide)

variable {kind suffix : Bytes} {number : UInt64}

variable {otherNumber : UInt64}

theorem noColon_kind (valid : frameKindIsValid kind = true) : NoColon kind := by
  simp only [frameKindIsValid, Bool.or_eq_true, beq_iff_eq] at valid
  rcases valid with (equal | equal) | equal <;> rw [equal, NoColon] <;> decide

theorem first_of_noColon {text rest front behind : Bytes} (noColon : NoColon text)
    (same : text ++ colon :: rest = front ++ colon :: behind) : (front = text ∧ rest = behind) ∨
      ∃ more, front = text ++ colon :: more ∧ rest = more ++ colon :: behind := by
  rcases List.append_eq_append_iff.mp same with ⟨middle, frontEq, restEq⟩ |
    ⟨middle, textEq, behindEq⟩
  · cases middle with
    | nil =>
      rw [List.append_nil] at frontEq
      exact .inl ⟨frontEq, (List.cons.inj restEq).2⟩
    | cons byte more =>
      rw [List.cons_append] at restEq
      have parts := List.cons.inj restEq
      rw [← parts.1] at frontEq
      exact .inr ⟨more, frontEq, parts.2⟩
  · cases middle with
    | nil =>
      rw [List.append_nil] at textEq
      exact .inl ⟨textEq.symm, (List.cons.inj behindEq).2.symm⟩
    | cons =>
      rw [List.cons_append] at behindEq
      rw [← (List.cons.inj behindEq).1] at textEq
      exact absurd (textEq ▸ List.mem_append_right _ (List.mem_cons_self ..)) noColon

theorem split_of_noColon {left right leftRest rightRest : Bytes} (leftFree : NoColon left)
    (rightFree : NoColon right) (same : left ++ colon :: leftRest = right ++ colon :: rightRest) :
    left = right ∧ leftRest = rightRest := by
  rcases first_of_noColon leftFree same with both | ⟨more, rightEq, rest⟩
  · exact ⟨both.1.symm, both.2⟩
  · exact absurd (rightEq ▸ List.mem_append_right _ (List.mem_cons_self ..)) rightFree

theorem frameIdEnding_injective {otherKind otherSuffix : Bytes} (kindFree : NoColon kind)
    (otherFree : NoColon otherKind)
    (same : frameIdEnding kind number suffix = frameIdEnding otherKind otherNumber otherSuffix) :
    kind = otherKind ∧ number = otherNumber ∧ suffix = otherSuffix := by
  rcases split_of_noColon kindFree otherFree same with ⟨kinds, rests⟩
  have digits := noColon_decimal number.toNat
  have otherDigits := noColon_decimal otherNumber.toNat
  have numbers : ∀ {value otherValue : UInt64}, decimal value.toNat = decimal otherValue.toNat →
      value = otherValue :=
    fun equal => UInt64.toNat_inj.mp (decimal_injective equal)
  refine ⟨kinds, ?_⟩
  split at rests
  · next none =>
    rw [List.append_nil] at rests
    split at rests
    · next otherNone =>
      rw [List.append_nil] at rests
      exact ⟨numbers rests, none.trans otherNone.symm⟩
    · exact absurd (rests ▸ List.mem_append_right _ (List.mem_cons_self ..)) digits
  · split at rests
    · rw [List.append_nil] at rests
      exact absurd (rests ▸ List.mem_append_right _ (List.mem_cons_self ..)) otherDigits
    · rcases split_of_noColon digits otherDigits rests with ⟨decimals, suffixes⟩
      exact ⟨numbers decimals, suffixes⟩

theorem decimal_ne_ending {text : Bytes} {value : Nat} (valid : frameKindIsValid kind = true) :
    decimal value ++ text ≠ frameIdEnding kind number suffix := by
  intro same
  cases digits : decimal value with
  | nil =>
    have empty := congrArg List.length digits
    rw [decimal, List.length_map, List.length_nil, List.length_eq_zero_iff] at empty
    exact Nat.toDigits_ne_nil empty
  | cons digit rest =>
    have isDigit := allIn_decimal value digit (digits ▸ List.mem_cons_self ..)
    rw [digits] at same
    simp only [frameKindIsValid, Bool.or_eq_true, beq_iff_eq] at valid
    rcases valid with (equal | equal) | equal <;>
    · rw [equal] at same
      have first := (List.cons.inj same).1
      rw [first] at isDigit
      exact absurd isDigit (by decide)

/-- The longer of two node ids goes on behind the shorter with the beginning of its frame
id's ending, and what the ending says behind the number goes on with the rest of the
longer id and the other ending. -/
theorem longer_of_same {nodeId otherId otherKind otherSuffix : Bytes}
    (valid : frameKindIsValid kind = true) (otherValid : frameKindIsValid otherKind = true)
    (shorter : nodeId.length < otherId.length)
    (same : nodeId ++ colon :: frameIdEnding kind number suffix =
      otherId ++ colon :: frameIdEnding otherKind otherNumber otherSuffix) : suffix ≠ [] ∧ ∃ middle,
      otherId = nodeId ++ colon :: (kind ++ colon :: (decimal number.toNat ++ middle)) ∧
      colon :: suffix = middle ++ colon :: frameIdEnding otherKind otherNumber otherSuffix := by
  rcases List.append_eq_append_iff.mp same with ⟨front, otherEq, endings⟩ | ⟨front, nodeEq, _⟩
  · cases front with
    | nil =>
      rw [List.append_nil] at otherEq
      exact absurd shorter (by rw [otherEq]; exact Nat.lt_irrefl _)
    | cons =>
      rw [List.cons_append] at endings
      have parts := List.cons.inj endings
      rw [← parts.1] at otherEq
      rcases first_of_noColon (noColon_kind valid) parts.2 with ⟨_, numbered⟩ |
        ⟨more, frontEq, numbered⟩
      · exact absurd numbered (decimal_ne_ending otherValid)
      · have digits := noColon_decimal number.toNat
        rw [frontEq] at otherEq
        split at numbered
        · rw [List.append_nil] at numbered
          rw [numbered] at digits
          exact absurd (List.mem_append_right _ (List.mem_cons_self ..)) digits
        · next nonempty =>
          refine ⟨nonempty, ?_⟩
          rcases first_of_noColon digits numbered with ⟨moreEq, rest⟩ | ⟨middle, moreEq, rest⟩
          · refine ⟨[], ?_, ?_⟩
            · rw [otherEq, moreEq, List.append_nil]
            · rw [rest, List.nil_append]
          · refine ⟨colon :: middle, ?_, ?_⟩
            · rw [otherEq, moreEq]
            · rw [rest, List.cons_append]
  · rw [nodeEq, List.length_append] at shorter
    omega

theorem consensusFrameId_text {nodeId : Bytes}
    (formed : consensusFrameId nodeId kind number suffix ≠ []) :
    frameKindIsValid kind = true ∧ consensusFrameId nodeId kind number suffix =
      nodeId ++ colon :: frameIdEnding kind number suffix := by
  have single : ascii ":" = [colon] := rfl
  have text : nodeId ++ ascii ":" ++ kind ++ ascii ":" ++ decimal number.toNat ++
      (if suffix.length > 0 then ascii ":" ++ suffix else []) =
      nodeId ++ colon :: frameIdEnding kind number suffix := by
    rw [frameIdEnding, single]
    cases suffix with
    | nil => simp
    | cons => simp
  simp only [consensusFrameId, text] at formed ⊢
  generalize nodeId.length + 1 + kind.length + 1 + (decimal number.toNat).length +
    (if suffix.length > 0 then 1 + suffix.length else 0) = need at formed ⊢
  split at formed
  · exact absurd rfl formed
  · next nodeValid =>
    rw [if_neg nodeValid]
    split at formed
    · exact absurd rfl formed
    · next kindValid =>
      rw [if_neg kindValid]
      refine ⟨by simpa using kindValid, ?_⟩
      split at formed
      · exact absurd rfl formed
      · next suffixValid =>
        rw [if_neg suffixValid]
        split at formed
        · exact absurd rfl formed
        · next fits =>
          rw [if_neg fits]
          split at formed
          · exact absurd rfl formed
          · next safe => rw [if_neg safe]

end AgentC.EdgeConsensus

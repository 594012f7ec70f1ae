import AgentC.EdgeConsensus.Tokens
import AgentC.EdgeTasks.TaskUpdates

/-! # The signing input of an attested result

A node signs the bytes that `core/src/agent_edge_interop.c` puts together; the
daemon checks the signature over those of `umbmp_result_attest_input_v0_1`. -/

namespace AgentC.EdgeTasks

open AgentC.EdgeConsensus

def resultAttestSigningPrefix : Bytes :=
  ascii "UM_EAIS_RESULT_ATTEST_v0_1\n"

/-- What `snprintf` prints for the format `PRId64` and a line feed. -/
def printedTimestamp (tsUtcMs : Int64) : Bytes :=
  Json.decimalInt tsUtcMs.toInt ++ ascii "\n"

/-- `agent_um_eais_result_attest_signing_input_v0_1`; the strings come with their
lengths. -/
def resultAttestSigningInput (taskId stepId idempotencyKey resultSha256Token : Bytes)
    (tsUtcMs : Int64) (outCap : Nat) : Except Status Bytes :=
  if outCap = 0 then .error .invalidArgument
  else if umbmpIdIsSafe taskId = false then .error .invalidArgument
  else if umbmpIdIsSafe stepId = false then .error .invalidArgument
  else if umbmpIdIsSafe idempotencyKey = false then .error .invalidArgument
  else if umbmpSha256TokenIsSafe resultSha256Token = false then .error .invalidArgument
  else
    let capLen := outCap - 1
    let tsBuf := printedTimestamp tsUtcMs
    if capLen = 0 then .error .bounds
    else if tsBuf.length = 0 then .error .internal
    else if 32 ≤ tsBuf.length then .error .internal
    else
      let need := resultAttestSigningPrefix.length + taskId.length + 1 + stepId.length + 1 +
        idempotencyKey.length + 1 + resultSha256Token.length + 1 + tsBuf.length
      if capLen < need then .error .bounds
      else .ok (resultAttestSigningPrefix ++ taskId ++ ascii "\n" ++ stepId ++ ascii "\n" ++
        idempotencyKey ++ ascii "\n" ++ resultSha256Token ++ ascii "\n" ++ tsBuf)

/-- The fields that an attestation is signed over. -/
structure SignedFields where
  taskId : Bytes
  stepId : Bytes
  idempotencyKey : Bytes
  resultSha256 : Bytes
  tsUtcMs : Int64
deriving DecidableEq

namespace SignedFields

/-- What the node puts together. -/
def nodeInput (fields : SignedFields) (outCap : Nat) : Except Status Bytes :=
  resultAttestSigningInput fields.taskId fields.stepId fields.idempotencyKey fields.resultSha256
    fields.tsUtcMs outCap

/-- What the daemon checks the signature over. -/
def platformInput (fields : SignedFields) : Bytes :=
  resultAttestInput fields.taskId fields.stepId fields.idempotencyKey fields.resultSha256
    fields.tsUtcMs.toInt

/-- The node accepts the identifiers and the hash token. -/
structure Accepted (fields : SignedFields) : Prop where
  taskId : umbmpIdIsSafe fields.taskId = true
  stepId : umbmpIdIsSafe fields.stepId = true
  idempotencyKey : umbmpIdIsSafe fields.idempotencyKey = true
  resultSha256 : umbmpSha256TokenIsSafe fields.resultSha256 = true

end SignedFields

theorem minus_not_mem_decimal (value : Nat) (rest : Bytes) : decimal value ≠ 45 :: rest := by
  intro same
  have digit := allIn_decimal value 45 (same ▸ List.mem_cons_self ..)
  exact absurd digit (by decide)

theorem decimalInt_injective {left right : Int}
    (same : Json.decimalInt left = Json.decimalInt right) : left = right := by
  rw [Json.decimalInt, Json.decimalInt] at same
  split at same
  · next leftNegative =>
    split at same
    · have magnitudes := decimal_injective (List.cons.inj same).2
      omega
    · exact absurd same.symm (minus_not_mem_decimal _ _)
  · next leftNonneg =>
    split at same
    · exact absurd same (minus_not_mem_decimal _ _)
    · have magnitudes := decimal_injective same
      omega

theorem length_decimal_le {value digits : Nat} (some : 0 < digits) (bound : value < 10 ^ digits) :
    (decimal value).length ≤ digits := by
  rw [decimal, List.length_map]
  exact (Nat.length_toDigits_le_iff (by decide) some).mpr bound

theorem length_printedTimestamp (tsUtcMs : Int64) :
    0 < (printedTimestamp tsUtcMs).length ∧ (printedTimestamp tsUtcMs).length < 32 := by
  have lower := tsUtcMs.le_toInt
  have upper := tsUtcMs.toInt_lt
  have magnitude : (decimal tsUtcMs.toInt.natAbs).length ≤ 19 :=
    length_decimal_le (by decide) (by omega)
  have newline : (ascii "\n").length = 1 := rfl
  rw [printedTimestamp, List.length_append, Json.decimalInt, newline]
  split
  · rw [List.length_cons]
    omega
  · omega

def inLine (byte : UInt8) : Bool :=
  byte != 10

set_option maxRecDepth 2000 in
theorem inLine_of_umbmpCharOk : ∀ byte : UInt8, umbmpCharOk byte = true → inLine byte = true :=
  forall_byte (by decide)

set_option maxRecDepth 2000 in
theorem inLine_of_hexCharOk : ∀ byte : UInt8, hexCharOk byte = true → inLine byte = true :=
  forall_byte (by decide)

theorem allIn_line_id {token : Bytes} (safe : umbmpIdIsSafe token = true) : AllIn inLine token := by
  intro byte member
  simp only [umbmpIdIsSafe, Bool.and_eq_true, List.all_eq_true] at safe
  exact inLine_of_umbmpCharOk byte (safe.2 byte member)

theorem allIn_line_sha256 {token : Bytes} (safe : umbmpSha256TokenIsSafe token = true) :
    AllIn inLine token := by
  have hexInLine : ∀ {digits : Bytes}, digits.all hexCharOk = true → AllIn inLine digits := by
    intro digits allHex byte member
    exact inLine_of_hexCharOk byte (List.all_eq_true.mp allHex byte member)
  simp only [umbmpSha256TokenIsSafe, Bool.and_eq_true] at safe
  have digitsInLine := hexInLine safe.2
  split at digitsInLine
  · next labelled =>
    rw [← List.take_append_drop 7 token, allIn_append]
    refine ⟨?_, digitsInLine⟩
    simp only [beq_iff_eq] at labelled
    rw [labelled.2]
    intro byte member
    exact List.all_eq_true.mp (show sha256Prefix.all inLine = true by decide) byte member
  · exact digitsInLine

namespace SignedFields

variable {fields other : SignedFields}

theorem platformInput_eq (fields : SignedFields) :
    fields.platformInput = resultAttestSigningPrefix ++ (fields.taskId ++ 10 :: (fields.stepId ++
      10 :: (fields.idempotencyKey ++ 10 :: (fields.resultSha256 ++
        10 :: (Json.decimalInt fields.tsUtcMs.toInt ++ [10]))))) := by
  have newline : ascii "\n" = [10] := rfl
  rw [platformInput, resultAttestInput, newline, resultAttestSigningPrefix]
  simp only [List.append_assoc, List.cons_append, List.nil_append]

theorem eq_of_platformInput (accepted : fields.Accepted) (otherAccepted : other.Accepted)
    (same : fields.platformInput = other.platformInput) : fields = other := by
  have newline : inLine 10 = false := rfl
  rw [platformInput_eq, platformInput_eq] at same
  rcases split_at_separator newline (allIn_line_id accepted.taskId)
    (allIn_line_id otherAccepted.taskId) (List.append_cancel_left same) with ⟨task, same⟩
  rcases split_at_separator newline (allIn_line_id accepted.stepId)
    (allIn_line_id otherAccepted.stepId) same with ⟨step, same⟩
  rcases split_at_separator newline (allIn_line_id accepted.idempotencyKey)
    (allIn_line_id otherAccepted.idempotencyKey) same with ⟨key, same⟩
  rcases split_at_separator newline (allIn_line_sha256 accepted.resultSha256)
    (allIn_line_sha256 otherAccepted.resultSha256) same with ⟨sha, same⟩
  have time := Int64.toInt_inj.mp (decimalInt_injective (List.append_cancel_right same))
  cases fields
  cases other
  simp only [mk.injEq]
  exact ⟨task, step, key, sha, time⟩

theorem nodeInput_eq (accepted : fields.Accepted) {outCap : Nat}
    (room : fields.platformInput.length < outCap) :
    fields.nodeInput outCap = .ok fields.platformInput := by
  have timestamp := length_printedTimestamp fields.tsUtcMs
  have length : fields.platformInput.length = resultAttestSigningPrefix.length +
      fields.taskId.length + 1 + fields.stepId.length + 1 + fields.idempotencyKey.length + 1 +
      fields.resultSha256.length + 1 + (printedTimestamp fields.tsUtcMs).length := by
    rw [platformInput_eq, printedTimestamp]
    simp only [List.length_append, List.length_cons, List.length_nil,
      show (ascii "\n").length = 1 from rfl]
    omega
  rw [nodeInput, resultAttestSigningInput, accepted.taskId, accepted.stepId,
    accepted.idempotencyKey, accepted.resultSha256, if_neg (by omega), if_neg (by decide),
    if_neg (by decide), if_neg (by decide), if_neg (by decide), if_neg (by omega),
    if_neg (by omega), if_neg (by omega), if_neg (by omega)]
  simp only [printedTimestamp, platformInput, resultAttestInput, resultAttestSigningPrefix,
    List.append_assoc]

/-- Node and platform agree on the bytes, and the bytes determine the fields. -/
theorem signing_inputs_agree :
    (∀ fields : SignedFields, fields.Accepted → ∀ outCap, fields.platformInput.length < outCap →
      fields.nodeInput outCap = .ok fields.platformInput) ∧
    ∀ fields other : SignedFields, fields.Accepted → other.Accepted →
      fields.platformInput = other.platformInput → fields = other :=
  ⟨fun _ accepted _ room => nodeInput_eq accepted room,
    fun _ _ accepted otherAccepted same => eq_of_platformInput accepted otherAccepted same⟩

/-- The earliest timestamp. -/
theorem signing_inputs_agree_sample :
    (SignedFields.mk (ascii "t1") (ascii "s1") (ascii "k:1") (List.replicate 64 97)
      Int64.minValue).nodeInput 152 =
    .ok (SignedFields.mk (ascii "t1") (ascii "s1") (ascii "k:1") (List.replicate 64 97)
      Int64.minValue).platformInput :=
  signing_inputs_agree.1 _ ⟨by decide, by decide, by decide, by decide⟩ 152 (by decide)

end SignedFields

end AgentC.EdgeTasks

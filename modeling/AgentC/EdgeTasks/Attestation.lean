import AgentC.EdgeTasks.ResultSchemas

/-! # Attested results

With `edge_attest_required` and `edge_attest_require_sig` a task of mode `invoke`
is to succeed only with a signed attestation of the stored result. The verdict on
the signature is read from the member `_attest_sig_ok` of the event data, which
starts as the body of the message. -/

namespace AgentC.EdgeTasks

open Program

/-- The key of an attestation is not revoked, and the signature verifies under it
over the identifiers of the task, the idempotency key and the attested hash. -/
def SignatureHolds (config : EdgeConfig) (fromId taskId stepId idempotencyKey : Bytes)
    (fields : AttestFields) : Prop :=
  authRevocation config (nodeIdOf fromId) fields.kid = none ∧
    signatureError config fields.alg fields.kid fields.sigB64
      (resultAttestInput taskId stepId idempotencyKey fields.resultSha256 fields.tsUtcMs) = none

def Envelope.attest (envelope : Envelope) : Option Json.Tree :=
  (envelope.body.objectMember (ascii "result")).bind (·.objectMember (ascii "attest"))

/-- The message has an attestation of what is stored in the row, under a key that
the policy allows. -/
def Attested (config : EdgeConfig) (envelope : Envelope) (row : EdgeTaskRow) : Prop :=
  ∃ attest, envelope.attest = some attest ∧
    kidPolicyAllows config envelope.fromId (attestFields config attest).kid = true ∧
    SignatureHolds config envelope.fromId row.taskId row.stepId
      (taskFields envelope.body).idempotencyKey (attestFields config attest) ∧
    (attestFields config attest).resultSha256 =
      ascii "sha256:" ++ config.sha256Hex row.resultJson

variable {row : EdgeTaskRow}

namespace TaskUpdate

section Verdict

variable {config : EdgeConfig} {update : TaskUpdate} {fields : AttestFields}

theorem member_markedData :
    (update.markedData fields).member sigOkKey = update.eventData.member sigOkKey := by
  rw [markedData, Json.Tree.member_setMember_of_ne (by decide),
    Json.Tree.member_setMember_of_ne (by decide), Json.Tree.member_setMember_of_ne (by decide)]

theorem isObject_markedData : (update.markedData fields).isObject = update.eventData.isObject := by
  rw [markedData, Json.Tree.isObject_setMember, Json.Tree.isObject_setMember,
    Json.Tree.isObject_setMember]

theorem member_rejectSignature {data : Json.Tree} (object : data.isObject = true) (reason : Bytes) :
    (rejectSignature data reason).member sigOkKey = some (.bool false) := by
  rw [rejectSignature, Json.Tree.member_setMember_of_ne (by decide),
    Json.Tree.member_setMember object]

theorem signatureData_of_refused (object : update.eventData.isObject = true)
    (refused : kidPolicyAllows config update.fromId fields.kid = false) :
    (update.signatureData config fields).member sigOkKey = some (.bool false) := by
  have marked : (update.markedData fields).isObject = true := isObject_markedData.trans object
  have present : ((rejectSignature (update.markedData fields)
      (ascii "kid_policy_violation")).member sigOkKey).isSome = true := by
    rw [member_rejectSignature marked]
    rfl
  simp only [signatureData, refused, Bool.false_eq_true, if_false, if_pos present]
  exact member_rejectSignature marked _

theorem signatureData_of_claimed {value : Json.Tree}
    (allowed : kidPolicyAllows config update.fromId fields.kid = true)
    (claimed : update.eventData.member sigOkKey = some value) :
    (update.signatureData config fields).member sigOkKey = some value := by
  have present : ((update.markedData fields).member sigOkKey).isSome = true := by
    rw [member_markedData, claimed]
    rfl
  simp only [signatureData, allowed, if_true, if_pos present]
  exact member_markedData.trans claimed

theorem signatureData_of_unclaimed (object : update.eventData.isObject = true)
    (allowed : kidPolicyAllows config update.fromId fields.kid = true)
    (unclaimed : update.eventData.member sigOkKey = none) :
    (update.signatureData config fields).boolMember sigOkKey = some true ↔
      SignatureHolds config update.fromId update.taskId update.stepId update.gotIdem fields := by
  have marked : (update.markedData fields).isObject = true := isObject_markedData.trans object
  have absent : ((update.markedData fields).member sigOkKey).isSome = false := by
    rw [member_markedData, unclaimed]
    rfl
  have rejects : ∀ reason, (rejectSignature (update.markedData fields) reason).member sigOkKey =
      some (.bool false) := fun reason => member_rejectSignature marked reason
  have rejected : (some (Json.Tree.bool false) : Option Json.Tree).isSome = true := rfl
  simp only [signatureData, allowed, if_true, absent, Bool.false_eq_true, if_false, SignatureHolds]
  cases revoked : authRevocation config (nodeIdOf update.fromId) fields.kid with
  | some reason =>
    simp only [rejects, rejected, if_true, Json.Tree.boolMember]
    simp
  | none =>
    simp only [absent, Bool.false_eq_true, if_false, true_and]
    cases signatureError config fields.alg fields.kid fields.sigB64
        (resultAttestInput update.taskId update.stepId update.gotIdem fields.resultSha256
          fields.tsUtcMs) with
    | some reason =>
      simp only [Json.Tree.boolMember, rejects]
      simp
    | none => simp only [Json.Tree.boolMember, Json.Tree.member_setMember marked]

def claimsSignature (update : TaskUpdate) : Bool :=
  update.eventData.boolMember sigOkKey = some true

def PassesSignature (config : EdgeConfig) (update : TaskUpdate) (fields : AttestFields) : Prop :=
  update.claimsSignature = true ∨ update.eventData.member sigOkKey = none ∧
    SignatureHolds config update.fromId update.taskId update.stepId update.gotIdem fields

theorem signatureData_valid (object : update.eventData.isObject = true) :
    (update.signatureData config fields).boolMember sigOkKey = some true ↔
      kidPolicyAllows config update.fromId fields.kid = true ∧
        update.PassesSignature config fields := by
  cases allowed : kidPolicyAllows config update.fromId fields.kid with
  | false =>
    rw [Json.Tree.boolMember, signatureData_of_refused object allowed]
    simp
  | true =>
    cases claimed : update.eventData.member sigOkKey with
    | some value =>
      have taken : (update.signatureData config fields).boolMember sigOkKey =
          update.eventData.boolMember sigOkKey := by
        rw [Json.Tree.boolMember, signatureData_of_claimed allowed claimed,
          Json.Tree.boolMember, claimed]
      simp [taken, PassesSignature, claimsSignature, claimed]
    | none =>
      rw [signatureData_of_unclaimed object allowed claimed]
      simp [PassesSignature, claimsSignature, Json.Tree.boolMember, claimed]

theorem attestCheck_of_attest {attest : Json.Tree} (found : update.attest = some attest) :
    (update.attestCheck config).ok = true ↔
      update.canTrySignature (attestFields config attest) = true ∧
        (update.signatureData config (attestFields config attest)).boolMember sigOkKey =
          some true := by
  simp only [attestCheck, found]
  split
  · next complete =>
    split
    · next valid => simp [complete, valid]
    · next invalid => simp [invalid]
    · next missing => simp [missing]
  · next incomplete => simp [incomplete]

theorem attestCheck_checked (ok : (update.attestCheck config).ok = true) :
    (update.attestCheck config).checked = true := by
  simp only [attestCheck] at ok ⊢
  split at ok
  · exact nomatch ok
  · split at ok
    · next attest found complete =>
      simp only [complete, if_true]
      split <;> rfl
    · exact nomatch ok

/-- The update has an attestation with all members, under a key that the policy
allows, of the hash of what is stored. -/
structure Presents (config : EdgeConfig) (update : TaskUpdate) (attest : Json.Tree) : Prop where
  found : update.attest = some attest
  complete : update.canTrySignature (attestFields config attest) = true
  allowed : kidPolicyAllows config update.fromId (attestFields config attest).kid = true
  hash : (attestFields config attest).resultSha256 =
    ascii "sha256:" ++ config.sha256Hex (update.storedResult config).bytes

theorem attestResultSha_eq {attest : Json.Tree} (found : update.attest = some attest) :
    update.attestResultSha = (attestFields config attest).resultSha256 := by
  rw [attestResultSha, found, attestFields]

theorem resultSha256_withResult (reported : update.resultJson ≠ []) :
    (update.withResult config row).resultSha256 =
      ascii "sha256:" ++ config.sha256Hex (update.storedResult config).bytes := by
  rw [withResult]
  split <;> rw [withHash, if_pos reported]

theorem attestResultShaMismatch_iff (reported : update.resultJson ≠ [])
    (named : update.attestResultSha ≠ []) (safe : sha256TokenIsSafe update.attestResultSha = true) :
    update.attestResultShaMismatch config row = true ↔ update.attestResultSha ≠
      ascii "sha256:" ++ config.sha256Hex (update.storedResult config).bytes := by
  have hashed : (update.withResult config row).resultSha256 ≠ [] := by
    rw [resultSha256_withResult reported]
    exact List.cons_ne_nil _ _
  rw [attestResultShaMismatch, decide_eq_true_iff]
  rw [resultSha256_withResult reported] at hashed ⊢
  constructor
  · intro mismatch
    exact mismatch.2.2.2
  · intro different
    exact ⟨named, safe, hashed, different⟩

theorem attest_ne_none_of_accepted {row : EdgeTaskRow} (required : config.edgeAttestRequired = true)
    (mode : row.mode = ascii "invoke") (accepted : update.attestFailure config row = none) :
    update.attest ≠ none := by
  intro missing
  have enforced : enforcesAttest config row = true := by
    rw [enforcesAttest, required, mode]
    rfl
  simp only [attestFailure, enforced, missing, if_true, Option.isNone_none] at accepted
  exact nomatch accepted

theorem attestFailure_eq_none {row : EdgeTaskRow} (required : config.edgeAttestRequired = true)
    (requiredSig : config.edgeAttestRequireSig = true) (mode : row.mode = ascii "invoke")
    (object : update.eventData.isObject = true) (reported : update.resultJson ≠ []) :
    update.attestFailure config row = none ↔ ∃ attest, update.Presents config attest ∧
      update.PassesSignature config (attestFields config attest) := by
  have enforced : enforcesAttest config row = true := by
    rw [enforcesAttest, required, mode]
    rfl
  have enforcedSig : enforcesSig config row = true := by
    rw [enforcesSig, requiredSig, mode]
    rfl
  simp only [attestFailure, enforced, enforcedSig, if_true, Option.or_eq_none_iff]
  cases found : update.attest with
  | none =>
    constructor
    · intro accepted
      exact nomatch accepted.1
    · rintro ⟨attest, presents, -⟩
      exact nomatch found.symm.trans presents.found
  | some attest =>
    have sha := @attestResultSha_eq config update attest found
    have decided := @attestCheck_of_attest config update attest found
    rw [signatureData_valid object] at decided
    simp only [Option.isNone_some, Bool.false_eq_true, if_false]
    constructor
    · rintro ⟨hashed, signed⟩
      split at hashed
      · exact nomatch hashed
      · next named =>
        split at hashed
        · exact nomatch hashed
        · next matching =>
          split at signed
          · exact nomatch signed
          · split at signed
            · exact nomatch signed
            · next ok =>
              have passes := decided.mp (not_not.mp ok)
              refine ⟨attest, ⟨found, passes.1, passes.2.1, ?_⟩, passes.2.2⟩
              rw [not_or, not_not] at named
              rw [attestResultShaMismatch_iff reported named.1 named.2, not_not] at matching
              rw [← sha]
              exact matching
    · rintro ⟨other, presents, passes⟩
      cases found.symm.trans presents.found
      have ok := decided.mpr ⟨presents.complete, presents.allowed, passes⟩
      have complete := of_decide_eq_true presents.complete
      have named : update.attestResultSha ≠ [] := sha ▸ complete.2.2.2.2.2.2.2.1
      have safe : sha256TokenIsSafe update.attestResultSha = true :=
        sha ▸ complete.2.2.2.2.2.2.2.2.1
      have matching : ¬update.attestResultShaMismatch config row = true := by
        rw [attestResultShaMismatch_iff reported named safe, not_not, sha]
        exact presents.hash
      constructor
      · rw [if_neg, if_neg matching]
        rintro (empty | unsound)
        · exact named empty
        · exact unsound safe
      · rw [if_neg (not_not.mpr (attestCheck_checked ok)), if_neg (not_not.mpr ok)]

end Verdict

end TaskUpdate

namespace Envelope.Carries

variable {config : EdgeConfig} {verdict : Json.Tree → Bytes → Prop} {envelope : Envelope}
  {update : TaskUpdate} (carries : envelope.Carries config verdict update)

include carries

theorem isObject : update.eventData.isObject = true := by
  have body : envelope.eventData.isObject = true := by
    rw [eventData]
    split
    · exact Json.Tree.isObject_setMember.trans envelope.body_isObject
    · exact envelope.body_isObject
  cases carries with
  | finished =>
    rw [doneUpdate]
    split
    · exact body
    · exact Json.Tree.isObject_setMember.trans body
  | _ => exact body

theorem attest : update.attest = envelope.attest := by
  rw [TaskUpdate.attest, Envelope.attest, Json.Tree.objectMember, Json.Tree.objectMember,
    carries.member (by decide) (by decide)]

theorem resultJson_ne_nil
    (writes : ∀ tree : Json.Tree, tree.isObject = true → config.json.write tree ≠ [])
    (state : update.state = TaskState.succeeded) (attested : update.attest ≠ none) :
    update.resultJson ≠ [] := by
  have object : ∃ result, envelope.body.objectMember (ascii "result") = some result := by
    rw [carries.attest, Envelope.attest] at attested
    exact Option.isSome_iff_exists.mp (Option.isSome_of_isSome_bind
      (Option.isSome_iff_ne_none.mpr attested))
  rcases object with ⟨result, found⟩
  rcases Option.filter_eq_some_iff.mp found with ⟨member, isObject⟩
  rcases carries.succeeds state with ⟨now, ⟨_, same⟩ | ⟨other, _, there, _, same⟩⟩
  · simp only [same, Envelope.update, resultJsonOf, member]
    exact writes result isObject
  · cases member.symm.trans there
    rw [same]
    exact writes result isObject

end Envelope.Carries

/-- However the message is processed, a task of mode `invoke` that it moves to a
success is attested by it. -/
def SucceedsAttested (config : EdgeConfig) (envelope : Envelope) (before : Store) : Prop :=
  ∀ now after, (processMessage config envelope now).Executes Effect before () after →
    ∀ row behind, lookupBy (·.key) row.key before.tasks = some row →
      row.mode = ascii "invoke" → row.state ≠ TaskState.succeeded →
      lookupBy (·.key) row.key after.tasks = some behind →
      behind.state = TaskState.succeeded → Attested config envelope behind

/-- A message that claims itself to be signed, reports the success of a task of
mode `invoke` that it addresses and passes the checks in front of the signature
has a valid signature. -/
def ClaimsAreTrue (config : EdgeConfig) (envelope : Envelope) (before : Store) : Prop :=
  ∀ update row attest, envelope.Carries config (fun _ _ => True) update →
    update.state = TaskState.succeeded → (taskFields envelope.body).valid = true →
    before.getEdgeTask update.taskId update.stepId = some row → row.mode = ascii "invoke" →
    envelope.addresses row = true →
    before.acceptsEdgeTask { row with state := TaskState.succeeded } = true →
    update.Presents config attest → update.claimsSignature = true →
    SignatureHolds config update.fromId update.taskId update.stepId update.gotIdem
      (attestFields config attest)

section Processed

variable {config : EdgeConfig} {envelope : Envelope} {before : Store}
  (writes : ∀ tree : Json.Tree, tree.isObject = true → config.json.write tree ≠ [])
  (required : config.edgeAttestRequired = true) (requiredSig : config.edgeAttestRequireSig = true)

theorem process_does {now : Int} {after : Store}
    (executes : (processMessage config envelope now).Executes Effect before () after) :
    envelope.Does config (fun _ _ => True) before.tasks after.tasks := by
  have ensures : (processMessage config envelope now).Ensures Effect
      (fun _ after => envelope.Does config (fun _ _ => True) before.tasks after.tasks) before := by
    apply processMessage_ensures id _ now ⟨rfl, fun _ => rfl⟩
    exact fun result store alike => checkResultSchema_leaves id _ result alike
  exact ensures.of_executes executes

variable {update : TaskUpdate}

theorem acceptsEdgeTask_appliedRow (state : update.state = TaskState.succeeded)
    (attested : update.attestFailure config row = none) :
    before.acceptsEdgeTask (update.appliedRow config row) =
      before.acceptsEdgeTask { row with state := TaskState.succeeded } := by
  have same := update.sameTask_appliedRow config row
  apply Store.acceptsEdgeTask_congr
  · exact ⟨same.1, same.2, same.3, same.4, same.5, same.6, same.7, same.8⟩
  · rw [show (update.appliedRow config row).state = update.stateEff config row from rfl,
      TaskUpdate.stateEff_of_accepted state attested]
    exact List.cons_ne_nil _ _
  · exact List.cons_ne_nil _ _

theorem executes_updateTaskState
    (stored : before.getEdgeTask update.taskId update.stepId = some row)
    (state : update.state ≠ []) (applies : update.applies row = true)
    (accepts : before.acceptsEdgeTask (update.appliedRow config row) = true) :
    ∃ after, (updateTaskState config update).Executes Effect before () after ∧
      lookupBy (·.key) row.key after.tasks =
        some (Store.mergeTask row (Store.boundTask 1 (update.appliedRow config row))) := by
  have found := lookupBy_of_getEdgeTask stored
  have keyed := key_of_lookupBy found
  have named : ¬(update.taskId = [] ∨ update.stepId = [] ∨ update.state = []) := by
    rintro (empty | empty | empty)
    · rw [Store.getEdgeTask, if_pos (.inl empty)] at stored
      cases stored
    · rw [Store.getEdgeTask, if_pos (.inr empty)] at stored
      cases stored
    · exact state empty
  have behind := update.rowBehind_of_applies config applies
  have writes : (update.written config row).isSome = true := by
    rw [TaskUpdate.written, if_pos applies]
    rfl
  let written : Store := { before with
    tasks := upsertBy (·.key) Store.mergeTask (Store.boundTask 1 (update.appliedRow config row))
      before.tasks }
  let rest : Action Unit := do
    let _ ← insertEdgeTaskEvent (update.event config row)
    reflectIntoStep config update row
  have read : Effect (.getEdgeTask update.taskId update.stepId) before (some row) before :=
    .inl ⟨{}, congrArg (·, before) stored.symm⟩
  have upserted : Effect (.upsertEdgeTask (update.appliedRow config row)) before true written :=
    .inl ⟨{}, (if_pos accepts).symm⟩
  have performs : (performWhen (update.written config row).isSome
      (upsertEdgeTask (update.rowBehind config row))).Executes Effect before () written := by
    rw [performWhen, if_pos writes, behind]
    exact (executes_request upserted).bind (.done () written)
  have executesRest := executes_execute (effect_answer {}) rest written
  refine ⟨(rest.execute (answer {}) written).2, ?_, ?_⟩
  · rw [updateTaskState, if_neg named]
    refine (executes_request read).bind ?_
    exact @Executes.bind _ _ _ _ _ _ _ (fun _ => rest) _ _ _ _ _ performs executesRest
  · have leaves : rest.Satisfies (fun _ _ => True) LeavesTasks fun _ => True :=
      satisfies_call rfl fun _ _ => leavesTasks_reflectIntoStep config update row
    have same := (ensures_leavesTasks id leaves).of_executes executesRest
    have merged := @lookupBy_upsertBy_self _ _ _ (·.key) Store.mergeTask
      (Store.boundTask 1 (update.appliedRow config row)) before.tasks Store.key_mergeTask
    rw [show (Store.boundTask 1 (update.appliedRow config row)).key = row.key from
      (update.sameTask_appliedRow config row).key, keyed, found] at merged
    rw [same, keyed]
    exact merged

theorem applies_of_addresses {verdict : Json.Tree → Bytes → Prop}
    (carries : envelope.Carries config verdict update) (addressed : envelope.addresses row = true) :
    update.applies row = true := by
  have addressed := of_decide_eq_true addressed
  rw [TaskUpdate.applies, Bool.and_eq_true, Bool.not_eq_true', Bool.not_eq_true']
  constructor
  · exact Bool.eq_false_iff.mpr addressed.2.1
  · apply decide_eq_false
    rw [carries.gotIdem]
    rintro ⟨-, keyed, different⟩
    rcases addressed.2.2 with unkeyed | same
    · exact keyed unkeyed
    · exact different same.symm

/-- A message that carries a success is processed with it when the guardrail
cannot read the task. -/
theorem executes_handleMessage {after : Store}
    (carries : envelope.Carries config (fun _ _ => True) update)
    (state : update.state = TaskState.succeeded) (valid : (taskFields envelope.body).valid = true)
    (executes : (updateTaskState config update).Executes Effect before () after) :
    ∃ now, (handleMessage config envelope now).Executes Effect before 200 after := by
  rcases carries.succeeds state with ⟨now, ⟨type, same⟩ | ⟨result, type, member, _, same⟩⟩
  · refine ⟨now, ?_⟩
    subst same
    have reports : ¬(envelope.body.text (ascii "state") = [] ∨
        ¬(taskFields envelope.body).valid = true) := by
      rintro (empty | invalid)
      · exact absurd (empty.symm.trans state) (List.cons_ne_nil _ _).symm
      · exact invalid valid
    simp only [handleMessage, type, handleTaskEvent, if_neg reports]
    exact executes.bind (.done 200 after)
  · refine ⟨now, ?_⟩
    subst same
    have unread : Effect (.getEdgeTask (taskFields envelope.body).taskId
        (taskFields envelope.body).stepId) before none before := .inr ⟨rfl, rfl⟩
    have checks : (checkResultSchema config (taskFields envelope.body) result).Executes Effect
        before [] before := (executes_request unread).bind (.done [] before)
    simp only [handleMessage, type, handleTaskDone, valid, not_true_eq_false, if_false, member]
    exact checks.bind (executes.bind (.done 200 after))

include writes required requiredSig

theorem claimsAreTrue_of_succeedsAttested (attested : SucceedsAttested config envelope before) :
    ClaimsAreTrue config envelope before := by
  intro update row attest carries state valid stored mode addressed accepts presents claims
  have found := lookupBy_of_getEdgeTask stored
  have keyed := key_of_lookupBy found
  have applies := applies_of_addresses carries addressed
  have reported := carries.resultJson_ne_nil writes state (presents.found ▸ Option.some_ne_none _)
  have accepted : update.attestFailure config row = none :=
    (TaskUpdate.attestFailure_eq_none required requiredSig mode carries.isObject reported).mpr
      ⟨attest, presents, .inl claims⟩
  rw [← acceptsEdgeTask_appliedRow state accepted] at accepts
  rcases executes_updateTaskState stored (state ▸ List.cons_ne_nil _ _) applies accepts with
    ⟨after, updates, behind⟩
  rcases executes_handleMessage carries state valid updates with ⟨now, handles⟩
  have executesRest := executes_execute (effect_answer {})
    (performWhen (decide (200 < 500)) (markEdgeInboxMessageProcessed envelope.msgId) >>= fun _ =>
      respond 200) after
  have same := (ensures_leavesTasks id (leavesTasks_respond envelope.msgId 200)).of_executes
    executesRest
  have moved : row.state ≠ TaskState.succeeded := by
    intro ended
    have live := (of_decide_eq_true addressed).2.1
    rw [ended] at live
    exact live (by decide)
  rw [← keyed] at found
  rcases attested now _ (handles.bind executesRest) row _ found mode moved (same ▸ behind)
    (TaskUpdate.stateEff_of_accepted state accepted) with ⟨other, shown, -, holds, -⟩
  cases presents.found.symm.trans (carries.attest.trans shown)
  have sameTask := Store.sameTask_merged (update.sameTask_appliedRow config row) 1
  have names := Prod.mk.inj keyed
  rw [sameTask.taskId, sameTask.stepId, ← carries.fromId, ← carries.gotIdem] at holds
  rw [← show row.taskId = update.taskId from names.1, ← show row.stepId = update.stepId from names.2]
  exact holds

theorem succeedsAttested_of_claimsAreTrue (truthful : ClaimsAreTrue config envelope before) :
    SucceedsAttested config envelope before := by
  intro now after executes row behind stored mode moved found succeeded
  have does := process_does executes
  rcases does.accepted stored moved found succeeded with
    ⟨update, nowUtcMs, carries, valid, named, applies, state, attested, accepts, written⟩
  have present := TaskUpdate.attest_ne_none_of_accepted required mode attested
  have reported := carries.resultJson_ne_nil writes state present
  rcases (TaskUpdate.attestFailure_eq_none required requiredSig mode carries.isObject reported).mp
    attested with ⟨attest, presents, passes⟩
  have changed : (lookupBy (·.key) row.key after.tasks).map (·.outcome) ≠ some row.outcome := by
    rw [found, Option.map_some]
    intro same
    exact moved ((congrArg Outcome.state (Option.some.inj same)).symm.trans succeeded)
  have holds : SignatureHolds config update.fromId update.taskId update.stepId update.gotIdem
      (attestFields config attest) := by
    rcases passes with claims | ⟨-, holds⟩
    · have there : before.getEdgeTask update.taskId update.stepId = some row := by
        rw [carries.taskId, carries.stepId]
        apply getEdgeTask_of_lookupBy valid
        rw [← carries.taskId, ← carries.stepId, ← named]
        exact stored
      have taken : before.acceptsEdgeTask { row with state := TaskState.succeeded } = true := by
        rw [← accepts before rfl, acceptsEdgeTask_appliedRow state attested]
      exact truthful update row attest carries state valid there mode
        (does.addresses stored changed) taken presents claims
    · exact holds
  have sameTask : behind.SameTask row :=
    written ▸ Store.sameTask_merged (update.sameTask_appliedRow config row) nowUtcMs
  have names := Prod.mk.inj named
  refine ⟨attest, carries.attest ▸ presents.found, carries.fromId ▸ presents.allowed, ?_, ?_⟩
  · rw [sameTask.taskId, sameTask.stepId, ← carries.fromId, ← carries.gotIdem]
    rw [show row.taskId = update.taskId from names.1, show row.stepId = update.stepId from names.2]
    exact holds
  · rw [written, TaskUpdate.resultJson_merged writes state attested reported]
    exact presents.hash

end Processed

def sampleAttestConfig : EdgeConfig :=
  { sampleConfig with edgeAttestRequired := true, edgeAttestRequireSig := true }

def sampleAttested (members : List (Bytes × Json.Tree)) : Envelope :=
  sampleMessage .taskDone (ascii "node:a") ((ascii "result", .object [(ascii "attest", .ofMembers [
    (ascii "alg", .string (ascii "ed25519")),
    (ascii "kid", .string (ascii "x")),
    (ascii "result_sha256", .string (ascii
      "sha256:44136fa355b3678a1146ad16f7e8649e94fb4fc21fe77e8310c060f61caaff8a")),
    (ascii "sig", .string (ascii "AA==")),
    (ascii "ts_utc_ms", .number (ascii "1"))])]) :: members)

def sampleTaskStore : Store where
  tasks := [sampleTask]

theorem write_object_ne_nil (tree : Json.Tree) (object : tree.isObject = true) :
    sampleAttestConfig.json.write tree ≠ [] := by
  cases tree with
  | object members => exact List.cons_ne_nil _ _
  | _ => exact nomatch object

def sampleClaim : Envelope :=
  sampleAttested [(TaskUpdate.sigOkKey, .bool true)]

end AgentC.EdgeTasks

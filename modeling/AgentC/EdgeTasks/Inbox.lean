import AgentC.EdgeTasks.Calls

/-! # Inbox

What a sequence of calls of `insert_edge_inbox_message_with_seq_guard` leaves in
the inbox and of the sequence numbers of the nodes. -/

namespace AgentC.EdgeTasks

open Store (InboxOutcome)

def Store.lastAuthSeq (store : Store) (nodeId : Bytes) : Option Int :=
  (lookupBy (·.nodeId) nodeId store.nodes).bind (·.lastAuthSeq)

structure InboxStep where
  row : EdgeInboxMessageRow
  guard : Option EdgeInboxAuthSeqGuard := none
  outcome : InboxOutcome
  before : Store
  after : Store

def InboxStep.Performed (step : InboxStep) : Prop :=
  Effect (.insertEdgeInboxMessageWithSeqGuard step.row step.guard) step.before step.outcome
    step.after

inductive InboxRun : Store → List InboxStep → Store → Prop
  | nil (store : Store) : InboxRun store [] store
  | cons {step : InboxStep} {steps : List InboxStep} {last : Store} (performed : step.Performed)
      (rest : InboxRun step.after steps last) : InboxRun step.before (step :: steps) last

def storedIds (steps : List InboxStep) : List Bytes :=
  (steps.filter fun step => step.outcome = .stored).map (·.row.msgId)

def storedSeqs (nodeId : Bytes) (steps : List InboxStep) : List Int :=
  ((steps.filter fun step => step.outcome = .stored).filterMap (·.guard)).filterMap fun guard =>
    if guard.nodeId = nodeId then some guard.seq else none

namespace Store

variable {store : Store} {guard : EdgeInboxAuthSeqGuard} {nodes : List NodeEntry} {nodeId : Bytes}

theorem lastAuthSeq_bumpSeq (bumped : store.bumpSeq guard = some nodes) :
    (store.lastAuthSeq guard.nodeId).all (· < guard.seq) ∧
      (lookupBy (·.nodeId) guard.nodeId nodes).bind (·.lastAuthSeq) = some guard.seq := by
  rw [bumpSeq] at bumped
  rw [lastAuthSeq]
  split at bumped
  · next node found =>
    split at bumped
    · next smaller =>
      cases bumped
      rw [found]
      constructor
      · exact smaller
      · rw [lookupBy_map, found]
        · exact congrArg NodeEntry.lastAuthSeq (if_pos (key_of_lookupBy found))
        · intro entry
          split <;> rfl
    · cases bumped
  · next missing =>
    cases bumped
    rw [missing]
    constructor
    · rfl
    · rw [lookupBy_append, missing, lookupBy_cons, if_pos rfl]
      rfl

theorem lastAuthSeq_bumpSeq_of_ne (bumped : store.bumpSeq guard = some nodes)
    (other : nodeId ≠ guard.nodeId) :
    (lookupBy (·.nodeId) nodeId nodes).bind (·.lastAuthSeq) = store.lastAuthSeq nodeId := by
  rw [bumpSeq] at bumped
  rw [lastAuthSeq]
  split at bumped
  · split at bumped
    · cases bumped
      rw [lookupBy_map_of_ne]
      · intro entry
        split <;> rfl
      · intro entry here
        exact if_neg fun same => other (here.symm.trans same)
    · cases bumped
  · cases bumped
    rw [lookupBy_append, lookupBy_cons, if_neg other.symm]
    cases lookupBy (·.nodeId) nodeId store.nodes <;> rfl

end Store

theorem InboxStep.Performed.cases {step : InboxStep} (performed : step.Performed) :
    (step.outcome = .stored ∧ lookupBy (·.msgId) step.row.msgId step.before.inbox = none ∧
      (∃ entry : InboxEntry, entry.msgId = step.row.msgId ∧
        step.after.inbox = step.before.inbox ++ [entry]) ∧
      ((step.guard = none ∧ step.after.nodes = step.before.nodes) ∨
        ∃ guard, step.guard = some guard ∧ step.before.bumpSeq guard = some step.after.nodes)) ∨
      (step.outcome ≠ .stored ∧ step.after = step.before) := by
  have unchanged : ∀ outcome, outcome ≠ InboxOutcome.stored →
      (step.outcome, step.after) = (outcome, step.before) →
        step.outcome ≠ .stored ∧ step.after = step.before := by
    intro outcome other same
    cases step
    cases same
    exact ⟨other, rfl⟩
  rcases performed with ⟨outside, answered⟩ | ⟨failed, same⟩
  · simp only [answer, Store.insertEdgeInboxMessageWithSeqGuard] at answered
    split at answered
    · exact .inr (unchanged _ (by decide) answered)
    · split at answered
      · exact .inr (unchanged _ (by decide) answered)
      · split at answered
        · exact .inr (unchanged _ (by decide) answered)
        · next fresh =>
          have missing : lookupBy (·.msgId) step.row.msgId step.before.inbox = none :=
            Option.not_isSome_iff_eq_none.mp fresh
          split at answered
          · next unguarded =>
            have outcome := congrArg Prod.fst answered
            have after := congrArg Prod.snd answered
            simp only at outcome after
            left
            refine ⟨outcome, missing, ⟨_, rfl, congrArg Store.inbox after⟩,
              .inl ⟨unguarded, ?_⟩⟩
            rw [after]
          · next guard guarded =>
            split at answered
            · exact .inr (unchanged _ (by decide) answered)
            · next nodes bumped =>
              have outcome := congrArg Prod.fst answered
              have after := congrArg Prod.snd answered
              simp only at outcome after
              left
              refine ⟨outcome, missing, ⟨_, rfl, congrArg Store.inbox after⟩,
                .inr ⟨guard, guarded, ?_⟩⟩
              rw [bumped, after]
  · exact .inr (unchanged .failed (by decide) (by rw [same, failed]))

theorem storedSeqs_cons (nodeId : Bytes) (step : InboxStep) (steps : List InboxStep) :
    storedSeqs nodeId (step :: steps) = storedSeqs nodeId [step] ++ storedSeqs nodeId steps := by
  rw [storedSeqs, storedSeqs, storedSeqs, ← List.filterMap_append, ← List.filterMap_append,
    ← List.filter_append, List.singleton_append]

theorem storedIds_cons (step : InboxStep) (steps : List InboxStep) :
    storedIds (step :: steps) = storedIds [step] ++ storedIds steps := by
  rw [storedIds, storedIds, storedIds, ← List.map_append, ← List.filter_append,
    List.singleton_append]

/-- A call stores at most one sequence number of a node, one that is larger than
the last one and becomes it. -/
theorem InboxStep.Performed.lastAuthSeq {step : InboxStep} (performed : step.Performed)
    (nodeId : Bytes) : (storedSeqs nodeId [step] = [] ∧
      step.after.lastAuthSeq nodeId = step.before.lastAuthSeq nodeId) ∨
      ∃ seq, storedSeqs nodeId [step] = [seq] ∧ (step.before.lastAuthSeq nodeId).all (· < seq) ∧
        step.after.lastAuthSeq nodeId = some seq := by
  rcases performed.cases with ⟨stored, -, -, nodes⟩ | ⟨other, same⟩
  · rcases nodes with ⟨unguarded, kept⟩ | ⟨guard, guarded, bumped⟩
    · left
      simp [storedSeqs, stored, unguarded, Store.lastAuthSeq, kept]
    · by_cases here : guard.nodeId = nodeId
      · right
        subst here
        refine ⟨guard.seq, ?_, Store.lastAuthSeq_bumpSeq bumped⟩
        simp [storedSeqs, stored, guarded]
      · left
        constructor
        · simp [storedSeqs, stored, guarded, here]
        · exact Store.lastAuthSeq_bumpSeq_of_ne bumped (Ne.symm here)
  · left
    simp [storedSeqs, other, same]

/-- The sequence numbers that a run stores are larger than the last one in front
of it, and increase. -/
theorem InboxRun.seqs_increase {first last : Store} {steps : List InboxStep}
    (run : InboxRun first steps last) (nodeId : Bytes) :
    (∀ seq ∈ storedSeqs nodeId steps, (first.lastAuthSeq nodeId).all (· < seq)) ∧
      (storedSeqs nodeId steps).Pairwise (· < ·) := by
  induction run with
  | nil store => exact ⟨fun _ member => (nomatch member), .nil⟩
  | cons performed rest induction =>
    rw [storedSeqs_cons]
    rcases performed.lastAuthSeq nodeId with ⟨none, kept⟩ | ⟨seq, one, larger, becomes⟩
    · rw [none, List.nil_append, ← kept]
      exact induction
    · rw [one, List.singleton_append]
      rw [becomes] at induction
      have later : ∀ other ∈ storedSeqs nodeId _, seq < other :=
        fun other member => of_decide_eq_true (induction.1 other member)
      constructor
      · intro other member
        rcases List.mem_cons.mp member with here | there
        · rw [here]
          exact larger
        · rw [Option.all_eq_true] at larger ⊢
          intro old found
          have before := of_decide_eq_true (larger old found)
          exact decide_eq_true (before.trans (later other there))
      · exact List.pairwise_cons.mpr ⟨later, induction.2⟩

theorem InboxRun.inbox_ids {first last : Store} {steps : List InboxStep}
    (run : InboxRun first steps last) :
    last.inbox.map (·.msgId) = first.inbox.map (·.msgId) ++ storedIds steps ∧
      (storedIds steps).Nodup ∧ ∀ msgId ∈ storedIds steps, msgId ∉ first.inbox.map (·.msgId) := by
  induction run with
  | nil store =>
    exact ⟨(List.append_nil _).symm, .nil, fun _ member => (nomatch member)⟩
  | @cons step steps last performed rest induction =>
    rw [storedIds_cons]
    rcases performed.cases with ⟨stored, missing, ⟨entry, named, grown⟩, -⟩ | ⟨other, same⟩
    · have one : storedIds [step] = [step.row.msgId] := by
        simp [storedIds, stored]
      rw [grown, List.map_append, List.map_singleton, named] at induction
      have fresh : step.row.msgId ∉ step.before.inbox.map (·.msgId) := by
        intro member
        rcases List.mem_map.mp member with ⟨present, there, same⟩
        exact lookupBy_eq_none.mp missing present there same
      rw [one, List.singleton_append]
      refine ⟨?_, List.nodup_cons.mpr ⟨?_, induction.2.1⟩, ?_⟩
      · rw [induction.1, List.append_assoc, List.singleton_append]
      · intro again
        exact induction.2.2 _ again (List.mem_append_right _ (List.mem_singleton.mpr rfl))
      · intro msgId member
        rcases List.mem_cons.mp member with here | there
        · rw [here]
          exact fresh
        · intro old
          exact induction.2.2 msgId there (List.mem_append_left _ old)
    · have none : storedIds [step] = [] := by
        simp [storedIds, other]
      rw [none, List.nil_append, ← same]
      exact induction

/-- Stored sequence numbers of each node increase, no message is stored twice,
and a call that stores nothing changes nothing. -/
theorem inbox_sequence_guard {first last : Store} {steps : List InboxStep}
    (run : InboxRun first steps last) :
    (∀ nodeId, (storedSeqs nodeId steps).Pairwise (· < ·)) ∧
      (last.inbox.map (·.msgId) = first.inbox.map (·.msgId) ++ storedIds steps ∧
        (storedIds steps).Nodup ∧
        ∀ msgId ∈ storedIds steps, msgId ∉ first.inbox.map (·.msgId)) ∧
      ∀ step ∈ steps, step.outcome ≠ .stored → step.after = step.before := by
  refine ⟨fun nodeId => (run.seqs_increase nodeId).2, run.inbox_ids, ?_⟩
  induction run with
  | nil store => exact fun _ member => nomatch member
  | cons performed rest induction =>
    intro step member unstored
    rcases List.mem_cons.mp member with here | there
    · subst here
      rcases performed.cases with ⟨stored, -⟩ | ⟨-, same⟩
      · exact absurd stored unstored
      · exact same
    · exact induction step there unstored

def sampleGuardedStep (store : Store) (msgId : Bytes) (seq : Int) : InboxStep :=
  let row : EdgeInboxMessageRow :=
    { msgId, tsUtcMs := 1, type := ascii "TASK_ACK", envelopeJson := ascii "\x7b\x7d" }
  let guard : EdgeInboxAuthSeqGuard := { nodeId := ascii "n", seq }
  let answered := answer {} (.insertEdgeInboxMessageWithSeqGuard row (some guard)) store
  { row, guard := some guard, outcome := answered.1, before := store, after := answered.2 }

def sampleInboxSteps : List InboxStep :=
  let first := sampleGuardedStep {} (ascii "m1") 4
  let second := sampleGuardedStep first.after (ascii "m2") 4
  let third := sampleGuardedStep second.after (ascii "m2") 5
  [first, second, third]

theorem inbox_sequence_guard_sample :
    sampleInboxSteps.map (·.outcome) = [.stored, .seqRejected, .stored] ∧
      (storedSeqs (ascii "n") sampleInboxSteps).Pairwise (· < ·) ∧
      (storedIds sampleInboxSteps).Nodup := by
  have performed : ∀ store msgId seq, (sampleGuardedStep store msgId seq).Performed :=
    fun store _ _ => effect_answer {} _ store
  have run : InboxRun {} sampleInboxSteps _ :=
    .cons (performed _ _ _) (.cons (performed _ _ _) (.cons (performed _ _ _) (.nil _)))
  have guarded := inbox_sequence_guard run
  exact ⟨by decide, guarded.1 (ascii "n"), guarded.2.1.2.1⟩

end AgentC.EdgeTasks

import AgentC.Workflow.FinishedTasks

/-! # Tasks that have ended

As long as picks leave alone what was claimed behind their listing, a task has
one status from its end on, and what a listing shows of ended tasks stays true. -/

namespace AgentC.Workflow

section EndedTasks

variable {engine : Engine} {tables store next : Store} {events : List DaemonEvent} {thread : Nat}
  {caller : Nat} {call : Call} {response : Response call}

variable {row copy : WorkflowTaskRow}

/-- A write that is allowed is made by whoever executes the task, or cancels a
copy listed as queued. -/
theorem WritesTask.source (trace : DaemonTrace engine tables events store)
    (writes : WritesTask (knownBy engine caller events) row) :
    Executes engine caller row.key events ∨
      (knownBy engine caller events).claim = none ∧ row.status = .cancelled ∧
        ∃ copy, copy.key = row.key ∧ HoldsQueued engine caller copy events := by
  cases claimed : (knownBy engine caller events).claim with
  | none =>
    rw [WritesTask, claimed] at writes
    rcases writes with ⟨copy, member, cancels⟩
    refine .inr ⟨rfl, cancels.status, copy, ?_, claimed, member, cancels.listed⟩
    rw [WorkflowTaskRow.key, WorkflowTaskRow.key, cancels.same.workflowId, cancels.same.taskId]
  | some claim =>
    have unrecorded : (knownBy engine caller events).recorded = false := by
      rw [WritesTask, claimed] at writes
      exact writes.1
    have holds : HoldsClaim engine caller claim events := ⟨claimed, unrecorded⟩
    exact .inl ⟨claim, holds, (holds.writes trace writes).1.symm⟩

theorem running_of_executes {key : Bytes × Bytes} (keyed : Keyed tables)
    (trace : DaemonTrace engine tables events store)
    (careful : Throughout (CancelsUnclaimed engine) events)
    (executes : Executes engine thread key events) :
    ∀ row ∈ store.tasks, row.key = key → row.status = .running := by
  induction trace generalizing thread key with
  | nil =>
    rcases executes with ⟨claim, holds, _⟩
    exact nomatch holds.1
  | @cons events store next caller call response earlier allowed effect induction =>
    intro row member sameKey
    have before := @induction
    cases taskChange_of_effect effect with
    | untouched unclaimed _ same =>
      rw [same] at member
      exact before careful.2 (executes_before unclaimed executes) row member sameKey
    | written written named next_eq =>
      subst next_eq
      rcases executes_cons executes with ⟨_, _, impossible⟩ | ⟨executed, quiet⟩
      · exact nomatch impossible
      · rcases mem_upsertWorkflowTask named member with new | ⟨old, _⟩
        · -- nobody else writes a task that is being executed
          have writtenKey : written.key = key := new.key.symm.trans sameKey
          rcases WritesTask.source earlier allowed with own | ⟨unclaimed, _, copy, copyKey, holds⟩
          · rw [writtenKey] at own
            have same := (exclusive_of_trace earlier).single key caller thread own executed
            exact absurd rfl (quiet same written)
          · have unclaimedSince := careful.1 written rfl unclaimed
            rw [← writtenKey, ← copyKey] at executed
            rw [← copyKey] at unclaimedSince
            exact absurd (claimedSinceListing_of_executes earlier executed holds)
              unclaimedSince
        · exact before careful.2 executed row old sameKey
    | claimed workflowId taskId nowUnixMs newAttempt perWorkflow perSession sessionId found _ _ _
        tasks =>
      rw [tasks] at member
      rcases executes_cons executes with ⟨_, attempt, claimed⟩ | ⟨executed, _⟩
      · cases claimed
        rcases mem_updateQueued member with ⟨old, _, _, _, updated⟩ | ⟨old, other⟩
        · rw [updated]
          rfl
        · rcases found with ⟨held, there, heldKey, queued⟩
          have keyedStore := keyed.of_sameIdentities (identities_of_trace keyed earlier).1
          rw [← keyedStore.task_eq old there (sameKey.trans heldKey.symm)] at queued
          exact absurd ⟨sameKey, queued⟩ other
      · rcases mem_updateQueued member with ⟨old, there, oldKey, queued, updated⟩ | ⟨old, _⟩
        · rw [updated]
          rfl
        · exact before careful.2 executed row old sameKey
    | cancelled workflowId taskId nowUnixMs error resultJson tasks =>
      rw [tasks] at member
      have executed := executes_before rfl executes
      rcases mem_updateQueued member with ⟨old, there, oldKey, queued, updated⟩ | ⟨old, _⟩
      · rw [updated] at sameKey
        have running := before careful.2 executed old there sameKey
        rw [queued] at running
        exact nomatch running
      · exact before careful.2 executed row old sameKey

theorem unclaimed_of_listed (keyed : Keyed tables) (trace : DaemonTrace engine tables events store)
    (holds : HoldsQueued engine thread copy events)
    (unclaimed : ¬SinceListing (ClaimsTask copy.key) thread events) :
    ∀ row ∈ store.tasks, row.key = copy.key → row.status = .queued ∨ row.status = .cancelled := by
  induction trace with
  | nil => exact nomatch holds.2.1
  | @cons events store next caller call response earlier allowed effect induction =>
    intro row member sameKey
    rcases holdsQueued_cons holds effect with ⟨listing, held, there, read⟩ | ⟨other, held⟩
    · rw [tasks_of_isListing listing effect] at member
      have keyedStore := keyed.of_sameIdentities (identities_of_trace keyed earlier).1
      have queued := holds.2.2
      rw [read] at sameKey queued
      rw [keyedStore.task_eq member there sameKey]
      exact .inl queued
    · rw [sinceListing_cons other, not_or] at unclaimed
      have before := induction held unclaimed.2
      cases taskChange_of_effect effect with
      | untouched _ _ same =>
        rw [same] at member
        exact before row member sameKey
      | written written named next_eq =>
        subst next_eq
        rcases mem_upsertWorkflowTask named member with new | ⟨old, _⟩
        · rcases WritesTask.source earlier allowed with own | ⟨_, cancelled, _⟩
          · rw [new.key.symm.trans sameKey] at own
            exact absurd (claimedSinceListing_of_executes earlier own held) unclaimed.2
          · exact .inr (new.status.trans cancelled)
        · exact before row old sameKey
      | claimed workflowId taskId nowUnixMs newAttempt _ _ _ _ _ _ _ tasks =>
        rw [tasks] at member
        rcases mem_updateQueued member with ⟨old, there, oldKey, _, updated⟩ | ⟨old, _⟩
        · rw [updated] at sameKey
          refine absurd ⟨newAttempt, ?_⟩ unclaimed.1
          rw [← sameKey]
          exact congrArg (fun key => some (key, newAttempt)) oldKey.symm
        · exact before row old sameKey
      | cancelled _ _ _ _ _ tasks =>
        rw [tasks] at member
        rcases mem_updateQueued member with ⟨old, _, _, _, updated⟩ | ⟨old, _⟩
        · rw [updated]
          exact .inr rfl
        · exact before row old sameKey

theorem HasStatus.step {key : Bytes × Bytes} {status : Status} (keyed : Keyed tables)
    (trace : DaemonTrace engine tables events store)
    (careful : Throughout (CancelsUnclaimed engine) events)
    (allowed : MayCall engine (knownBy engine caller events) call)
    (effect : Effect call store response next)
    (carefulNow : CancelsUnclaimed engine ⟨caller, call, response, store, next⟩ events)
    (stored : HasStatus store key status) (terminal : status.isTerminal = true) :
    HasStatus next key status := by
  have change := taskChange_of_effect effect
  apply stored.change terminal change
  intro row written sameKey
  rcases stored.present with ⟨held, there, heldKey⟩
  have ended := stored.status held there heldKey
  cases change with
  | untouched _ unwritten =>
    rw [unwritten] at written
    exact nomatch written
  | written row named next_eq =>
    cases written
    rcases WritesTask.source trace allowed with own | ⟨unclaimed, cancelled, copy, copyKey, holds⟩
    · rw [sameKey] at own
      have running := running_of_executes keyed trace careful own held there heldKey
      rw [ended] at running
      rw [running] at terminal
      exact nomatch terminal
    · have since := carefulNow row rfl unclaimed
      rw [← copyKey] at since
      have heldCopy : held.key = copy.key := (heldKey.trans sameKey.symm).trans copyKey.symm
      rcases unclaimed_of_listed keyed trace holds since held there heldCopy with queued | same
      · rw [← ended, queued] at terminal
        exact nomatch terminal
      · rw [cancelled, ← ended, same]
  | claimed => exact nomatch written
  | cancelled => exact nomatch written

theorem Keyed.hasStatus (keyed : Keyed store) (there : row ∈ store.tasks) :
    HasStatus store row.key row.status where
  present := ⟨row, there, rfl⟩
  status := by
    intro other member same
    rw [keyed.task_eq member there same]

theorem hasStatus_of_listed (keyed : Keyed tables) (trace : DaemonTrace engine tables events store)
    (careful : Throughout (CancelsUnclaimed engine) events)
    (member : copy ∈ (knownBy engine thread events).tasks)
    (terminal : copy.status.isTerminal = true) : HasStatus store copy.key copy.status := by
  induction trace with
  | nil => exact nomatch member
  | @cons events store next caller call response earlier allowed effect induction =>
    have before : HasStatus store copy.key copy.status := by
      rcases listed_cons member effect with ⟨_, held, there, read⟩ | ⟨_, old⟩
      · have keyedStore := keyed.of_sameIdentities (identities_of_trace keyed earlier).1
        have heldStatus : HasStatus store held.key held.status := keyedStore.hasStatus there
        rw [read]
        exact heldStatus
      · exact induction careful.2 old
    exact before.step keyed earlier careful.2 allowed effect careful.1 terminal

end EndedTasks

/-- A listing that succeeded has every task of the workflow. -/
structure ListsAll (tables : Store) (known : Knowledge) : Prop where
  copies : HoldsCopies tables known
  complete : known.seen.isSome → ∀ row ∈ tables.tasks, row.workflowId = known.listed →
    ∃ copy ∈ known.tasks, copy.identity = row.identity

theorem listsAll_of_trace {engine : Engine} {tables store : Store} {events : List DaemonEvent}
    (keyed : Keyed tables) (trace : DaemonTrace engine tables events store) :
    SameIdentities tables store ∧ ∀ thread, ListsAll tables (knownBy engine thread events) := by
  apply SharedStore.Trace.invariant (daemon engine) _ _ _ trace
  · intro known call response store next same lists allowed effect
    refine ⟨same.effect keyed lists.copies allowed effect,
      lists.copies.advance same allowed effect, ?_⟩
    cases call with
    | listWorkflowTasks asked =>
      intro seen row there listed
      have reads : Reads store (.listWorkflowTasks asked) response := reads_of_effect effect
      cases response with
      | none => exact nomatch seen
      | some rows =>
        have known := List.mem_map_of_mem (f := WorkflowTaskRow.identity) there
        rw [← same.tasks] at known
        rcases List.mem_map.mp known with ⟨held, heldThere, identity⟩
        have heldId : held.workflowId = asked :=
          (congrArg (fun parts => parts.key.1) identity).trans listed
        exact ⟨Store.readTask held, (reads rows rfl _).mpr ⟨held, heldThere, rfl, heldId⟩,
          identity⟩
    | claimWorkflowTaskBudgeted workflowId taskId nowUnixMs newAttempt perWorkflow perSession
        sessionId =>
      cases response with
      | false => exact lists.complete
      | true => exact lists.complete
    | _ => exact lists.complete
  · exact ⟨rfl, rfl⟩
  · constructor
    · exact ⟨fun _ member => (nomatch member), fun _ read => (nomatch read),
        fun _ member => (nomatch member), fun _ claimed => (nomatch claimed)⟩
    · intro impossible
      exact nomatch impossible

end AgentC.Workflow

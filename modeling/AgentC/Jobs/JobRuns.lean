import AgentC.Foundation.Machine
import AgentC.Jobs.JobTable

/-! # The jobs table over any calls

What the calls on the table keep of a job, in whatever order they come and
whatever copies of rows they write back: a final status and a requested
cancellation stay, and a job that was claimed is claimed again only when a call
has put it back into the queue. -/

namespace AgentC.Jobs

def jobsMachine : Machine JobsTable JobCall Bool where
  step table call := ((call.answer table).2, [(call.answer table).1])

def JobsTable.behind (table : JobsTable) (calls : List JobCall) : JobsTable :=
  (jobsMachine.run table calls).1

theorem JobsTable.behind_append (table : JobsTable) (earlier later : List JobCall) :
    table.behind (earlier ++ later) = (table.behind earlier).behind later := by
  rw [behind, jobsMachine.run_append]
  rfl

/-- The later row of a job keeps what no call takes back. -/
structure JobRow.Follows (row later : JobRow) : Prop where
  created : later.createdUnixMs = row.createdUnixMs
  terminal : row.IsTerminal → later.status = row.status
  cancel : row.cancelRequested = true → later.cancelRequested = true

variable {row : JobRow}

namespace JobRow

theorem Follows.refl (row : JobRow) : Follows row row :=
  ⟨rfl, fun _ => rfl, id⟩

theorem Follows.trans {first second third : JobRow} (left : Follows first second)
    (right : Follows second third) : Follows first third where
  created := right.created.trans left.created
  terminal final := by
    have kept := left.terminal final
    have stillFinal : second.IsTerminal := by
      rw [IsTerminal, kept]
      exact final
    exact (right.terminal stillFinal).trans kept
  cancel wanted := right.cancel (left.cancel wanted)

theorem follows_merge (row excluded : JobRow) : Follows row (row.merge excluded) where
  created := rfl
  terminal final := if_pos final
  cancel wanted := by
    rw [merge, wanted]
    rfl

theorem follows_of_not_terminal {change : JobRow → JobRow} (notFinal : ¬row.IsTerminal)
    (created : (change row).createdUnixMs = row.createdUnixMs)
    (cancel : (change row).cancelRequested = row.cancelRequested) : Follows row (change row) where
  created := created
  terminal final := absurd final notFinal
  cancel wanted := cancel.trans wanted

theorem not_terminal_of_queued (isQueued : row.status = queued) : ¬row.IsTerminal := by
  rw [IsTerminal, isQueued]
  decide

theorem not_terminal_of_running (isRunning : row.status = running) : ¬row.IsTerminal := by
  rw [IsTerminal, isRunning]
  decide

theorem not_terminal_of_inFlight (flying : row.inFlight = true) : ¬row.IsTerminal := by
  rw [inFlight, Bool.or_eq_true, decide_eq_true_eq, decide_eq_true_eq] at flying
  rcases flying with isQueued | isRunning
  · exact not_terminal_of_queued isQueued
  · exact not_terminal_of_running isRunning

end JobRow

namespace JobsTable

/-- The table still has a row of the job, and it follows the given one. -/
def Carries (jobId : Bytes) (row : JobRow) (table : JobsTable) : Prop :=
  ∃ later, table.getJob jobId = some later ∧ row.Follows later

variable {jobId : Bytes} {table : JobsTable}

theorem Carries.update (carries : table.Carries jobId row) {selected : JobRow → Bool}
    {change : JobRow → JobRow} (keeps : ∀ row, (change row).jobId = row.jobId)
    (follows : ∀ later, selected later = true → later.Follows (change later)) :
    (table.update selected change keeps).Carries jobId row := by
  rcases carries with ⟨later, found, before⟩
  refine ⟨if selected later then change later else later, ?_, before.trans ?_⟩
  · rw [getJob_update, found]
    rfl
  · split
    · next holds => exact follows later holds
    · exact .refl later

/-- Every call keeps what the row of a job has settled. -/
theorem Carries.answer {jobId : Bytes} {row : JobRow} {table : JobsTable}
    (carries : table.Carries jobId row) (call : JobCall) :
    (call.answer table).2.Carries jobId row := by
  cases call with
  | upsertJob =>
    rcases carries with ⟨later, found, before⟩
    rw [JobCall.answer, Carries, getJob_upsertJob, found]
    split
    · exact ⟨_, rfl, before.trans (JobRow.follows_merge later _)⟩
    · exact ⟨later, rfl, before⟩
  | claimJob =>
    rw [JobCall.answer, claimJob]
    split
    · exact carries
    · apply carries.update (JobRow.jobId_claimed _)
      intro later claimable
      simp only [JobRow.claimable, Bool.and_eq_true, decide_eq_true_eq] at claimable
      exact JobRow.follows_of_not_terminal (JobRow.not_terminal_of_queued claimable.1.2) rfl rfl
  | markInflightJobsInterrupted =>
    apply carries.update (JobRow.jobId_markedInterrupted _ _)
    intro later flying
    exact JobRow.follows_of_not_terminal (JobRow.not_terminal_of_inFlight flying) rfl rfl
  | recoverInflightJobsResumable =>
    refine Carries.update ?_ (JobRow.jobId_notResumable _) ?_
    · apply carries.update (JobRow.jobId_requeued _)
      intro later isRunning
      exact JobRow.follows_of_not_terminal
        (JobRow.not_terminal_of_running (of_decide_eq_true isRunning)) rfl rfl
    · intro later flying
      rw [Bool.and_eq_true] at flying
      exact JobRow.follows_of_not_terminal (JobRow.not_terminal_of_inFlight flying.1) rfl rfl

theorem Carries.behind (carries : table.Carries jobId row) (calls : List JobCall) :
    (table.behind calls).Carries jobId row :=
  jobsMachine.run_invariant (Carries jobId row) (fun _ call held => held.answer call) carries
    calls

def IsQueued (jobId : Bytes) (table : JobsTable) : Prop :=
  ∃ row, table.getJob jobId = some row ∧ row.status = JobRow.queued

theorem not_isQueued_of_claimed {clock nowUnixMs : Int}
    (claimed : (table.claimJob clock jobId nowUnixMs).1 = true) :
    ¬(table.claimJob clock jobId nowUnixMs).2.IsQueued jobId := by
  rcases claimJob_eq_true_iff.mp claimed with ⟨named, row, found, isQueued, wanted⟩
  have selected : JobRow.claimable jobId row = true := by
    rw [JobRow.claimable, key_of_lookupBy found, isQueued, wanted]
    simp
  have moved : (table.claimJob clock jobId nowUnixMs).2 = table.update (JobRow.claimable jobId)
      (JobRow.claimed (JobRow.timeOr clock nowUnixMs)) (JobRow.jobId_claimed _) := by
    rw [claimJob, if_neg named]
  rintro ⟨later, after, status⟩
  rw [moved, getJob_update, found, Option.map_some, if_pos selected] at after
  rw [← Option.some.inj after] at status
  exact absurd status (by decide : JobRow.running ≠ JobRow.queued)

end JobsTable

/-- In any table and behind any calls: a final status of a job stays, a requested
cancellation stays and no claim succeeds any more, and between two claims of the
job that succeed a call has put it back into the queue. -/
theorem job_table_discipline (table : JobsTable) (jobId : Bytes) (calls : List JobCall) :
    (∀ row, table.getJob jobId = some row → row.IsTerminal →
        ∃ later, (table.behind calls).getJob jobId = some later ∧ later.status = row.status) ∧
      (∀ row, table.getJob jobId = some row → row.cancelRequested = true →
        (∃ later, (table.behind calls).getJob jobId = some later ∧
            later.cancelRequested = true) ∧
          ∀ clock nowUnixMs,
            ((table.behind calls).claimJob clock jobId nowUnixMs).1 = false) ∧
      ∀ clock nowUnixMs clock' nowUnixMs',
        (table.claimJob clock jobId nowUnixMs).1 = true →
        (((table.claimJob clock jobId nowUnixMs).2.behind calls).claimJob clock' jobId
          nowUnixMs').1 = true →
        ∃ earlier call later, calls = earlier ++ call :: later ∧
          ¬((table.claimJob clock jobId nowUnixMs).2.behind earlier).IsQueued jobId ∧
          ((table.claimJob clock jobId nowUnixMs).2.behind (earlier ++ [call])).IsQueued
            jobId := by
  refine ⟨?_, ?_, ?_⟩
  · intro row found final
    have held : table.Carries jobId row := ⟨row, found, .refl row⟩
    rcases held.behind calls with ⟨later, present, follows⟩
    exact ⟨later, present, follows.terminal final⟩
  · intro row found wanted
    have held : table.Carries jobId row := ⟨row, found, .refl row⟩
    rcases held.behind calls with ⟨later, present, follows⟩
    have stillWanted := follows.cancel wanted
    refine ⟨⟨later, present, stillWanted⟩, ?_⟩
    intro clock nowUnixMs
    rw [← Bool.not_eq_true, JobsTable.claimJob_eq_true_iff]
    rintro ⟨_, other, read, _, unwanted⟩
    rw [present] at read
    rw [← Option.some.inj read, stillWanted] at unwanted
    cases unwanted
  · intro clock nowUnixMs clock' nowUnixMs' first second
    rcases JobsTable.claimJob_eq_true_iff.mp second with ⟨_, row, found, isQueued, _⟩
    have gained := jobsMachine.run_gains (JobsTable.not_isQueued_of_claimed first)
      ⟨row, found, isQueued⟩
    rcases gained with ⟨earlier, call, later, split, missing, queued⟩
    refine ⟨earlier, call, later, split, missing, ?_⟩
    rw [JobsTable.behind_append]
    exact queued

end AgentC.Jobs

import AgentC.Broker.TeamRuns

/-! # The status of a team run over its polls

A poll derives the status from what it meets, whatever the run ended with, and
leaves what earlier polls wrote in the entries of the members. When polls keep a
status that ended and an honest one, exactly. -/

namespace AgentC.Broker.TeamRuns

open Json

variable (letters : LowerCase) (int64 : Int64Of)

/-! ## What a poll meets -/

/-- The member was never asked, may not be asked, gave no proper answer, or
answered. -/
inductive Outcome
  | unasked
  | forbidden
  | unreported
  | reported (payload : Tree)

def report (answer : JobAnswer) (item : Tree) : Option Tree :=
  if item.text (ascii "agent_id") ≠ [] ∧ answer.access = none then none
  else if answer.brokerStatus ≠ 0 then none
  else if answer.agentStatus < 200 ∨ 300 ≤ answer.agentStatus then none
  else answer.body

def outcome (answer : JobAnswer) (item : Tree) : Outcome :=
  if item.text (ascii "dispatch_error") ≠ [] then .unasked
  else if trimSpace (item.text (ascii "job_id")) = [] then .unasked
  else if item.text (ascii "agent_id") ≠ [] ∧ answer.access = some false then .forbidden
  else
    match report answer item with
    | none => .unreported
    | some payload => .reported payload

def Outcome.Pending : Outcome → Prop
  | .unreported => True
  | .reported payload => reportedStatus letters payload ∈ [ascii "queued", ascii "running"]
  | _ => False

def Outcome.Failing : Outcome → Prop
  | .unasked | .forbidden => True
  | .reported payload => reportedStatus letters payload = ascii "error" ∨
      resultOk letters payload = some false ∨ resultError letters payload ≠ []
  | .unreported => False

def Outcome.Cancelled : Outcome → Prop
  | .reported payload =>
    reportedStatus letters payload ∈ [ascii "cancelled", ascii "interrupted"]
  | _ => False

/-- The job is done, and nothing in the entry says that it failed. -/
def Outcome.CleanDone (item : Tree) : Outcome → Prop
  | .reported payload => reportedStatus letters payload = ascii "done" ∧
      trimSpace (item.text (ascii "error")) = [] ∧
        (resultOk letters payload).or (item.boolMember (ascii "ok")) ≠ some false
  | _ => False

variable {letters int64}

theorem pollMember_flags (answer : JobAnswer) (item : Tree) :
    let flags := (pollMember letters int64 answer item).2
    (flags.running = true ↔ (outcome answer item).Pending letters) ∧
      (flags.failed = true ↔ (outcome answer item).Failing letters) ∧
        (flags.cancelled = true ↔ (outcome answer item).Cancelled letters) := by
  intro flags
  have none : ∀ {flag : Bool}, flag = false → (flag = true ↔ False) := by
    intro flag unset
    simp [unset]
  simp only [flags, pollMember, outcome, report]
  split
  · exact ⟨none rfl, ⟨fun _ => trivial, fun _ => rfl⟩, none rfl⟩
  split
  · exact ⟨none rfl, ⟨fun _ => trivial, fun _ => rfl⟩, none rfl⟩
  split
  · next unchecked =>
    have allowed : ¬(item.text (ascii "agent_id") ≠ [] ∧ answer.access = some false) := by
      rintro ⟨_, denied⟩
      rw [unchecked.2] at denied
      cases denied
    rw [if_neg allowed]
    exact ⟨⟨fun _ => trivial, fun _ => rfl⟩, none rfl, none rfl⟩
  split
  · exact ⟨none rfl, ⟨fun _ => trivial, fun _ => rfl⟩, none rfl⟩
  split
  · exact ⟨⟨fun _ => trivial, fun _ => rfl⟩, none rfl, none rfl⟩
  split
  · exact ⟨⟨fun _ => trivial, fun _ => rfl⟩, none rfl, none rfl⟩
  cases answer.body with
  | none => exact ⟨⟨fun _ => trivial, fun _ => rfl⟩, none rfl, none rfl⟩
  | some payload =>
    refine ⟨decide_eq_true_iff, ?_, decide_eq_true_iff⟩
    simp [readJob, Outcome.Failing, or_assoc]

/-! ## What a poll writes in an entry -/

section Entries

variable {payload item : Tree} {entry : Tree × Bool} {key other value : Bytes}

/-- A step that writes members of an entry and reports when it changes one. -/
structure Writes (keys : List Bytes) (store : Tree × Bool → Tree × Bool) : Prop where
  object : ∀ entry, (store entry).1.isObject = entry.1.isObject
  others : ∀ entry other, other ∉ keys → (store entry).1.member other = entry.1.member other
  reports : ∀ entry, (store entry).2 = false → store entry = entry

theorem writes_of_set {store : Tree × Bool → Tree × Bool} (sets : ∀ entry, store entry = entry ∨
      ∃ tree, store entry = (entry.1.setMember key tree, true)) : Writes [key] store := by
  refine ⟨?_, ?_, ?_⟩
  · intro entry
    rcases sets entry with same | ⟨tree, set⟩
    · rw [same]
    · rw [set]
      exact Tree.isObject_setMember
  · intro entry other different
    rcases sets entry with same | ⟨tree, set⟩
    · rw [same]
    · rw [set]
      exact Tree.member_setMember_of_ne fun same => different (List.mem_singleton.mpr same)
  · intro entry quiet
    rcases sets entry with same | ⟨tree, set⟩
    · exact same
    · rw [set] at quiet
      cases quiet

theorem Writes.comp {first second : List Bytes} {inner outer : Tree × Bool → Tree × Bool}
    (writesInner : Writes first inner) (writesOuter : Writes second outer) :
    Writes (first ++ second) fun entry => outer (inner entry) := by
  refine ⟨?_, ?_, ?_⟩
  · intro entry
    exact (writesOuter.object _).trans (writesInner.object entry)
  · intro entry other different
    rw [List.mem_append, not_or] at different
    exact (writesOuter.others _ other different.2).trans (writesInner.others entry other different.1)
  · intro entry quiet
    have kept := writesOuter.reports (inner entry) quiet
    have silent : (inner entry).2 = false := by
      rw [← kept]
      exact quiet
    exact kept.trans (writesInner.reports entry silent)

theorem writes_storeText : Writes [key] (storeText key value) := by
  apply writes_of_set
  intro entry
  rw [storeText]
  split
  · split
    · exact .inl rfl
    · exact .inr ⟨_, rfl⟩
  · exact .inr ⟨_, rfl⟩

theorem writes_storeUpdated : Writes [ascii "updated_unix_ms"] (storeUpdated int64 payload) := by
  apply writes_of_set
  intro entry
  rw [storeUpdated]
  split
  · exact .inr ⟨_, rfl⟩
  · exact .inl rfl

theorem storeText_text (object : entry.1.isObject = true) :
    (storeText key value entry).1.text key = value := by
  rw [storeText]
  split
  · next previous found =>
    split
    · next same => rw [Tree.text, found, same]
    · rw [setText, Tree.text, Tree.member_setMember object]
  · rw [setText, Tree.text, Tree.member_setMember object]

theorem storeBool_boolMember {flag : Bool} (object : entry.1.isObject = true) :
    (storeBool key flag entry).1.boolMember key = some flag := by
  rw [storeBool]
  split
  · next same => exact same
  · rw [Tree.boolMember, Tree.member_setMember object]

theorem writes_storeOk : Writes [ascii "ok"] (storeOk letters payload) := by
  apply writes_of_set
  intro entry
  rw [storeOk]
  split
  · rw [storeBool]
    split
    · exact .inl rfl
    · exact .inr ⟨_, rfl⟩
  · exact .inl rfl

theorem writes_storeError : Writes [ascii "error"] (storeError letters payload) := by
  by_cases silent : resultError letters payload = []
  · have stored : storeError letters payload = id := by
      funext entry
      exact if_pos silent
    rw [stored]
    exact ⟨fun _ => rfl, fun _ _ _ => rfl, fun _ _ => rfl⟩
  · have stored : storeError letters payload =
        storeText (ascii "error") (resultError letters payload) := by
      funext entry
      exact if_neg silent
    rw [stored]
    exact writes_storeText

theorem writes_status {status : Bytes} :
    Writes [ascii "updated_unix_ms", ascii "status"] fun entry =>
      storeText (ascii "status") status (storeUpdated int64 payload entry) :=
  writes_storeUpdated.comp writes_storeText

theorem writes_answer {status : Bytes} :
    Writes [ascii "updated_unix_ms", ascii "status", ascii "ok", ascii "error"] fun entry =>
      storeError letters payload (storeOk letters payload
        (storeText (ascii "status") status (storeUpdated int64 payload entry))) :=
  (writes_status.comp writes_storeOk).comp writes_storeError

theorem readJob_eq_of_unchanged (quiet : (readJob letters int64 payload item).2.changed = false) :
    (readJob letters int64 payload item).1 = item := by
  have same := writes_answer.reports (item, false) quiet
  exact congrArg Prod.fst same

theorem isObject_readJob : (readJob letters int64 payload item).1.isObject = item.isObject :=
  writes_answer.object (item, false)

theorem readJob_status (object : item.isObject = true) :
    (readJob letters int64 payload item).1.text (ascii "status") =
      reportedStatus letters payload := by
  have later := (@writes_storeOk letters payload).comp (@writes_storeError letters payload)
  have kept := later.others (storeText (ascii "status") (reportedStatus letters payload)
    (storeUpdated int64 payload (item, false))) (ascii "status") (by decide)
  simp only [readJob, Tree.text]
  rw [kept]
  apply storeText_text
  rw [writes_storeUpdated.object]
  exact object

theorem readJob_error (silent : resultError letters payload = []) :
    (readJob letters int64 payload item).1.text (ascii "error") = item.text (ascii "error") := by
  have front := (@writes_status int64 payload (reportedStatus letters payload)).comp
    (@writes_storeOk letters payload)
  have kept := front.others (item, false) (ascii "error") (by decide)
  simp only [readJob, storeError, silent, if_true, Tree.text]
  rw [kept]

theorem readJob_ok (object : item.isObject = true) (silent : resultError letters payload = []) :
    (readJob letters int64 payload item).1.boolMember (ascii "ok") =
      (resultOk letters payload).or (item.boolMember (ascii "ok")) := by
  have front := @writes_status int64 payload (reportedStatus letters payload)
  simp only [readJob, storeError, silent, if_true, storeOk]
  cases resultOk letters payload with
  | none =>
    simp only [Tree.boolMember, Option.none_or]
    rw [front.others (item, false) (ascii "ok") (by decide)]
  | some value =>
    apply storeBool_boolMember
    rw [front.object (item, false)]
    exact object

theorem readJob_dispatchError :
    (readJob letters int64 payload item).1.text (ascii "dispatch_error") =
      item.text (ascii "dispatch_error") := by
  have kept := (@writes_answer letters int64 payload (reportedStatus letters payload)).others
    (item, false) (ascii "dispatch_error") (by decide)
  simp only [readJob, Tree.text]
  rw [kept]

end Entries

/-! ## Polling one member -/

section Members

variable {answer : JobAnswer} {item : Tree}

theorem isObject_setText {key value : Bytes} : (setText item key value).isObject = item.isObject :=
  Tree.isObject_setMember

theorem isObject_pollMember (object : item.isObject = true) :
    (pollMember letters int64 answer item).1.isObject = true := by
  rw [pollMember]
  split
  · exact object
  split
  · exact isObject_setText.trans object
  split
  · exact isObject_setText.trans object
  split
  · exact isObject_setText.trans object
  split
  · exact isObject_setText.trans (isObject_setText.trans object)
  split
  · exact isObject_setText.trans (Tree.isObject_setMember.trans (isObject_setText.trans object))
  split
  · exact isObject_setText.trans (isObject_setText.trans object)
  · exact isObject_readJob.trans object

theorem pollMember_eq_of_unchanged
    (quiet : (pollMember letters int64 answer item).2.changed = false) :
    (pollMember letters int64 answer item).1 = item := by
  rw [pollMember] at quiet ⊢
  split at quiet
  · next unasked => rw [if_pos unasked]
  next asked =>
  rw [if_neg asked]
  split at quiet
  · cases quiet
  next named =>
  rw [if_neg named]
  split at quiet
  · cases quiet
  next checked =>
  rw [if_neg checked]
  split at quiet
  · cases quiet
  next allowed =>
  rw [if_neg allowed]
  split at quiet
  · cases quiet
  next relayed =>
  rw [if_neg relayed]
  split at quiet
  · cases quiet
  next accepted =>
  rw [if_neg accepted]
  split at quiet
  · cases quiet
  · exact readJob_eq_of_unchanged quiet

theorem pollMember_of_reported {payload : Tree}
    (reported : outcome answer item = .reported payload) :
    pollMember letters int64 answer item = readJob letters int64 payload item ∧
      item.text (ascii "dispatch_error") = [] := by
  rw [outcome] at reported
  split at reported
  · cases reported
  next asked =>
  split at reported
  · cases reported
  next named =>
  split at reported
  · cases reported
  next allowed =>
  rw [report] at reported
  rw [pollMember, if_neg asked, if_neg named]
  split at reported
  · cases reported
  · next found =>
    split at found
    · cases found
    next checked =>
    split at found
    · cases found
    next relayed =>
    split at found
    · cases found
    next accepted =>
    cases reported
    rw [if_neg checked, if_neg allowed, if_neg relayed, if_neg accepted, found]
    exact ⟨rfl, not_not.mp asked⟩

theorem jobStatus_of_done (done : item.text (ascii "status") = ascii "done") :
    jobStatus letters item = ascii "done" := by
  have trimmed : trimSpace (ascii "done") = ascii "done" := by decide
  have plain : ∀ byte ∈ ascii "done", byte < 128 := @of_decide_eq_true _ (List.decidableBAll _ _) rfl
  rw [jobStatus, done, trimmed, letters.ascii (ascii "done") plain]
  decide

theorem pollMember_clean_iff (object : item.isObject = true)
    (pending : ¬(outcome answer item).Pending letters)
    (failing : ¬(outcome answer item).Failing letters) :
    ((pollMember letters int64 answer item).1.text (ascii "status") = ascii "done" ∧
        jobFailed letters (pollMember letters int64 answer item).1 = false) ↔
      (outcome answer item).CleanDone letters item := by
  cases met : outcome answer item with
  | unasked =>
    rw [met] at failing
    exact absurd trivial failing
  | forbidden =>
    rw [met] at failing
    exact absurd trivial failing
  | unreported =>
    rw [met] at pending
    exact absurd trivial pending
  | reported payload =>
    rw [met] at failing
    have silent : resultError letters payload = [] := by
      by_contra loud
      exact failing (.inr (.inr loud))
    rcases @pollMember_of_reported letters int64 _ _ _ met with ⟨read, undispatched⟩
    have blank : trimSpace [] = [] := by decide
    rw [read, readJob_status object]
    constructor
    · rintro ⟨done, unfailed⟩
      simp only [jobFailed, Bool.or_eq_false_iff, decide_eq_false_iff_not,
        readJob_error silent, readJob_ok object silent] at unfailed
      exact ⟨done, not_not.mp unfailed.1.1.2, unfailed.1.2⟩
    · rintro ⟨done, unspoken, unrefuted⟩
      have finished : jobStatus letters (readJob letters int64 payload item).1 = ascii "done" :=
        jobStatus_of_done ((readJob_status object).trans done)
      refine ⟨done, ?_⟩
      simp only [jobFailed, finished, readJob_dispatchError, undispatched, blank,
        readJob_error silent, unspoken, readJob_ok object silent, unrefuted]
      decide

end Members

/-! ## Polling a run -/

variable (letters) in
def polledMembers (run : TeamRun) : List Tree :=
  match teamMetaOf run.payload with
  | some teamMeta =>
    if runMode letters teamMeta ≠ ascii "async" then [] else teamRunMemberJobsFromMeta teamMeta
  | none => []

def memberJobs (run : TeamRun) : List Tree :=
  match teamMetaOf run.payload with
  | some teamMeta => teamRunMemberJobsFromMeta teamMeta
  | none => []

def dispatchErrors (run : TeamRun) : Nat :=
  match teamMetaOf run.payload with
  | some teamMeta => teamRunDispatchErrorCount teamMeta
  | none => 0

variable (letters) in
def failedJobs (run : TeamRun) : Nat :=
  match (teamMetaOf run.payload).bind (teamRunMemberJobSummary letters) with
  | some summary => summary.failed
  | none => 0

theorem failedJobs_eq (run : TeamRun) :
    failedJobs letters run = (memberJobs run).countP (jobFailed letters) := by
  rw [failedJobs, memberJobs]
  cases teamMetaOf run.payload with
  | none => rfl
  | some teamMeta =>
    simp only [Option.bind_some, teamRunMemberJobSummary]
    split
    · next summary found =>
      split at found
      · cases found
      · cases found
        rfl
    · next found =>
      split at found
      · next empty =>
        rw [empty]
        rfl
      · cases found

variable (letters int64) in
def polledOf (answers : Nat → JobAnswer) (items : List Tree) : List (Tree × Flags) :=
  items.mapIdx fun index item => pollMember letters int64 (answers index) item

variable {answers : Nat → JobAnswer} {items : List Tree}

theorem mem_polledOf {member : Tree × Flags} :
    member ∈ polledOf letters int64 answers items ↔ ∃ index item, items[index]? = some item ∧
      pollMember letters int64 (answers index) item = member := by
  rw [polledOf, List.mem_mapIdx]
  constructor
  · rintro ⟨index, bound, same⟩
    exact ⟨index, items[index], List.getElem?_eq_getElem bound, same⟩
  · rintro ⟨index, item, found, same⟩
    rcases List.getElem?_eq_some_iff.mp found with ⟨bound, here⟩
    exact ⟨index, bound, by rw [here]; exact same⟩

theorem any_polledOf {flag : Tree × Flags → Bool} :
    (polledOf letters int64 answers items).any flag = true ↔
      ∃ index item, items[index]? = some item ∧
        flag (pollMember letters int64 (answers index) item) = true := by
  rw [List.any_eq_true]
  constructor
  · rintro ⟨member, there, set⟩
    rcases mem_polledOf.mp there with ⟨index, item, found, rfl⟩
    exact ⟨index, item, found, set⟩
  · rintro ⟨index, item, found, set⟩
    exact ⟨_, mem_polledOf.mpr ⟨index, item, found, rfl⟩, set⟩

theorem forall_polledOf {holds : Tree → Prop} :
    (∀ entry ∈ (polledOf letters int64 answers items).map Prod.fst, holds entry) ↔
      ∀ index item, items[index]? = some item →
        holds (pollMember letters int64 (answers index) item).1 := by
  constructor
  · intro all index item there
    apply all
    exact List.mem_map.mpr ⟨_, mem_polledOf.mpr ⟨index, item, there, rfl⟩, rfl⟩
  · intro all entry member
    rcases List.mem_map.mp member with ⟨polled, there, rfl⟩
    rcases mem_polledOf.mp there with ⟨index, item, here, rfl⟩
    exact all index item here

theorem map_polledOf_of_unchanged
    (quiet : ¬(polledOf letters int64 answers items).any (fun member => member.2.changed)) :
    (polledOf letters int64 answers items).map Prod.fst = items := by
  apply List.ext_getElem?
  intro index
  rw [polledOf, List.getElem?_map, List.getElem?_mapIdx]
  cases found : items[index]? with
  | none => rfl
  | some item =>
    simp only [Option.map_some, Option.some.injEq]
    apply pollMember_eq_of_unchanged
    by_contra changed
    exact quiet (any_polledOf.mpr ⟨index, item, found, Bool.not_eq_false _ ▸ changed⟩)

theorem pollTeamRun_cases (run : TeamRun) (answers : Nat → JobAnswer) :
    polledMembers letters run = [] ∧ pollTeamRun letters int64 run answers = run ∨
      polledMembers letters run ≠ [] ∧ ∃ teamMeta, teamMetaOf run.payload = some teamMeta ∧
        polledMembers letters run = teamRunMemberJobsFromMeta teamMeta ∧
        (pollTeamRun letters int64 run answers).status =
          overallStatus teamMeta (polledOf letters int64 answers (polledMembers letters run)) ∧
        memberJobs (pollTeamRun letters int64 run answers) =
          (polledOf letters int64 answers (polledMembers letters run)).map Prod.fst := by
  rw [polledMembers, pollTeamRun]
  cases found : teamMetaOf run.payload with
  | none => exact .inl ⟨rfl, rfl⟩
  | some teamMeta =>
    simp only
    split
    · exact .inl ⟨rfl, rfl⟩
    · rw [reconcileTeamRunJobs]
      by_cases empty : teamRunMemberJobsFromMeta teamMeta = []
      · simp only [empty, if_true]
        exact .inl ⟨trivial, trivial⟩
      · simp only [empty, if_false]
        refine .inr ⟨empty, teamMeta, rfl, rfl, rfl, ?_⟩
        have objects := Tree.isObject_of_objectMember found
        split
        · next updated stored =>
          split at stored
          · cases stored
            have kept : ∀ entry ∈ (polledOf letters int64 answers
                (teamRunMemberJobsFromMeta teamMeta)).map Prod.fst, entry.isObject = true := by
              rw [forall_polledOf]
              intro index item here
              exact isObject_pollMember (isObject_of_mem_objects (List.mem_of_getElem? here))
            rw [memberJobs, teamMetaOf, Tree.objectMember_setMember objects.1
              (Tree.isObject_setMember.trans objects.2)]
            simp only [teamRunMemberJobsFromMeta, Tree.member_setMember objects.2]
            exact List.filter_eq_self.mpr kept
          · cases stored
        · next stored =>
          split at stored
          · cases stored
          · next quiet =>
            rw [memberJobs, found]
            exact (map_polledOf_of_unchanged quiet).symm

/-! ## Stable and honest polls -/

def Ended (status : Bytes) : Prop :=
  status ∈ [ascii "succeeded", ascii "failed", ascii "cancelled"]

def Underway (status : Bytes) : Prop :=
  status ∈ [ascii "running", ascii "cancelling"]

instance (status : Bytes) : Decidable (Ended status) :=
  inferInstanceAs (Decidable (status ∈ _))

instance (status : Bytes) : Decidable (Underway status) :=
  inferInstanceAs (Decidable (status ∈ _))

theorem not_underway_of_ended {status : Bytes} (ended : Ended status) : ¬Underway status := by
  simp only [Ended, List.mem_cons, List.not_mem_nil, or_false] at ended
  rcases ended with rfl | rfl | rfl <;> decide

variable (letters) in
/-- When the run succeeded, all its jobs are done and none is counted as failed. -/
def Honest (run : TeamRun) : Prop :=
  run.status = ascii "succeeded" →
    (∀ item ∈ memberJobs run, item.text (ascii "status") = ascii "done") ∧
      failedJobs letters run = 0

variable (letters) in
/-- In a run that ended no member is pending; and when no member is pending,
fails or was cancelled, each is done and its entry says nothing else. -/
structure PollsClean (run : TeamRun) (answers : Nat → JobAnswer) : Prop where
  stays : Ended run.status → ∀ index item, (polledMembers letters run)[index]? = some item →
    ¬(outcome (answers index) item).Pending letters
  ends : dispatchErrors run = 0 →
    (∀ index item, (polledMembers letters run)[index]? = some item →
      ¬(outcome (answers index) item).Pending letters ∧
        ¬(outcome (answers index) item).Failing letters ∧
          ¬(outcome (answers index) item).Cancelled letters) →
    ∀ index item, (polledMembers letters run)[index]? = some item →
      (outcome (answers index) item).CleanDone letters item

section Overall

variable {teamMeta : Tree} {answers : Nat → JobAnswer} {items : List Tree}

theorem underway_overall_iff :
    Underway (overallStatus teamMeta (polledOf letters int64 answers items)) ↔
      ∃ index item, items[index]? = some item ∧ (outcome (answers index) item).Pending letters := by
  have running : ((polledOf letters int64 answers items).any fun member => member.2.running) =
      true ↔ ∃ index item, items[index]? = some item ∧
        (outcome (answers index) item).Pending letters := by
    rw [any_polledOf]
    simp only [(pollMember_flags _ _).1]
  rw [← running, overallStatus]
  split
  · next some =>
    refine ⟨fun _ => some, fun _ => ?_⟩
    split <;> decide
  · next none =>
    refine ⟨fun underway => ?_, fun some => absurd some none⟩
    exfalso
    revert underway
    split
    · decide
    · split <;> decide

theorem overall_succeeded_iff :
    overallStatus teamMeta (polledOf letters int64 answers items) = ascii "succeeded" ↔
      teamRunDispatchErrorCount teamMeta = 0 ∧ ∀ index item, items[index]? = some item →
          ¬(outcome (answers index) item).Pending letters ∧
            ¬(outcome (answers index) item).Failing letters ∧
              ¬(outcome (answers index) item).Cancelled letters := by
  have flags : ∀ (flag : Flags → Bool) (met : Nat → Tree → Prop),
      (∀ index item, flag (pollMember letters int64 (answers index) item).2 = true ↔
        met index item) →
      (¬(polledOf letters int64 answers items).any (fun member => flag member.2) = true ↔
        ∀ index item, items[index]? = some item → ¬met index item) := by
    intro flag met same
    rw [any_polledOf]
    constructor
    · intro none index item found holds
      exact none ⟨index, item, found, (same index item).mpr holds⟩
    · rintro none ⟨index, item, found, set⟩
      exact none index item found ((same index item).mp set)
  have running := flags Flags.running _ fun index item => (pollMember_flags (answers index) item).1
  have failed := flags Flags.failed _ fun index item =>
    (pollMember_flags (answers index) item).2.1
  have cancelled := flags Flags.cancelled _ fun index item =>
    (pollMember_flags (answers index) item).2.2
  rw [overallStatus]
  constructor
  · intro succeeded
    split at succeeded
    · split at succeeded <;> exact absurd succeeded (by decide)
    next notRunning =>
    split at succeeded
    · exact absurd succeeded (by decide)
    next notFailed =>
    split at succeeded
    · exact absurd succeeded (by decide)
    next notCancelled =>
    rw [not_or] at notFailed
    refine ⟨by omega, fun index item found => ?_⟩
    exact ⟨running.mp notRunning index item found, failed.mp notFailed.1 index item found,
      cancelled.mp notCancelled index item found⟩
  · rintro ⟨undispatched, settled⟩
    rw [if_neg, if_neg, if_neg]
    · exact cancelled.mpr fun index item found => (settled index item found).2.2
    · rw [not_or]
      exact ⟨failed.mpr fun index item found => (settled index item found).2.1, by omega⟩
    · exact running.mpr fun index item found => (settled index item found).1

theorem overall_ended_or_underway :
    Ended (overallStatus teamMeta (polledOf letters int64 answers items)) ∨
      Underway (overallStatus teamMeta (polledOf letters int64 answers items)) := by
  rw [overallStatus]
  split
  · split
    · exact .inr (by decide)
    · exact .inr (by decide)
  · split
    · exact .inl (by decide)
    · split
      · exact .inl (by decide)
      · exact .inl (by decide)

end Overall

/-- A poll of an honest run keeps it honest and does not reopen it exactly when
it is clean. -/
theorem pollTeamRun_iff {run : TeamRun} {answers : Nat → JobAnswer} (honest : Honest letters run) :
    (Honest letters (pollTeamRun letters int64 run answers) ∧
        (Ended run.status → ¬Underway (pollTeamRun letters int64 run answers).status)) ↔
      PollsClean letters run answers := by
  rcases @pollTeamRun_cases letters int64 run answers with
    ⟨empty, same⟩ | ⟨_, teamMeta, found, items, status, jobs⟩
  · rw [same]
    constructor
    · intro _
      refine ⟨?_, ?_⟩
      · intro _ index item there
        rw [empty] at there
        cases there
      · intro _ _ index item there
        rw [empty] at there
        cases there
    · intro _
      refine ⟨honest, ?_⟩
      exact not_underway_of_ended
  · have errors : dispatchErrors run = teamRunDispatchErrorCount teamMeta := by
      rw [dispatchErrors, found]
    have clean : ∀ {index item}, (polledMembers letters run)[index]? = some item →
        ¬(outcome (answers index) item).Pending letters →
        ¬(outcome (answers index) item).Failing letters →
        (((pollMember letters int64 (answers index) item).1.text (ascii "status") = ascii "done" ∧
          jobFailed letters (pollMember letters int64 (answers index) item).1 = false) ↔
          (outcome (answers index) item).CleanDone letters item) := by
      intro index item there
      have member := List.mem_of_getElem? there
      rw [items] at member
      exact pollMember_clean_iff (isObject_of_mem_objects member)
    have stable : (Ended run.status → ¬Underway (pollTeamRun letters int64 run answers).status) ↔
        (Ended run.status → ∀ index item, (polledMembers letters run)[index]? = some item →
          ¬(outcome (answers index) item).Pending letters) := by
      rw [status, underway_overall_iff]
      simp only [not_exists, not_and]
    rw [stable]
    have done : (∀ item ∈ memberJobs (pollTeamRun letters int64 run answers),
        item.text (ascii "status") = ascii "done") ↔
          ∀ index item, (polledMembers letters run)[index]? = some item →
            (pollMember letters int64 (answers index) item).1.text (ascii "status") =
              ascii "done" := by
      rw [jobs, forall_polledOf]
    have unfailed : failedJobs letters (pollTeamRun letters int64 run answers) = 0 ↔
        ∀ index item, (polledMembers letters run)[index]? = some item →
          jobFailed letters (pollMember letters int64 (answers index) item).1 = false := by
      rw [failedJobs_eq, List.countP_eq_zero, jobs, forall_polledOf]
      simp only [Bool.not_eq_true]
    constructor
    · rintro ⟨honestAfter, stays⟩
      refine ⟨stays, ?_⟩
      intro undispatched settled index item there
      rw [errors] at undispatched
      have succeeded := honestAfter (status.trans (overall_succeeded_iff.mpr ⟨undispatched, settled⟩))
      have quiet := settled index item there
      apply (clean there quiet.1 quiet.2.1).mp
      exact ⟨done.mp succeeded.1 index item there, unfailed.mp succeeded.2 index item there⟩
    · rintro ⟨stays, ends⟩
      refine ⟨?_, stays⟩
      intro succeeded
      rw [status, overall_succeeded_iff] at succeeded
      have ended : ∀ index item, (polledMembers letters run)[index]? = some item →
          (pollMember letters int64 (answers index) item).1.text (ascii "status") = ascii "done" ∧
            jobFailed letters (pollMember letters int64 (answers index) item).1 = false := by
        intro index item there
        have quiet := succeeded.2 index item there
        apply (clean there quiet.1 quiet.2.1).mpr
        exact ends (errors.trans succeeded.1) succeeded.2 index item there
      exact ⟨done.mpr fun index item there => (ended index item there).1,
        unfailed.mpr fun index item there => (ended index item there).2⟩

variable (letters int64) in
def pollAll (run : TeamRun) (polls : List (Nat → JobAnswer)) : TeamRun :=
  polls.foldl (pollTeamRun letters int64) run

theorem pollAll_concat (run : TeamRun) (polls : List (Nat → JobAnswer))
    (answers : Nat → JobAnswer) : pollAll letters int64 run (polls ++ [answers]) =
      pollTeamRun letters int64 (pollAll letters int64 run polls) answers :=
  List.foldl_concat ..

theorem ended_of_not_underway {run : TeamRun} (ended : Ended run.status)
    (stable : ¬Underway (pollTeamRun letters int64 run answers).status) :
    Ended (pollTeamRun letters int64 run answers).status := by
  rcases @pollTeamRun_cases letters int64 run answers with
    ⟨_, same⟩ | ⟨_, teamMeta, _, _, status, _⟩
  · rw [same]
    exact ended
  · rw [status] at stable ⊢
    exact overall_ended_or_underway.resolve_right stable

/-- Along a sequence of polls from an honest run, the run stays honest and is
never reopened once it ended, exactly when every poll is clean. -/
theorem team_run_status_iff (letters : LowerCase) (int64 : Int64Of) (first : TeamRun)
    (honest : Honest letters first) (polls : List (Nat → JobAnswer)) :
    ((∀ reached, reached <+: polls → Honest letters (pollAll letters int64 first reached)) ∧
        ∀ shorter longer, shorter <+: longer → longer <+: polls →
          Ended (pollAll letters int64 first shorter).status →
            ¬Underway (pollAll letters int64 first longer).status) ↔
      ∀ reached answers, reached ++ [answers] <+: polls →
        PollsClean letters (pollAll letters int64 first reached) answers := by
  constructor
  · rintro ⟨stays, stable⟩ reached answers within
    have front : reached <+: polls := (List.prefix_append ..).trans within
    rw [← @pollTeamRun_iff letters int64 _ _ (stays reached front), ← pollAll_concat]
    exact ⟨stays _ within, stable reached _ (List.prefix_append ..) within⟩
  · intro clean
    have stays : ∀ reached, reached <+: polls →
        Honest letters (pollAll letters int64 first reached) := by
      intro reached
      induction reached using List.reverseRecOn with
      | nil => exact fun _ => honest
      | append_singleton reached answers induction =>
        intro within
        have before := induction ((List.prefix_append ..).trans within)
        rw [pollAll_concat]
        exact ((pollTeamRun_iff before).mpr (clean reached answers within)).1
    have ended : ∀ shorter later, shorter ++ later <+: polls →
        Ended (pollAll letters int64 first shorter).status →
          Ended (pollAll letters int64 first (shorter ++ later)).status := by
      intro shorter later
      induction later using List.reverseRecOn with
      | nil =>
        intro _ ended
        rw [List.append_nil]
        exact ended
      | append_singleton later answers induction =>
        intro within start
        rw [← List.append_assoc] at within ⊢
        have front : shorter ++ later <+: polls := (List.prefix_append ..).trans within
        have before := induction front start
        rw [pollAll_concat]
        apply ended_of_not_underway before
        exact ((pollTeamRun_iff (stays _ front)).mpr (clean _ answers within)).2 before
    refine ⟨stays, ?_⟩
    rintro shorter longer ⟨later, rfl⟩ within start
    exact not_underway_of_ended (ended shorter later within start)

/-! ## A run with one member -/

def sampleRun : TeamRun where
  status := ascii "running"
  payload := .object [(ascii "team", .object [
    (ascii "member_jobs", .array [.object [
      (ascii "agent_id", .string (ascii "a1")), (ascii "job_id", .string (ascii "j1")),
      (ascii "status", .string (ascii "queued"))]]),
    (ascii "mode", .string (ascii "async"))])]

def answersWith (status : Bytes) : Nat → JobAnswer :=
  fun _ => { body := some (.object [(ascii "status", .string status)]) }

def answersLost : Nat → JobAnswer :=
  fun _ => { brokerStatus := 502, err := ascii "agent not connected" }

/-- A status that the broker does not know ends the run as a success, and a lost
connection reopens it. -/
theorem team_run_status_fails :
    Honest .asciiOnly sampleRun ∧
      ¬Honest .asciiOnly (pollAll .asciiOnly (fun _ => 0) sampleRun
        [answersWith (ascii "paused")]) ∧
      Ended (pollAll .asciiOnly (fun _ => 0) sampleRun [answersWith (ascii "done")]).status ∧
      Underway (pollAll .asciiOnly (fun _ => 0) sampleRun
        [answersWith (ascii "done"), answersLost]).status := by
  refine ⟨?_, ?_, by decide, by decide⟩
  · intro succeeded
    exact absurd succeeded (by decide)
  · intro honest
    have done := (honest (by decide)).1
    have all : (memberJobs (pollAll .asciiOnly (fun _ => 0) sampleRun
        [answersWith (ascii "paused")])).all
          (fun item => item.text (ascii "status") = ascii "done") = true :=
      List.all_eq_true.mpr fun item member => decide_eq_true (done item member)
    exact absurd all (by decide)

/-- The agent says that the job is done. -/
theorem team_run_status_iff_sample :
    Honest .asciiOnly (pollAll .asciiOnly (fun _ => 0) sampleRun [answersWith (ascii "done")]) := by
  have honest : Honest .asciiOnly sampleRun := by
    intro succeeded
    exact absurd succeeded (by decide)
  have clean : PollsClean .asciiOnly sampleRun (answersWith (ascii "done")) := by
    refine ⟨fun ended => absurd ended (by decide), ?_⟩
    intro _ _ index item found
    match index, found with
    | 0, rfl => exact ⟨by decide, by decide, by decide⟩
  apply ((team_run_status_iff .asciiOnly (fun _ => 0) sampleRun honest _).mpr _).1 _
    (List.prefix_refl _)
  intro reached answers within
  cases reached with
  | nil =>
    rw [List.nil_append, List.cons_prefix_cons] at within
    rw [within.1]
    exact clean
  | cons =>
    have long := within.length_le
    simp at long

end AgentC.Broker.TeamRuns
